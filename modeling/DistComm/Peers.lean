import DistComm.Interface
import DistComm.Transition

/-! # The peer table and the discovery loop

    `module/network/peer.c` and the loop of `module/network/discovery.c`.  An
    operation is `none` where the code would use a slot outside of the array of
    peers, or an interface that is not there.

    `Answered` says what a round of the loop makes of the table, whatever was
    received: it refuses, and leaves the peers alone, or adds a peer behind the
    others, or replaces the list of one (`PeerTable.WellFormed.answer`).  So the
    table stays well formed, and the loop never faults
    (`PeerTable.WellFormed.run`). -/

namespace DistComm

open RawMemory RawScan PointerArray Transition

/-- `MAX_PEERS`. -/
def MAX_PEERS : Nat := 256

/-- `EINVALIDPEERID`. -/
def EINVALIDPEERID : Int := 10000

/-- `MAX_BUFFER_SIZE` of `network/discovery.h`. -/
def MAX_BUFFER_SIZE : Nat := 65536

/-- `peer_t`, without its device.  `interfaces` is NULL or an array of pointers to
    decoded interfaces. -/
structure Peer where
  id : Nat
  name : Option CString
  addr : UInt32
  interfaces : Option (List Advert)
  interfaceCount : Int32
  deriving DecidableEq

/-- A zeroed slot. -/
def Peer.zero : Peer := ⟨0, none, 0, none, 0⟩

/-- The globals of `network/peer.c`, and the minors of the devices that were
    registered for peers. -/
structure PeerTable where
  peers : Option (List Peer)
  peerCount : Nat
  devices : List Nat

/-- The globals as the module is loaded. -/
def PeerTable.initial : PeerTable := ⟨none, 0, []⟩

/-- `peers[i]`, inside the array. -/
def PeerTable.slot (t : PeerTable) (i : Nat) : Option Peer :=
  t.peers.bind fun slots => slots[i]?

/-- Assignment to fields of `peers[i]`, inside the array. -/
def PeerTable.assign (t : PeerTable) (i : Nat) (p : Peer) : Option PeerTable :=
  t.peers.bind fun slots =>
    if i < slots.length then some { t with peers := some (slots.set i p) }
    else none

/-! ## Operations -/

/-- `init_peers`. -/
def initPeers (t : PeerTable) : PeerTable :=
  { t with peers := some (List.replicate MAX_PEERS Peer.zero), peerCount := 0 }

/-- `if (peers == NULL) init_peers();` -/
def ensurePeers (t : PeerTable) : PeerTable :=
  match t.peers with
  | none => initPeers t
  | some _ => t

/-- `get_peer`: an index, or nothing for the return value -1. -/
def getPeer (fromAddr : UInt32) (t : PeerTable) :
    Option (Option Nat × PeerTable) :=
  let t := ensurePeers t
  (search t.slot (fun p => p.addr == fromAddr) 0 t.peerCount).map fun found =>
    (found.map Hit.index, t)

/-- `register_peer_device`. -/
def registerPeerDevice (p : Peer) (t : PeerTable) : PeerTable :=
  { t with devices := t.devices ++ [p.id] }

/-- `add_peer`: the index of the new peer, or a negative error. -/
def addPeer (fromAddr : UInt32) (packet : Mem) (packetLength : UInt32)
    (t : PeerTable) : Option (Except Int Nat × PeerTable) :=
  let t := ensurePeers t
  if MAX_PEERS ≤ t.peerCount then some (.error (-EINVALIDPEERID), t)
  else
    match (unserializeInterfacesPacket packetLength packet 0).val with
    | .error err => some (.error err, t)
    | .ok interfaces => do
        let peer ← t.slot t.peerCount
        -- written through the pointers that the decoder was given
        let peer := { peer with
          interfaces := some interfaces
          interfaceCount := (UInt32.ofNat interfaces.length).toInt32 }
        let peer := { peer with id := t.peerCount, name := none, addr := fromAddr }
        let peer := { peer with interfaces := none }
        let t ← t.assign t.peerCount peer
        some (.ok t.peerCount,
          { registerPeerDevice peer t with peerCount := t.peerCount + 1 })

/-- The loop of `free_interfaces`, from index `i` for `n` rounds. -/
def freeEach (interfaces : List Advert) : Nat → Nat → Option Unit
  | _, 0 => some ()
  | i, n + 1 => do
      let _ ← interfaces[i]?
      freeEach interfaces (i + 1) n

/-- `free_interfaces` of an array that nothing else refers to. -/
def freeInterfaces (interfaces : Option (List Advert)) (count : Int32) :
    Option Unit :=
  match interfaces with
  | none => some ()
  | some interfaces => freeEach interfaces 0 count.toInt.toNat

/-- `update_peer_interfaces`: nothing on success, or a negative error. -/
def updatePeerInterfaces (id : Nat) (packet : Mem) (packetLength : UInt32)
    (t : PeerTable) : Option (Except Int Unit × PeerTable) :=
  match t.peers with
  | none => some (.error (-1), t)
  | some _ =>
      if t.peerCount ≤ id then some (.error (-EINVALIDPEERID), t)
      else
        match (unserializeInterfacesPacket packetLength packet 0).val with
        | .error err => some (.error err, t)
        | .ok interfaces => do
            let peer ← t.slot id
            freeInterfaces peer.interfaces peer.interfaceCount
            let t ← t.assign id { peer with
              interfaces := some interfaces
              interfaceCount := (UInt32.ofNat interfaces.length).toInt32 }
            some (.ok (), t)

/-! ## The discovery loop -/

/-- What one `sock_recvfrom` on the discovery socket gets: a datagram, or a
    negative error that leaves buffer and address as they were. -/
inductive Reception where
  | datagram (sender : UInt32) (bytes : List UInt8)
  | failed (err : Int32)

/-- The local variables of `discovery_server_loop`, and the peer table. -/
structure Discovery where
  fromAddr : UInt32
  buffer : Mem
  table : PeerTable

/-- The state in which the loop is entered. -/
def Discovery.initial : Discovery := ⟨0, fun _ => 0, PeerTable.initial⟩

/-- `sock_recvfrom(…, &from_addr, buffer, MAX_BUFFER_SIZE)`: its result, and the
    variables it leaves. -/
def Discovery.receive (s : Discovery) : Reception → Int32 × Discovery
  | .datagram sender bytes =>
      let data := bytes.take MAX_BUFFER_SIZE
      (Int32.ofNat data.length,
        { s with fromAddr := sender, buffer := store data s.buffer })
  | .failed err => (err, s)

/-- One round of `discovery_server_loop`. -/
def discoveryServerLoop (s : Discovery) (r : Reception) : Option Discovery := do
  let (size, s) := s.receive r
  let (id, table) ← getPeer s.fromAddr s.table
  match id with
  | none => do
      let (_, table) ← addPeer s.fromAddr s.buffer size.toUInt32 table
      some { s with table }
  | some id => do
      let (_, table) ← updatePeerInterfaces id s.buffer size.toUInt32 table
      some { s with table }

/-! ## The peers in use -/

/-- The peers in use. -/
def PeerTable.live (t : PeerTable) : List Peer :=
  (t.peers.getD []).take t.peerCount

theorem PeerTable.live_of_some {t : PeerTable} {slots : List Peer}
    (h : t.peers = some slots) : t.live = slots.take t.peerCount := by
  rw [PeerTable.live, h]
  rfl

/-- The slots below the count are the peers in use. -/
theorem PeerTable.slot_eq_live {t : PeerTable} {i : Nat}
    (hi : i < t.peerCount) : t.slot i = t.live[i]? := by
  rw [PeerTable.slot, PeerTable.live]
  cases t.peers with
  | none => simp
  | some slots => exact (List.getElem?_take_of_lt hi).symm

/-! ## What a round answers -/

/-- What `add_peer` or `update_peer_interfaces` answers in a round, and the table
    it leaves. -/
def Discovery.answer (s : Discovery) (r : Reception) :
    Option (Except Int Unit × PeerTable) := do
  let (size, s) := s.receive r
  let (id, table) ← getPeer s.fromAddr s.table
  match id with
  | none => do
      let (answer, table) ← addPeer s.fromAddr s.buffer size.toUInt32 table
      some (answer.map fun _ => (), table)
  | some id => updatePeerInterfaces id s.buffer size.toUInt32 table

/-- A round leaves the table of its answer. -/
theorem discoveryServerLoop_answer (s : Discovery) (r : Reception) :
    discoveryServerLoop s r
      = (s.answer r).map fun a => { (s.receive r).2 with table := a.2 } := by
  rw [discoveryServerLoop, Discovery.answer]
  generalize s.receive r = received
  obtain ⟨size, s1⟩ := received
  show (getPeer s1.fromAddr s1.table).bind _
    = ((getPeer s1.fromAddr s1.table).bind _).map _
  cases getPeer s1.fromAddr s1.table with
  | none => rfl
  | some found =>
      obtain ⟨id, table⟩ := found
      cases id with
      | none =>
          show (addPeer _ _ _ _).bind _ = ((addPeer _ _ _ _).bind _).map _
          cases addPeer s1.fromAddr s1.buffer size.toUInt32 table with
          | none => rfl
          | some added => rfl
      | some id =>
          show (updatePeerInterfaces _ _ _ _).bind _
            = (updatePeerInterfaces _ _ _ _).map _
          cases updatePeerInterfaces id s1.buffer size.toUInt32 table with
          | none => rfl
          | some updated => rfl

/-- `peers[i] = p;` for a slot inside the array. -/
def PeerTable.put (t : PeerTable) (i : Nat) (p : Peer) : PeerTable :=
  { t with peers := t.peers.map fun slots => slots.set i p }

theorem PeerTable.assign_some {t : PeerTable} {slots : List Peer}
    (h : t.peers = some slots) {i : Nat} (hi : i < slots.length) (p : Peer) :
    t.assign i p = some { t with peers := some (slots.set i p) } := by
  rw [PeerTable.assign, h, Option.bind_some, if_pos hi]

theorem PeerTable.assign_put {t : PeerTable} {slots : List Peer}
    (h : t.peers = some slots) {i : Nat} (hi : i < slots.length) (p : Peer) :
    t.assign i p = some (t.put i p) := by
  rw [PeerTable.assign_some h hi, PeerTable.put, h]
  rfl

/-- A peer with a decoded list. -/
def Peer.withList (p : Peer) (interfaces : List Advert) : Peer :=
  { p with
    interfaces := some interfaces
    interfaceCount := (UInt32.ofNat interfaces.length).toInt32 }

/-- What `add_peer` leaves in slot `i`: a count, and no list. -/
def Peer.added (i : Nat) (addr : UInt32) (interfaces : List Advert) : Peer :=
  ⟨i, none, addr, none, (UInt32.ofNat interfaces.length).toInt32⟩

/-- The table with one more peer. -/
def PeerTable.withPeer (t : PeerTable) (addr : UInt32)
    (interfaces : List Advert) : PeerTable :=
  let peer := Peer.added t.peerCount addr interfaces
  { registerPeerDevice peer (t.put t.peerCount peer) with
    peerCount := t.peerCount + 1 }

/-- The address is none of the peers'. -/
def PeerTable.Unknown (t : PeerTable) (addr : UInt32) : Prop :=
  addr ∉ t.live.map Peer.addr

/-- What is answered to what was decoded, for the sender `addr`, and what becomes of
    the table. -/
inductive Answered (t : PeerTable) (addr : UInt32) :
    Except Int (List Advert) → Except Int Unit → PeerTable → Prop where
  | full {decoded : Except Int (List Advert)} (err : Int) :
      t.Unknown addr → MAX_PEERS ≤ t.peerCount →
      Answered t addr decoded (.error err) t
  | rejected (err : Int) : Answered t addr (.error err) (.error err) t
  | added {interfaces : List Advert} :
      t.Unknown addr → t.peerCount < MAX_PEERS →
      Answered t addr (.ok interfaces) (.ok ()) (t.withPeer addr interfaces)
  | updated {interfaces : List Advert} {i : Nat} {p : Peer} :
      t.live[i]? = some p → p.addr = addr →
      Answered t addr (.ok interfaces) (.ok ())
        (t.put i (p.withList interfaces))

/-! ## Well-formed tables -/

/-- What holds of the table whatever was received. -/
structure PeerTable.WellFormed (t : PeerTable) : Prop where
  room : ∀ slots, t.peers = some slots → slots.length = MAX_PEERS
  empty : t.peers = none → t.peerCount = 0
  count : t.peerCount ≤ MAX_PEERS
  ids : t.live.map Peer.id = List.range t.peerCount
  nodup : (t.live.map Peer.addr).Nodup
  freeable : ∀ p ∈ t.live,
    freeInterfaces p.interfaces p.interfaceCount = some ()

theorem wellFormed_initial : PeerTable.initial.WellFormed where
  room _ h := nomatch h
  empty _ := rfl
  count := Nat.zero_le _
  ids := rfl
  nodup := List.nodup_nil
  freeable _ h := nomatch h

theorem PeerTable.WellFormed.length_live {t : PeerTable} (h : t.WellFormed) :
    t.live.length = t.peerCount := by
  have hids := congrArg List.length h.ids
  rwa [List.length_map, List.length_range] at hids

theorem PeerTable.WellFormed.lt_count {t : PeerTable} (h : t.WellFormed) {i : Nat}
    {p : Peer} (hp : t.live[i]? = some p) : i < t.peerCount := by
  rw [← h.length_live]
  exact (List.getElem?_eq_some_iff.mp hp).1

theorem PeerTable.WellFormed.readable {t : PeerTable} (h : t.WellFormed) :
    Readable t.slot t.peerCount := by
  intro i hi
  have hlt : i < t.live.length := by
    rw [h.length_live]
    exact hi
  exact ⟨t.live[i], by rw [t.slot_eq_live hi, List.getElem?_eq_getElem hlt]⟩

/-- The first call allocates the array; no peer appears or changes. -/
theorem PeerTable.WellFormed.ensure {t : PeerTable} (h : t.WellFormed) :
    (ensurePeers t).WellFormed ∧ (∃ slots, (ensurePeers t).peers = some slots)
      ∧ (ensurePeers t).peerCount = t.peerCount ∧ (ensurePeers t).live = t.live := by
  cases hpeers : t.peers with
  | none =>
      have hens : ensurePeers t = initPeers t := by rw [ensurePeers, hpeers]
      have hcount := h.empty hpeers
      have hlive : t.live = [] := by
        rw [PeerTable.live, hpeers, hcount]
        rfl
      rw [hens, hcount, hlive]
      refine ⟨⟨?_, fun h0 => absurd h0 (Option.some_ne_none _), Nat.zero_le _, rfl,
        List.nodup_nil,
        fun _ hp => absurd hp List.not_mem_nil⟩, ⟨_, rfl⟩, rfl, rfl⟩
      intro slots hslots
      cases Option.some.inj hslots
      exact List.length_replicate
  | some slots =>
      have hens : ensurePeers t = t := by rw [ensurePeers, hpeers]
      rw [hens]
      exact ⟨h, ⟨slots, hpeers⟩, rfl, rfl⟩

theorem PeerTable.live_put {t : PeerTable} (i : Nat) (p : Peer) :
    (t.put i p).live = t.live.set i p := by
  cases hpeers : t.peers with
  | none => simp [PeerTable.live, PeerTable.put, hpeers]
  | some slots =>
      rw [PeerTable.live, PeerTable.put, PeerTable.live, hpeers]
      exact List.take_set

/-- What the old and the new peer have in common stays in the table. -/
theorem PeerTable.map_live_put {β : Type} {t : PeerTable} {i : Nat} {p : Peer}
    (hp : t.live[i]? = some p) (q : Peer) (f : Peer → β) (hf : f q = f p) :
    (t.put i q).live.map f = t.live.map f := by
  obtain ⟨hlt, heq⟩ := List.getElem?_eq_some_iff.mp hp
  rw [PeerTable.live_put, List.map_set, hf, ← heq, ← List.getElem_map f
    (h := by rw [List.length_map]; exact hlt)]
  exact List.set_getElem_self _

/-- A new peer stands behind the others. -/
theorem PeerTable.live_withPeer {t : PeerTable} {slots : List Peer}
    (hslots : t.peers = some slots) (hlen : slots.length = MAX_PEERS)
    (hroom : t.peerCount < MAX_PEERS) (addr : UInt32)
    (interfaces : List Advert) :
    (t.withPeer addr interfaces).live
      = t.live ++ [Peer.added t.peerCount addr interfaces] := by
  have hpeers : (t.withPeer addr interfaces).peers
      = some (slots.set t.peerCount (Peer.added t.peerCount addr interfaces)) := by
    show t.peers.map _ = _
    rw [hslots]
    rfl
  rw [PeerTable.live_of_some hpeers, PeerTable.live_of_some hslots]
  show List.take (t.peerCount + 1) _ = _
  rw [List.take_add_one, List.take_set_of_le (Nat.le_refl _)]
  simp [hlen, hroom]

theorem freeEach_ok {interfaces : List Advert} (n i : Nat)
    (h : i + n ≤ interfaces.length) : freeEach interfaces i n = some () := by
  induction n generalizing i with
  | zero => rfl
  | succ n ih =>
      have hi : i < interfaces.length := by omega
      rw [freeEach, List.getElem?_eq_getElem hi, Option.bind_eq_bind,
        Option.bind_some]
      exact ih (i + 1) (by omega)

/-- A decoded list can be freed by its count. -/
theorem freeInterfaces_withList (interfaces : List Advert) :
    freeInterfaces (some interfaces) (UInt32.ofNat interfaces.length).toInt32
      = some () := by
  have hword : (UInt32.ofNat interfaces.length).toNat ≤ interfaces.length := by
    rw [UInt32.toNat_ofNat']
    exact Nat.mod_le _ _
  rw [freeInterfaces, toInt_toInt32]
  refine freeEach_ok _ 0 ?_
  -- the count is an `int`: from 2^31 on it is negative, and nothing is freed
  by_cases hsmall : (UInt32.ofNat interfaces.length).toNat < 2 ^ 31
  · rw [if_pos hsmall]
    omega
  · have hlt := (UInt32.ofNat interfaces.length).toNat_lt
    rw [if_neg hsmall]
    omega

/-- `get_peer` finds the peer with the address, in the slot of its index. -/
theorem PeerTable.WellFormed.getPeer_cases {t : PeerTable} (h : t.WellFormed)
    (addr : UInt32) :
    (getPeer addr t = some (none, ensurePeers t)
        ∧ (ensurePeers t).Unknown addr)
      ∨ ∃ i p, getPeer addr t = some (some i, ensurePeers t)
          ∧ (ensurePeers t).live[i]? = some p ∧ p.addr = addr := by
  obtain ⟨h1, -, -, -⟩ := h.ensure
  have hget : getPeer addr t
      = (search (ensurePeers t).slot (fun p => p.addr == addr) 0
          (ensurePeers t).peerCount).map fun found =>
            (found.map Hit.index, ensurePeers t) := rfl
  generalize ensurePeers t = u at h1 hget ⊢
  rcases h1.readable.search (fun p => p.addr == addr)
    with ⟨hnone, hno⟩ | ⟨⟨i, p⟩, hsome, hfirst, hi⟩
  · refine Or.inl ⟨by rw [hget, hnone]; rfl, fun hmem => ?_⟩
    -- a peer with the address would have been found in its slot
    obtain ⟨p, hp, haddr⟩ := List.mem_map.mp hmem
    obtain ⟨i, hi⟩ := List.mem_iff_getElem?.mp hp
    have hlt := h1.lt_count hi
    exact hno.ne hlt (by rw [u.slot_eq_live hlt, hi]) haddr
  · refine Or.inr ⟨i, p, by rw [hget, hsome]; rfl, ?_, eq_of_beq hfirst.sat⟩
    rw [← u.slot_eq_live hi]
    exact hfirst.get_index

/-- `add_peer` of an address that no peer has. -/
theorem PeerTable.WellFormed.addPeer_answered {t : PeerTable} (h : t.WellFormed)
    {slots : List Peer} (hslots : t.peers = some slots) {addr : UInt32}
    (hnew : t.Unknown addr) (packet : Mem) (packetLength : UInt32) :
    ∃ answer t', addPeer addr packet packetLength t = some (answer, t')
      ∧ Answered t addr (unserializeInterfacesPacket packetLength packet 0).val
          (answer.map fun _ => ()) t' := by
  have hens : ensurePeers t = t := by rw [ensurePeers, hslots]
  have hlen := h.room slots hslots
  rw [addPeer, hens]
  by_cases hfull : MAX_PEERS ≤ t.peerCount
  · rw [if_pos hfull]
    exact ⟨_, _, rfl, .full _ hnew hfull⟩
  · rw [if_neg hfull]
    have hroom := Nat.lt_of_not_le hfull
    cases hdec : (unserializeInterfacesPacket packetLength packet 0).val with
    | error err => exact ⟨_, _, rfl, .rejected err⟩
    | ok interfaces =>
        have hslot : t.slot t.peerCount = some slots[t.peerCount] := by
          rw [PeerTable.slot, hslots]
          exact List.getElem?_eq_getElem (by omega)
        refine ⟨.ok t.peerCount, t.withPeer addr interfaces, ?_, .added hnew hroom⟩
        simp only [hslot, Option.bind_eq_bind, Option.bind_some]
        rw [PeerTable.assign_put hslots (by omega)]
        rfl

/-- `update_peer_interfaces` of the peer in slot `i`, whose list can be freed. -/
theorem PeerTable.WellFormed.updatePeerInterfaces_answered {t : PeerTable}
    (h : t.WellFormed) {slots : List Peer} (hslots : t.peers = some slots) {i : Nat}
    {p : Peer} (hp : t.live[i]? = some p) (packet : Mem) (packetLength : UInt32) :
    ∃ answer t', updatePeerInterfaces i packet packetLength t = some (answer, t')
      ∧ Answered t p.addr
          (unserializeInterfacesPacket packetLength packet 0).val answer t' := by
  have hi := h.lt_count hp
  have hin : i < slots.length := by
    rw [h.room slots hslots]
    exact Nat.lt_of_lt_of_le hi h.count
  have hslot : t.slot i = some p := by
    rw [t.slot_eq_live hi, hp]
  rw [updatePeerInterfaces, hslots]
  simp only [if_neg (Nat.not_le.mpr hi)]
  cases hdec : (unserializeInterfacesPacket packetLength packet 0).val with
  | error err => exact ⟨_, _, rfl, .rejected err⟩
  | ok interfaces =>
      refine ⟨.ok (), t.put i (p.withList interfaces), ?_, .updated hp rfl⟩
      simp only [hslot, Option.bind_eq_bind, Option.bind_some,
        h.freeable p (List.mem_of_getElem? hp)]
      rw [PeerTable.assign_put hslots hin]
      rfl

/-- **EVERY ROUND** on a well-formed table answers to what lies in the buffer. -/
theorem PeerTable.WellFormed.answer {s : Discovery} (h : s.table.WellFormed)
    (r : Reception) :
    ∃ answer t', s.answer r = some (answer, t')
      ∧ Answered (ensurePeers s.table) (s.receive r).2.fromAddr
          (unserializeInterfacesPacket (s.receive r).1.toUInt32
            (s.receive r).2.buffer 0).val answer t' := by
  have htable : (s.receive r).2.table = s.table := by
    cases r with
    | datagram sender bytes => rfl
    | failed err => rfl
  rw [Discovery.answer]
  generalize s.receive r = received at htable ⊢
  obtain ⟨size, s1⟩ := received
  show ∃ answer t', (getPeer s1.fromAddr s1.table).bind _ = _ ∧ _
  rw [show s1.table = s.table from htable]
  obtain ⟨h1, ⟨slots, hslots⟩, -, -⟩ := h.ensure
  rcases h.getPeer_cases s1.fromAddr with ⟨hget, hnew⟩ | ⟨i, p, hget, hp, haddr⟩
  · obtain ⟨answer, t', hadd, ha⟩ :=
      h1.addPeer_answered hslots hnew s1.buffer size.toUInt32
    refine ⟨_, t', ?_, ha⟩
    rw [hget]
    show (addPeer _ _ _ _).bind _ = _
    rw [hadd]
    rfl
  · obtain ⟨answer, t', hupdate, ha⟩ :=
      h1.updatePeerInterfaces_answered hslots hp s1.buffer size.toUInt32
    rw [haddr] at ha
    refine ⟨answer, t', ?_, ha⟩
    rw [hget]
    exact hupdate

/-! ## Runs -/

/-- In a list of peers with different addresses the address identifies the
    slot. -/
theorem mem_set_peer {ps : List Peer} (hnodup : (ps.map Peer.addr).Nodup)
    {i : Nat} {p q r : Peer} (hi : ps[i]? = some p) (hq : q ∈ ps.set i r) :
    q = r ∨ q ∈ ps ∧ q.addr ≠ p.addr := by
  obtain ⟨j, hj⟩ := List.mem_iff_getElem?.mp hq
  by_cases hij : i = j
  · left
    rw [← hij, List.getElem?_set_self'] at hj
    rw [hi] at hj
    exact (Option.some.inj hj).symm
  · right
    rw [List.getElem?_set_ne hij] at hj
    refine ⟨List.mem_of_getElem? hj, fun heq => hij ?_⟩
    have hi' : (ps.map Peer.addr)[i]? = some p.addr := by
      rw [List.getElem?_map, hi]
      rfl
    have hj' : (ps.map Peer.addr)[j]? = some p.addr := by
      rw [List.getElem?_map, hj, ← heq]
      rfl
    have hlt := (List.getElem?_eq_some_iff.mp hi').1
    exact (List.getElem?_inj hlt hnodup).mp (hi'.trans hj'.symm)

theorem PeerTable.WellFormed.withPeer {t : PeerTable} (h : t.WellFormed)
    {slots : List Peer} (hslots : t.peers = some slots) {addr : UInt32}
    (hnew : t.Unknown addr) (hroom : t.peerCount < MAX_PEERS)
    (interfaces : List Advert) : (t.withPeer addr interfaces).WellFormed := by
  have hlen := h.room slots hslots
  have hlive := PeerTable.live_withPeer hslots hlen hroom addr interfaces
  refine ⟨?_, ?_, hroom, ?_, ?_, ?_⟩
  · intro slots' hslots'
    rw [PeerTable.withPeer, registerPeerDevice, PeerTable.put, hslots] at hslots'
    cases Option.some.inj hslots'
    rw [List.length_set, hlen]
  · intro hnone
    rw [PeerTable.withPeer, registerPeerDevice, PeerTable.put, hslots] at hnone
    exact nomatch hnone
  · rw [hlive, List.map_append, h.ids]
    exact List.range_succ.symm
  · rw [hlive, List.map_append, List.nodup_append]
    refine ⟨h.nodup, List.nodup_singleton _, ?_⟩
    intro a ha b hb heq
    rw [List.mem_singleton.mp hb] at heq
    rw [heq] at ha
    exact hnew ha
  · intro p hp
    rw [hlive] at hp
    rcases List.mem_append.mp hp with hold | hlast
    · exact h.freeable p hold
    · -- NULL is freed whatever the count says
      rw [List.mem_singleton.mp hlast]
      rfl

theorem PeerTable.WellFormed.put {t : PeerTable} (h : t.WellFormed) {i : Nat}
    {p : Peer} (hp : t.live[i]? = some p) (interfaces : List Advert) :
    (t.put i (p.withList interfaces)).WellFormed := by
  refine ⟨?_, ?_, h.count, ?_, ?_, ?_⟩
  · intro slots' hslots'
    obtain ⟨slots, hslots, heq⟩ := Option.map_eq_some_iff.mp hslots'
    rw [← heq, List.length_set]
    exact h.room slots hslots
  · intro hnone
    exact h.empty (Option.map_eq_none_iff.mp hnone)
  · rw [PeerTable.map_live_put hp (p.withList interfaces) Peer.id rfl]
    exact h.ids
  · rw [PeerTable.map_live_put hp (p.withList interfaces) Peer.addr rfl]
    exact h.nodup
  · intro q hq
    rw [PeerTable.live_put] at hq
    rcases mem_set_peer h.nodup hp hq with hnew | ⟨hold, -⟩
    · rw [hnew]
      exact freeInterfaces_withList interfaces
    · exact h.freeable q hold

/-- The peers of `t` are there in `t'`, in their slots, with their ids and
    addresses. -/
def PeerTable.KeptIn (t t' : PeerTable) : Prop :=
  ∀ (i : Nat) (p : Peer), t.live[i]? = some p →
    ∃ q : Peer, t'.live[i]? = some q ∧ q.id = p.id ∧ q.addr = p.addr

theorem PeerTable.KeptIn.trans {t t' t'' : PeerTable} (h : t.KeptIn t')
    (h' : t'.KeptIn t'') : t.KeptIn t'' := by
  intro i p hp
  obtain ⟨q, hq, hid, haddr⟩ := h i p hp
  obtain ⟨r, hr, hid', haddr'⟩ := h' i q hq
  exact ⟨r, hr, hid'.trans hid, haddr'.trans haddr⟩

theorem PeerTable.keptIn_of_live {t t' : PeerTable} (h : t'.live = t.live) :
    t.KeptIn t' := by
  intro i p hp
  rw [h]
  exact ⟨p, hp, rfl, rfl⟩

/-- An answer keeps the table well formed and every peer in it. -/
theorem Answered.keeps {t t' : PeerTable} {addr : UInt32}
    {decoded : Except Int (List Advert)} {answer : Except Int Unit}
    (ha : Answered t addr decoded answer t') (h : t.WellFormed)
    {slots : List Peer} (hslots : t.peers = some slots) :
    t'.WellFormed ∧ t.KeptIn t' := by
  cases ha with
  | full err hnew hfull => exact ⟨h, PeerTable.keptIn_of_live rfl⟩
  | rejected err => exact ⟨h, PeerTable.keptIn_of_live rfl⟩
  | @added interfaces hnew hroom =>
      refine ⟨h.withPeer hslots hnew hroom interfaces, fun i p hp => ?_⟩
      rw [PeerTable.live_withPeer hslots (h.room slots hslots) hroom]
      refine ⟨p, ?_, rfl, rfl⟩
      rw [List.getElem?_append_left (List.getElem?_eq_some_iff.mp hp).1]
      exact hp
  | @updated interfaces i p hp haddr =>
      refine ⟨h.put hp interfaces, fun j q hq => ?_⟩
      rw [PeerTable.live_put]
      -- the slot that was updated, or another one
      by_cases hij : i = j
      · rw [← hij] at hq ⊢
        rw [hp] at hq
        cases Option.some.inj hq
        refine ⟨p.withList interfaces, ?_, rfl, rfl⟩
        rw [List.getElem?_set_self (List.getElem?_eq_some_iff.mp hp).1]
      · refine ⟨q, ?_, rfl, rfl⟩
        rw [List.getElem?_set_ne hij]
        exact hq

/-- **ONE ROUND** does not fault, keeps the table well formed, and keeps every
    peer. -/
theorem PeerTable.WellFormed.round {s : Discovery} (h : s.table.WellFormed)
    (r : Reception) :
    ∃ s', discoveryServerLoop s r = some s' ∧ s'.table.WellFormed
      ∧ s.table.KeptIn s'.table := by
  obtain ⟨answer, t', hanswer, ha⟩ := h.answer r
  obtain ⟨h1, ⟨slots, hslots⟩, -, hlive⟩ := h.ensure
  obtain ⟨h', hkept⟩ := ha.keeps h1 hslots
  refine ⟨{ (s.receive r).2 with table := t' }, ?_, h',
    (PeerTable.keptIn_of_live hlive).trans hkept⟩
  rw [discoveryServerLoop_answer, hanswer]
  rfl

/-- **ALL ROUNDS** likewise. -/
theorem PeerTable.WellFormed.run {s : Discovery} (h : s.table.WellFormed)
    (rs : List Reception) :
    ∃ s', runAll discoveryServerLoop s rs = some s' ∧ s'.table.WellFormed
      ∧ s.table.KeptIn s'.table := by
  induction rs generalizing s with
  | nil => exact ⟨s, rfl, h, PeerTable.keptIn_of_live rfl⟩
  | cons r rs ih =>
      obtain ⟨s1, hround, h1, hkept⟩ := h.round r
      obtain ⟨s2, hrun, h2, hkept'⟩ := ih h1
      refine ⟨s2, ?_, h2, hkept.trans hkept'⟩
      rw [runAll_cons hround, hrun]

end DistComm
