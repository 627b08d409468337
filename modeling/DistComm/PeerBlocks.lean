import DistComm.Receptions
import DistComm.Slab

/-! # The memory of discovery

    `unserialize_interfaces_packet`, `free_interfaces` and the functions of
    `module/network/peer.c` that the discovery loop calls, once more, for the blocks
    that they allocate and free.  The functions of the source have the prefix `Blocks` in
    this view.  Nobody checks an allocation, so the loop crashes where it follows the
    NULL of one that failed; `dropped` is history and influences nothing.

    The list that `add_peer` decodes is dropped at once and never freed, all others are
    freed when the next one takes their place: whatever arrives, the loop frees nothing
    twice and uses nothing that is gone, it holds exactly the current lists and the
    dropped ones, and of these no more than one for each peer (`discovery_blocks`). -/

namespace DistComm

open RawMemory RawScan PointerArray Slab Transition

/-! ## Lists on the heap -/

/-- `sizeof(interface_t)`. -/
def SIZEOF_INTERFACE : Nat := 64

/-- `sizeof(struct peer)`. -/
def SIZEOF_PEER : Nat := 48

/-- An interface that was decoded, and its blocks. -/
structure CachedInterface where
  advert : Advert
  block : Pointer
  argFlags : Pointer
  retFlags : Pointer

/-- A list that was decoded, and its array. -/
structure CachedList where
  array : Pointer
  items : List CachedInterface

/-- One round of the loop of `unserialize_interfaces_packet`, for what it decodes. -/
def Blocks.unserializeInterface (grants : Nat → Nat → Bool) (x : Advert) :
    Prog CachedInterface := do
  let block ← kmalloc grants SIZEOF_INTERFACE
  fill block SIZEOF_INTERFACE
  let argFlags ← kmalloc grants x.argc.toNat
  fill argFlags x.argc.toNat
  let retFlags ← kmalloc grants x.retc.toNat
  fill retFlags x.retc.toNat
  pure ⟨x, block, argFlags, retFlags⟩

/-- The loop of `unserialize_interfaces_packet`. -/
def Blocks.unserializeEach (grants : Nat → Nat → Bool) (array : Pointer) :
    List Advert → Prog (List CachedInterface)
  | [] => pure []
  | x :: xs => do
      let item ← Blocks.unserializeInterface grants x
      access array
      let items ← Blocks.unserializeEach grants array xs
      pure (item :: items)

/-- `unserialize_interfaces_packet` of a packet that has these interfaces. -/
def Blocks.unserializeInterfaces (grants : Nat → Nat → Bool) (xs : List Advert) :
    Prog CachedList := do
  let array ← kmalloc grants (xs.length * 8)
  let items ← Blocks.unserializeEach grants array xs
  pure ⟨array, items⟩

/-- `free_interface` of an interface that was decoded: its `ctrl` is NULL. -/
def Blocks.freeInterface (x : CachedInterface) : Prog Unit := do
  access x.block
  kfree x.argFlags
  kfree x.retFlags
  kfree x.block

/-- The loop of `free_interfaces`, from index `i` for `n` rounds. -/
def Blocks.freeEach (list : CachedList) : Nat → Nat → Prog Unit
  | _, 0 => pure ()
  | i, n + 1 => do
      access list.array
      let x ← demand list.items[i]?
      Blocks.freeInterface x
      Blocks.freeEach list (i + 1) n

/-- `free_interfaces`. -/
def Blocks.freeInterfaces (interfaces : Option CachedList) (count : Int32) : Prog Unit :=
  match interfaces with
  | none => pure ()
  | some list =>
      if count = 0 then kfree list.array
      else do
        Blocks.freeEach list 0 count.toInt.toNat
        kfree list.array

/-! ## The table -/

/-- The peer table with the pointer to its array, and for each peer the list that its
    `interfaces` points to; `dropped` are the lists that `add_peer` overwrote with
    NULL. -/
structure CachedPeers where
  table : PeerTable
  peers : Pointer
  lists : List (Option CachedList)
  dropped : List CachedList

/-- `if (peers == NULL) init_peers();` -/
def Blocks.ensurePeers (grants : Nat → Nat → Bool) (s : CachedPeers) :
    Prog CachedPeers :=
  if s.peers = .null then do
    let peers ← kmalloc grants (MAX_PEERS * SIZEOF_PEER)
    pure (if peers = .null then { s with table := { s.table with peerCount := 0 } }
      else { s with table := initPeers s.table, peers })
  else pure s

/-- `get_peer`. -/
def Blocks.getPeer (grants : Nat → Nat → Bool) (fromAddr : UInt32) (s : CachedPeers) :
    Prog (Option Nat × CachedPeers) := do
  let s ← Blocks.ensurePeers grants s
  fill s.peers s.table.peerCount
  let (id, _) ← demand (DistComm.getPeer fromAddr s.table)
  pure (id, s)

/-- `add_peer`. -/
def Blocks.addPeer (grants : Nat → Nat → Bool) (fromAddr : UInt32) (packet : Mem)
    (packetLength : UInt32) (s : CachedPeers) : Prog (Except Int Nat × CachedPeers) := do
  let s ← Blocks.ensurePeers grants s
  if MAX_PEERS ≤ s.table.peerCount then pure (.error (-EINVALIDPEERID), s)
  else
    match (unserializeInterfacesPacket packetLength packet 0).val with
    | .error err => pure (.error err, s)
    | .ok interfaces => do
        let list ← Blocks.unserializeInterfaces grants interfaces
        access s.peers
        let (id, table) ← demand (DistComm.addPeer fromAddr packet
          packetLength s.table)
        -- `interfaces = NULL`: nothing points to the list any more
        pure (id, { s with
          table
          lists := s.lists ++ [none]
          dropped := s.dropped ++ [list] })

/-- `update_peer_interfaces`. -/
def Blocks.updatePeerInterfaces (grants : Nat → Nat → Bool) (id : Nat) (packet : Mem)
    (packetLength : UInt32) (s : CachedPeers) : Prog (Except Int Unit × CachedPeers) :=
  if s.peers = .null then pure (.error (-1), s)
  else if s.table.peerCount ≤ id then pure (.error (-EINVALIDPEERID), s)
  else
    match (unserializeInterfacesPacket packetLength packet 0).val with
    | .error err => pure (.error err, s)
    | .ok interfaces => do
        let list ← Blocks.unserializeInterfaces grants interfaces
        access s.peers
        let peer ← demand (s.table.slot id)
        let old ← demand s.lists[id]?
        Blocks.freeInterfaces old peer.interfaceCount
        let (answer, table) ←
          demand (DistComm.updatePeerInterfaces id packet packetLength s.table)
        pure (answer, { s with table, lists := s.lists.set id (some list) })

/-- The variables of `discovery_server_loop` with this table. -/
structure CachedDiscovery where
  fromAddr : UInt32
  buffer : Mem
  cache : CachedPeers

/-- The state without its blocks. -/
def CachedDiscovery.plain (s : CachedDiscovery) : Discovery :=
  ⟨s.fromAddr, s.buffer, s.cache.table⟩

/-- One round of `discovery_server_loop`. -/
def Blocks.discoveryServerLoop (grants : Nat → Nat → Bool) (s : CachedDiscovery)
    (r : Reception) : Prog CachedDiscovery := do
  let (size, d) := s.plain.receive r
  let (id, cache) ← Blocks.getPeer grants d.fromAddr s.cache
  match id with
  | none => do
      let (_, cache) ← Blocks.addPeer grants d.fromAddr d.buffer size.toUInt32 cache
      pure ⟨d.fromAddr, d.buffer, cache⟩
  | some id => do
      let (_, cache) ←
        Blocks.updatePeerInterfaces grants id d.buffer size.toUInt32 cache
      pure ⟨d.fromAddr, d.buffer, cache⟩

/-- The state in which the loop is entered. -/
def CachedDiscovery.entered (buffer : Mem) : CachedDiscovery :=
  ⟨0, buffer, ⟨PeerTable.initial, .null, [], []⟩⟩

/-! ## What lists own -/

def CachedInterface.blocks (x : CachedInterface) : Multiset Nat :=
  x.block.owned + x.argFlags.owned + x.retFlags.owned

def CachedList.blocks (list : CachedList) : Multiset Nat :=
  list.array.owned + (list.items.map CachedInterface.blocks).sum

/-- The interfaces of the list have blocks, and so has an array that is not empty. -/
structure CachedList.Usable (list : CachedList) : Prop where
  items : ∀ x ∈ list.items, x.block ≠ .null ∧ x.block ≠ .zero
  array : list.items ≠ [] → list.array ≠ .null ∧ list.array ≠ .zero

section Lists

variable {grants : Nat → Nat → Bool} {own : Multiset Nat}

theorem Blocks.unserializeInterface_spec (x : Advert) :
    Spec grants own (Blocks.unserializeInterface grants x) fun item own' =>
      own' = own + item.blocks ∧ item.advert = x
        ∧ item.block ≠ .null ∧ item.block ≠ .zero := by
  have hsize : 0 < SIZEOF_INTERFACE := by decide
  rw [Blocks.unserializeInterface]
  refine (Spec.kmalloc _).bind ?_
  rintro block own1 ⟨h1, hzero1, hnull1⟩
  refine (Spec.fill hzero1 hnull1 (by rw [h1]; exact le_add_self)).bind ?_
  rintro _ own2 ⟨h2, hblock⟩
  refine (Spec.kmalloc _).bind ?_
  rintro argFlags own3 ⟨h3, hzero3, hnull3⟩
  refine (Spec.fill hzero3 hnull3 (by rw [h3]; exact le_add_self)).bind ?_
  rintro _ own4 ⟨h4, -⟩
  refine (Spec.kmalloc _).bind ?_
  rintro retFlags own5 ⟨h5, hzero5, hnull5⟩
  refine (Spec.fill hzero5 hnull5 (by rw [h5]; exact le_add_self)).bind ?_
  rintro _ own6 ⟨h6, -⟩
  refine Spec.pure ⟨?_, rfl, hblock hsize, hzero1 hsize⟩
  rw [h6, h5, h4, h3, h2, h1, CachedInterface.blocks, add_assoc own, add_assoc own]

theorem Blocks.unserializeEach_spec {array : Pointer} {xs : List Advert}
    (hzero : xs ≠ [] → array ≠ .zero) (hnull : array = .null → Denied grants)
    (hown : array.owned ≤ own) :
    Spec grants own (Blocks.unserializeEach grants array xs) fun items own' =>
      own' = own + (items.map CachedInterface.blocks).sum
        ∧ items.map CachedInterface.advert = xs
        ∧ (∀ x ∈ items, x.block ≠ .null ∧ x.block ≠ .zero)
        ∧ (items ≠ [] → array ≠ .null) := by
  induction xs generalizing own with
  | nil =>
      exact Spec.pure ⟨(add_zero own).symm, rfl, fun _ h => absurd h List.not_mem_nil,
        fun h => absurd rfl h⟩
  | cons x xs ih =>
      have hne := hzero (List.cons_ne_nil x xs)
      rw [Blocks.unserializeEach]
      refine (Blocks.unserializeInterface_spec x).bind ?_
      rintro item own1 ⟨h1, hx, hitem⟩
      have hown1 : array.owned ≤ own1 := by
        rw [h1]
        exact le_add_right hown
      refine (Spec.access hne hnull hown1).bind ?_
      rintro _ own2 ⟨h2, harray⟩
      rw [h2]
      refine (ih (fun _ => hne) hown1).bind ?_
      rintro items own3 ⟨h3, hxs, hitems, -⟩
      refine Spec.pure ⟨?_, ?_, ?_, fun _ => harray⟩
      · rw [h3, h1, List.map_cons, List.sum_cons, add_assoc]
      · rw [List.map_cons, hx, hxs]
      · intro y hy
        rcases List.mem_cons.mp hy with heq | htail
        · rw [heq]
          exact hitem
        · exact hitems y htail

/-- **DECODING** owns the blocks of the list it leaves. -/
theorem Blocks.unserializeInterfaces_spec (xs : List Advert) :
    Spec grants own (Blocks.unserializeInterfaces grants xs) fun list own' =>
      own' = own + list.blocks ∧ list.items.map CachedInterface.advert = xs
        ∧ list.Usable := by
  rw [Blocks.unserializeInterfaces]
  refine (Spec.kmalloc _).bind ?_
  rintro array own1 ⟨h1, hzero, hnull⟩
  have hzero' : xs ≠ [] → array ≠ .zero := fun hne =>
    hzero (Nat.mul_pos (List.length_pos_of_ne_nil hne) (by decide))
  refine (Blocks.unserializeEach_spec hzero' hnull (by rw [h1]; exact le_add_self)).bind ?_
  rintro items own2 ⟨h2, hxs, hitems, harray⟩
  refine Spec.pure ⟨?_, hxs, hitems, ?_⟩
  · rw [h2, h1, CachedList.blocks, add_assoc]
  · intro hne
    refine ⟨harray hne, hzero' fun hnil => hne ?_⟩
    rw [hnil] at hxs
    exact List.map_eq_nil_iff.mp hxs

theorem Blocks.freeInterface_spec {x : CachedInterface}
    (hx : x.block ≠ .null ∧ x.block ≠ .zero) :
    Spec grants (own + x.blocks) (Blocks.freeInterface x) fun _ own' => own' = own := by
  have howned : own + x.blocks = own + x.block.owned + x.retFlags.owned
      + x.argFlags.owned := by
    rw [CachedInterface.blocks, add_assoc, add_assoc, add_assoc,
      add_comm x.argFlags.owned]
  have hblock : x.block.owned ≤ own + x.blocks := by
    rw [CachedInterface.blocks, add_assoc]
    exact le_add_left le_self_add
  rw [Blocks.freeInterface]
  refine (Spec.access hx.2 (fun h => absurd h hx.1) hblock).bind ?_
  rintro _ own1 ⟨h1, -⟩
  rw [h1, howned]
  refine (Spec.kfree _).bind fun _ own2 h2 => ?_
  rw [h2]
  refine (Spec.kfree _).bind fun _ own3 h3 => ?_
  rw [h3]
  exact Spec.kfree _

theorem Blocks.freeEach_spec {list : CachedList} (h : list.Usable) (n i : Nat)
    (hn : i + n = list.items.length) :
    Spec grants (own + list.array.owned
        + ((list.items.drop i).map CachedInterface.blocks).sum)
      (Blocks.freeEach list i n) fun _ own' => own' = own + list.array.owned := by
  induction n generalizing i with
  | zero =>
      rw [List.drop_eq_nil_of_le (by omega)]
      exact Spec.pure (add_zero _)
  | succ n ih =>
      have hi : i < list.items.length := by omega
      obtain ⟨hnull, hzero⟩ := h.array (List.ne_nil_of_length_pos (by omega))
      have hown : list.array.owned ≤ own + list.array.owned
          + ((list.items.drop i).map CachedInterface.blocks).sum :=
        le_add_right le_add_self
      rw [Blocks.freeEach]
      refine (Spec.access hzero (fun h0 => absurd h0 hnull) hown).bind ?_
      rintro _ own1 ⟨h1, -⟩
      refine (Spec.demand (List.getElem?_eq_getElem hi)).bind ?_
      rintro x own2 ⟨hx, h2⟩
      rw [h2, h1, hx, List.drop_eq_getElem_cons hi, List.map_cons, List.sum_cons,
        add_comm list.items[i].blocks, ← add_assoc]
      refine (Blocks.freeInterface_spec (h.items _ (List.getElem_mem hi))).bind
        fun _ own3 h3 => ?_
      rw [h3]
      exact ih (i + 1) (by omega)

/-- **FREEING** a list by its count frees all of its blocks. -/
theorem Blocks.freeInterfaces_spec {list : CachedList} (h : list.Usable) {count : Int32}
    (hcount : count.toInt = list.items.length) :
    Spec grants (own + list.blocks) (Blocks.freeInterfaces (some list) count)
      fun _ own' => own' = own := by
  rw [Blocks.freeInterfaces, CachedList.blocks]
  by_cases h0 : count = 0
  · have hnil : list.items = [] := by
      rw [h0] at hcount
      exact List.length_eq_zero_iff.mp (Int.ofNat_eq_zero.mp hcount.symm)
    rw [if_pos h0, hnil, List.map_nil, List.sum_nil, add_zero]
    exact Spec.kfree _
  · rw [if_neg h0, ← add_assoc]
    have hrounds : count.toInt.toNat = list.items.length := by
      rw [hcount, Int.toNat_natCast]
    have hloop := @Blocks.freeEach_spec grants own list h count.toInt.toNat 0
      (by rw [hrounds, Nat.zero_add])
    rw [List.drop_zero] at hloop
    refine hloop.bind fun _ own1 h1 => ?_
    rw [h1]
    exact Spec.kfree _

end Lists

/-! ## What the table owns -/

/-- The blocks of a list, if there is one. -/
def listBlocks (list : Option CachedList) : Multiset Nat :=
  (list.map CachedList.blocks).getD 0

/-- The blocks of the table: its array, the lists, and the lists that were dropped. -/
def CachedPeers.blocks (s : CachedPeers) : Multiset Nat :=
  s.peers.owned + (s.lists.map listBlocks).sum + (s.dropped.map CachedList.blocks).sum

/-- The list on the heap is the one that the peer has. -/
def Peer.Caches (p : Peer) : Option CachedList → Prop
  | none => p.interfaces = none
  | some list => list.Usable ∧ list.items.length ≤ MAX_INTERFACES.toNat
      ∧ p.Lists (list.items.map CachedInterface.advert)

/-- The table is well formed, its pointer says whether there is an array, and each peer
    has its list, and has dropped one. -/
structure CachedPeers.Sound (s : CachedPeers) : Prop where
  well : s.table.WellFormed
  pointer : s.peers ≠ .zero
  array : s.peers = .null ↔ s.table.peers = none
  length : s.lists.length = s.table.peerCount
  caches : ∀ (i : Nat) (p : Peer) (list : Option CachedList),
    s.table.live[i]? = some p → s.lists[i]? = some list → p.Caches list
  dropped : s.dropped.length = s.table.peerCount
  few : ∀ list ∈ s.dropped, list.items.length ≤ MAX_INTERFACES.toNat

theorem CachedPeers.sound_entered :
    CachedPeers.Sound ⟨PeerTable.initial, .null, [], []⟩ where
  well := wellFormed_initial
  pointer h := nomatch h
  array := iff_of_true rfl rfl
  length := rfl
  caches _ _ _ h := nomatch h
  dropped := rfl
  few _ h := absurd h List.not_mem_nil

theorem sum_set {ms : List (Multiset Nat)} {i : Nat} {a : Multiset Nat}
    (h : ms[i]? = some a) (b : Multiset Nat) : (ms.set i b).sum + a = ms.sum + b := by
  induction ms generalizing i with
  | nil => exact nomatch h
  | cons m ms ih =>
      cases i with
      | zero =>
          cases Option.some.inj h
          rw [List.set_cons_zero, List.sum_cons, List.sum_cons, add_comm b, add_right_comm,
            add_comm ms.sum]
      | succ i =>
          rw [List.set_cons_succ, List.sum_cons, List.sum_cons, add_assoc, ih h, add_assoc]

theorem CachedPeers.peers_le (s : CachedPeers) : s.peers.owned ≤ s.blocks :=
  le_add_right (le_add_right (le_refl _))

/-- A list that is replaced is not the table's any more. -/
theorem CachedPeers.blocks_updated {s : CachedPeers} {i : Nat} {old : Option CachedList}
    (hold : s.lists[i]? = some old) (table : PeerTable) (list : CachedList) :
    CachedPeers.blocks { s with table, lists := s.lists.set i (some list) }
      + listBlocks old = s.blocks + list.blocks := by
  have hnow : (s.lists.map listBlocks)[i]? = some (listBlocks old) := by
    rw [List.getElem?_map, hold]
    rfl
  have hset := sum_set hnow (listBlocks (some list))
  rw [← List.map_set] at hset
  show s.peers.owned + ((s.lists.set i (some list)).map listBlocks).sum
    + (s.dropped.map CachedList.blocks).sum + listBlocks old = _
  rw [add_right_comm, add_assoc s.peers.owned, hset, ← add_assoc, add_right_comm]
  rfl

theorem CachedPeers.Sound.slots {s : CachedPeers} (h : s.Sound) (hp : s.peers ≠ .null) :
    ∃ slots, s.table.peers = some slots := by
  cases hslots : s.table.peers with
  | none => exact absurd (h.array.mpr hslots) hp
  | some slots => exact ⟨slots, rfl⟩

theorem CachedPeers.Sound.holds {s : CachedPeers} (h : s.Sound) {i : Nat} {p : Peer}
    (hp : s.table.live[i]? = some p) : ∃ slots, s.table.peers = some slots := by
  cases hslots : s.table.peers with
  | none =>
      have hi := h.well.lt_count hp
      rw [h.well.empty hslots] at hi
      exact absurd hi (Nat.not_lt_zero i)
  | some slots => exact ⟨slots, rfl⟩

theorem ensurePeers_some {t : PeerTable} {slots : List Peer} (h : t.peers = some slots) :
    ensurePeers t = t := by rw [ensurePeers, h]

theorem ensurePeers_idem (t : PeerTable) : ensurePeers (ensurePeers t) = ensurePeers t := by
  cases h : t.peers with
  | some slots => rw [ensurePeers_some h, ensurePeers_some h]
  | none =>
      have hinit : ensurePeers t = initPeers t := by rw [ensurePeers, h]
      rw [hinit]
      rfl

/-- The list of a new peer is dropped. -/
theorem CachedPeers.Sound.added {s : CachedPeers} (h : s.Sound) (hpeers : s.peers ≠ .null)
    {addr : UInt32} (hnew : s.table.Unknown addr) (hroom : s.table.peerCount < MAX_PEERS)
    (interfaces : List Advert) {list : CachedList}
    (hfew : list.items.length ≤ MAX_INTERFACES.toNat) :
    CachedPeers.Sound { s with
      table := s.table.withPeer addr interfaces
      lists := s.lists ++ [none]
      dropped := s.dropped ++ [list] } := by
  obtain ⟨slots, hslots⟩ := h.slots hpeers
  have hlive := PeerTable.live_withPeer hslots (h.well.room slots hslots) hroom addr
    interfaces
  refine ⟨h.well.withPeer hslots hnew hroom interfaces, h.pointer, ?_, ?_, ?_, ?_, ?_⟩
  · refine iff_of_false hpeers ?_
    show s.table.peers.map _ ≠ none
    rw [hslots]
    exact Option.some_ne_none _
  · rw [List.length_append, h.length]
    rfl
  · intro i p l hp hl
    rw [hlive] at hp
    rcases Nat.lt_or_ge i s.table.peerCount with hlt | hge
    · rw [List.getElem?_append_left (by rw [h.well.length_live]; exact hlt)] at hp
      rw [List.getElem?_append_left (by rw [h.length]; exact hlt)] at hl
      exact h.caches i p l hp hl
    · rw [List.getElem?_append_right (by rw [h.well.length_live]; exact hge)] at hp
      rw [List.getElem?_append_right (by rw [h.length]; exact hge)] at hl
      rw [List.mem_singleton.mp (List.mem_of_getElem? hp),
        List.mem_singleton.mp (List.mem_of_getElem? hl)]
      rfl
  · rw [List.length_append, h.dropped]
    rfl
  · intro l hl
    rcases List.mem_append.mp hl with hold | hlast
    · exact h.few l hold
    · rw [List.mem_singleton.mp hlast]
      exact hfew

/-- A new list takes the place of the old one. -/
theorem CachedPeers.Sound.updated {s : CachedPeers} (h : s.Sound) {i : Nat} {p : Peer}
    (hp : s.table.live[i]? = some p) {list : CachedList} (husable : list.Usable)
    (hfew : list.items.length ≤ MAX_INTERFACES.toNat) :
    CachedPeers.Sound { s with
      table := s.table.put i (p.withList (list.items.map CachedInterface.advert))
      lists := s.lists.set i (some list) } := by
  refine ⟨h.well.put hp _, h.pointer, ?_, ?_, ?_, h.dropped, h.few⟩
  · rw [h.array]
    exact Option.map_eq_none_iff.symm
  · rw [List.length_set]
    exact h.length
  · intro j q l hq hl
    rw [PeerTable.live_put] at hq
    by_cases hij : i = j
    · rw [← hij, List.getElem?_set_self (List.getElem?_eq_some_iff.mp hp).1] at hq
      rw [← hij, List.getElem?_set_self (by rw [h.length]; exact h.well.lt_count hp)] at hl
      rw [← Option.some.inj hq, ← Option.some.inj hl]
      exact ⟨husable, hfew, rfl, rfl⟩
    · rw [List.getElem?_set_ne hij] at hq hl
      exact h.caches j q l hq hl

/-! ## The functions of the table -/

section Table

variable {grants : Nat → Nat → Bool}

/-- The table with its blocks, after functions that may have allocated the array. -/
structure CachedPeers.After (grants : Nat → Nat → Bool) (t : PeerTable) (s : CachedPeers)
    (own : Multiset Nat) : Prop where
  owns : own = s.blocks
  sound : s.Sound
  table : ensurePeers s.table = ensurePeers t
  denied : s.peers = .null → Denied grants

theorem Blocks.ensurePeers_spec {s : CachedPeers} (h : s.Sound) :
    Spec grants s.blocks (Blocks.ensurePeers grants s)
      (CachedPeers.After grants s.table) := by
  rw [Blocks.ensurePeers]
  by_cases hpeers : s.peers = .null
  · have hnone := h.array.mp hpeers
    have hinit : DistComm.ensurePeers s.table = initPeers s.table := by
      rw [DistComm.ensurePeers, hnone]
    have hcount := h.well.empty hnone
    rw [if_pos hpeers]
    refine (Spec.kmalloc _).bind ?_
    rintro peers own1 ⟨h1, hzero, hdenied⟩
    refine Spec.pure ?_
    by_cases hfailed : peers = .null
    · -- the table is as it was
      have hsame : ({ s with table := { s.table with peerCount := 0 } } : CachedPeers)
          = s := by
        rw [← hcount]
      rw [if_pos hfailed, hsame]
      refine ⟨?_, h, rfl, fun _ => hdenied hfailed⟩
      rw [h1, hfailed]
      exact add_zero _
    · rw [if_neg hfailed]
      obtain ⟨hwell, -, hsame, -⟩ := h.well.ensure
      rw [hinit] at hwell hsame
      refine ⟨?_, ⟨hwell, hzero (by decide), ?_, ?_, ?_, ?_, h.few⟩, ?_,
        fun h0 => absurd h0 hfailed⟩
      · rw [h1, CachedPeers.blocks, CachedPeers.blocks, hpeers]
        show (0 + _ + _) + _ = _
        rw [zero_add, add_comm, add_assoc]
      · exact iff_of_false hfailed (Option.some_ne_none _)
      · exact h.length.trans hsame.symm
      · intro i p list hp
        have hlt := hwell.lt_count hp
        rw [hsame, hcount] at hlt
        exact absurd hlt (Nat.not_lt_zero i)
      · exact h.dropped.trans hsame.symm
      · exact hinit.symm
  · rw [if_neg hpeers]
    exact Spec.pure ⟨rfl, h, rfl, fun h0 => absurd h0 hpeers⟩

theorem Blocks.getPeer_spec {s : CachedPeers} (h : s.Sound) (addr : UInt32) :
    Spec grants s.blocks (Blocks.getPeer grants addr s) fun r own' =>
      r.2.After grants s.table own'
        ∧ DistComm.getPeer addr s.table = some (r.1, DistComm.ensurePeers s.table)
        ∧ ((r.1 = none ∧ r.2.table.Unknown addr)
          ∨ ∃ i p, r.1 = some i ∧ r.2.table.live[i]? = some p) := by
  rw [Blocks.getPeer]
  refine (Blocks.ensurePeers_spec h).bind fun s1 own1 h1 => ?_
  rw [h1.owns]
  refine (Spec.fill (fun _ => h1.sound.pointer) h1.denied s1.peers_le).bind ?_
  rintro _ own2 ⟨h2, -⟩
  have hafter : s1.After grants s.table own2 := ⟨h2, h1.sound, h1.table, h1.denied⟩
  have hget : DistComm.getPeer addr s1.table = DistComm.getPeer addr s.table := by
    rw [DistComm.getPeer, DistComm.getPeer, h1.table]
  obtain ⟨-, -, -, hlive⟩ := h1.sound.well.ensure
  rcases h1.sound.well.getPeer_cases addr with ⟨hnone, hnew⟩ | ⟨i, p, hsome, hp, -⟩
  · refine (Spec.demand hnone).bind ?_
    rintro r own3 ⟨hr, h3⟩
    refine Spec.pure ?_
    rw [PeerTable.Unknown, hlive] at hnew
    rw [hget, h1.table] at hnone
    rw [h3, hr]
    exact ⟨hafter, hnone, Or.inl ⟨rfl, hnew⟩⟩
  · refine (Spec.demand hsome).bind ?_
    rintro r own3 ⟨hr, h3⟩
    refine Spec.pure ?_
    rw [hlive] at hp
    rw [hget, h1.table] at hsome
    rw [h3, hr]
    exact ⟨hafter, hsome, Or.inr ⟨i, p, rfl, hp⟩⟩

theorem addPeer_ensured (addr : UInt32) (packet : Mem) (packetLength : UInt32)
    {t u : PeerTable} (h : ensurePeers t = ensurePeers u) :
    addPeer addr packet packetLength t = addPeer addr packet packetLength u := by
  rw [addPeer, addPeer, h]

/-- Where there is room, somebody new becomes a peer. -/
theorem Answered.newcomer {t t' : PeerTable} {addr : UInt32} {xs : List Advert}
    {answer : Except Int Unit} (ha : Answered t addr (.ok xs) answer t')
    (hnew : t.Unknown addr) (hroom : t.peerCount < MAX_PEERS) :
    t' = t.withPeer addr xs := by
  cases ha with
  | full err _ hfull => exact absurd hroom (Nat.not_lt.mpr hfull)
  | added _ _ => rfl
  | updated hp haddr =>
      refine absurd ?_ hnew
      rw [← haddr]
      exact List.mem_map_of_mem (List.mem_of_getElem? hp)

/-- **ADDING** a peer keeps the account; the list that was decoded is dropped. -/
theorem Blocks.addPeer_spec {s : CachedPeers} (h : s.Sound) {addr : UInt32}
    (hnew : s.table.Unknown addr) (packet : Mem) (packetLength : UInt32) :
    Spec grants s.blocks (Blocks.addPeer grants addr packet packetLength s)
      fun r own' => own' = r.2.blocks ∧ r.2.Sound
        ∧ DistComm.addPeer addr packet packetLength s.table
          = some (r.1, DistComm.ensurePeers r.2.table) := by
  rw [Blocks.addPeer]
  refine (Blocks.ensurePeers_spec h).bind fun s1 own1 h1 => ?_
  obtain ⟨-, -, hcount, hlive⟩ := h1.sound.well.ensure
  have hlive' : s1.table.live = s.table.live := by
    obtain ⟨-, -, -, hlive0⟩ := h.well.ensure
    rw [← hlive, h1.table, hlive0]
  have hnew1 : s1.table.Unknown addr := by
    rw [PeerTable.Unknown, hlive']
    exact hnew
  rw [h1.owns, ← addPeer_ensured addr packet packetLength h1.table]
  by_cases hfull : MAX_PEERS ≤ s1.table.peerCount
  · rw [if_pos hfull]
    refine Spec.pure ⟨rfl, h1.sound, ?_⟩
    rw [DistComm.addPeer]
    exact if_pos (by rw [hcount]; exact hfull)
  rw [if_neg hfull]
  cases hdec : (unserializeInterfacesPacket packetLength packet 0).val with
  | error err =>
      refine Spec.pure ⟨rfl, h1.sound, ?_⟩
      rw [DistComm.addPeer]
      simp only [hcount, if_neg hfull, hdec]
  | ok interfaces =>
      refine (Blocks.unserializeInterfaces_spec interfaces).bind ?_
      rintro list own2 ⟨h2, hlist, husable⟩
      have hpeers : s1.peers.owned ≤ own2 := by
        rw [h2]
        exact le_add_right s1.peers_le
      refine (Spec.access h1.sound.pointer h1.denied hpeers).bind ?_
      rintro _ own3 ⟨h3, hnull⟩
      obtain ⟨slots, hslots⟩ := h1.sound.slots hnull
      obtain ⟨answer, t', hadd, ha⟩ :=
        h1.sound.well.addPeer_answered hslots hnew1 packet packetLength
      -- there is room, and nobody has the address
      rw [hdec] at ha
      have ht' := ha.newcomer hnew1 (Nat.lt_of_not_le hfull)
      refine (Spec.demand hadd).bind ?_
      rintro r own4 ⟨hr, h4⟩
      refine Spec.pure ?_
      have hfew : list.items.length ≤ MAX_INTERFACES.toNat := by
        rw [← List.length_map (f := CachedInterface.advert), hlist]
        exact decoded_few hdec
      rw [hr, ht']
      refine ⟨?_, h1.sound.added hnull hnew1 (Nat.lt_of_not_le hfull) interfaces hfew, ?_⟩
      · rw [h4, h3, h2, CachedPeers.blocks, CachedPeers.blocks, List.map_append,
          List.map_append, List.sum_append, List.sum_append, add_assoc]
        show _ = _ + (_ + (0 + 0)) + (_ + (_ + 0))
        rw [add_zero, add_zero, add_zero]
      · refine hadd.trans ?_
        rw [ht', @ensurePeers_some (s1.table.withPeer addr interfaces) (slots.set _ _)]
        show s1.table.peers.map _ = _
        rw [hslots]
        rfl

/-- What a peer has is freed by its count. -/
theorem Blocks.freeInterfaces_caches {own : Multiset Nat} {p : Peer}
    {list : Option CachedList} (h : p.Caches list) :
    Spec grants (own + listBlocks list) (Blocks.freeInterfaces list p.interfaceCount)
      fun _ own' => own' = own := by
  cases list with
  | none => exact Spec.pure (add_zero own)
  | some list =>
      obtain ⟨husable, hfew, -, hcount⟩ := h
      refine Blocks.freeInterfaces_spec husable ?_
      rw [hcount, List.length_map, toInt_count hfew]

/-- What was decoded becomes the peer's list. -/
theorem PeerTable.WellFormed.updatePeerInterfaces_ok {t : PeerTable} (h : t.WellFormed)
    {slots : List Peer} (hslots : t.peers = some slots) {i : Nat} {p : Peer}
    (hp : t.live[i]? = some p) {packet : Mem} {packetLength : UInt32} {xs : List Advert}
    (hdec : (unserializeInterfacesPacket packetLength packet 0).val = .ok xs) :
    updatePeerInterfaces i packet packetLength t
      = some (.ok (), t.put i (p.withList xs)) := by
  have hi := h.lt_count hp
  have hin : i < slots.length := by
    rw [h.room slots hslots]
    exact Nat.lt_of_lt_of_le hi h.count
  have hslot : t.slot i = some p := by
    rw [t.slot_eq_live hi, hp]
  have hfree := h.freeable p (List.mem_of_getElem? hp)
  rw [updatePeerInterfaces, hslots]
  simp only [if_neg (Nat.not_le.mpr hi), hdec, hslot, Option.bind_eq_bind,
    Option.bind_some, hfree]
  rw [PeerTable.assign_put hslots hin]
  rfl

/-- **UPDATING** a peer keeps the account: the old list is freed. -/
theorem Blocks.updatePeerInterfaces_spec {s : CachedPeers} (h : s.Sound)
    (hdenied : s.peers = .null → Denied grants) {i : Nat} {p : Peer}
    (hp : s.table.live[i]? = some p) (packet : Mem) (packetLength : UInt32) :
    Spec grants s.blocks (Blocks.updatePeerInterfaces grants i packet packetLength s)
      fun r own' => own' = r.2.blocks ∧ r.2.Sound
        ∧ DistComm.updatePeerInterfaces i packet packetLength s.table
          = some (r.1, DistComm.ensurePeers r.2.table) := by
  have hi := h.well.lt_count hp
  obtain ⟨slots, hslots⟩ := h.holds hp
  have hpeers : s.peers ≠ .null := by
    intro hnull
    rw [h.array.mp hnull] at hslots
    exact nomatch hslots
  have hens := ensurePeers_some hslots
  have hslot : s.table.slot i = some p := by
    rw [s.table.slot_eq_live hi, hp]
  obtain ⟨cached, hold⟩ : ∃ cached, s.lists[i]? = some cached :=
    ⟨_, List.getElem?_eq_getElem (by rw [h.length]; exact hi)⟩
  rw [Blocks.updatePeerInterfaces, if_neg hpeers, if_neg (Nat.not_le.mpr hi)]
  cases hdec : (unserializeInterfacesPacket packetLength packet 0).val with
  | error err =>
      refine Spec.pure ⟨rfl, h, ?_⟩
      rw [DistComm.updatePeerInterfaces, hslots]
      simp only [if_neg (Nat.not_le.mpr hi), hdec, hens]
  | ok interfaces =>
      refine (Blocks.unserializeInterfaces_spec interfaces).bind ?_
      rintro list own1 ⟨h1, hlist, husable⟩
      have hown : s.peers.owned ≤ own1 := by
        rw [h1]
        exact le_add_right s.peers_le
      refine (Spec.access h.pointer hdenied hown).bind ?_
      rintro _ own2 ⟨h2, -⟩
      refine (Spec.demand hslot).bind ?_
      rintro q own3 ⟨hq, h3⟩
      refine (Spec.demand hold).bind ?_
      rintro old own4 ⟨hold', h4⟩
      have hfew : list.items.length ≤ MAX_INTERFACES.toNat := by
        rw [← List.length_map (f := CachedInterface.advert), hlist]
        exact decoded_few hdec
      have hsound := h.updated hp husable hfew
      -- both lists are there until the old one is freed
      have hmove := CachedPeers.blocks_updated hold
        (s.table.put i (p.withList (list.items.map CachedInterface.advert))) list
      rw [h4, h3, h2, h1, ← hmove, hq, hold']
      have hcaches := h.caches i p cached hp hold
      refine (Blocks.freeInterfaces_caches hcaches).bind fun _ own5 h5 => ?_
      have hupdate := h.well.updatePeerInterfaces_ok hslots hp hdec
      refine (Spec.demand hupdate).bind ?_
      rintro r own6 ⟨hr, h6⟩
      refine Spec.pure ?_
      rw [hr, ← hlist]
      refine ⟨by rw [h6, h5], hsound, ?_⟩
      refine hupdate.trans ?_
      rw [← hlist, @ensurePeers_some (s.table.put i _) (slots.set i _)]
      show s.table.peers.map _ = _
      rw [hslots]
      rfl

end Table

/-! ## The loop -/

/-- The state once the array is there. -/
def Discovery.ensured (s : Discovery) : Discovery := { s with table := ensurePeers s.table }

/-- Every round starts with `get_peer`, which sees to the array. -/
theorem discoveryServerLoop_ensured {s d : Discovery} (h : s.ensured = d.ensured)
    (r : Reception) : discoveryServerLoop s r = discoveryServerLoop d r := by
  obtain ⟨addr, buffer, t⟩ := s
  obtain ⟨addr', buffer', u⟩ := d
  obtain ⟨haddr, hbuffer, htable⟩ : addr = addr' ∧ buffer = buffer'
      ∧ ensurePeers t = ensurePeers u :=
    ⟨congrArg Discovery.fromAddr h, congrArg Discovery.buffer h,
      congrArg Discovery.table h⟩
  have hget : ∀ a, getPeer a t = getPeer a u := fun a => by rw [getPeer, getPeer, htable]
  subst haddr hbuffer
  cases r with
  | datagram sender bytes =>
      rw [discoveryServerLoop, discoveryServerLoop]
      simp only [Discovery.receive, hget]
  | failed err =>
      rw [discoveryServerLoop, discoveryServerLoop]
      simp only [Discovery.receive, hget]

/-- **A ROUND** keeps the account, and does what the loop does. -/
theorem Blocks.discoveryServerLoop_spec {grants : Nat → Nat → Bool} {s : CachedDiscovery}
    (h : s.cache.Sound) (r : Reception) :
    Spec grants s.cache.blocks (Blocks.discoveryServerLoop grants s r) fun s' own' =>
      own' = s'.cache.blocks ∧ s'.cache.Sound
        ∧ DistComm.discoveryServerLoop s.plain r = some s'.plain.ensured := by
  have htable : (s.plain.receive r).2.table = s.cache.table := by
    cases r with
    | datagram sender bytes => rfl
    | failed err => rfl
  rw [Blocks.discoveryServerLoop, DistComm.discoveryServerLoop]
  generalize s.plain.receive r = received at htable ⊢
  obtain ⟨size, d⟩ := received
  replace htable : d.table = s.cache.table := htable
  show Spec grants s.cache.blocks ((Blocks.getPeer grants d.fromAddr s.cache) >>= _) _
  refine (Blocks.getPeer_spec h d.fromAddr).bind ?_
  rintro found own1 ⟨hafter, hget, hfound⟩
  obtain ⟨id, cache⟩ := found
  rw [hafter.owns]
  simp only [htable, hget, Option.bind_eq_bind, Option.bind_some]
  rcases hfound with ⟨hid, hnew⟩ | ⟨i, p, hid, hp⟩
  · cases hid
    refine (Blocks.addPeer_spec hafter.sound hnew d.buffer size.toUInt32).bind ?_
    rintro added own2 ⟨h2, hsound, hadd⟩
    refine Spec.pure ⟨h2, hsound, ?_⟩
    rw [← addPeer_ensured _ _ _ ((ensurePeers_idem _).trans hafter.table.symm).symm, hadd]
    rfl
  · cases hid
    refine (Blocks.updatePeerInterfaces_spec hafter.sound hafter.denied hp d.buffer
      size.toUInt32).bind ?_
    rintro updated own2 ⟨h2, hsound, hupdate⟩
    refine Spec.pure ⟨h2, hsound, ?_⟩
    obtain ⟨slots, hslots⟩ := hafter.sound.holds hp
    rw [← hafter.table, ensurePeers_some hslots]
    show (DistComm.updatePeerInterfaces i d.buffer size.toUInt32 cache.table).bind _ = _
    rw [hupdate]
    rfl

/-- What holds after so many receptions. -/
structure CachedDiscovery.Follows (buffer : Mem) (rs : List Reception)
    (s : CachedDiscovery) (own : Multiset Nat) : Prop where
  owns : own = s.cache.blocks
  sound : s.cache.Sound
  follows : ∃ d, runAll discoveryServerLoop (Discovery.entered buffer) rs = some d
    ∧ d.ensured = s.plain.ensured

/-- Every round allocates and frees as the table changes. -/
theorem Blocks.discoveryServerLoop_run (grants : Nat → Nat → Bool) (buffer : Mem)
    (rs : List Reception) :
    Spec grants 0 (rs.foldlM (Blocks.discoveryServerLoop grants)
      (CachedDiscovery.entered buffer)) (CachedDiscovery.Follows buffer rs) := by
  refine Spec.foldlM ⟨rfl, CachedPeers.sound_entered, _, rfl, rfl⟩
    (fun rs s own r h => ?_) rs
  obtain ⟨hown, hsound, d, hrun, hsame⟩ := h
  rw [hown]
  refine (Blocks.discoveryServerLoop_spec hsound r).weaken ?_
  rintro s' own' ⟨hown', hsound', hround⟩
  refine ⟨hown', hsound', s'.plain.ensured, ?_, ?_⟩
  · rw [runAll_append, hrun, Option.bind_some,
      runAll_cons ((discoveryServerLoop_ensured hsame r).trans hround)]
    rfl
  · rw [Discovery.ensured, Discovery.ensured, ensurePeers_idem]

/-! ## How many blocks -/

theorem card_sum_le {α : Type} {f : α → Multiset Nat} {n : Nat} {xs : List α}
    (h : ∀ x ∈ xs, (f x).card ≤ n) : ((xs.map f).sum).card ≤ xs.length * n := by
  induction xs with
  | nil => exact Nat.zero_le _
  | cons x xs ih =>
      have hx := h x List.mem_cons_self
      have hxs := ih fun y hy => h y (List.mem_cons_of_mem x hy)
      rw [List.map_cons, List.sum_cons, Multiset.card_add, List.length_cons,
        Nat.succ_mul, Nat.add_comm]
      exact Nat.add_le_add hxs hx

theorem CachedInterface.card_blocks (x : CachedInterface) : x.blocks.card ≤ 3 := by
  have h1 := x.block.card_owned
  have h2 := x.argFlags.card_owned
  have h3 := x.retFlags.card_owned
  rw [CachedInterface.blocks, Multiset.card_add, Multiset.card_add]
  omega

theorem CachedList.card_blocks {list : CachedList}
    (h : list.items.length ≤ MAX_INTERFACES.toNat) :
    list.blocks.card ≤ 1 + MAX_INTERFACES.toNat * 3 := by
  have hitems : ((list.items.map CachedInterface.blocks).sum).card
      ≤ list.items.length * 3 := card_sum_le fun x _ => x.card_blocks
  rw [CachedList.blocks, Multiset.card_add]
  exact Nat.add_le_add list.array.card_owned
    (hitems.trans (Nat.mul_le_mul_right 3 h))

/-- **FEW BLOCKS**: the array, and for each peer a current list and a dropped one. -/
theorem CachedPeers.Sound.card_blocks {s : CachedPeers} (h : s.Sound) :
    s.blocks.card ≤ 1 + 2 * s.table.peerCount * (1 + MAX_INTERFACES.toNat * 3) := by
  have hlists : ((s.lists.map listBlocks).sum).card
      ≤ s.lists.length * (1 + MAX_INTERFACES.toNat * 3) := by
    refine card_sum_le fun list hlist => ?_
    obtain ⟨i, hi, hlist⟩ := List.getElem_of_mem hlist
    have hi' : i < s.table.live.length := by
      rw [h.well.length_live, ← h.length]
      exact hi
    have hcaches := h.caches i _ list (List.getElem?_eq_getElem hi')
      (by rw [List.getElem?_eq_getElem hi, hlist])
    cases list with
    | none => exact Nat.zero_le _
    | some list => exact CachedList.card_blocks hcaches.2.1
  have hdropped : ((s.dropped.map CachedList.blocks).sum).card
      ≤ s.dropped.length * (1 + MAX_INTERFACES.toNat * 3) :=
    card_sum_le fun list hlist => CachedList.card_blocks (h.few list hlist)
  have hpeers := s.peers.card_owned
  rw [h.length] at hlists
  rw [h.dropped] at hdropped
  rw [CachedPeers.blocks, Multiset.card_add, Multiset.card_add, Nat.mul_assoc, Nat.two_mul]
  omega

/-- **THE MEMORY OF DISCOVERY**: whatever the loop receives, unless an allocation is
    denied and its NULL followed, it goes on as if there were no heap; the blocks on the
    heap are the array, the list that each peer has, and the one that `add_peer` dropped
    for each peer, and they do not become more than so many. -/
theorem discovery_blocks (grants : Nat → Nat → Bool) (buffer : Mem)
    (rs : List Reception) :
    (rs.foldlM (Blocks.discoveryServerLoop grants) (CachedDiscovery.entered buffer)
        Heap.empty = .error .null ∧ Denied grants)
      ∨ ∃ s h, rs.foldlM (Blocks.discoveryServerLoop grants)
          (CachedDiscovery.entered buffer) Heap.empty = .ok (s, h)
        ∧ (∃ d, runAll discoveryServerLoop (Discovery.entered buffer) rs = some d
            ∧ d.ensured = s.plain.ensured)
        ∧ s.cache.Sound ∧ h.live.val = s.cache.blocks
        ∧ h.live.card ≤ 1 + 2 * MAX_PEERS * (1 + MAX_INTERFACES.toNat * 3) := by
  rcases (Blocks.discoveryServerLoop_run grants buffer rs).whole with
    hnull | ⟨s, h, hrun, hown, hsound, hfollows⟩
  · exact Or.inl hnull
  · refine Or.inr ⟨s, h, hrun, hfollows, hsound, hown, ?_⟩
    have hcard := hsound.card_blocks
    rw [← hown] at hcard
    exact hcard.trans (Nat.add_le_add_left
      (Nat.mul_le_mul_right _ (Nat.mul_le_mul_left 2 hsound.well.count)) 1)

end DistComm
