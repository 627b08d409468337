import DistComm.Peers
import Mathlib.Data.List.Dedup
import Mathlib.Data.List.Induction
import Mathlib.Data.List.Perm.Subperm

/-! # What announcements leave in the table

    Every host broadcasts what it serves, and the loop keeps one peer for each
    sender.  `Tracks` says exactly what is left of the datagrams received so far:
    the latest list of every sender, but no list at all of a sender that was heard
    only once, since `add_peer` drops the array it has just decoded.  Each round
    keeps it (`Tracks.round`), and so does every run (`discovery_tracks`).

    So the readers of `module/device/peer.c` see the network as it is exactly when
    nobody who was heard only once has listed an interface
    (`peers_reflect_iff`). -/

namespace DistComm

open RawMemory RawScan PointerArray Transition

/-! ## Readers of the table -/

/-- `%d` of an `int`. -/
def formatInt (i : Int32) : List Char := (toString i.toInt).toList

/-- `%s`; the kernel prints NULL as `(null)`. -/
def formatString : Option CString → List Char
  | none => "(null)".toList
  | some s => s.bytes.map fun b => Char.ofNat b.toNat

/-- `%pI4` of an address in network byte order. -/
def formatAddr (addr : UInt32) : List Char :=
  ".".toList.intercalate
    ((wordBytes addr).map fun b => (toString b.toNat).toList)

/-- The first `sprintf` of `peer_read`. -/
def formatHeader (p : Peer) : List Char :=
  "Peer ID: ".toList ++ formatInt (Int32.ofNat p.id)
    ++ "\nPeer Address: ".toList ++ formatAddr p.addr
    ++ "\nPeer Name: ".toList ++ formatString p.name
    ++ "\nPeer Interface Count: ".toList ++ formatInt p.interfaceCount
    ++ "\nPeer Interface List:\n".toList

/-- The `sprintf` in the loop of `peer_read`. -/
def formatEntry (x : Advert) : List Char :=
  "Interface ".toList ++ formatInt x.id.toInt32 ++ ", ".toList
    ++ formatInt x.argc.toInt32 ++ " args ".toList
    ++ formatInt x.retc.toInt32 ++ " rets\n".toList

/-- `interfaces[i]`, inside the array. -/
def Peer.entry (p : Peer) (i : Nat) : Option Advert :=
  p.interfaces.bind fun interfaces => interfaces[i]?

/-- The loop of `peer_read`, from index `i` for `n` rounds. -/
def formatEntries (p : Peer) : Nat → Nat → Option (List Char)
  | _, 0 => some []
  | i, n + 1 => do
      let x ← p.entry i
      let rest ← formatEntries p (i + 1) n
      some (formatEntry x ++ rest)

/-- The text that `peer_read` formats for the device with minor `id`, wherever
    `peer_read_buffer` ends: there is one if its loop only touches entries. -/
def peerText (id : Nat) (t : PeerTable) : Option (List Char) := do
  let p ← t.slot id
  let entries ← formatEntries p 0 p.interfaceCount.toInt.toNat
  some (formatHeader p ++ entries)

/-- `sizeof(peer_read_buffer)`. -/
def PEER_READ_SIZE : Nat := 0x1000

/-- `sprintf(peer_read_buffer + len, ..)`: behind what was printed before, the text and
    its terminator must fit the buffer. -/
def sprintfPeer (printed text : List Char) : Option (List Char) :=
  if printed.length + text.length < PEER_READ_SIZE then some (printed ++ text) else none

/-- The loop of `peer_read`, from index `i` for `n` rounds. -/
def printEntries (p : Peer) : Nat → Nat → List Char → Option (List Char)
  | _, 0, printed => some printed
  | i, n + 1, printed => do
      let x ← p.entry i
      let printed ← sprintfPeer printed (formatEntry x)
      printEntries p (i + 1) n printed

/-- `peer_read`: what is copied to user memory, and the new offset. -/
def peerRead (id userLen off : Nat) (t : PeerTable) :
    Option (List Char × Nat) := do
  let p ← t.slot id
  let header ← sprintfPeer [] (formatHeader p)
  let text ← printEntries p 0 p.interfaceCount.toInt.toNat header
  if text.length ≤ off then some ([], off)
  else some (text.take (min userLen (text.length - off)), off + text.length)

/-- The lookup of `peer_ioctl` in the list of the peer with minor `id`. -/
def peerIoctlFind (id : Nat) (interfaceId : UInt32) (t : PeerTable) :
    Option (Option Advert) := do
  let p ← t.slot id
  let found ← findInterface p.entry Advert.id p.interfaceCount interfaceId.toInt32
  some (found.map Hit.val)

/-! ## Announcements -/

/-- A well-formed discovery datagram: the packet that `serialize_interfaces_packet`
    makes for at most `MAX_INTERFACES` interfaces, received in full. -/
structure Announcement where
  sender : UInt32
  listings : List Listing
  packet : List UInt8
  count_le : listings.length ≤ MAX_INTERFACES.toNat
  fits : ∀ l ∈ listings, l.Fits
  serialized : serializeInterfacesPacket (listings.map fun l => some l.advert)
    (UInt32.ofNat listings.length) = some packet
  received : packet.length ≤ MAX_BUFFER_SIZE

/-- The reception of an announcement. -/
def Announcement.reception (d : Announcement) : Reception :=
  .datagram d.sender d.packet

/-- What the decoder makes of an announcement. -/
def Announcement.adverts (d : Announcement) : List Advert :=
  d.listings.map Listing.advert

/-- What was heard from a sender, oldest first. -/
def heard (ds : List Announcement) (addr : UInt32) : List Announcement :=
  ds.filter fun d => d.sender == addr

theorem Announcement.listable (d : Announcement) : Listable d.listings := by
  refine ⟨Nat.lt_of_le_of_lt d.count_le ?_, d.fits⟩
  decide

theorem Announcement.packet_eq (d : Announcement) :
    d.packet = listEncoding d.listings :=
  serializeInterfacesPacket_eq d.listable d.serialized

theorem Discovery.receive_announcement (s : Discovery) (d : Announcement) :
    s.receive d.reception
      = (Int32.ofNat d.packet.length,
        { s with fromAddr := d.sender, buffer := store d.packet s.buffer }) := by
  rw [Announcement.reception, Discovery.receive,
    List.take_of_length_le d.received]

/-- The loop decodes an announcement to its interfaces, whatever an earlier and
    longer datagram has left in the buffer. -/
theorem Announcement.decoded (d : Announcement) (buffer : Mem) :
    (unserializeInterfacesPacket (Int32.ofNat d.packet.length).toUInt32
      (store d.packet buffer) 0).val = .ok d.adverts := by
  have hsize : (Int32.ofNat d.packet.length).toUInt32.toNat
      = d.packet.length :=
    UInt32.toNat_ofNat_of_lt' (Nat.lt_of_le_of_lt d.received (by decide))
  have hfour : 4 ≤ d.packet.length := by
    rw [d.packet_eq, listEncoding, List.length_append, length_wordBytes]
    omega
  refine unserializeInterfacesPacket_listEncoding d.listable d.count_le ?_ ?_
  · rw [d.packet_eq]
    exact holds_store _ _
  · rw [UInt32.lt_iff_toNat_lt, hsize]
    exact Nat.not_lt.mpr hfour

theorem heard_snoc (ds : List Announcement) (d : Announcement) (addr : UInt32) :
    heard (ds ++ [d]) addr
      = heard ds addr ++ if d.sender = addr then [d] else [] := by
  rw [heard, List.filter_append]
  by_cases h : d.sender = addr
  · rw [if_pos h]
    simp [heard, h]
  · rw [if_neg h]
    simp [heard, h]

theorem heard_ne_nil {ds : List Announcement} {addr : UInt32} :
    heard ds addr ≠ [] ↔ addr ∈ ds.map Announcement.sender := by
  simp [heard, List.filter_eq_nil_iff]

/-! ## What the table records -/

/-- A peer has the count of its sender's last announcement, and the interfaces of
    it unless it was the only one. -/
def Recorded (ds : List Announcement) (p : Peer) : Prop :=
  ∃ before d, heard ds p.addr = before ++ [d]
    ∧ p.interfaceCount = (UInt32.ofNat d.adverts.length).toInt32
    ∧ p.interfaces = if before = [] then none else some d.adverts

/-- The table after the announcements `ds`: one recorded peer for each sender. -/
structure Tracks (ds : List Announcement) (t : PeerTable) : Prop where
  room : ∀ slots, t.peers = some slots → slots.length = MAX_PEERS
  empty : t.peers = none → t.peerCount = 0
  count : t.peerCount ≤ MAX_PEERS
  nodup : (t.live.map Peer.addr).Nodup
  senders : ∀ addr, addr ∈ t.live.map Peer.addr
    ↔ addr ∈ ds.map Announcement.sender
  recorded : ∀ p ∈ t.live, Recorded ds p

theorem tracks_initial : Tracks [] PeerTable.initial :=
  ⟨(fun _ h => nomatch h), fun _ => rfl, Nat.zero_le _, List.nodup_nil,
    fun _ => Iff.rfl, (fun _ h => nomatch h)⟩

/-- The first call allocates the array, and changes nothing that is recorded. -/
theorem Tracks.ensure {ds : List Announcement} {t : PeerTable}
    (h : Tracks ds t) (hwell : t.WellFormed) : Tracks ds (ensurePeers t) := by
  obtain ⟨hwell', -, -, hlive⟩ := hwell.ensure
  refine ⟨hwell'.room, hwell'.empty, hwell'.count, hwell'.nodup, ?_, ?_⟩
  · rw [hlive]
    exact h.senders
  · rw [hlive]
    exact h.recorded

/-- An announcement of another sender changes nothing for a peer. -/
theorem Recorded.other {ds : List Announcement} {p : Peer} (h : Recorded ds p)
    {d : Announcement} (hne : d.sender ≠ p.addr) : Recorded (ds ++ [d]) p := by
  obtain ⟨before, last, hheard, hrest⟩ := h
  refine ⟨before, last, ?_, hrest⟩
  rw [heard_snoc, if_neg hne, List.append_nil]
  exact hheard

theorem Announcement.count_toInt (d : Announcement) :
    (UInt32.ofNat d.adverts.length).toInt32.toInt = d.adverts.length := by
  have hmax : MAX_INTERFACES.toNat = 256 := rfl
  have hlen : d.adverts.length ≤ 256 := by
    rw [Announcement.adverts, List.length_map, ← hmax]
    exact d.count_le
  have hword : (UInt32.ofNat d.adverts.length).toNat = d.adverts.length :=
    UInt32.toNat_ofNat_of_lt' (Nat.lt_of_le_of_lt hlen (by decide))
  rw [toInt_toInt32, hword, if_pos (by omega)]

/-! ## What an answer records -/

/-- **FIRST ANNOUNCEMENT**: `add_peer` appends a peer with the count of the list
    and without the list. -/
theorem Tracks.add {ds : List Announcement} {t : PeerTable} (h : Tracks ds t)
    (hwell : t.WellFormed) {slots : List Peer} (hslots : t.peers = some slots)
    {d : Announcement} (hfresh : t.Unknown d.sender)
    (hroom : t.peerCount < MAX_PEERS) :
    Tracks (ds ++ [d]) (t.withPeer d.sender d.adverts) := by
  have hnew : d.sender ∉ ds.map Announcement.sender := fun hmem =>
    hfresh ((h.senders d.sender).mpr hmem)
  have hwell' := hwell.withPeer hslots hfresh hroom d.adverts
  have hlive := PeerTable.live_withPeer hslots (h.room slots hslots) hroom d.sender
    d.adverts
  refine ⟨hwell'.room, hwell'.empty, hwell'.count, hwell'.nodup, ?_, ?_⟩
  · intro addr
    rw [hlive, List.map_append, List.map_append, List.mem_append,
      List.mem_append, h.senders addr]
    rfl
  · intro p hp
    rw [hlive] at hp
    rcases List.mem_append.mp hp with hold | hlast
    · refine (h.recorded p hold).other fun heq => hfresh ?_
      rw [heq]
      exact List.mem_map_of_mem hold
    · -- the new peer was not heard before
      have hnone : heard ds d.sender = [] := by
        by_contra hne
        exact hnew (heard_ne_nil.mp hne)
      rw [List.mem_singleton.mp hlast]
      refine ⟨[], d, ?_, rfl, rfl⟩
      show heard (ds ++ [d]) d.sender = _
      rw [heard_snoc, if_pos rfl, hnone]

/-- **LATER ANNOUNCEMENT**: `update_peer_interfaces` replaces count and list of the
    peer in slot `i`. -/
theorem Tracks.update {ds : List Announcement} {t : PeerTable}
    (h : Tracks ds t) (hwell : t.WellFormed) {d : Announcement} {i : Nat} {p : Peer}
    (hp : t.live[i]? = some p) (haddr : p.addr = d.sender) :
    Tracks (ds ++ [d]) (t.put i (p.withList d.adverts)) := by
  have hwell' := hwell.put hp d.adverts
  have haddrs := PeerTable.map_live_put hp (p.withList d.adverts) Peer.addr rfl
  have hmem : d.sender ∈ ds.map Announcement.sender := by
    rw [← haddr]
    exact (h.senders p.addr).mp (List.mem_map_of_mem (List.mem_of_getElem? hp))
  refine ⟨hwell'.room, hwell'.empty, hwell'.count, hwell'.nodup, ?_, ?_⟩
  · intro addr
    rw [haddrs, h.senders addr, List.map_append, List.mem_append]
    refine ⟨Or.inl, fun hor => hor.elim id fun hlast => ?_⟩
    rw [List.mem_singleton.mp hlast]
    exact hmem
  · intro q hq
    rw [PeerTable.live_put] at hq
    rcases mem_set_peer h.nodup hp hq with hnew | ⟨hold, hne⟩
    · rw [hnew]
      refine ⟨heard ds d.sender, d, ?_, rfl, ?_⟩
      · show heard (ds ++ [d]) p.addr = _
        rw [haddr, heard_snoc, if_pos rfl]
      · rw [if_neg (heard_ne_nil.mpr hmem)]
        rfl
    · rw [haddr] at hne
      exact (h.recorded q hold).other (Ne.symm hne)

/-! ## Rounds of the discovery loop -/

/-- At most `MAX_PEERS` hosts were heard. -/
def FewSenders (ds : List Announcement) : Prop :=
  (ds.map Announcement.sender).dedup.length ≤ MAX_PEERS

instance (ds : List Announcement) : Decidable (FewSenders ds) :=
  inferInstanceAs (Decidable (_ ≤ _))

theorem FewSenders.init {ds : List Announcement} {d : Announcement}
    (h : FewSenders (ds ++ [d])) : FewSenders ds := by
  refine Nat.le_trans (List.Subperm.length_le (List.subperm_of_subset
    (List.nodup_dedup _) fun addr haddr => ?_)) h
  rw [List.mem_dedup] at haddr ⊢
  rw [List.map_append]
  exact List.mem_append_left _ haddr

/-- While senders are few, a new one finds a free slot. -/
theorem Tracks.room_for {ds : List Announcement} {t : PeerTable}
    (h : Tracks ds t) (hwell : t.WellFormed) {d : Announcement}
    (hfew : FewSenders (ds ++ [d])) (hfresh : t.Unknown d.sender) :
    t.peerCount < MAX_PEERS := by
  have hle : (d.sender :: t.live.map Peer.addr).length
      ≤ ((ds ++ [d]).map Announcement.sender).dedup.length := by
    -- the sender and those in the table are different senders
    refine List.Subperm.length_le (List.subperm_of_subset
      (List.nodup_cons.mpr ⟨hfresh, h.nodup⟩) fun addr haddr => ?_)
    rw [List.mem_dedup, List.map_append, List.mem_append]
    rcases List.mem_cons.mp haddr with heq | hmem
    · exact Or.inr (List.mem_singleton.mpr heq)
    · exact Or.inl ((h.senders addr).mp hmem)
  rw [List.length_cons, List.length_map, hwell.length_live] at hle
  exact Nat.lt_of_lt_of_le hle hfew

/-- The answer to an announcement records it. -/
theorem Tracks.answered {ds : List Announcement} {t t' : PeerTable}
    (h : Tracks ds t) (hwell : t.WellFormed) {slots : List Peer}
    (hslots : t.peers = some slots) {d : Announcement}
    (hfew : FewSenders (ds ++ [d])) {decoded : Except Int (List Advert)}
    (hdec : decoded = .ok d.adverts) {answer : Except Int Unit}
    (ha : Answered t d.sender decoded answer t') : Tracks (ds ++ [d]) t' := by
  cases ha with
  | full err hnew hfull =>
      exact absurd (h.room_for hwell hfew hnew) (Nat.not_lt.mpr hfull)
  | rejected err => cases hdec
  | added hnew hroom =>
      cases hdec
      exact h.add hwell hslots hnew hroom
  | updated hp haddr =>
      cases hdec
      exact h.update hwell hp haddr

/-- **ONE ROUND** of the loop records the announcement. -/
theorem Tracks.round {ds : List Announcement} {s : Discovery}
    (h : Tracks ds s.table) (hwell : s.table.WellFormed) {d : Announcement}
    (hfew : FewSenders (ds ++ [d])) :
    ∃ s', discoveryServerLoop s d.reception = some s' ∧ s'.table.WellFormed
      ∧ Tracks (ds ++ [d]) s'.table := by
  obtain ⟨answer, t', hanswer, ha⟩ := hwell.answer d.reception
  obtain ⟨hwell1, ⟨slots, hslots⟩, -, -⟩ := hwell.ensure
  rw [s.receive_announcement d] at ha
  refine ⟨{ (s.receive d.reception).2 with table := t' }, ?_,
    (ha.keeps hwell1 hslots).1,
    (h.ensure hwell).answered hwell1 hslots hfew (d.decoded s.buffer) ha⟩
  rw [discoveryServerLoop_answer, hanswer]
  rfl

/-- **ALL ROUNDS**: the loop neither faults nor loses track. -/
theorem discovery_tracks (ds : List Announcement) (hfew : FewSenders ds) :
    ∃ s, runAll discoveryServerLoop Discovery.initial
        (ds.map Announcement.reception) = some s ∧ s.table.WellFormed
      ∧ Tracks ds s.table := by
  induction ds using List.reverseRecOn with
  | nil => exact ⟨Discovery.initial, rfl, wellFormed_initial, tracks_initial⟩
  | append_singleton ds d ih =>
      obtain ⟨s, hrun, hwell, h⟩ := ih hfew.init
      obtain ⟨s', hround, hrest⟩ := h.round hwell hfew
      refine ⟨s', ?_, hrest⟩
      rw [List.map_append, runAll_append, hrun, Option.bind_some]
      exact runAll_cons hround

/-! ## What readers of the table get -/

/-- The entries of a peer's array; NULL has none. -/
def Peer.entries (p : Peer) : List Advert := p.interfaces.getD []

/-- The peers with an address. -/
def PeerTable.peersAt (t : PeerTable) (addr : UInt32) : List Peer :=
  t.live.filter fun p => p.addr == addr

/-- The table reflects the network: each sender has exactly one peer, with the
    interfaces of its latest announcement and as many entries as its count says,
    and the readers of the devices find all the entries they look for. -/
structure Reflects (ds : List Announcement) (t : PeerTable) : Prop where
  latest : ∀ addr before d, heard ds addr = before ++ [d] →
    ∃ p, t.peersAt addr = [p] ∧ p.entries = d.adverts
      ∧ p.interfaceCount.toInt = p.entries.length
  readable : ∀ id, id < t.peerCount → (peerText id t).isSome
    ∧ ∀ interfaceId, (peerIoctlFind id interfaceId t).isSome

/-- Who was heard only once has listed no interfaces. -/
def SingleListsEmpty (ds : List Announcement) : Prop :=
  ∀ addr d, heard ds addr = [d] → d.listings = []

theorem filter_addr {ps : List Peer} (hnodup : (ps.map Peer.addr).Nodup)
    {p : Peer} (hp : p ∈ ps) : (ps.filter fun q => q.addr == p.addr) = [p] := by
  induction ps with
  | nil => exact nomatch hp
  | cons q ps ih =>
      rw [List.map_cons, List.nodup_cons] at hnodup
      obtain ⟨hq, hrest⟩ := hnodup
      rcases List.mem_cons.mp hp with heq | hmem
      · have hnone : (ps.filter fun r => r.addr == q.addr) = [] := by
          refine List.filter_eq_nil_iff.mpr fun r hr hbeq => hq ?_
          rw [← eq_of_beq hbeq]
          exact List.mem_map_of_mem hr
        rw [heq, List.filter_cons, if_pos (beq_self_eq_true q.addr), hnone]
      · have hne : ¬ (q.addr == p.addr) = true := fun hbeq => hq (by
          rw [eq_of_beq hbeq]
          exact List.mem_map_of_mem hmem)
        rw [List.filter_cons, if_neg hne]
        exact ih hrest hmem

/-- The one peer of a sender. -/
theorem Tracks.peersAt {ds : List Announcement} {t : PeerTable}
    (h : Tracks ds t) {addr : UInt32}
    (hmem : addr ∈ ds.map Announcement.sender) :
    ∃ p ∈ t.live, p.addr = addr ∧ t.peersAt addr = [p] := by
  obtain ⟨p, hp, haddr⟩ := List.mem_map.mp ((h.senders addr).mpr hmem)
  refine ⟨p, hp, haddr, ?_⟩
  rw [PeerTable.peersAt, ← haddr]
  exact filter_addr h.nodup hp

/-- What a recorded peer has, by its sender's announcements. -/
theorem Recorded.of_heard {ds : List Announcement} {p : Peer}
    (h : Recorded ds p) {before : List Announcement} {d : Announcement}
    (hheard : heard ds p.addr = before ++ [d]) :
    p.interfaceCount.toInt = d.adverts.length
      ∧ p.entries = if before = [] then [] else d.adverts := by
  obtain ⟨before', d', hheard', hcount, hinterfaces⟩ := h
  rw [hheard] at hheard'
  obtain ⟨hb, hd⟩ := List.append_inj' hheard' rfl
  rw [← hb] at hinterfaces
  rw [← List.cons.inj hd |>.1] at hcount hinterfaces
  refine ⟨by rw [hcount, d.count_toInt], ?_⟩
  rw [Peer.entries, hinterfaces]
  by_cases hfirst : before = []
  · rw [if_pos hfirst, if_pos hfirst]
    rfl
  · rw [if_neg hfirst, if_neg hfirst]
    rfl

theorem Peer.entry_eq (p : Peer) (i : Nat) : p.entry i = p.entries[i]? := by
  rw [Peer.entry, Peer.entries]
  cases p.interfaces with
  | none => rfl
  | some interfaces => rfl

theorem formatEntries_ok (p : Peer) (n i : Nat)
    (h : i + n ≤ p.entries.length) : (formatEntries p i n).isSome := by
  induction n generalizing i with
  | zero => rfl
  | succ n ih =>
      have hi : i < p.entries.length := by omega
      obtain ⟨rest, hrest⟩ := Option.isSome_iff_exists.mp (ih (i + 1) (by omega))
      rw [formatEntries, p.entry_eq, List.getElem?_eq_getElem hi, hrest]
      rfl

/-- The readers are safe with a peer whose count is the number of its entries. -/
theorem readers_ok {t : PeerTable} {id : Nat} {p : Peer}
    (hslot : t.slot id = some p)
    (hcount : p.interfaceCount.toInt = p.entries.length) :
    (peerText id t).isSome ∧ ∀ interfaceId, (peerIoctlFind id interfaceId t).isSome := by
  have hnat : p.interfaceCount.toInt.toNat = p.entries.length := by
    rw [hcount, Int.toNat_natCast]
  refine ⟨?_, fun interfaceId => ?_⟩
  · obtain ⟨entries, hentries⟩ := Option.isSome_iff_exists.mp
      (formatEntries_ok p p.interfaceCount.toInt.toNat 0 (by omega))
    rw [peerText, hslot, Option.bind_eq_bind, Option.bind_some, hentries]
    rfl
  · -- `peer_ioctl` searches as many entries as there are
    have hread : Readable p.entry p.interfaceCount.toInt.toNat := by
      intro i hi
      rw [hnat] at hi
      exact ⟨p.entries[i], by rw [p.entry_eq, List.getElem?_eq_getElem hi]⟩
    rw [peerIoctlFind, hslot, Option.bind_eq_bind, Option.bind_some,
      findInterface]
    rcases hread.search (fun x => x.id == interfaceId.toInt32.toUInt32)
      with ⟨hnone, -⟩ | ⟨hit, hsome, -⟩
    · rw [hnone]
      rfl
    · rw [hsome]
      rfl

/-- A table that tracks the network reflects it as far as the lists of those heard
    once were empty. -/
theorem Tracks.reflects_iff {ds : List Announcement} {t : PeerTable}
    (h : Tracks ds t) (hwell : t.WellFormed) : Reflects ds t ↔ SingleListsEmpty ds := by
  constructor
  · intro hr addr d hd
    -- the only list of a sender is dropped, so it has to be empty
    have hmem : addr ∈ ds.map Announcement.sender := by
      rw [← heard_ne_nil, hd]
      exact List.cons_ne_nil _ _
    obtain ⟨p, hp, haddr, hat⟩ := h.peersAt hmem
    obtain ⟨q, hat', hentries, -⟩ := hr.latest addr [] d hd
    rw [hat] at hat'
    have hone : heard ds p.addr = [] ++ [d] := by
      rw [haddr]
      exact hd
    obtain ⟨-, hnil⟩ := (h.recorded p hp).of_heard hone
    rw [← (List.cons.inj hat').1, hnil, if_pos rfl] at hentries
    exact List.map_eq_nil_iff.mp hentries.symm
  · intro hempty
    -- every peer has its latest list: a dropped one was empty
    have hfull : ∀ p ∈ t.live, ∀ before d, heard ds p.addr = before ++ [d] →
        p.entries = d.adverts ∧ p.interfaceCount.toInt = p.entries.length := by
      intro p hp before d hd
      obtain ⟨hcount, hentries⟩ := (h.recorded p hp).of_heard hd
      by_cases hfirst : before = []
      · rw [hfirst] at hd
        have hnil : d.adverts = [] := by
          rw [Announcement.adverts, hempty _ d hd]
          rfl
        rw [if_pos hfirst, ← hnil] at hentries
        exact ⟨hentries, by rw [hcount, hentries]⟩
      · rw [if_neg hfirst] at hentries
        exact ⟨hentries, by rw [hcount, hentries]⟩
    refine ⟨fun addr before d hd => ?_, fun id hid => ?_⟩
    · have hmem : addr ∈ ds.map Announcement.sender := by
        rw [← heard_ne_nil, hd]
        exact List.append_ne_nil_of_right_ne_nil _ (List.cons_ne_nil _ _)
      obtain ⟨p, hp, haddr, hat⟩ := h.peersAt hmem
      exact ⟨p, hat, hfull p hp before d (by rw [haddr]; exact hd)⟩
    · obtain ⟨p, hslot⟩ := hwell.readable id hid
      have hp : p ∈ t.live := List.mem_of_getElem? ((t.slot_eq_live hid).symm.trans
        hslot)
      obtain ⟨before, d, hd, -⟩ := h.recorded p hp
      exact readers_ok hslot (hfull p hp before d hd).2

/-- **THE TABLE REFLECTS THE NETWORK** exactly when nobody who was heard only once
    has listed an interface. -/
theorem peers_reflect_iff (ds : List Announcement) (hfew : FewSenders ds) :
    ∃ s, runAll discoveryServerLoop Discovery.initial
        (ds.map Announcement.reception) = some s
      ∧ (Reflects ds s.table ↔ SingleListsEmpty ds) := by
  obtain ⟨s, hrun, hwell, h⟩ := discovery_tracks ds hfew
  exact ⟨s, hrun, h.reflects_iff hwell⟩

/-- A host that serves one interface without arguments and results. -/
def Announcement.one : Announcement where
  sender := 1
  listings := [⟨1, [], []⟩]
  packet := listEncoding [⟨1, [], []⟩]
  count_le := by decide
  fits := by decide
  serialized := by decide
  received := by decide

/-- A host that is heard twice. -/
theorem peers_reflect_iff_twice :
    ∃ s, runAll discoveryServerLoop Discovery.initial
        ([.one, .one].map Announcement.reception) = some s
      ∧ Reflects [.one, .one] s.table := by
  obtain ⟨s, hrun, hiff⟩ := peers_reflect_iff [.one, .one] (by decide)
  refine ⟨s, hrun, hiff.mpr fun addr d hd => ?_⟩
  by_cases haddr : Announcement.one.sender = addr
  · simp [heard, haddr] at hd
  · simp [heard, haddr] at hd

/-- After the first announcement of a host its interface is counted, and not
    there. -/
theorem first_list_dropped :
    ¬ ∀ ds : List Announcement, FewSenders ds → ∀ s,
      runAll discoveryServerLoop Discovery.initial
        (ds.map Announcement.reception) = some s → Reflects ds s.table := by
  intro hall
  obtain ⟨s, hrun, hwell, h⟩ := discovery_tracks [.one] (by decide)
  have hempty := (h.reflects_iff hwell).mp (hall [.one] (by decide) s hrun) 1 .one rfl
  exact absurd hempty (by decide)

end DistComm
