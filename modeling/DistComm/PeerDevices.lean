import DistComm.Announcements

/-! # Devices of peers

    `add_peer` registers a device for every peer, with the index of the peer as its
    minor.  The table has room for `MAX_PEERS` peers, but `init_peer_major_device` of
    `module/device/peer.c` has reserved 100 minors, and attached no more to
    `peer_cdev`: from the 101st on, a peer has a device file that nobody can open.
    All peers are reachable as long as one is added only to fewer than 100
    (`peers_reachable_iff`). -/

namespace DistComm

open RawMemory RawScan Transition

/-- The number of minors in `init_peer_major_device`, for `alloc_chrdev_region` and
    for `cdev_add`. -/
def PEER_MINORS : Nat := 100

/-- `/dev/dcp<minor>`, opened: the peer that `peer_read` and `peer_ioctl` find by the
    minor.  There must be a device file, and `peer_cdev` must have the minor. -/
def openPeerDevice (minor : Nat) (t : PeerTable) : Option Peer :=
  if minor ∈ t.devices ∧ minor < PEER_MINORS then t.slot minor else none

/-- Every peer has a device, with a minor in the registered range, and the device
    reaches the peer. -/
def PeerTable.AllReachable (t : PeerTable) : Prop :=
  ∀ p ∈ t.live, p.id ∈ t.devices ∧ p.id < PEER_MINORS
    ∧ openPeerDevice p.id t = some p

/-- The reception is a list that can be decoded, of a sender that is not in the
    table. -/
def AddsPeer (s : Discovery) (r : Reception) : Prop :=
  s.table.Unknown (s.receive r).2.fromAddr
    ∧ ∃ interfaces, (unserializeInterfacesPacket (s.receive r).1.toUInt32
        (s.receive r).2.buffer 0).val = .ok interfaces

/-- A peer is added to fewer than the registered number of minors. -/
def AddsInRange (s : Discovery) (r : Reception) : Prop :=
  AddsPeer s r → s.table.peerCount < PEER_MINORS

/-! ## One device for each peer -/

/-- The table is well formed, and its peers have a device each. -/
structure PeerTable.Equipped (t : PeerTable) : Prop where
  well : t.WellFormed
  devices : t.devices = List.range t.peerCount

theorem equipped_initial : PeerTable.initial.Equipped := ⟨wellFormed_initial, rfl⟩

/-- The peer in slot `i` has the id `i`. -/
theorem PeerTable.WellFormed.id_eq {t : PeerTable} (h : t.WellFormed) {i : Nat}
    {p : Peer} (hp : t.live[i]? = some p) : p.id = i := by
  have hid : (t.live.map Peer.id)[i]? = some p.id := by
    rw [List.getElem?_map, hp]
    rfl
  rw [h.ids, List.getElem?_range (h.lt_count hp)] at hid
  exact (Option.some.inj hid).symm

/-- **DEVICES** reach all peers exactly if there are no more peers than minors. -/
theorem PeerTable.Equipped.reachable_iff {t : PeerTable} (h : t.Equipped) :
    t.AllReachable ↔ t.peerCount ≤ PEER_MINORS := by
  constructor
  · intro hall
    by_contra hmany
    -- the peer behind the last minor
    have hlt : PEER_MINORS < t.live.length := by
      rw [h.well.length_live]
      exact Nat.lt_of_not_le hmany
    have hp : t.live[PEER_MINORS]? = some t.live[PEER_MINORS] :=
      List.getElem?_eq_getElem hlt
    obtain ⟨-, hminor, -⟩ := hall _ (List.mem_of_getElem? hp)
    rw [h.well.id_eq hp] at hminor
    exact Nat.lt_irrefl _ hminor
  · intro hle p hp
    obtain ⟨i, hi⟩ := List.mem_iff_getElem?.mp hp
    have hcount := h.well.lt_count hi
    have hdevice : p.id ∈ t.devices := by
      rw [h.devices, h.well.id_eq hi]
      exact List.mem_range.mpr hcount
    have hminor : p.id < PEER_MINORS := by
      rw [h.well.id_eq hi]
      exact Nat.lt_of_lt_of_le hcount hle
    refine ⟨hdevice, hminor, ?_⟩
    rw [openPeerDevice, if_pos ⟨hdevice, hminor⟩, h.well.id_eq hi,
      t.slot_eq_live hcount, hi]

theorem PeerTable.Equipped.ensure {t : PeerTable} (h : t.Equipped) :
    (ensurePeers t).Equipped := by
  obtain ⟨hwell, -, hcount, -⟩ := h.well.ensure
  refine ⟨hwell, ?_⟩
  have hdevices : (ensurePeers t).devices = t.devices := by
    rw [ensurePeers]
    cases t.peers with
    | none => rfl
    | some slots => rfl
  rw [hdevices, hcount, h.devices]

/-- An answer adds a device with each peer. -/
theorem Answered.equipped {t t' : PeerTable} {addr : UInt32}
    {decoded : Except Int (List Advert)} {answer : Except Int Unit}
    (ha : Answered t addr decoded answer t') (h : t.Equipped) {slots : List Peer}
    (hslots : t.peers = some slots) : t'.Equipped := by
  refine ⟨(ha.keeps h.well hslots).1, ?_⟩
  cases ha with
  | full err _ _ => exact h.devices
  | rejected err => exact h.devices
  | added _ _ =>
      show t.devices ++ [t.peerCount] = List.range (t.peerCount + 1)
      rw [h.devices, List.range_succ]
  | updated _ _ => exact h.devices

/-- How many peers an answer leaves: one more where the sender is unknown and its
    list was decoded. -/
theorem Answered.count_iff {t t' : PeerTable} {addr : UInt32}
    {decoded : Except Int (List Advert)} {answer : Except Int Unit}
    (ha : Answered t addr decoded answer t') (hle : t.peerCount ≤ PEER_MINORS) :
    t'.peerCount ≤ PEER_MINORS
      ↔ (t.Unknown addr ∧ (∃ interfaces, decoded = .ok interfaces)
        → t.peerCount < PEER_MINORS) := by
  cases ha with
  | full err _ hfull => exact absurd (Nat.le_trans hfull hle) (by decide)
  | rejected err =>
      refine ⟨fun _ h => ?_, fun _ => hle⟩
      obtain ⟨-, interfaces, hok⟩ := h
      cases hok
  | added hnew _ =>
      show t.peerCount + 1 ≤ _ ↔ _
      exact ⟨fun h _ => h, fun h => h ⟨hnew, _, rfl⟩⟩
  | updated hp haddr =>
      refine ⟨fun _ h => absurd ?_ h.1, fun _ => hle⟩
      rw [← haddr]
      exact List.mem_map_of_mem (List.mem_of_getElem? hp)

/-! ## Runs -/

/-- **ONE ROUND** keeps the devices, and all peers reachable exactly if it adds in
    range. -/
theorem PeerTable.Equipped.round {s s' : Discovery} {r : Reception}
    (h : s.table.Equipped) (hall : s.table.AllReachable)
    (hround : discoveryServerLoop s r = some s') :
    s'.table.Equipped ∧ (s'.table.AllReachable ↔ AddsInRange s r) := by
  have hle := h.reachable_iff.mp hall
  obtain ⟨answer, t', hanswer, ha⟩ := h.well.answer r
  obtain ⟨-, ⟨slots, hslots⟩, hcount, hlive⟩ := h.well.ensure
  have htable : s'.table = t' := by
    rw [discoveryServerLoop_answer, hanswer] at hround
    cases hround
    rfl
  have h' := ha.equipped h.ensure hslots
  rw [htable]
  refine ⟨h', ?_⟩
  rw [h'.reachable_iff, ha.count_iff (by rw [hcount]; exact hle), hcount,
    PeerTable.Unknown, hlive]
  exact Iff.rfl

/-- **PEERS ARE REACHABLE** through their devices in every state of a run exactly if
    each of its rounds adds in range. -/
theorem peers_reachable_iff (rs : List Reception) :
    Throughout discoveryServerLoop (fun s => s.table.AllReachable)
        Discovery.initial rs
      ↔ AlongRun discoveryServerLoop AddsInRange Discovery.initial rs := by
  obtain ⟨s, hrun, -, -⟩ := PeerTable.WellFormed.run
    (s := Discovery.initial) wellFormed_initial rs
  have hstart : Discovery.initial.table.AllReachable :=
    fun _ hp => absurd hp List.not_mem_nil
  exact throughout_alongRun (I := fun s => s.table.Equipped)
    (fun _ _ _ h hall hround => h.round hall hround) rs equipped_initial hstart hrun

/-- A host that serves one interface, at the given address. -/
def Announcement.oneAt (sender : UInt32) : Announcement :=
  { Announcement.one with sender }

/-- A hundred and one hosts. -/
def manyHosts : List Announcement :=
  (List.range 101).map fun i => .oneAt (UInt32.ofNat i)

theorem senders_manyHosts :
    manyHosts.map Announcement.sender = (List.range 101).map UInt32.ofNat := by
  rw [manyHosts, List.map_map]
  rfl

theorem nodup_manyHosts : (manyHosts.map Announcement.sender).Nodup := by
  rw [senders_manyHosts]
  refine List.Nodup.map_on (fun i hi j hj heq => ?_) List.nodup_range
  have hword := congrArg UInt32.toNat heq
  have hi' := List.mem_range.mp hi
  have hj' := List.mem_range.mp hj
  rwa [UInt32.toNat_ofNat_of_lt' (Nat.lt_trans hi' (by decide)),
    UInt32.toNat_ofNat_of_lt' (Nat.lt_trans hj' (by decide))] at hword

/-- After an announcement of each of them there are more peers than minors. -/
theorem unreachable_peer :
    ¬ ∀ (rs : List Reception) (s : Discovery),
      runAll discoveryServerLoop Discovery.initial rs = some s →
      s.table.AllReachable := by
  intro hall
  have hlength : (manyHosts.map Announcement.sender).length = 101 := by
    rw [senders_manyHosts, List.length_map, List.length_range]
  obtain ⟨s, hrun, hwell, htracks⟩ := discovery_tracks manyHosts (by
    rw [FewSenders, List.Nodup.dedup nodup_manyHosts, hlength]
    decide)
  have hlt : PEER_MINORS < s.table.live.length := by
    have hle := (List.subperm_of_subset nodup_manyHosts
      fun addr haddr => (htracks.senders addr).mpr haddr).length_le
    rwa [hlength, List.length_map] at hle
  -- the peer behind the last minor
  have hp : s.table.live[PEER_MINORS]? = some s.table.live[PEER_MINORS] :=
    List.getElem?_eq_getElem hlt
  obtain ⟨-, hminor, -⟩ := hall _ s hrun _ (List.mem_of_getElem? hp)
  rw [hwell.id_eq hp] at hminor
  exact Nat.lt_irrefl _ hminor

end DistComm
