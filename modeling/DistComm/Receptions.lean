import DistComm.Peers

/-! # The discovery loop on whatever it receives

    `discovery_server_loop` on datagrams of any content and on failed receives.

    A peer keeps id and address for ever, and what is refused changes nothing
    (`peers_keep_identity`).  The loop does not look at a failure: it applies what
    the buffer holds once more, and the table is the one without the failures
    exactly while every failure finds nothing to apply
    (`failed_receives_iff`). -/

namespace DistComm

open RawMemory RawScan PointerArray Transition

/-! ## Decoded lists -/

/-- What is decoded from a list packet, whatever length it is given, is the list. -/
theorem decoded_listEncoding {ls : List Listing} (hls : Listable ls) {m : Mem}
    (hm : Holds m 0 (listEncoding ls)) {packetLength : UInt32} {xs : List Advert}
    (h : (unserializeInterfacesPacket packetLength m 0).val = .ok xs) :
    xs = ls.map Listing.advert ∧ ls.length ≤ MAX_INTERFACES.toNat := by
  by_cases hshort : packetLength < 4
  · rw [unserializeInterfacesPacket, if_pos hshort] at h
    cases h
  by_cases hcount : ls.length ≤ MAX_INTERFACES.toNat
  · rw [unserializeInterfacesPacket_listEncoding hls hcount hm hshort] at h
    exact ⟨(Except.ok.inj h).symm, hcount⟩
  · have hword : wordAt m 0 = UInt32.ofNat ls.length :=
      wordAt_of_holds (holds_append.mp hm).1
    rw [unserializeInterfacesPacket_crowded hshort (by
      rw [hword, UInt32.lt_iff_toNat_lt, UInt32.toNat_ofNat_of_lt' hls.1]
      exact Nat.lt_of_not_le hcount)] at h
    cases h

/-- The count of a list that was accepted. -/
theorem toInt_count {n : Nat} (hn : n ≤ MAX_INTERFACES.toNat) :
    (UInt32.ofNat n).toInt32.toInt = n := by
  have hmax : MAX_INTERFACES.toNat = 256 := rfl
  have hword : (UInt32.ofNat n).toNat = n :=
    UInt32.toNat_ofNat_of_lt' (Nat.lt_of_le_of_lt hn (by decide))
  rw [toInt_toInt32, hword, if_pos (by omega)]

/-- A list that is decoded has no more interfaces than are accepted. -/
theorem decoded_few {packetLength : UInt32} {m : Mem} {xs : List Advert}
    (h : (unserializeInterfacesPacket packetLength m 0).val = .ok xs) :
    xs.length ≤ MAX_INTERFACES.toNat := by
  obtain ⟨ls, hls, hm⟩ := parses_interfaceList.sound m 0
  obtain ⟨heq, hfew⟩ := decoded_listEncoding hls hm h
  rw [heq, List.length_map]
  exact hfew

/-! ## Identity -/

/-- The state in which the loop is entered, whatever lies in the buffer and behind
    it. -/
def Discovery.entered (buffer : Mem) : Discovery :=
  ⟨0, buffer, PeerTable.initial⟩

/-- At most `MAX_PEERS` peers, each with its index for an id, and no two of them
    with one address. -/
structure PeerTable.Identified (t : PeerTable) : Prop where
  count : t.peerCount ≤ MAX_PEERS
  ids : t.live.map Peer.id = List.range t.peerCount
  nodup : (t.live.map Peer.addr).Nodup

/-- A refusal leaves the peers alone. -/
theorem Answered.refused {t t' : PeerTable} {addr : UInt32}
    {decoded : Except Int (List Advert)} {err : Int}
    (ha : Answered t addr decoded (.error err) t') : t' = t := by
  cases ha with
  | full err hnew hfull => rfl
  | rejected err => rfl

/-- **IDENTITY**: whatever the loop receives, the peers are identified by their
    indices and by their addresses, remain what they are whatever comes next, and
    are untouched by what is refused. -/
theorem peers_keep_identity (buffer : Mem) (rs : List Reception) :
    ∃ s, runAll discoveryServerLoop (Discovery.entered buffer) rs = some s
      ∧ s.table.Identified
      ∧ (∀ more, ∃ s', runAll discoveryServerLoop s more = some s'
          ∧ s.table.peerCount ≤ s'.table.peerCount ∧ s.table.KeptIn s'.table)
      ∧ ∀ r err t', s.answer r = some (.error err, t') →
          ∃ s', discoveryServerLoop s r = some s'
            ∧ s'.table.peerCount = s.table.peerCount
            ∧ s'.table.live = s.table.live := by
  obtain ⟨s, hrun, h, -⟩ :=
    PeerTable.WellFormed.run (s := Discovery.entered buffer) wellFormed_initial rs
  refine ⟨s, hrun, ⟨h.count, h.ids, h.nodup⟩, fun more => ?_,
    fun r err t' hanswer => ?_⟩
  · obtain ⟨s', hmore, h', hkept⟩ := h.run more
    refine ⟨s', hmore, ?_, hkept⟩
    rw [← h.length_live, ← h'.length_live]
    by_contra hlt
    -- the slot behind the later peers would have held a peer
    have hin : s'.table.live.length < s.table.live.length := Nat.lt_of_not_le hlt
    obtain ⟨q, hq, -⟩ := hkept _ _ (List.getElem?_eq_getElem hin)
    exact Nat.lt_irrefl _ (List.getElem?_eq_some_iff.mp hq).1
  · obtain ⟨answer, t, hanswer', ha⟩ := h.answer r
    obtain ⟨-, -, hcount, hlive⟩ := h.ensure
    rw [hanswer] at hanswer'
    cases Option.some.inj hanswer'
    refine ⟨{ (s.receive r).2 with table := t' }, ?_, ?_⟩
    · rw [discoveryServerLoop_answer, hanswer]
      rfl
    · show t'.peerCount = _ ∧ t'.live = _
      rw [ha.refused]
      exact ⟨hcount, hlive⟩

/-! ## Failed receives -/

/-- The list that lies in the buffer, as the decoder reads it. -/
def listIn (buffer : Mem) : List Advert := (interfaceList buffer 0).val

/-- The peer has the list and the count of it. -/
def Peer.Lists (p : Peer) (interfaces : List Advert) : Prop :=
  p.interfaces = some interfaces
    ∧ p.interfaceCount = (UInt32.ofNat interfaces.length).toInt32

/-- A failed receive finds nothing to apply: the buffer holds no acceptable count,
    or the last sender found the table full, or its peer has what the buffer
    holds. -/
def Discovery.Harmless (s : Discovery) : Prop :=
  s.table.peers ≠ none
    ∧ (MAX_INTERFACES < wordAt s.buffer 0
      ∨ (s.table.Unknown s.fromAddr ∧ MAX_PEERS ≤ s.table.peerCount)
      ∨ ∃ p ∈ s.table.live, p.addr = s.fromAddr ∧ p.Lists (listIn s.buffer))

/-- A negative error passes for the length of a long packet. -/
theorem decoded_failed {err : Int32} (herr : err < 0) (buffer : Mem) :
    (unserializeInterfacesPacket err.toUInt32 buffer 0).val
      = if MAX_INTERFACES < wordAt buffer 0
        then .error (-EINVALIDINTERFACECOUNT) else .ok (listIn buffer) := by
  have hlong : ¬ err.toUInt32 < 4 := by
    intro hshort
    rw [UInt32.lt_iff_toNat_lt] at hshort
    -- a negative `int` is 2^31 at least as a `uint32_t`
    have hfour : (4 : UInt32).toNat = 4 := rfl
    have hint := toInt_toInt32 err.toUInt32
    rw [if_pos (by omega)] at hint
    have hneg : err.toUInt32.toInt32.toInt < (0 : Int32).toInt :=
      Int32.lt_iff_toInt_lt.mp herr
    have hzero : (0 : Int32).toInt = 0 := rfl
    omega
  by_cases hcount : MAX_INTERFACES < wordAt buffer 0
  · rw [if_pos hcount, unserializeInterfacesPacket, if_neg hlong, run_bind,
      run_word, if_pos hcount]
    rfl
  · rw [if_neg hcount, run_unserializeInterfacesPacket hlong hcount, listIn]

theorem PeerTable.put_eq_self {t : PeerTable} {slots : List Peer}
    (hslots : t.peers = some slots) {i : Nat} {p q : Peer}
    (hp : t.live[i]? = some p) : t.put i q = t ↔ q = p := by
  have hslot : slots[i]? = some p := by
    rw [PeerTable.live_of_some hslots] at hp
    have hlt := (List.getElem?_eq_some_iff.mp hp).1
    rw [List.length_take] at hlt
    rwa [List.getElem?_take_of_lt (Nat.lt_of_lt_of_le hlt (Nat.min_le_left _ _))]
      at hp
  obtain ⟨hin, hget⟩ := List.getElem?_eq_some_iff.mp hslot
  constructor
  · intro heq
    have hpeers := congrArg PeerTable.peers heq
    rw [PeerTable.put, hslots] at hpeers
    have hset : slots.set i q = slots := Option.some.inj hpeers
    have hq : (slots.set i q)[i]? = some q := List.getElem?_set_self hin
    rw [hset, hslot] at hq
    exact (Option.some.inj hq).symm
  · intro heq
    rw [PeerTable.put, hslots, heq, ← hget, Option.map_some,
      List.set_getElem_self, ← hslots]

theorem Peer.withList_eq_self {p : Peer} {interfaces : List Advert} :
    p.withList interfaces = p ↔ p.Lists interfaces := by
  cases p
  simp only [Peer.withList, Peer.Lists, Peer.mk.injEq, true_and]
  exact ⟨fun h => ⟨h.1.symm, h.2.symm⟩, fun h => ⟨h.1.symm, h.2.symm⟩⟩

/-- Which answers leave the table as it was. -/
theorem Answered.unchanged_iff {t t' : PeerTable} {addr : UInt32}
    {decoded : Except Int (List Advert)} {answer : Except Int Unit}
    (ha : Answered t addr decoded answer t') (h : t.WellFormed)
    {slots : List Peer} (hslots : t.peers = some slots) :
    t' = t ↔ (∃ err, decoded = .error err)
      ∨ (t.Unknown addr ∧ MAX_PEERS ≤ t.peerCount)
      ∨ ∃ interfaces, decoded = .ok interfaces
          ∧ ∃ p ∈ t.live, p.addr = addr ∧ p.Lists interfaces := by
  cases ha with
  | full err hnew hfull => exact ⟨fun _ => Or.inr (Or.inl ⟨hnew, hfull⟩), fun _ => rfl⟩
  | rejected err => exact ⟨fun _ => Or.inl ⟨err, rfl⟩, fun _ => rfl⟩
  | @added interfaces hnew hroom =>
      constructor
      · intro heq
        exact absurd (congrArg PeerTable.peerCount heq) (Nat.succ_ne_self _)
      · rintro (⟨err, h0⟩ | ⟨-, hfull⟩ | ⟨-, -, p, hp, haddr, -⟩)
        · exact nomatch h0
        · exact absurd hroom (Nat.not_lt.mpr hfull)
        · rw [← haddr] at hnew
          exact absurd (List.mem_map_of_mem hp) hnew
  | @updated interfaces i p hp haddr =>
      have hmem := List.mem_of_getElem? hp
      rw [PeerTable.put_eq_self hslots hp, Peer.withList_eq_self]
      constructor
      · intro hlists
        exact Or.inr (Or.inr ⟨interfaces, rfl, p, hmem, haddr, hlists⟩)
      · rintro (⟨err, h0⟩ | ⟨hnew, -⟩ | ⟨others, hok, q, hq, haddr', hlists⟩)
        · exact nomatch h0
        · rw [← haddr] at hnew
          exact absurd (List.mem_map_of_mem hmem) hnew
        · -- one address, one peer
          cases Except.ok.inj hok
          have hsame : q = p := List.inj_on_of_nodup_map h.nodup hq hmem
            (haddr'.trans haddr.symm)
          rw [← hsame]
          exact hlists

/-- No answer loses the array. -/
theorem Answered.allocated {t t' : PeerTable} {addr : UInt32}
    {decoded : Except Int (List Advert)} {answer : Except Int Unit}
    (ha : Answered t addr decoded answer t') {slots : List Peer}
    (hslots : t.peers = some slots) : t'.peers ≠ none := by
  have hput : ∀ i p, (t.put i p).peers ≠ none := by
    intro i p hnone
    rw [PeerTable.put, hslots] at hnone
    exact Option.some_ne_none _ hnone
  cases ha with
  | full err hnew hfull =>
      rw [hslots]
      exact Option.some_ne_none _
  | rejected err =>
      rw [hslots]
      exact Option.some_ne_none _
  | added hnew hroom => exact hput _ _
  | updated hp haddr => exact hput _ _

/-- **A FAILED RECEIVE** leaves the table as it was exactly if it is harmless. -/
theorem PeerTable.WellFormed.failed_iff {s : Discovery}
    (h : s.table.WellFormed) {err : Int32} (herr : err < 0) :
    ∃ t', discoveryServerLoop s (.failed err) = some { s with table := t' }
      ∧ (t' = s.table ↔ s.Harmless) := by
  obtain ⟨answer, t', hanswer, ha⟩ := h.answer (.failed err)
  refine ⟨t', ?_, ?_⟩
  · rw [discoveryServerLoop_answer, hanswer]
    rfl
  have hdec := decoded_failed herr s.buffer
  change Answered (ensurePeers s.table) s.fromAddr
    (unserializeInterfacesPacket err.toUInt32 s.buffer 0).val answer t' at ha
  cases hpeers : s.table.peers with
  | none =>
      -- the first receive: the array is allocated now
      obtain ⟨-, ⟨slots, hslots⟩, -⟩ := h.ensure
      refine ⟨fun heq => ?_, fun hharmless => absurd hpeers hharmless.1⟩
      rw [← heq] at hpeers
      exact absurd hpeers (ha.allocated hslots)
  | some slots =>
      have hens : ensurePeers s.table = s.table := by rw [ensurePeers, hpeers]
      rw [hens] at ha
      rw [ha.unchanged_iff h hpeers, hdec]
      have hsome : s.table.peers ≠ none := by
        rw [hpeers]
        exact Option.some_ne_none _
      by_cases hcount : MAX_INTERFACES < wordAt s.buffer 0
      · rw [if_pos hcount]
        exact ⟨fun _ => ⟨hsome, Or.inl hcount⟩, fun _ => Or.inl ⟨_, rfl⟩⟩
      · rw [if_neg hcount]
        constructor
        · rintro (⟨err', h0⟩ | hfull | ⟨interfaces, hok, hp⟩)
          · cases h0
          · exact ⟨hsome, Or.inr (Or.inl hfull)⟩
          · cases Except.ok.inj hok
            exact ⟨hsome, Or.inr (Or.inr hp)⟩
        · rintro ⟨-, h0 | hfull | hp⟩
          · exact absurd h0 hcount
          · exact Or.inr (Or.inl hfull)
          · exact Or.inr (Or.inr ⟨_, rfl, hp⟩)

def Reception.isDatagram : Reception → Bool
  | .datagram _ _ => true
  | .failed _ => false

/-- The table of peers after some receptions. -/
def tableAfter (s : Discovery) (rs : List Reception) : Option PeerTable :=
  (runAll discoveryServerLoop s rs).map Discovery.table

/-- At every moment the table is the one without the failed receives so far. -/
def FailuresIgnored (s : Discovery) (rs : List Reception) : Prop :=
  ∀ n, tableAfter s (rs.take n)
    = tableAfter s ((rs.take n).filter Reception.isDatagram)

/-- The reception is a datagram, or a failure that finds nothing to apply. -/
def HarmlessStep (s : Discovery) (r : Reception) : Prop :=
  r.isDatagram ∨ s.Harmless

theorem tableAfter_cons {s s' : Discovery} {r : Reception}
    (h : discoveryServerLoop s r = some s') (rs : List Reception) :
    tableAfter s (r :: rs) = tableAfter s' rs := by
  rw [tableAfter, runAll_cons h, tableAfter]

/-- Failures are ignored exactly if the first one is harmless, and those after the
    first reception are ignored. -/
theorem failuresIgnored_cons {s : Discovery} (h : s.table.WellFormed)
    {r : Reception} (hneg : ∀ err, r = .failed err → err < 0)
    (rs : List Reception) :
    FailuresIgnored s (r :: rs) ↔ HarmlessStep s r
      ∧ ∀ t, discoveryServerLoop s r = some t → FailuresIgnored t rs := by
  cases r with
  | datagram sender bytes =>
      obtain ⟨t, ht, -⟩ := h.round (.datagram sender bytes)
      have hcons := tableAfter_cons ht
      constructor
      · intro hall
        refine ⟨Or.inl rfl, fun t' ht' n => ?_⟩
        cases Option.some.inj (ht.symm.trans ht')
        -- both runs begin with the datagram
        rw [← hcons, ← hcons]
        exact hall (n + 1)
      · rintro ⟨-, hrest⟩ n
        cases n with
        | zero => rfl
        | succ n =>
            show tableAfter s (_ :: _) = tableAfter s (_ :: _)
            rw [hcons, hcons]
            exact hrest t ht n
  | failed err =>
      obtain ⟨t', ht, hiff⟩ := h.failed_iff (hneg err rfl)
      have hcons := tableAfter_cons ht
      have hback : t' = s.table → ({ s with table := t' } : Discovery) = s := by
        intro heq
        rw [heq]
      constructor
      · intro hall
        -- after one reception the table has to be the one before it
        have hone := hall 1
        change tableAfter s [.failed err] = some s.table at hone
        rw [hcons] at hone
        have heq : t' = s.table := Option.some.inj hone
        refine ⟨Or.inr (hiff.mp heq), fun u hu n => ?_⟩
        rw [hback heq] at ht hcons
        cases Option.some.inj (ht.symm.trans hu)
        rw [← hcons]
        exact hall (n + 1)
      · rintro ⟨hharmless, hrest⟩ n
        have heq : t' = s.table := hiff.mpr
          (hharmless.elim (fun h0 => nomatch h0) id)
        rw [hback heq] at ht hcons
        cases n with
        | zero => rfl
        | succ n =>
            show tableAfter s (.failed err :: _) = _
            rw [hcons]
            exact hrest s ht n

/-- **FAILED RECEIVES** change nothing exactly while each of them finds nothing to
    apply. -/
theorem failed_receives_iff (buffer : Mem) (rs : List Reception)
    (hneg : ∀ err, .failed err ∈ rs → err < 0) :
    FailuresIgnored (Discovery.entered buffer) rs
      ↔ AlongRun discoveryServerLoop HarmlessStep (Discovery.entered buffer)
          rs := by
  have hwell : (Discovery.entered buffer).table.WellFormed := wellFormed_initial
  generalize Discovery.entered buffer = s at hwell ⊢
  induction rs generalizing s with
  | nil => exact ⟨fun _ => trivial, fun _ n => by rw [List.take_nil]; rfl⟩
  | cons r rs ih =>
      have hhead : ∀ err, r = .failed err → err < 0 := by
        intro err heq
        rw [heq] at hneg
        exact hneg err (List.mem_cons_self ..)
      rw [failuresIgnored_cons hwell hhead, AlongRun]
      refine and_congr_right fun _ => forall_congr' fun t =>
        forall_congr' fun ht => ?_
      obtain ⟨t', ht', hwell', -⟩ := hwell.round r
      cases Option.some.inj (ht.symm.trans ht')
      exact ih (fun err herr => hneg err (List.mem_cons_of_mem r herr)) t hwell'

/-- A failure behind a datagram with an excessive count changes nothing. -/
theorem failed_receives_iff_rejected :
    FailuresIgnored (Discovery.entered fun _ => 0)
      [.datagram 1 [255, 255, 255, 255], .failed (-4)] := by
  refine (failed_receives_iff _ _ fun err herr => ?_).mpr ?_
  · have herr : err = -4 := by simpa using herr
    rw [herr]
    decide
  · refine ⟨Or.inl rfl, fun t ht => ⟨Or.inr ?_, fun _ _ => trivial⟩⟩
    have hround : discoveryServerLoop (Discovery.entered fun _ => 0)
        (.datagram 1 [255, 255, 255, 255])
          = some ⟨1, store [255, 255, 255, 255] fun _ => 0,
              initPeers PeerTable.initial⟩ := rfl
    cases Option.some.inj (hround.symm.trans ht)
    have hcount : wordAt (store [255, 255, 255, 255] fun _ => 0) 0 = 4294967295 :=
      wordAt_of_holds (holds_store [255, 255, 255, 255] fun _ => 0)
    refine ⟨Option.some_ne_none _, Or.inl ?_⟩
    show MAX_INTERFACES < wordAt (store [255, 255, 255, 255] fun _ => 0) 0
    rw [hcount]
    decide

/-- A failure as the first thing received is applied like an empty list. -/
theorem first_failure_applied :
    ¬ FailuresIgnored (Discovery.entered fun _ => 0) [.failed (-4)] := by
  intro hall
  obtain ⟨t', ht, hiff⟩ := @PeerTable.WellFormed.failed_iff
    (Discovery.entered fun _ => 0) wellFormed_initial (-4) (by decide)
  -- the array of peers is there now, and was not before
  have hone := hall 1
  change tableAfter _ [.failed (-4)] = some PeerTable.initial at hone
  rw [tableAfter_cons ht] at hone
  exact (hiff.mp (Option.some.inj hone)).1 rfl

end DistComm
