import DistComm.Traversal

/-! # Registries slot by slot

    What the calls do to the registered interfaces, for every registry that calls
    can produce, also where a removal has lost some of them and repeats others.
    `SlotStep` says it call by call (`Sound.step`); what the other modules prove
    about runs of calls rests on it and not on the code of the calls. -/

namespace DistComm

open RawMemory RawScan PointerArray TracedProgram Transition

/-- Traversable, and all interfaces on the heap lie at addresses that were given
    out. -/
structure Sound (k : Registry) : Prop extends Traversable k where
  fresh : ∀ p x, k.interfaceList.heap p = some x → p < k.interfaceList.next

/-- Slot `i`, below the count, holds the address `p` of the interface `x`. -/
def Registry.At (k : Registry) (i p : Nat) (x : Interface) : Prop :=
  i < k.interfaceCount.toNat ∧ k.interfaceList.deref i = some (p, x)

/-- No two registered interfaces have the same id. -/
def Registry.DistinctIds (k : Registry) : Prop :=
  ∀ i p x j q y, k.At i p x → k.At j q y → x.id = y.id → p = q

theorem sound_initial : Sound Registry.initial :=
  ⟨traversable_initial, fun _ _ h => nomatch h⟩

theorem sound_sole (x : Interface) : Sound (Registry.sole x) := by
  refine ⟨traversable_sole x, fun p y hy => ?_⟩
  by_contra hp
  replace hy : (if p = 0 then some x else none) = some y := hy
  rw [if_neg fun h0 => hp (by rw [h0]; exact Nat.one_pos)] at hy
  cases hy

theorem Registry.At.unique {k : Registry} {i p q : Nat} {x y : Interface}
    (hx : k.At i p x) (hy : k.At i q y) : p = q ∧ x = y := by
  have heq : (p, x) = (q, y) := Option.some.inj (hx.2.symm.trans hy.2)
  exact ⟨congrArg Prod.fst heq, congrArg Prod.snd heq⟩

/-- One address, one interface. -/
theorem Registry.At.same {k : Registry} {i j p : Nat} {x y : Interface}
    (hx : k.At i p x) (hy : k.At j p y) : x = y :=
  Option.some.inj ((deref_eq_some.mp hx.2).2.symm.trans
    (deref_eq_some.mp hy.2).2)

/-! ## What each call does -/

/-- The same slots, and the interfaces in them related by `R`. -/
structure Reassigned (R : Interface → Interface → Prop) (k k' : Registry) :
    Prop where
  count : k'.interfaceCount = k.interfaceCount
  allocatedId : k'.allocatedId = k.allocatedId
  related : ∀ i p x, k.At i p x → ∃ y, k'.At i p y ∧ R x y

/-- A new interface behind the others. -/
structure Added (k k' : Registry) (x : Interface) : Prop where
  count : k'.interfaceCount.toNat = k.interfaceCount.toNat + 1
  allocatedId : k'.allocatedId = k.allocatedId + 1
  kept : ∀ i p y, k.At i p y → k'.At i p y
  last : k'.At k.interfaceCount.toNat k.interfaceList.next x
  fresh : ∀ i p y, k.At i p y → p ≠ k.interfaceList.next

/-- The interface `x` in slot `i` is gone; what is left stood in front of it. -/
structure Dropped (k k' : Registry) (i p : Nat) (x : Interface) : Prop where
  count : k'.interfaceCount.toNat + 1 = k.interfaceCount.toNat
  allocatedId : k'.allocatedId = k.allocatedId
  found : k.At i p x
  kept : ∀ j q y, j < i → k.At j q y → k'.At j q y
  left : ∀ j q y, k'.At j q y → ∃ j', j' < i ∧ k.At j' q y

/-- An activation of `ids` activates interfaces or leaves them as they are; where
    all ids are different, it activates those with these ids. -/
def ActivatedBy (distinct : Prop) (ids : List UInt32) (portid : UInt32)
    (x y : Interface) : Prop :=
  (y = x ∨ y = x.activate portid)
    ∧ (distinct → y = activateIds ids portid x)

inductive SlotStep (k k' : Registry) : RegistryCall → Prop where
  | register {pid : Int32} {procCreate : Option ProcEntry} {u : UserInterface}
      (procEntry : Option ProcEntry) :
      Added k k' (u.registered k.allocatedId pid procEntry) →
      SlotStep k k' (.register pid procCreate u)
  | absent {id : UInt32} :
      k' = k → (∀ i p x, k.At i p x → x.id ≠ id) → SlotStep k k' (.remove id)
  | remove {id : UInt32} {i p : Nat} {x : Interface} :
      Dropped k k' i p x → x.id = id →
      (∀ j q y, j < i → k.At j q y → y.id ≠ id) → SlotStep k k' (.remove id)
  | activate {m : Mem} {packetLength portid : UInt32} :
      Reassigned (ActivatedBy k.DistinctIds (requestedIds m 0 packetLength)
        portid) k k' →
      SlotStep k k' (.activate m packetLength portid)

/-! ## Registration and removal -/

theorem Sound.added {k k' : Registry} (h : Sound k) {x : Interface}
    (hreg : Registered k k' x) : Sound k' ∧ Added k k' x := by
  have hheap : ∀ p, p ≠ k.interfaceList.next →
      k'.interfaceList.heap p = k.interfaceList.heap p := by
    intro p hp
    rw [hreg.heap]
    exact Function.update_of_ne hp ..
  -- the new object is at an address that no slot points to
  have hfresh : ∀ i p y, k.At i p y → p ≠ k.interfaceList.next := fun i p y hy =>
    Nat.ne_of_lt (h.fresh p y (deref_eq_some.mp hy.2).2)
  refine ⟨⟨hreg.traversable h.toTraversable, fun p y hy => ?_⟩, hreg.count,
    hreg.allocatedId, fun i p y hy => ?_, ⟨?_, ?_⟩, hfresh⟩
  · rw [hreg.next]
    by_cases hp : p = k.interfaceList.next
    · omega
    · rw [hheap p hp] at hy
      exact Nat.lt_succ_of_lt (h.fresh p y hy)
  · obtain ⟨hslot, hobj⟩ := deref_eq_some.mp hy.2
    refine ⟨by rw [hreg.count]; exact Nat.lt_succ_of_lt hy.1,
      deref_eq_some.mpr ⟨hreg.kept i p hy.1 hslot, ?_⟩⟩
    rw [hheap p (hfresh i p y hy)]
    exact hobj
  · rw [hreg.count]
    exact Nat.lt_succ_self _
  · refine deref_eq_some.mpr ⟨hreg.last, ?_⟩
    rw [hreg.heap]
    exact Function.update_self ..

theorem Sound.registered {k k' : Registry} (h : Sound k) {pid : Int32}
    {procCreate : Option ProcEntry} {u : UserInterface} {id : UInt32}
    (hrun : DistComm.registerInterface pid procCreate u k = some (id, k')) :
    ∃ procEntry, addInterfaceToProc k pid procCreate = some procEntry
      ∧ Sound k' ∧ Added k k' (u.registered k.allocatedId pid procEntry) := by
  obtain ⟨procEntry, -, hproc, hreg⟩ := h.toTraversable.registerInterface hrun
  exact ⟨procEntry, hproc, h.added hreg⟩

/-- What is registered after a registration was registered before or is new. -/
theorem Added.cases {k k' : Registry} {x : Interface} (h : Added k k' x)
    (hlive : k.Live) {i p : Nat} {y : Interface} (hy : k'.At i p y) :
    k.At i p y ∨ i = k.interfaceCount.toNat ∧ p = k.interfaceList.next ∧ y = x := by
  have hlt := hy.1
  rw [h.count] at hlt
  rcases Nat.eq_or_lt_of_le (Nat.le_of_lt_succ hlt) with heq | hbelow
  · have hlast := h.last
    rw [← heq] at hlast
    obtain ⟨hp, hx⟩ := hy.unique hlast
    exact Or.inr ⟨heq, hp, hx⟩
  · obtain ⟨⟨q, z⟩, hz⟩ := hlive i hbelow
    have hat : k.At i q z := ⟨hbelow, hz⟩
    obtain ⟨hp, hx⟩ := hy.unique (h.kept i q z hat)
    rw [hp, hx]
    exact Or.inl hat

theorem Sound.removed {k k' : Registry} (h : Sound k) {i p : Nat}
    {x : Interface} (hrem : Removed k k' i p x) {id : UInt32}
    (hfirst : FirstHit k.interfaceList.deref (fun x => x.2.id == id) 0
      ⟨i, (p, x)⟩) (ht : Traversable k') :
    Sound k' ∧ Dropped k k' i p x := by
  refine ⟨⟨ht, fun q y hy => ?_⟩, hrem.count, hrem.allocatedId,
    ⟨hrem.inside, hrem.found⟩, fun j q y hj hy => ?_, fun j q y hy => ?_⟩
  · rw [hrem.next]
    rw [hrem.heap] at hy
    by_cases hq : q = p
    · rw [hq, Function.update_self] at hy
      exact nomatch hy
    · rw [Function.update_of_ne hq] at hy
      exact h.fresh q y hy
  · have hcount := hrem.count
    have hin := hrem.inside
    have hj' : j < k'.interfaceCount.toNat := by omega
    refine ⟨hj', ?_⟩
    obtain ⟨hslot, hobj⟩ := deref_eq_some.mp hy.2
    refine deref_eq_some.mpr ⟨(hrem.front j hj).trans hslot, ?_⟩
    have hne : y.id ≠ id := hfirst.ne hj hy.2
    -- an earlier slot with the same pointer would have been found first
    have hqp : q ≠ p := by
      intro hq
      have hsame : y = x := by
        refine hy.same (y := x) (j := i) ⟨hin, ?_⟩
        rw [hq]
        exact hrem.found
      rw [hsame] at hne
      exact hne (eq_of_beq hfirst.sat)
    rw [hrem.heap, ← hobj]
    exact Function.update_of_ne hqp ..
  · obtain ⟨j', q', y', hj', hold, hnew⟩ :=
      hrem.deref h.toTraversable hfirst hy.1
    obtain ⟨hq, hx⟩ := hy.unique ⟨hy.1, hnew⟩
    rw [hq, hx]
    exact ⟨j', hj', Nat.lt_trans hj' hrem.inside, hold⟩

/-! ## Activation -/

theorem Sound.assign {k : Registry} (h : Sound k) {p : Nat} {x : Interface}
    (hx : k.interfaceList.heap p = some x) (y : Interface) :
    Sound (k.assign p y) := by
  refine ⟨h.toTraversable.assign p y, fun q z hz => ?_⟩
  by_cases hq : q = p
  · rw [hq]
    exact h.fresh p x hx
  · rw [assign_interfaceList, update_heap_ne _ _ hq] at hz
    exact h.fresh q z hz

/-- The slots after an interface was replaced. -/
theorem Registry.At.assign {k : Registry} {i p q : Nat} {x z : Interface}
    (hz : k.At i q z) (hx : k.interfaceList.heap p = some x) (y : Interface) :
    (k.assign p y).At i q (if q = p then y else z) := by
  refine ⟨hz.1, ?_⟩
  rw [assign_interfaceList, deref_update hx y, hz.2, Option.map_some]
  by_cases hq : q = p
  · rw [if_pos hq, if_pos hq, hq]
  · rw [if_neg hq, if_neg hq]

/-- The slots before an interface was replaced. -/
theorem Registry.At.of_assign {k : Registry} {i p q : Nat} {x w : Interface}
    (hx : k.interfaceList.heap p = some x) {y : Interface}
    (hw : (k.assign p y).At i q w) :
    ∃ z, k.At i q z ∧ w = if q = p then y else z := by
  obtain ⟨hi, hderef⟩ := hw
  rw [assign_interfaceList, deref_update hx y] at hderef
  obtain ⟨⟨q', z⟩, hz, heq⟩ := Option.map_eq_some_iff.mp hderef
  by_cases hq : q' = p
  · rw [if_pos hq] at heq
    obtain ⟨hpq, hyw⟩ := Prod.mk.inj heq
    rw [hq, hpq] at hz
    exact ⟨z, ⟨hi, hz⟩, by rw [if_pos hpq.symm, hyw]⟩
  · rw [if_neg hq] at heq
    obtain ⟨hqq, hzw⟩ := Prod.mk.inj heq
    rw [hqq, hzw] at hz
    exact ⟨w, ⟨hi, hz⟩, by rw [if_neg (hqq ▸ hq)]⟩

/-- A lookup finds a registered interface with the id. -/
theorem Sound.found {k : Registry} (h : Sound k) {id : Int32} {p : Nat}
    {x : Interface} (hfound : k.findInterface id = some (some (p, x))) :
    x.id = id.toUInt32 ∧ ∃ i, k.At i p x := by
  obtain ⟨found, hsearch, hval⟩ := Option.map_eq_some_iff.mp hfound
  obtain ⟨hit, hsome, hpx⟩ := Option.map_eq_some_iff.mp hval
  have hle := toNat_toInt32_le k.interfaceCount
  have hread := PointerArray.Live.below h.live hle
  rw [DistComm.findInterface] at hsearch
  rcases hread.search (fun x => x.2.id == id.toUInt32)
    with ⟨hnone, -⟩ | ⟨hit', hhit, hfirst, hlt⟩
  · rw [hnone, hsome] at hsearch
    cases hsearch
  · rw [hhit, hsome] at hsearch
    cases Option.some.inj (Option.some.inj hsearch)
    have hget := hfirst.get_index
    have hsat := hfirst.sat
    rw [hpx] at hget hsat
    exact ⟨eq_of_beq hsat, hit.index, Nat.lt_of_lt_of_le hlt hle, hget⟩

theorem Reassigned.refl {R : Interface → Interface → Prop} (k : Registry)
    (hR : ∀ i p x, k.At i p x → R x x) : Reassigned R k k :=
  ⟨rfl, rfl, fun i p x hx => ⟨x, hx, hR i p x hx⟩⟩

/-- What is in a slot afterwards is related to what was there. -/
theorem Reassigned.back {R : Interface → Interface → Prop} {k k' : Registry}
    (h : Reassigned R k k') (hlive : k.Live) {i p : Nat} {y : Interface}
    (hy : k'.At i p y) : ∃ x, k.At i p x ∧ R x y := by
  have hlt := hy.1
  rw [h.count] at hlt
  obtain ⟨⟨q, x⟩, hx⟩ := hlive i hlt
  obtain ⟨y', hy', hR⟩ := h.related i q x ⟨hlt, hx⟩
  obtain ⟨hp, heq⟩ := hy.unique hy'
  rw [hp, heq]
  exact ⟨x, ⟨hlt, hx⟩, hR⟩

/-- Ids, and with them their being different, survive an activation. -/
theorem Reassigned.distinctIds {R : Interface → Interface → Prop}
    {k k' : Registry} (h : Reassigned R k k') (hR : ∀ x y, R x y → y.id = x.id)
    (hlive : k.Live) (hk : k.DistinctIds) : k'.DistinctIds := by
  intro i p x j q y hx hy hid
  obtain ⟨x0, hx0, hRx⟩ := h.back hlive hx
  obtain ⟨y0, hy0, hRy⟩ := h.back hlive hy
  rw [hR _ _ hRx, hR _ _ hRy] at hid
  exact hk i p x0 j q y0 hx0 hy0 hid

theorem ActivatedBy.id {distinct : Prop} {ids : List UInt32} {portid : UInt32}
    {x y : Interface} (h : ActivatedBy distinct ids portid x y) :
    y.id = x.id := by
  rcases h.1 with heq | heq
  · rw [heq]
  · rw [heq]
    rfl

/-- Activating one id and then others. -/
theorem ActivatedBy.trans {distinct : Prop} {id : UInt32} {ids : List UInt32}
    {portid : UInt32} {x y z : Interface}
    (hxy : ActivatedBy distinct [id] portid x y)
    (hyz : ActivatedBy distinct ids portid y z) :
    ActivatedBy distinct (id :: ids) portid x z := by
  refine ⟨?_, fun hd => ?_⟩
  · rcases hxy.1 with h1 | h1
    · rw [← h1]
      exact hyz.1
    · rcases hyz.1 with h2 | h2
      · exact Or.inr (h2.trans h1)
      · rw [h1] at h2
        exact Or.inr h2
  · rw [hyz.2 hd, hxy.2 hd, activateIds_cons]

/-- The inner loop activates the first interface with the id. -/
theorem Sound.activateOne {k : Registry} (h : Sound k) (m : Mem) (pos : Nat)
    (portid : UInt32) :
    ∃ k' t, DistComm.activateOne m pos portid 0 k.interfaceCount.toNat k
        = ⟨some (), k', t⟩ ∧ Sound k'
      ∧ Reassigned (ActivatedBy k.DistinctIds [wordAt m pos] portid) k k' := by
  obtain ⟨k', t, hrun, ⟨rfl, hno⟩ | ⟨i, p, x, hlt, hderef, hid, rfl⟩⟩ :=
    h.live.activateOne m pos portid
  · refine ⟨k', t, hrun, h, Reassigned.refl k' fun i p x hx => ⟨Or.inl rfl, ?_⟩⟩
    intro _
    exact (if_neg fun hmem =>
      hno i p x hx.1 hx.2 (List.mem_singleton.mp hmem)).symm
  · have hobj := (deref_eq_some.mp hderef).2
    have hat : k.At i p x := ⟨hlt, hderef⟩
    refine ⟨k.assign p (x.activate portid), t, hrun, h.assign hobj _, rfl, rfl,
      fun j q z hz => ⟨_, hz.assign hobj (x.activate portid), ?_⟩⟩
    -- other slots change only if they share the pointer that was found
    by_cases hq : q = p
    · have hzx : z = x := by
        rw [hq] at hz
        exact hz.same hat
      rw [if_pos hq, hzx]
      exact ⟨Or.inr rfl, fun _ =>
        (if_pos (List.mem_singleton.mpr hid)).symm⟩
    · rw [if_neg hq]
      refine ⟨Or.inl rfl, fun hd => (if_neg fun hmem => hq ?_).symm⟩
      exact hd j q z i p x hz hat ((List.mem_singleton.mp hmem).trans hid.symm)

/-- The outer loop activates the ids in the packet, one after the other. -/
theorem Sound.activateAll {k : Registry} (h : Sound k) (m : Mem) (ids : Nat)
    (portid : UInt32) (n i : Nat) :
    ∃ k' t, DistComm.activateAll m ids portid i n k = ⟨some (), k', t⟩
      ∧ Sound k'
      ∧ Reassigned (ActivatedBy k.DistinctIds (wordsAt m (ids + 4 * i) n) portid)
          k k' := by
  induction n generalizing i k with
  | zero =>
      refine ⟨k, [], rfl, h, Reassigned.refl k fun _ _ x _ => ⟨Or.inl rfl, ?_⟩⟩
      exact fun _ => (activateIds_nil portid x).symm
  | succ n ih =>
      obtain ⟨k1, t1, hrun1, h1, hre1⟩ := h.activateOne m (ids + 4 * i) portid
      obtain ⟨k2, t2, hrun2, h2, hre2⟩ := ih h1 (i + 1)
      refine ⟨k2, t1 ++ t2, ?_, h2, hre2.count.trans hre1.count,
        hre2.allocatedId.trans hre1.allocatedId, fun j p x hx => ?_⟩
      · rw [DistComm.activateAll, run_getState_bind, run_bind_some hrun1, hrun2]
        rfl
      · obtain ⟨y, hy, hxy⟩ := hre1.related j p x hx
        obtain ⟨z, hz, hyz⟩ := hre2.related j p y hy
        have hd : k.DistinctIds → k1.DistinctIds :=
          hre1.distinctIds (fun _ _ => ActivatedBy.id) h.live
        exact ⟨z, hz, hxy.trans ⟨hyz.1, fun hk => hyz.2 (hd hk)⟩⟩

theorem Sound.handleActivateInterface {k : Registry} (h : Sound k) (m : Mem)
    (packet : Nat) (packetLength portid : UInt32) :
    ∃ k' t, DistComm.handleActivateInterface m packet packetLength portid k
        = ⟨some (), k', t⟩ ∧ Sound k'
      ∧ Reassigned (ActivatedBy k.DistinctIds
          (requestedIds m packet packetLength) portid) k k' := by
  have hnone : Reassigned (ActivatedBy k.DistinctIds [] portid) k k :=
    Reassigned.refl k fun _ _ x _ =>
      ⟨Or.inl rfl, fun _ => (activateIds_nil portid x).symm⟩
  rw [handleActivateInterface_run, requestedIds]
  by_cases hshort : packetLength < 4
  · rw [if_pos hshort, if_pos (Or.inl hshort)]
    exact ⟨k, [], rfl, h, hnone⟩
  rw [if_neg hshort]
  by_cases hcount : packetLength.toNat < 4 * (wordAt m packet + 1).toNat
  · rw [if_pos hcount, if_pos (Or.inr hcount)]
    exact ⟨k, _, rfl, h, hnone⟩
  · rw [if_neg hcount, if_neg (not_or.mpr ⟨hshort, hcount⟩)]
    obtain ⟨k', t, hrun, h', hre⟩ := h.activateAll m (packet + 4) portid
      (wordAt m packet).toNat 0
    rw [hrun]
    exact ⟨k', _, rfl, h', hre⟩

/-! ## One call, and runs -/

/-- **ONE CALL**, slot by slot. -/
theorem Sound.step {k k' : Registry} (h : Sound k) {c : RegistryCall}
    (hstep : k.step c = some k') : Sound k' ∧ SlotStep k k' c := by
  cases c with
  | register pid procCreate u =>
      obtain ⟨⟨id, k1⟩, hrun, hk1⟩ := Option.map_eq_some_iff.mp hstep
      rw [← hk1]
      obtain ⟨procEntry, -, hsound, hadded⟩ := h.registered hrun
      exact ⟨hsound, .register procEntry hadded⟩
  | remove id =>
      obtain ⟨⟨r, k1⟩, hrun, hk1⟩ := Option.map_eq_some_iff.mp hstep
      rw [← hk1]
      have ht := h.toTraversable.remove hrun
      rcases h.toTraversable.removeInterface hrun
        with ⟨hsame, hno⟩ | ⟨i, p, x, hrem, hfirst⟩
      · replace hsame : k1 = k := hsame
        refine ⟨by rw [hsame]; exact h, .absent hsame fun i p x hx => ?_⟩
        exact hno.ne hx.1 hx.2
      · obtain ⟨hsound, hdropped⟩ := h.removed hrem hfirst ht
        refine ⟨hsound, .remove hdropped (eq_of_beq hfirst.sat) ?_⟩
        intro j q y hj hy
        exact hfirst.ne hj hy.2
  | activate m packetLength portid =>
      obtain ⟨k1, t, hrun, h1, hre⟩ :=
        h.handleActivateInterface m 0 packetLength portid
      rw [← Option.some.inj ((step_activate hrun).symm.trans hstep)]
      exact ⟨h1, .activate hre⟩

/-- **REACHABLE STATES**: what holds at first and survives every call holds after
    any calls. -/
theorem Sound.reachable {I : Registry → Prop} (calls : List RegistryCall)
    (hstep : ∀ k k' c, Sound k → I k → SlotStep k k' c → I k')
    {k k' : Registry} (h : Sound k) (hI : I k)
    (hrun : runAll Registry.step k calls = some k') : Sound k' ∧ I k' := by
  -- the first call leaves a sound registry for the others
  induction calls generalizing k with
  | nil =>
      rw [← Option.some.inj hrun]
      exact ⟨h, hI⟩
  | cons c cs ih =>
      cases hc : k.step c with
      | none =>
          rw [runAll, hc] at hrun
          cases hrun
      | some k1 =>
          rw [runAll_cons hc] at hrun
          obtain ⟨h1, hslot⟩ := h.step hc
          exact ih h1 (hstep k k1 c h hI hslot) hrun

end DistComm
