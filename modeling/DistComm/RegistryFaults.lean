import DistComm.Registration

/-! # Calls that fault

    Of the calls on a sound registry only one kind goes out of the array, the removal of
    the first of several interfaces (`Sound.step_none`): its compaction loop starts with
    the slot before the first one.  A removal of any other interface returns, and an
    activation returns and leaves every object where it is (`SameLayout`). -/

namespace DistComm

open RawMemory RawScan PointerArray TracedProgram Transition

/-! ## Removals that go out of the array -/

/-- The first of several interfaces in the array has the id: the compaction loop then
    starts at the index before it. -/
def Registry.FirstOfSeveral (k : Registry) (id : UInt32) : Prop :=
  1 < k.interfaceCount.toNat ∧ ∃ p x, k.interfaceList.deref 0 = some (p, x) ∧ x.id = id

/-- Behind a slot in use the compaction loop stays inside the array. -/
theorem moveSlots_inside {list : Table Interface} {p : Nat} (n i : Nat)
    (hsize : i + n < 2 ^ 32) (hpos : 0 < i) (hslot : list.slot (i - 1) = some p)
    (hroom : i + n ≤ list.slots.length) : ∃ list', moveSlots list i n = some list' := by
  induction n generalizing i list with
  | zero => exact ⟨list, rfl⟩
  | succ n ih =>
      have hi : (UInt32.ofNat i).toNat = i :=
        UInt32.toNat_ofNat_of_lt' (show i < 2 ^ 32 by omega)
      have hprev : (UInt32.ofNat i - 1).toNat = i - 1 := by
        rw [toNat_pred (by rw [hi]; exact hpos), hi]
      obtain ⟨list1, hwrite⟩ : ∃ list1, list.write i p = some list1 :=
        ⟨_, if_pos (by omega)⟩
      obtain ⟨-, hlen, hself, -⟩ := write_spec hwrite
      obtain ⟨list', hrest⟩ := @ih list1 (i + 1) (by omega) (Nat.succ_pos i) hself
        (by omega)
      refine ⟨list', ?_⟩
      rw [moveSlots, hprev, hslot]
      show (list.write i p).bind _ = _
      rw [hwrite]
      exact hrest

/-- In a sound registry the loop runs through, unless it starts at the first of
    several. -/
theorem Sound.moveSlots_cases {k : Registry} (h : Sound k) {i : Nat}
    (hi : i < k.interfaceCount.toNat) :
    (i = 0 ∧ 1 < k.interfaceCount.toNat ∧ moveSlots k.interfaceList i
        ((k.interfaceCount - 1).toNat - i) = none)
      ∨ ∃ list, moveSlots k.interfaceList i ((k.interfaceCount - 1).toNat - i)
          = some list
        ∧ list.heap = k.interfaceList.heap ∧ list.next = k.interfaceList.next
        ∧ (i = 0 → k.interfaceCount.toNat = 1) := by
  have hcount := k.interfaceCount.toNat_lt
  rw [toNat_pred (w := k.interfaceCount) (by omega)]
  rcases Nat.eq_zero_or_pos i with h0 | hpos
  · rw [h0, Nat.sub_zero]
    cases hn : k.interfaceCount.toNat - 1 with
    | zero => exact Or.inr ⟨k.interfaceList, rfl, rfl, rfl, fun _ => by omega⟩
    | succ n =>
        refine Or.inl ⟨rfl, by omega, ?_⟩
        have hmax : (UInt32.ofNat 0 - 1).toNat = 2 ^ 32 - 1 := rfl
        have hout : k.interfaceList.slot (2 ^ 32 - 1) = none := by
          rw [Option.eq_none_iff_forall_ne_some]
          intro p hp
          have hlt := slot_lt hp
          have hcap := k.interfaceCapacity.toNat_lt
          rw [h.capacity] at hlt
          omega
        rw [moveSlots, hmax, hout]
        rfl
  · obtain ⟨⟨p, x⟩, hx⟩ := h.live (i - 1) (by omega)
    have hlen := h.globals.count_le
    replace hlen : k.interfaceCount.toNat ≤ k.interfaceCapacity.toNat := hlen
    obtain ⟨list, hmove⟩ := moveSlots_inside (k.interfaceCount.toNat - 1 - i) i (by omega)
      hpos (deref_eq_some.mp hx).1 (by rw [h.capacity]; omega)
    obtain ⟨hheap, hnext, -⟩ := moveSlots_remaining h.toTraversable hi hmove
    exact Or.inr ⟨list, hmove, hheap, hnext, fun h0 => by omega⟩

/-- What a lookup finds is in the array. -/
theorem Sound.hit {k : Registry} (h : Sound k) {P : Nat × Interface → Bool}
    {hit : Hit (Nat × Interface)}
    (hfound : search k.interfaceList.deref P 0 k.interfaceCount.toNat = some (some hit)) :
    hit.index < k.interfaceCount.toNat
      ∧ k.interfaceList.deref hit.index = some hit.val := by
  rcases h.live.search P with ⟨hnone, -⟩ | ⟨hit', hsome, hfirst, hlt⟩
  · rw [hfound] at hnone
    cases hnone
  · rw [Option.some.inj (Option.some.inj (hfound.symm.trans hsome))]
    exact ⟨hlt, hfirst.get_index⟩

/-- **REMOVAL** goes out of the array exactly for the first of several. -/
theorem Sound.removes_iff {k : Registry} (h : Sound k) (id : UInt32) :
    removeInterface id k = none ↔ k.FirstOfSeveral id := by
  rcases h.live.search (fun x => x.2.id == id)
    with ⟨hnone, hno⟩ | ⟨⟨i, p, x⟩, hsome, hfirst, hlt⟩
  · rw [removeInterface, hnone]
    refine iff_of_false (Option.some_ne_none _) ?_
    rintro ⟨hseveral, p, x, hx, hid⟩
    exact absurd hid (hno.ne (by omega) hx)
  · replace hlt : i < k.interfaceCount.toNat := hlt
    have hid : x.id = id := eq_of_beq hfirst.sat
    rw [removeInterface, hsome]
    show (moveSlots k.interfaceList i ((k.interfaceCount - 1).toNat - i)).bind _ = none ↔ _
    rcases h.moveSlots_cases hlt with ⟨rfl, hseveral, hmove⟩ | ⟨list, hmove, hheap, -, hone⟩
    · rw [hmove]
      exact iff_of_true rfl ⟨hseveral, p, x, hfirst.get_index, hid⟩
    · have hfree : ∃ list', list.free p = some list' := by
        rw [Table.free, hheap, (deref_eq_some.mp hfirst.get_index).2]
        exact ⟨_, rfl⟩
      obtain ⟨list', hfree⟩ := hfree
      rw [hmove]
      show (list.free p).bind _ = none ↔ _
      rw [hfree]
      refine iff_of_false (Option.some_ne_none _) ?_
      rintro ⟨hseveral, q, y, hy, hyid⟩
      have hpos : 0 < i := Nat.pos_of_ne_zero fun h0 => by
        have := hone h0
        omega
      exact absurd hyid (hfirst.ne hpos hy)

/-! ## Activations move nothing -/

/-- The same objects at the same addresses, but for their `ctrl`. -/
structure SameLayout (k k' : Registry) : Prop where
  capacity : k'.interfaceCapacity = k.interfaceCapacity
  next : k'.interfaceList.next = k.interfaceList.next
  heap : ∀ p, (k'.interfaceList.heap p).map Interface.toAdvert
    = (k.interfaceList.heap p).map Interface.toAdvert

theorem SameLayout.refl (k : Registry) : SameLayout k k := ⟨rfl, rfl, fun _ => rfl⟩

theorem SameLayout.trans {k k' k'' : Registry} (h : SameLayout k k')
    (h' : SameLayout k' k'') : SameLayout k k'' :=
  ⟨h'.capacity.trans h.capacity, h'.next.trans h.next,
    fun p => (h'.heap p).trans (h.heap p)⟩

theorem SameLayout.assign {k : Registry} {p : Nat} {x y : Interface}
    (hx : k.interfaceList.heap p = some x) (hy : y.toAdvert = x.toAdvert) :
    SameLayout k (k.assign p y) := by
  refine ⟨rfl, rfl, fun q => ?_⟩
  rw [assign_interfaceList]
  by_cases hq : q = p
  · rw [hq, update_heap_self, hx, Option.map_some, Option.map_some, hy]
  · rw [update_heap_ne _ _ hq]

theorem Sound.activateOne_layout {k : Registry} (h : Sound k) (m : Mem) (pos : Nat)
    (portid : UInt32) :
    ∃ k' t, DistComm.activateOne m pos portid 0 k.interfaceCount.toNat k
        = ⟨some (), k', t⟩ ∧ Sound k' ∧ SameLayout k k' := by
  obtain ⟨k', t, hrun, ⟨rfl, -⟩ | ⟨i, p, x, -, hderef, -, rfl⟩⟩ :=
    h.live.activateOne m pos portid
  · exact ⟨k', t, hrun, h, .refl k'⟩
  · have hobj := (deref_eq_some.mp hderef).2
    exact ⟨_, t, hrun, h.assign hobj _, .assign hobj rfl⟩

theorem Sound.activateAll_layout {k : Registry} (h : Sound k) (m : Mem) (ids : Nat)
    (portid : UInt32) (n i : Nat) :
    ∃ k' t, DistComm.activateAll m ids portid i n k = ⟨some (), k', t⟩
      ∧ Sound k' ∧ SameLayout k k' := by
  induction n generalizing i k with
  | zero => exact ⟨k, [], rfl, h, .refl k⟩
  | succ n ih =>
      obtain ⟨k1, t1, hrun1, h1, hl1⟩ := h.activateOne_layout m (ids + 4 * i) portid
      obtain ⟨k2, t2, hrun2, h2, hl2⟩ := ih h1 (i + 1)
      refine ⟨k2, t1 ++ t2, ?_, h2, hl1.trans hl2⟩
      rw [DistComm.activateAll, run_getState_bind, run_bind_some hrun1, hrun2]
      rfl

/-- **ACTIVATION** returns, and moves nothing. -/
theorem Sound.activates {k : Registry} (h : Sound k) (m : Mem)
    (packetLength portid : UInt32) :
    ∃ k', k.step (.activate m packetLength portid) = some k' ∧ Sound k'
      ∧ SameLayout k k' := by
  obtain ⟨k', t, hrun, h', hl⟩ : ∃ k' t,
      DistComm.handleActivateInterface m 0 packetLength portid k = ⟨some (), k', t⟩
        ∧ Sound k' ∧ SameLayout k k' := by
    rw [handleActivateInterface_run]
    by_cases hshort : packetLength < 4
    · rw [if_pos hshort]
      exact ⟨k, [], rfl, h, .refl k⟩
    rw [if_neg hshort]
    by_cases hcount : packetLength.toNat < 4 * (wordAt m 0 + 1).toNat
    · rw [if_pos hcount]
      exact ⟨k, _, rfl, h, .refl k⟩
    · rw [if_neg hcount]
      obtain ⟨k', t, hrun, h', hl⟩ :=
        h.activateAll_layout m (0 + 4) portid (wordAt m 0).toNat 0
      rw [hrun]
      exact ⟨k', _, rfl, h', hl⟩
  exact ⟨k', step_activate hrun, h', hl⟩

/-! ## Calls that fault -/

/-- The call is a removal of the first of several interfaces. -/
def Registry.OutOfArray (k : Registry) : RegistryCall → Prop
  | .register .. => False
  | .remove id => k.FirstOfSeveral id
  | .activate .. => False

/-- **FAULTS**: with few registrations no other call faults. -/
theorem Sound.step_none {k : Registry} (h : Sound k)
    (hsmall : k.interfaceCount.toNat < 2 ^ 31) {c : RegistryCall}
    (hnone : k.step c = none) : k.OutOfArray c := by
  cases c with
  | register pid procCreate u =>
      have hok : Handled k (.register pid procCreate u) := by
        refine ⟨fun hfull => ?_, Or.inl (Nat.le_of_lt hsmall)⟩
        have hten : GRADIENT.toNat = 10 := rfl
        rw [← hfull]
        omega
      obtain ⟨result, hrun⟩ := h.registers hok
      rw [Registry.step, hrun] at hnone
      cases hnone
  | remove id => exact (h.removes_iff id).mp (Option.map_eq_none_iff.mp hnone)
  | activate m packetLength portid =>
      obtain ⟨k', hstep, -⟩ := h.activates m packetLength portid
      rw [hstep] at hnone
      cases hnone

/-- A registration adds one to the count, and no other call adds anything. -/
theorem Sound.count_step {k k' : Registry} (h : Sound k) {c : RegistryCall}
    (hstep : k.step c = some k') (cs : List RegistryCall) :
    k'.interfaceCount.toNat + cs.countP RegistryCall.isRegister
      ≤ k.interfaceCount.toNat + (c :: cs).countP RegistryCall.isRegister := by
  obtain ⟨-, hslots⟩ := h.step hstep
  have hle : cs.countP RegistryCall.isRegister
      ≤ (c :: cs).countP RegistryCall.isRegister :=
    (List.sublist_cons_self c cs).countP_le
  cases hslots with
  | register procEntry hadded =>
      have hcount := hadded.count
      rw [List.countP_cons_of_pos rfl]
      omega
  | absent hsame _ =>
      rw [hsame]
      omega
  | remove hdropped _ _ =>
      have hcount := hdropped.count
      omega
  | activate hre =>
      rw [hre.count]
      omega

end DistComm
