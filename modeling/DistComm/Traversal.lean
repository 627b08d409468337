import DistComm.Registry

/-! # Every registry is traversable

    A removal in the middle loses entries and repeats others, but never leaves a
    freed interface behind.  So whatever calls were made before, handled or not,
    the handlers' traversals meet live interfaces only
    (`traversable_reachable`).

    `Registered` and `Removed` say what the calls leave of the slots, without any
    condition on them. -/

namespace DistComm

open RawMemory RawScan PointerArray TracedProgram Transition

/-- The slots below the count are live, and the array has the size that is
    written down for it. -/
structure Traversable (k : Registry) : Prop where
  live : k.Live
  capacity : k.interfaceList.slots.length = k.interfaceCapacity.toNat

theorem traversable_initial : Traversable Registry.initial :=
  ⟨fun i hi => absurd hi (Nat.not_lt_zero i), rfl⟩

theorem Traversable.assign {k : Registry} (h : Traversable k) (p : Nat)
    (x : Interface) : Traversable (k.assign p x) :=
  ⟨h.live.assign p x, h.capacity⟩

/-! ## Registrations -/

/-- What the growth step leaves, also where the capacity wraps around. -/
theorem Traversable.grow {k : Registry} (h : Traversable k) :
    k.grow.interfaceList.slots.length = k.grow.interfaceCapacity.toNat
      ∧ k.grow.allocatedId = k.allocatedId
      ∧ k.grow.interfaceCount = k.interfaceCount
      ∧ k.grow.interfaceList.heap = k.interfaceList.heap
      ∧ k.grow.interfaceList.next = k.interfaceList.next
      ∧ ∀ i p, i < k.grow.interfaceList.slots.length →
          k.interfaceList.slot i = some p → k.grow.interfaceList.slot i = some p := by
  rw [Registry.grow]
  by_cases hgrow : k.interfaceCapacity < k.interfaceCount + 1
  · rw [if_pos hgrow]
    refine ⟨length_resize _ _, rfl, rfl, rfl, rfl, fun i p hi hp => ?_⟩
    rw [length_resize] at hi
    exact resize_slot _ hi hp
  · rw [if_neg hgrow]
    exact ⟨h.capacity, rfl, rfl, rfl, rfl, fun _ _ _ hp => hp⟩

/-- What a registration leaves: the slots below the count as they were, and behind
    them a pointer to the new interface. -/
structure Registered (k k' : Registry) (x : Interface) : Prop where
  allocatedId : k'.allocatedId = k.allocatedId + 1
  count : k'.interfaceCount.toNat = k.interfaceCount.toNat + 1
  capacity : k'.interfaceList.slots.length = k'.interfaceCapacity.toNat
  heap : k'.interfaceList.heap
    = Function.update k.interfaceList.heap k.interfaceList.next (some x)
  next : k'.interfaceList.next = k.interfaceList.next + 1
  last : k'.interfaceList.slot k.interfaceCount.toNat
    = some k.interfaceList.next
  kept : ∀ i p, i < k.interfaceCount.toNat →
    k.interfaceList.slot i = some p → k'.interfaceList.slot i = some p

theorem Traversable.registerInterface {k k' : Registry} (h : Traversable k)
    {pid : Int32} {procCreate : Option ProcEntry} {u : UserInterface}
    {id : UInt32}
    (hrun : DistComm.registerInterface pid procCreate u k = some (id, k')) :
    ∃ procEntry, id = k.allocatedId
      ∧ addInterfaceToProc k pid procCreate = some procEntry
      ∧ Registered k k' (u.registered k.allocatedId pid procEntry) := by
  simp only [DistComm.registerInterface, Option.bind_eq_bind,
    Option.bind_eq_some_iff, Option.some.injEq, Prod.mk.injEq] at hrun
  obtain ⟨procEntry, hproc, list, hwrite, hid, hk'⟩ := hrun
  have h0 : Traversable { k with allocatedId := k.allocatedId + 1 } :=
    ⟨h.live, h.capacity⟩
  obtain ⟨hcap, halloc, hcount, hheap, hnext, hkeep⟩ := h0.grow
  generalize ({ k with allocatedId := k.allocatedId + 1 } : Registry).grow
    = k1 at hwrite hk' hcap halloc hcount hheap hnext hkeep
  replace hcount : k1.interfaceCount = k.interfaceCount := hcount
  have hroom : k1.interfaceCount.toNat < k1.interfaceList.slots.length := by
    have hlt := write_lt hwrite
    exact hlt
  obtain ⟨hheap', hlen', hself, hother⟩ := write_spec hwrite
  have hinc := toNat_succ (w := k1.interfaceCount) (by
    have := k1.interfaceCapacity.toNat_lt
    omega)
  have hnext' : list.next = k1.interfaceList.next + 1 := write_next hwrite
  rw [← hk']
  refine ⟨procEntry, hid.symm, hproc, halloc, ?_, hlen'.trans hcap, ?_, ?_, ?_,
    fun i p hi hp => ?_⟩
  · rw [← hcount]
    exact hinc
  · rw [hheap', Table.alloc, hheap, hnext]
  · rw [hnext', hnext]
  · rw [← hcount, hself, hnext]
  · rw [← hcount] at hi
    rw [hother i (Nat.ne_of_lt hi)]
    exact hkeep i p (by omega) hp

theorem Registered.traversable {k k' : Registry} {x : Interface}
    (h : Registered k k' x) (hk : Traversable k) : Traversable k' := by
  refine ⟨fun i hi => ?_, h.capacity⟩
  rw [h.count] at hi
  rcases Nat.eq_or_lt_of_le (Nat.le_of_lt_succ hi) with heq | hlt
  · refine ⟨(k.interfaceList.next, x), deref_eq_some.mpr ⟨?_, ?_⟩⟩
    · rw [heq]
      exact h.last
    · rw [h.heap]
      exact Function.update_self ..
  · obtain ⟨⟨p, y⟩, hderef⟩ := hk.live i hlt
    obtain ⟨hslot, hy⟩ := deref_eq_some.mp hderef
    obtain ⟨z, hz⟩ := alloc_live k.interfaceList x hy
    exact ⟨(p, z), deref_eq_some.mpr ⟨h.kept i p hlt hslot, by
      rw [h.heap]
      exact hz⟩⟩

theorem Traversable.register {k k' : Registry} (h : Traversable k)
    {pid : Int32} {procCreate : Option ProcEntry} {u : UserInterface}
    {id : UInt32}
    (hrun : DistComm.registerInterface pid procCreate u k = some (id, k')) :
    Traversable k' := by
  obtain ⟨_, _, _, hreg⟩ := h.registerInterface hrun
  exact hreg.traversable h

/-! ## Removals -/

/-- The compaction loop fills its slots with the pointer in front of them. -/
theorem moveSlots_spec (n i : Nat) {list list' : Table Interface}
    (hsize : i + n < 2 ^ 32) (hpos : 0 < i)
    (h : moveSlots list i n = some list') :
    list'.heap = list.heap ∧ list'.next = list.next
      ∧ list'.slots.length = list.slots.length
      ∧ (∀ j, j < i → list'.slot j = list.slot j)
      ∧ ∀ j, i ≤ j → j < i + n → list'.slot j = list.slot (i - 1) := by
  induction n generalizing i list with
  | zero =>
      rw [← Option.some.inj h]
      exact ⟨rfl, rfl, rfl, fun _ _ => rfl, fun j h1 h2 => absurd h2 (by omega)⟩
  | succ n ih =>
      have hi : (UInt32.ofNat i).toNat = i :=
        UInt32.toNat_ofNat_of_lt' (show i < 2 ^ 32 by omega)
      have hprev : (UInt32.ofNat i - 1).toNat = i - 1 := by
        rw [toNat_pred (by rw [hi]; exact hpos), hi]
      simp only [moveSlots, Option.bind_eq_bind, Option.bind_eq_some_iff,
        hprev] at h
      obtain ⟨p, hp, list1, hwrite, hrest⟩ := h
      obtain ⟨hheap, hlen, hself, hother⟩ := write_spec hwrite
      obtain ⟨hheap', hnext', hlen', hbelow, habove⟩ :=
        ih (i + 1) (by omega) (Nat.succ_pos i) hrest
      refine ⟨hheap'.trans hheap, hnext'.trans (write_next hwrite),
        hlen'.trans hlen, fun j hj => ?_, fun j h1 h2 => ?_⟩
      · rw [hbelow j (by omega), hother j (by omega)]
      · rcases Nat.eq_or_lt_of_le h1 with heq | hlt
        · rw [← heq, hbelow i (Nat.lt_succ_self i), hself, hp]
        · rw [habove j hlt (by omega), Nat.add_sub_cancel, hself, hp]

/-- After the compaction loop every remaining slot holds a pointer that stood
    in front of the removed one. -/
theorem moveSlots_remaining {k : Registry} (h : Traversable k) {i : Nat}
    (hi : i < k.interfaceCount.toNat) {list : Table Interface}
    (hmove : moveSlots k.interfaceList i (k.interfaceCount.toNat - 1 - i)
      = some list) :
    list.heap = k.interfaceList.heap ∧ list.next = k.interfaceList.next
      ∧ list.slots.length = k.interfaceList.slots.length
      ∧ (∀ j, j < i → list.slot j = k.interfaceList.slot j)
      ∧ ∀ j, j < k.interfaceCount.toNat - 1 →
          ∃ j', j' < i ∧ list.slot j = k.interfaceList.slot j' := by
  have hcount := k.interfaceCount.toNat_lt
  rcases Nat.eq_zero_or_pos i with h0 | hpos
  · cases hn : k.interfaceCount.toNat - 1 - i with
    | zero =>
        rw [hn] at hmove
        rw [← Option.some.inj hmove]
        exact ⟨rfl, rfl, rfl, fun _ _ => rfl, fun j hj => absurd hj (by omega)⟩
    | succ n =>
        -- removing the first of several: the loop reads slot `2 ^ 32 - 1`
        rw [hn, h0] at hmove
        simp only [moveSlots, Option.bind_eq_bind,
          Option.bind_eq_some_iff] at hmove
        obtain ⟨p, hp, -⟩ := hmove
        have hlt := slot_lt hp
        have hmax : (UInt32.ofNat 0 - 1).toNat = 2 ^ 32 - 1 := rfl
        have hcap := k.interfaceCapacity.toNat_lt
        rw [hmax, h.capacity] at hlt
        omega
  · obtain ⟨hheap, hnext, hlen, hbelow, habove⟩ :=
      moveSlots_spec _ i (by omega) hpos hmove
    refine ⟨hheap, hnext, hlen, hbelow, fun j hj => ?_⟩
    by_cases hji : j < i
    · exact ⟨j, hji, hbelow j hji⟩
    · exact ⟨i - 1, by omega, habove j (by omega) (by omega)⟩

/-- What a removal leaves that found its interface `x` at address `p` in slot `i`:
    every remaining slot holds a pointer that stood in front of slot `i`, and the
    slots in front of it are as they were. -/
structure Removed (k k' : Registry) (i p : Nat) (x : Interface) : Prop where
  allocatedId : k'.allocatedId = k.allocatedId
  count : k'.interfaceCount.toNat + 1 = k.interfaceCount.toNat
  capacity : k'.interfaceList.slots.length = k'.interfaceCapacity.toNat
  found : k.interfaceList.deref i = some (p, x)
  inside : i < k.interfaceCount.toNat
  heap : k'.interfaceList.heap = Function.update k.interfaceList.heap p none
  next : k'.interfaceList.next = k.interfaceList.next
  front : ∀ j, j < i → k'.interfaceList.slot j = k.interfaceList.slot j
  rest : ∀ j, j < k'.interfaceCount.toNat →
    ∃ j', j' < i ∧ k'.interfaceList.slot j = k.interfaceList.slot j'

theorem Traversable.removeInterface {k k' : Registry} (h : Traversable k)
    {id r : UInt32} (hrun : DistComm.removeInterface id k = some (r, k')) :
    k' = k ∧ NoHit k.interfaceList.deref (fun x => x.2.id == id) 0
        k.interfaceCount.toNat
      ∨ ∃ i p x, Removed k k' i p x
          ∧ FirstHit k.interfaceList.deref (fun x => x.2.id == id) 0
            ⟨i, (p, x)⟩ := by
  rcases h.live.search (fun x => x.2.id == id)
    with ⟨hnone, hno⟩ | ⟨⟨i, p, x⟩, hsome, hfirst, hlt⟩
  · rw [DistComm.removeInterface, hnone] at hrun
    cases Option.some.inj hrun
    exact Or.inl ⟨rfl, hno⟩
  · replace hlt : i < k.interfaceCount.toNat := hlt
    simp only [DistComm.removeInterface, hsome, Option.bind_eq_bind,
      Option.bind_some, Option.bind_eq_some_iff, Option.some.injEq,
      Prod.mk.injEq] at hrun
    obtain ⟨list, hmove, list', hfree, -, hk'⟩ := hrun
    have hpred := toNat_pred (w := k.interfaceCount) (by omega)
    rw [hpred] at hmove
    obtain ⟨hheap, hnext, hlen, hfront, hslots⟩ :=
      moveSlots_remaining h hlt hmove
    have hp : list.heap p = some x := by
      rw [hheap]
      exact (deref_eq_some.mp hfirst.get_index).2
    rw [Table.free, hp] at hfree
    rw [← hk', ← Option.some.inj hfree]
    refine Or.inr ⟨i, p, x, ⟨rfl, ?_, hlen.trans h.capacity, hfirst.get_index,
      hlt, by rw [← hheap], hnext, hfront, fun j hj => ?_⟩, hfirst⟩
    · show (k.interfaceCount - 1).toNat + 1 = _
      omega
    · exact hslots j (by rw [← hpred]; exact hj)

/-- The removed interface is in no remaining slot. -/
theorem Removed.deref {k k' : Registry} {i p : Nat} {x : Interface}
    (h : Removed k k' i p x) (hk : Traversable k) {id : UInt32}
    (hfirst : FirstHit k.interfaceList.deref (fun x => x.2.id == id) 0
      ⟨i, (p, x)⟩) {j : Nat} (hj : j < k'.interfaceCount.toNat) :
    ∃ j' q y, j' < i ∧ k.interfaceList.deref j' = some (q, y)
      ∧ k'.interfaceList.deref j = some (q, y) := by
  obtain ⟨j', hj', hslot⟩ := h.rest j hj
  obtain ⟨⟨q, y⟩, hderef⟩ := hk.live j' (Nat.lt_trans hj' h.inside)
  obtain ⟨hq, hy⟩ := deref_eq_some.mp hderef
  have hne : y.id ≠ id := hfirst.ne hj' hderef
  have hqp : q ≠ p := by
    intro heq
    rw [heq, (deref_eq_some.mp h.found).2] at hy
    rw [← Option.some.inj hy] at hne
    exact hne (eq_of_beq hfirst.sat)
  refine ⟨j', q, y, hj', hderef, deref_eq_some.mpr ⟨hslot.trans hq, ?_⟩⟩
  rw [h.heap, ← hy]
  exact Function.update_of_ne hqp ..

theorem Traversable.remove {k k' : Registry} (h : Traversable k)
    {id r : UInt32} (hrun : DistComm.removeInterface id k = some (r, k')) :
    Traversable k' := by
  rcases h.removeInterface hrun with ⟨hsame, -⟩ | ⟨i, p, x, hrem, hfirst⟩
  · rw [hsame]
    exact h
  · refine ⟨fun j hj => ?_, hrem.capacity⟩
    obtain ⟨-, q, y, -, -, hderef⟩ := hrem.deref h hfirst hj
    exact ⟨(q, y), hderef⟩

/-! ## Activations -/

/-- The loops of an activation only assign to live interfaces; an id is read if
    and only if there is an interface to compare it with. -/
theorem Traversable.activateOne {k : Registry} (h : Traversable k) (m : Mem)
    (pos : Nat) (portid : UInt32) :
    ∃ k' r, activateOne m pos portid 0 k.interfaceCount.toNat k
        = ⟨some (), k', List.replicate r (.read ⟨pos, 4⟩)⟩
      ∧ Traversable k' ∧ k'.interfaceCount = k.interfaceCount
      ∧ (r = 0 ↔ k.interfaceCount = 0) := by
  obtain ⟨r, hrun, hr0, hr⟩ := activateOne_run m pos portid k
    k.interfaceCount.toNat 0
  have hreads : r = 0 ↔ k.interfaceCount = 0 := by
    constructor
    · intro hzero
      by_contra hne
      have hcount : 0 < k.interfaceCount.toNat :=
        Nat.pos_of_ne_zero fun h0 => hne (UInt32.toNat_inj.mp h0)
      obtain ⟨x, hx⟩ := h.live 0 hcount
      have := hr hcount (by rw [hx]; rfl)
      omega
    · intro hzero
      exact hr0 (by rw [hzero]; rfl)
  rw [hrun]
  rcases h.live.search (fun x => x.2.id == wordAt m pos)
    with ⟨hnone, -⟩ | ⟨hit, hsome, -, -⟩
  · rw [hnone]
    exact ⟨k, r, rfl, h, rfl, hreads⟩
  · rw [hsome]
    exact ⟨_, r, rfl, h.assign _ _, rfl, hreads⟩

/-- The outer loop reads each of its ids, unless there are no interfaces. -/
theorem Traversable.activateAll {k : Registry} (h : Traversable k) (m : Mem)
    (ids : Nat) (portid : UInt32) (n i : Nat) :
    ∃ k' t, activateAll m ids portid i n k = ⟨some (), k', t⟩
      ∧ Traversable k' ∧ k'.interfaceCount = k.interfaceCount
      ∧ ∀ e, e ∈ t ↔ k.interfaceCount ≠ 0
          ∧ ∃ j, i ≤ j ∧ j < i + n ∧ e = .read ⟨ids + 4 * j, 4⟩ := by
  induction n generalizing i k with
  | zero =>
      refine ⟨k, [], rfl, h, rfl, fun e => ⟨(fun he => nomatch he), ?_⟩⟩
      rintro ⟨-, j, h1, h2, -⟩
      omega
  | succ n ih =>
      obtain ⟨k1, r, hrun1, h1, hcount1, hr⟩ :=
        h.activateOne m (ids + 4 * i) portid
      obtain ⟨k2, t, hrun2, h2, hcount2, ht⟩ := ih h1 (i + 1)
      refine ⟨k2, List.replicate r (.read ⟨ids + 4 * i, 4⟩) ++ t, ?_, h2,
        hcount2.trans hcount1, fun e => ?_⟩
      · rw [DistComm.activateAll, run_getState_bind, run_bind_some hrun1, hrun2]
        rfl
      · rw [List.mem_append, List.mem_replicate, ht e, hcount1, ne_eq, hr]
        constructor
        · rintro (⟨hne, he⟩ | ⟨hne, j, hj1, hj2, he⟩)
          · exact ⟨hne, i, Nat.le_refl i, by omega, he⟩
          · exact ⟨hne, j, by omega, by omega, he⟩
        · rintro ⟨hne, j, hj1, hj2, he⟩
          rcases Nat.eq_or_lt_of_le hj1 with heq | hlt
          · exact Or.inl ⟨hne, by rw [heq]; exact he⟩
          · exact Or.inr ⟨hne, j, hlt, by omega, he⟩

/-- A handshake never faults, and leaves the registry traversable. -/
theorem Traversable.handleActivateInterface {k : Registry} (h : Traversable k)
    (m : Mem) (packet : Nat) (packetLength portid : UInt32) :
    ∃ k' t, handleActivateInterface m packet packetLength portid k
        = ⟨some (), k', t⟩ ∧ Traversable k' := by
  rw [handleActivateInterface_run]
  by_cases hshort : packetLength < 4
  · rw [if_pos hshort]
    exact ⟨k, [], rfl, h⟩
  rw [if_neg hshort]
  by_cases hcount : packetLength.toNat < 4 * (wordAt m packet + 1).toNat
  · rw [if_pos hcount]
    exact ⟨k, _, rfl, h⟩
  · rw [if_neg hcount]
    obtain ⟨k', t, hrun, h', -⟩ := h.activateAll m (packet + 4) portid
      (wordAt m packet).toNat 0
    rw [hrun]
    exact ⟨k', _, rfl, h'⟩

/-! ## Runs -/

theorem Traversable.step {k k' : Registry} (h : Traversable k)
    {c : RegistryCall} (hstep : k.step c = some k') : Traversable k' := by
  cases c with
  | register pid procCreate u =>
      obtain ⟨⟨id, k1⟩, hrun, hk1⟩ := Option.map_eq_some_iff.mp hstep
      rw [← hk1]
      exact h.register hrun
  | remove id =>
      obtain ⟨⟨r, k1⟩, hrun, hk1⟩ := Option.map_eq_some_iff.mp hstep
      rw [← hk1]
      exact h.remove hrun
  | activate m packetLength portid =>
      obtain ⟨k1, t, hrun, h1⟩ :=
        h.handleActivateInterface m 0 packetLength portid
      rw [← Option.some.inj ((step_activate hrun).symm.trans hstep)]
      exact h1

/-- **TRAVERSALS ARE SAFE** in every registry that calls can produce. -/
theorem traversable_reachable (calls : List RegistryCall) {k k' : Registry}
    (h : Traversable k) (hrun : runAll Registry.step k calls = some k') :
    Traversable k' := by
  induction calls generalizing k with
  | nil =>
      rw [← Option.some.inj hrun]
      exact h
  | cons c cs ih =>
      cases hc : k.step c with
      | none =>
          have hnone : runAll Registry.step k (c :: cs) = none := by
            rw [runAll, hc]
          rw [hnone] at hrun
          cases hrun
      | some k1 =>
          rw [runAll_cons hc] at hrun
          exact ih (h.step hc) hrun

/-! ## A registry with one interface -/

/-- A registry with one interface. -/
def Registry.sole (x : Interface) : Registry :=
  ⟨x.id + 1, 1, 1, ⟨[some 0], fun p => if p = 0 then some x else none, 1⟩⟩

theorem traversable_sole (x : Interface) : Traversable (Registry.sole x) := by
  refine ⟨fun i hi => ⟨(0, x), ?_⟩, rfl⟩
  have h0 : i = 0 := Nat.lt_one_iff.mp hi
  rw [h0]
  rfl

theorem findInterface_sole (x : Interface) :
    (Registry.sole x).findInterface x.id.toInt32 = some (some (0, x)) := by
  have hsearch : DistComm.findInterface (Registry.sole x).interfaceList.deref
      (fun y => y.2.id) (Registry.sole x).interfaceCount.toInt32 x.id.toInt32
        = some (some ⟨0, (0, x)⟩) := by
    show (if x.id == x.id then some (some (⟨0, (0, x)⟩ : Hit (Nat × Interface)))
      else _) = _
    rw [if_pos (beq_self_eq_true x.id)]
  rw [Registry.findInterface, hsearch]
  rfl

end DistComm
