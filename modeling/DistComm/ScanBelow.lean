import DistComm.Scan

/-! # Scans that are sound below a bound

    A scan over strings does not parse a format whatever the memory holds: a string
    without terminator ends where the scan stops counting.  But a scan that has
    stayed below a bound has seen the terminators of all of its strings.

    `ParsesBelow n` is `Parses` with the soundness of such scans.  It is kept by the
    same constructions, and it still tells what a scan that stays below the bound has
    consumed (`ParsesBelow.consumed`). -/

namespace RawScan

open RawMemory

variable {α β γ δ : Type} {n : Nat}

/-- The scan parses the format wherever its reads stay below `n`. -/
structure ParsesBelow (n : Nat) (p : Scan β) (V : α → Prop) (E : α → List UInt8)
    (F : α → β) : Prop where
  complete : ∀ a, V a → Consumes p (E a) (F a)
  sound : ∀ m pos, InBounds (p m pos).reads n → ∃ a, V a ∧ Holds m pos (E a)

theorem Parses.below {p : Scan β} {V : α → Prop} {E : α → List UInt8} {F : α → β}
    (hp : Parses p V E F) (n : Nat) : ParsesBelow n p V E F :=
  ⟨hp.complete, fun m pos _ => hp.sound m pos⟩

/-- **SEQUENCE** below a bound. -/
theorem ParsesBelow.bind {p : Scan β} {q : β → Scan δ} {V : α → Prop}
    {E : α → List UInt8} {F : α → β} {V' : α → γ → Prop}
    {E' : α → γ → List UInt8} {F' : α → γ → δ} (hp : ParsesBelow n p V E F)
    (hq : ∀ a, V a → ParsesBelow n (q (F a)) (V' a) (E' a) (F' a)) :
    ParsesBelow n (p >>= q) (fun ac : α × γ => V ac.1 ∧ V' ac.1 ac.2)
      (fun ac => E ac.1 ++ E' ac.1 ac.2) (fun ac => F' ac.1 ac.2) where
  complete ac hac :=
    (hp.complete ac.1 hac.1).bind ((hq ac.1 hac.1).complete ac.2 hac.2)
  sound m pos h := by
    rw [run_bind] at h
    obtain ⟨hfirst, hsecond⟩ := inBounds_append.mp h
    obtain ⟨a, ha, hE⟩ := hp.sound m pos hfirst
    -- the second scan starts behind what the first one has found
    have hrun := hp.complete a ha
    rw [hrun.val hE, hrun.next hE] at hsecond
    obtain ⟨c, hc, hE'⟩ := (hq a ha).sound m _ hsecond
    exact ⟨(a, c), ⟨ha, hc⟩, holds_append.mpr ⟨hE, hE'⟩⟩

theorem ParsesBelow.map {p : Scan β} {V : α → Prop} {E : α → List UInt8}
    {F : α → β} (f : β → δ) (hp : ParsesBelow n p V E F) :
    ParsesBelow n (p >>= fun x => pure (f x)) V E (fun a => f (F a)) where
  complete a ha := (hp.complete a ha).map f
  sound m pos h := by
    rw [run_bind, run_pure, List.append_nil] at h
    exact hp.sound m pos h

/-- The same format over other things `c`, each standing for one `g c`. -/
theorem ParsesBelow.reindex {p : Scan β} {V : α → Prop} {E : α → List UInt8}
    {F : α → β} (hp : ParsesBelow n p V E F) (V' : γ → Prop) (g : γ → α)
    (hV : ∀ c, V' c → V (g c)) (hg : ∀ a, V a → ∃ c, V' c ∧ g c = a) :
    ParsesBelow n p V' (fun c => E (g c)) (fun c => F (g c)) where
  complete c hc := hp.complete (g c) (hV c hc)
  sound m pos h := by
    obtain ⟨a, ha, hE⟩ := hp.sound m pos h
    obtain ⟨c, hc, hgc⟩ := hg a ha
    refine ⟨c, hc, ?_⟩
    rw [hgc]
    exact hE

/-- **REPETITION** below a bound. -/
theorem parsesBelow_loop {body : Nat → Scan β} {V : α → Prop}
    {E : α → List UInt8} {F : Nat → α → β}
    (hbody : ∀ i, ParsesBelow n (body i) V E (F i)) (k i : Nat) :
    ParsesBelow n (loop body i k) (fun as => as.length = k ∧ ∀ a ∈ as, V a)
      (fun as => as.flatMap E) (valuesFrom F i) := by
  refine ⟨?_, ?_⟩
  · rintro as ⟨hlen, hV⟩
    rw [← hlen]
    exact consumes_loop (fun i a ha => (hbody i).complete a (hV a ha)) i
  · intro m pos h
    induction k generalizing i pos with
    | zero => exact ⟨[], ⟨rfl, fun _ ha => absurd ha List.not_mem_nil⟩,
        holds_nil m pos⟩
    | succ k ih =>
        rw [loop_succ, run_bind] at h
        obtain ⟨hfirst, hrest⟩ := inBounds_append.mp h
        obtain ⟨a, ha, hE⟩ := (hbody i).sound m pos hfirst
        rw [run_bind, run_pure, List.append_nil,
          ((hbody i).complete a ha).next hE] at hrest
        obtain ⟨as, ⟨hlen, hV⟩, hEs⟩ := ih (i + 1) (pos + (E a).length) hrest
        refine ⟨a :: as, ⟨by rw [List.length_cons, hlen],
          List.forall_mem_cons.mpr ⟨ha, hV⟩⟩, ?_⟩
        rw [List.flatMap_cons]
        exact holds_append.mpr ⟨hE, hEs⟩

/-- A scan that stays below `n` consumed an encoding that ends there. -/
theorem ParsesBelow.consumed {p : Scan β} {V : α → Prop} {E : α → List UInt8}
    {F : α → β} (hp : ParsesBelow n p V E F) (hne : ∀ a, V a → E a ≠ []) {m : Mem}
    {pos : Nat} (h : InBounds (p m pos).reads n) :
    ∃ a, V a ∧ Holds m pos (E a) ∧ pos + (E a).length ≤ n := by
  obtain ⟨a, ha, hE⟩ := hp.sound m pos h
  rcases ((hp.complete a ha).reads hE n).mp h with hnil | hle
  · exact absurd hnil (hne a ha)
  · exact ⟨a, ha, hE, hle⟩

/-! ## Strings -/

theorem holds_strAt (m : Mem) (limit pos : Nat) :
    Holds m pos (strAt m limit pos) := by
  induction limit generalizing pos with
  | zero => exact holds_nil m pos
  | succ limit ih =>
      rw [strAt]
      by_cases h0 : m pos = 0
      · rw [if_pos h0]
        exact holds_nil m pos
      · rw [if_neg h0]
        show Holds m pos ([m pos] ++ strAt m limit (pos + 1))
        exact holds_append.mpr ⟨rfl, ih (pos + 1)⟩

/-- A string below its limit is terminated. -/
theorem strAt_terminated {m : Mem} {limit pos : Nat}
    (h : (strAt m limit pos).length < limit) :
    Holds m pos (strAt m limit pos ++ [0]) := by
  refine holds_append.mpr ⟨holds_strAt m limit pos, ?_⟩
  show [m (pos + (strAt m limit pos).length)] = [0]
  induction limit generalizing pos with
  | zero => exact absurd h (Nat.not_lt_zero _)
  | succ limit ih =>
      rw [strAt] at h ⊢
      by_cases h0 : m pos = 0
      · rw [if_pos h0, List.length_nil, Nat.add_zero, h0]
      · rw [if_neg h0, List.length_cons] at h ⊢
        have hrest := @ih (pos + 1) (by omega)
        rw [Nat.add_right_comm] at hrest
        exact hrest

end RawScan
