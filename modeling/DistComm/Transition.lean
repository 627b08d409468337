import Mathlib.Data.List.Basic
import Mathlib.Data.List.Induction

/-! # Runs of transition systems

    A step relation `step : σ → α → σ → Prop` with labels `α`, and its finite
    runs, with the induction over them packaged as a rule for an invariant that
    every step keeps (`Run.invariant`).  A condition on the steps of a run is a
    smaller step relation, `guarded`.

    For a partial step function the same in its executable form: `runAll` takes a
    list of labels from a state, and `runAll_simulates` is progress, invariance
    and refinement in one, for label sequences that meet a condition at every
    step.  `throughout_alongRun` turns "every state of the run is good" into a
    condition on its steps.  `runAll_invariant` is the invariant rule for invariants
    that look back on the run, as those about `Once` do, and `runAll_sumAlong` the
    one for balances to which every step adds. -/

namespace Transition

variable {σ τ α : Type}

/-- A finite run with its labels in order. -/
inductive Run (step : σ → α → σ → Prop) (s : σ) : List α → σ → Prop where
  | nil : Run step s [] s
  | snoc {as : List α} {t u : σ} {a : α} :
      Run step s as t → step t a u → Run step s (as ++ [a]) u

/-- The steps that also meet a condition on the state before them and the
    label. -/
def guarded (step : σ → α → σ → Prop) (ok : σ → α → Prop) :
    σ → α → σ → Prop :=
  fun s a t => ok s a ∧ step s a t

/-- **INVARIANT RULE**. -/
theorem Run.invariant {step : σ → α → σ → Prop} {I : σ → Prop} {s t : σ}
    {as : List α} (h : Run step s as t) (h0 : I s)
    (hstep : ∀ u a v, I u → step u a v → I v) : I t := by
  induction h with
  | nil => exact h0
  | snoc _ hlast ih => exact hstep _ _ _ ih hlast

/-- **INVARIANT RULE** with the labels so far. -/
theorem Run.invariant_labels {step : σ → α → σ → Prop} {I : List α → σ → Prop} {s t : σ}
    {as : List α} (h : Run step s as t) (h0 : I [] s)
    (hstep : ∀ as u a v, I as u → step u a v → I (as ++ [a]) v) : I as t := by
  induction h with
  | nil => exact h0
  | snoc _ hlast ih => exact hstep _ _ _ _ ih hlast

theorem Run.trans {step : σ → α → σ → Prop} {s t u : σ} {as bs : List α}
    (h : Run step s as t) (h' : Run step t bs u) : Run step s (as ++ bs) u := by
  induction h' with
  | nil => rw [List.append_nil]; exact h
  | snoc _ hlast ih =>
      rw [← List.append_assoc]
      exact ih.snoc hlast

theorem Run.cons {step : σ → α → σ → Prop} {s t u : σ} {a : α} {as : List α}
    (h : step s a t) (h' : Run step t as u) : Run step s (a :: as) u :=
  (Run.nil.snoc h).trans h'

/-! ## Partial step functions -/

/-- Take the labels in order; `none` when a step fails. -/
def runAll (step : σ → α → Option σ) : σ → List α → Option σ
  | s, [] => some s
  | s, a :: as =>
      match step s a with
      | some t => runAll step t as
      | none => none

/-- The condition holds at every step of the run. -/
def AlongRun (step : σ → α → Option σ) (ok : σ → α → Prop) :
    σ → List α → Prop
  | _, [] => True
  | s, a :: as => ok s a ∧ ∀ t, step s a = some t → AlongRun step ok t as

/-- What the steps of the run weigh together. -/
def sumAlong (step : σ → α → Option σ) (weight : σ → α → Nat) : σ → List α → Nat
  | _, [] => 0
  | s, a :: as =>
      weight s a
        + match step s a with
          | some t => sumAlong step weight t as
          | none => 0

/-- A state of the run, the first one or the last one included, satisfies `P`. -/
def Once (step : σ → α → Option σ) (P : σ → Prop) (s : σ) (as : List α) : Prop :=
  ∃ before rest t, as = before ++ rest ∧ runAll step s before = some t ∧ P t

/-- Every state of the run, the first one included, satisfies `P`. -/
def Throughout (step : σ → α → Option σ) (P : σ → Prop) : σ → List α → Prop
  | s, [] => P s
  | s, a :: as => P s ∧ ∀ t, step s a = some t → Throughout step P t as

theorem runAll_cons {step : σ → α → Option σ} {s t : σ} {a : α} {as : List α}
    (h : step s a = some t) : runAll step s (a :: as) = runAll step t as := by
  show (match step s a with
    | some t => runAll step t as
    | none => none) = runAll step t as
  rw [h]

theorem runAll_append {step : σ → α → Option σ} (as bs : List α) (s : σ) :
    runAll step s (as ++ bs)
      = (runAll step s as).bind fun t => runAll step t bs := by
  induction as generalizing s with
  | nil => rfl
  | cons a as ih =>
      cases h : step s a with
      | some t => rw [List.cons_append, runAll_cons h, runAll_cons h, ih]
      | none =>
          rw [List.cons_append, runAll, h, runAll, h]
          rfl

/-- **INVARIANT RULE** with the run so far: what holds at first and is kept by every
    step of a run holds after the run. -/
theorem runAll_invariant {step : σ → α → Option σ} {I : List α → σ → Prop} {s : σ}
    (h0 : I [] s)
    (hstep : ∀ as a t u, runAll step s as = some t → I as t → step t a = some u →
      I (as ++ [a]) u) (as : List α) {t : σ} (hrun : runAll step s as = some t) :
    I as t := by
  induction as using List.reverseRecOn generalizing t with
  | nil =>
      rw [← Option.some.inj hrun]
      exact h0
  | append_singleton as a ih =>
      rw [runAll_append] at hrun
      obtain ⟨u, hu, hlast⟩ := Option.bind_eq_some_iff.mp hrun
      cases hs : step u a with
      | none =>
          rw [runAll, hs] at hlast
          exact nomatch hlast
      | some v =>
          rw [runAll_cons hs] at hlast
          rw [← Option.some.inj hlast]
          exact hstep as a u v hu (ih hu) hs

/-- Now is one of the moments. -/
theorem Once.now {step : σ → α → Option σ} {P : σ → Prop} {s t : σ} {as : List α}
    (hrun : runAll step s as = some t) (hP : P t) : Once step P s as :=
  ⟨as, [], t, (List.append_nil as).symm, hrun, hP⟩

/-- What was once was also once in a longer run. -/
theorem Once.append {step : σ → α → Option σ} {P : σ → Prop} {s : σ} {as : List α}
    (h : Once step P s as) (bs : List α) : Once step P s (as ++ bs) := by
  obtain ⟨before, rest, t, heq, hrun, hP⟩ := h
  exact ⟨before, rest ++ bs, t, by rw [heq, List.append_assoc], hrun, hP⟩

theorem AlongRun.cons {step : σ → α → Option σ} {ok : σ → α → Prop} {s t : σ}
    {a : α} {as : List α} (hok : ok s a) (hstep : step s a = some t)
    (h : AlongRun step ok t as) : AlongRun step ok s (a :: as) := by
  refine ⟨hok, fun u hu => ?_⟩
  rw [← Option.some.inj (hstep.symm.trans hu)]
  exact h

/-- **EQUIVALENT CONDITIONS**: two conditions that agree wherever an invariant
    holds hold along the same runs, as long as the invariant does. -/
theorem alongRun_congr {step : σ → α → Option σ} {ok ok' guard : σ → α → Prop}
    {I : σ → Prop}
    (hstep : ∀ s a t, I s → guard s a → step s a = some t → I t)
    (hok : ∀ s a, I s → (ok s a ↔ ok' s a)) (as : List α) {s : σ} (hI : I s)
    (hguard : AlongRun step guard s as) :
    AlongRun step ok s as ↔ AlongRun step ok' s as := by
  induction as generalizing s with
  | nil => exact Iff.rfl
  | cons a as ih =>
      rw [AlongRun, AlongRun, hok s a hI]
      refine and_congr_right fun _ => forall_congr' fun t =>
        forall_congr' fun ht => ?_
      exact ih (hstep s a t hI hguard.1 ht) (hguard.2 t ht)

theorem Throughout.head {step : σ → α → Option σ} {P : σ → Prop} {s : σ}
    {as : List α} (h : Throughout step P s as) : P s := by
  cases as with
  | nil => exact h
  | cons a as => exact h.1

/-- **EXACT CONDITIONS**: where a step keeps `P` exactly if it meets the condition,
    `P` holds throughout a run exactly if all of its steps meet it. -/
theorem throughout_alongRun {step : σ → α → Option σ} {ok : σ → α → Prop}
    {I P : σ → Prop}
    (hstep : ∀ s a t, I s → P s → step s a = some t → I t ∧ (P t ↔ ok s a))
    (as : List α) {s t : σ} (hI : I s) (hP : P s)
    (hrun : runAll step s as = some t) :
    Throughout step P s as ↔ AlongRun step ok s as := by
  induction as generalizing s with
  | nil => exact ⟨fun _ => trivial, fun _ => hP⟩
  | cons a as ih =>
      cases hs : step s a with
      | none =>
          rw [runAll, hs] at hrun
          exact nomatch hrun
      | some u =>
          rw [runAll_cons hs] at hrun
          obtain ⟨hIu, hiff⟩ := hstep s a u hI hP hs
          constructor
          · rintro ⟨-, hrest⟩
            have hu := hrest u hs
            exact .cons (hiff.mp hu.head) hs ((ih hIu hu.head hrun).mp hu)
          · rintro ⟨hok, hrest⟩
            refine ⟨hP, fun v hv => ?_⟩
            cases Option.some.inj (hs.symm.trans hv)
            exact (ih hIu (hiff.mpr hok) hrun).mpr (hrest u hs)

theorem sumAlong_cons {step : σ → α → Option σ} (weight : σ → α → Nat) {s t : σ}
    {a : α} {as : List α} (h : step s a = some t) :
    sumAlong step weight s (a :: as) = weight s a + sumAlong step weight t as := by
  rw [sumAlong, h]

/-- **ACCOUNTS**: where a step adds its weight to a balance, a run adds the weights of
    its steps. -/
theorem runAll_sumAlong {step : σ → α → Option σ} {ok : σ → α → Prop}
    {weight : σ → α → Nat} {I : Nat → σ → Prop}
    (hstep : ∀ n s a t, I n s → ok s a → step s a = some t → I (n + weight s a) t)
    (as : List α) {n : Nat} {s t : σ} (hI : I n s) (hok : AlongRun step ok s as)
    (hrun : runAll step s as = some t) : I (n + sumAlong step weight s as) t := by
  induction as generalizing n s with
  | nil =>
      rw [← Option.some.inj hrun]
      exact hI
  | cons a as ih =>
      cases hs : step s a with
      | none =>
          rw [runAll, hs] at hrun
          exact nomatch hrun
      | some u =>
          rw [runAll_cons hs] at hrun
          rw [sumAlong_cons weight hs, ← Nat.add_assoc]
          exact ih (hstep n s a u hI hok.1 hs) (hok.2 u hs) hrun

/-- **INVARIANT RULE** for runs whose steps meet a condition. -/
theorem AlongRun.invariant {step : σ → α → Option σ} {ok : σ → α → Prop} {I : σ → Prop}
    (hstep : ∀ s a t, I s → ok s a → step s a = some t → I t) {as : List α} {s t : σ}
    (hok : AlongRun step ok s as) (hI : I s) (hrun : runAll step s as = some t) :
    I t := by
  induction as generalizing s with
  | nil =>
      rw [← Option.some.inj hrun]
      exact hI
  | cons a as ih =>
      cases hs : step s a with
      | none =>
          rw [runAll, hs] at hrun
          exact nomatch hrun
      | some u =>
          rw [runAll_cons hs] at hrun
          exact ih (hok.2 u hs) (hstep s a u hI hok.1 hs) hrun

/-- **REFINEMENT OF RUNS**.  If every step that meets the condition succeeds and
    is matched by the abstract system, so does every run whose steps do.  The
    relation may speak about the labels still to come. -/
theorem runAll_simulates {step : σ → α → Option σ} {ok : σ → α → Prop}
    {step' : τ → α → τ → Prop} {R : List α → σ → τ → Prop}
    (hstep : ∀ a as s s', R (a :: as) s s' → ok s a →
      ∃ t t', step s a = some t ∧ step' s' a t' ∧ R as t t') :
    ∀ (as : List α) (s : σ) (s' : τ), R as s s' → AlongRun step ok s as →
      ∃ t t', runAll step s as = some t ∧ Run step' s' as t' ∧ R [] t t' := by
  intro as
  induction as with
  | nil =>
      intro s s' hR _
      exact ⟨s, s', rfl, Run.nil, hR⟩
  | cons a as ih =>
      intro s s' hR hok
      obtain ⟨t, t', ht, ht', hR'⟩ := hstep a as s s' hR hok.1
      obtain ⟨u, u', hu, hrun, hR''⟩ := ih t t' hR' (hok.2 t ht)
      exact ⟨u, u', by rw [runAll_cons ht, hu], Run.cons ht' hrun, hR''⟩

end Transition
