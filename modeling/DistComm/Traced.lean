import Mathlib.Data.List.Basic

/-! # Stateful programs with a trace

    Straight-line code that changes a state, leaves observable events behind and
    may stop at a fault: `Traced σ ε α` runs from a state to an `Outcome` with the
    returned value (`none` when the program faulted), the state it left and the
    events in order.  A fault keeps what happened before it.

    Symbolic execution is rewriting: `run_bind_some` and `run_bind_none` take one
    step of a program whose first part has a known outcome. -/

namespace TracedProgram

variable {σ ε α β : Type}

/-- What a run leaves. -/
structure Outcome (σ ε α : Type) where
  ret : Option α
  state : σ
  trace : List ε

/-- The same outcome after some earlier events. -/
def Outcome.after (t : List ε) (o : Outcome σ ε α) : Outcome σ ε α :=
  ⟨o.ret, o.state, t ++ o.trace⟩

/-- A program over the state `σ` with events `ε`. -/
def Traced (σ ε α : Type) := σ → Outcome σ ε α

instance : Monad (Traced σ ε) where
  pure a := fun s => ⟨some a, s, []⟩
  bind p q := fun s =>
    match p s with
    | ⟨some a, s', t⟩ => (q a s').after t
    | ⟨none, s', t⟩ => ⟨none, s', t⟩

/-- Leave an event. -/
def emit (e : ε) : Traced σ ε Unit := fun s => ⟨some (), s, [e]⟩

/-- The current state. -/
def getState : Traced σ ε σ := fun s => ⟨some s, s, []⟩

/-- Replace the state. -/
def putState (s' : σ) : Traced σ ε Unit := fun _ => ⟨some (), s', []⟩

/-- Stop: the code does something that has no defined outcome. -/
def fault : Traced σ ε α := fun s => ⟨none, s, []⟩

/-- Continue with the value, or stop where there is none. -/
def orFault : Option α → Traced σ ε α
  | some a => pure a
  | none => fault

/-! ## Running -/

@[simp] theorem after_after (t u : List ε) (o : Outcome σ ε α) :
    (o.after u).after t = o.after (t ++ u) := by
  show (⟨o.ret, o.state, t ++ (u ++ o.trace)⟩ : Outcome σ ε α)
    = ⟨o.ret, o.state, (t ++ u) ++ o.trace⟩
  rw [List.append_assoc]

@[simp] theorem after_ret (t : List ε) (o : Outcome σ ε α) :
    (o.after t).ret = o.ret := rfl

@[simp] theorem after_state (t : List ε) (o : Outcome σ ε α) :
    (o.after t).state = o.state := rfl

@[simp] theorem after_trace (t : List ε) (o : Outcome σ ε α) :
    (o.after t).trace = t ++ o.trace := rfl

@[simp] theorem run_pure (a : α) (s : σ) :
    (pure a : Traced σ ε α) s = ⟨some a, s, []⟩ := rfl

/-- One step: the first part returned. -/
theorem run_bind_some {p : Traced σ ε α} {q : α → Traced σ ε β} {s s' : σ}
    {a : α} {t : List ε} (h : p s = ⟨some a, s', t⟩) :
    (p >>= q) s = (q a s').after t := by
  show (match p s with
    | ⟨some a, s', t⟩ => (q a s').after t
    | ⟨none, s', t⟩ => ⟨none, s', t⟩) = (q a s').after t
  rw [h]

/-- One step: the first part faulted. -/
theorem run_bind_none {p : Traced σ ε α} {q : α → Traced σ ε β} {s s' : σ}
    {t : List ε} (h : p s = ⟨none, s', t⟩) :
    (p >>= q) s = ⟨none, s', t⟩ := by
  show (match p s with
    | ⟨some a, s', t⟩ => (q a s').after t
    | ⟨none, s', t⟩ => ⟨none, s', t⟩) = ⟨none, s', t⟩
  rw [h]

/-- A program that returned has a first part that did. -/
theorem ret_bind_some {p : Traced σ ε α} {q : α → Traced σ ε β} {s : σ} {b : β}
    (h : ((p >>= q) s).ret = some b) :
    ∃ a s' t, p s = ⟨some a, s', t⟩ ∧ (q a s').ret = some b := by
  cases hp : p s with
  | mk ret s' t =>
      cases ret with
      | none =>
          rw [run_bind_none hp] at h
          cases h
      | some a =>
          rw [run_bind_some hp] at h
          exact ⟨a, s', t, rfl, h⟩

/-- A program whose result is replaced. -/
theorem run_bind_pure (p : Traced σ ε α) (b : β) (s : σ) :
    (p >>= fun _ => pure b) s
      = ⟨(p s).ret.map fun _ => b, (p s).state, (p s).trace⟩ := by
  cases h : p s with
  | mk ret s' t =>
      cases ret with
      | none => exact run_bind_none h
      | some a =>
          rw [run_bind_some h]
          exact congrArg (Outcome.mk _ _) (List.append_nil t)

theorem run_ite (c : Prop) [Decidable c] (p q : Traced σ ε α) (s : σ) :
    (if c then p else q) s = if c then p s else q s := by
  by_cases h : c
  · rw [if_pos h, if_pos h]
  · rw [if_neg h, if_neg h]

theorem run_emit_bind (e : ε) (q : Unit → Traced σ ε β) (s : σ) :
    (emit e >>= q) s = (q () s).after [e] := rfl

theorem run_getState_bind (q : σ → Traced σ ε β) (s : σ) :
    (getState >>= q) s = q s s := rfl

theorem run_putState_bind (s s' : σ) (q : Unit → Traced σ ε β) :
    (putState s' >>= q) s = q () s' := rfl

theorem run_orFault_some_bind {x : Option α} {a : α} (h : x = some a)
    (q : α → Traced σ ε β) (s : σ) : (orFault x >>= q) s = q a s := by
  rw [h]
  rfl

theorem run_orFault_none_bind {x : Option α} (h : x = none)
    (q : α → Traced σ ε β) (s : σ) :
    (orFault x >>= q) s = ⟨none, s, []⟩ := by
  rw [h]
  rfl

theorem ret_orFault_bind {x : Option α} {q : α → Traced σ ε β} {s : σ} {b : β}
    (h : ((orFault x >>= q) s).ret = some b) :
    ∃ a, x = some a ∧ (q a s).ret = some b := by
  cases hx : x with
  | none =>
      rw [run_orFault_none_bind hx] at h
      cases h
  | some a =>
      rw [run_orFault_some_bind hx] at h
      exact ⟨a, rfl, h⟩

/-! ## Programs that only look at the state -/

/-- The program leaves the state as it finds it. -/
def ReadOnly (p : Traced σ ε α) : Prop := ∀ s, (p s).state = s

theorem readOnly_pure (a : α) : ReadOnly (pure a : Traced σ ε α) := fun _ => rfl

theorem readOnly_emit (e : ε) : ReadOnly (emit e : Traced σ ε Unit) :=
  fun _ => rfl

theorem readOnly_getState : ReadOnly (getState : Traced σ ε σ) := fun _ => rfl

theorem readOnly_fault : ReadOnly (fault : Traced σ ε α) := fun _ => rfl

theorem readOnly_orFault (x : Option α) :
    ReadOnly (orFault x : Traced σ ε α) := by
  cases x with
  | none => exact readOnly_fault
  | some a => exact readOnly_pure a

theorem ReadOnly.bind {p : Traced σ ε α} {q : α → Traced σ ε β}
    (hp : ReadOnly p) (hq : ∀ a, ReadOnly (q a)) : ReadOnly (p >>= q) := by
  intro s
  have hs := hp s
  cases h : p s with
  | mk ret s' t =>
      rw [h] at hs
      replace hs : s' = s := hs
      rw [hs] at h
      cases ret with
      | none => rw [run_bind_none h]
      | some a =>
          rw [run_bind_some h]
          exact hq a s

theorem ReadOnly.ite {c : Prop} [Decidable c] {p q : Traced σ ε α}
    (hp : ReadOnly p) (hq : ReadOnly q) : ReadOnly (if c then p else q) := by
  by_cases h : c
  · rw [if_pos h]
    exact hp
  · rw [if_neg h]
    exact hq

/-! ## Properties of all events -/

/-- Every event the program leaves satisfies `P`. -/
def Emits (P : ε → Prop) (p : Traced σ ε α) : Prop :=
  ∀ s, ∀ e ∈ (p s).trace, P e

theorem emits_pure {P : ε → Prop} (a : α) : Emits P (pure a : Traced σ ε α) :=
  fun _ _ he => nomatch he

theorem emits_emit {P : ε → Prop} {e : ε} (h : P e) :
    Emits P (emit e : Traced σ ε Unit) := by
  intro s e' he
  rw [List.mem_singleton.mp he]
  exact h

theorem emits_getState {P : ε → Prop} : Emits P (getState : Traced σ ε σ) :=
  fun _ _ he => nomatch he

theorem emits_fault {P : ε → Prop} : Emits P (fault : Traced σ ε α) :=
  fun _ _ he => nomatch he

theorem emits_orFault {P : ε → Prop} (x : Option α) :
    Emits P (orFault x : Traced σ ε α) := by
  cases x with
  | none => exact emits_fault
  | some a => exact emits_pure a

theorem Emits.bind {P : ε → Prop} {p : Traced σ ε α} {q : α → Traced σ ε β}
    (hp : Emits P p) (hq : ∀ a, Emits P (q a)) : Emits P (p >>= q) := by
  intro s e he
  have hs := hp s
  cases h : p s with
  | mk ret s' t =>
      rw [h] at hs
      cases ret with
      | none =>
          rw [run_bind_none h] at he
          exact hs e he
      | some a =>
          rw [run_bind_some h] at he
          rcases List.mem_append.mp he with h1 | h1
          · exact hs e h1
          · exact hq a s' e h1

theorem Emits.ite {P : ε → Prop} {c : Prop} [Decidable c]
    {p q : Traced σ ε α} (hp : Emits P p) (hq : Emits P q) :
    Emits P (if c then p else q) := by
  by_cases h : c
  · rw [if_pos h]
    exact hp
  · rw [if_neg h]
    exact hq

end TracedProgram
