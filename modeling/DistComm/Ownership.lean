import DistComm.Traced

/-! # Local variables and what they own

    For C code that acquires resources and cleans up behind itself: a local variable
    of pointer type is uninitialised, NULL or points to a block, and a run leaves
    what its cleanup has to answer for in its trace.  The state of a run is the
    number of blocks and handles so far, so that each gets a number of its own.

    A run is `Balanced` if it reads no uninitialised variable, frees no block twice,
    and releases its handle exactly once before it returns.  Blocks that are freed in
    the order of their numbers are freed once (`balanced_released`), and the growth
    of a buffer keeps to this order (`Replaces.bind`). -/

namespace Ownership

open TracedProgram

variable {α β : Type}

/-! ## Variables and resources -/

/-- What a pointer variable holds. -/
inductive Local where
  | uninit
  | null
  | allocated (block : Nat)
  deriving DecidableEq

/-- What a run does that its cleanup has to answer for: it reads an uninitialised
    variable, frees a block, creates or releases a handle. -/
inductive Use where
  | undefined
  | freed (block : Nat)
  | created (handle : Nat)
  | released (handle : Nat)
  deriving DecidableEq

/-- The blocks that are freed, in order. -/
def freed (t : List Use) : List Nat :=
  t.filterMap fun
    | .freed b => some b
    | _ => none

/-- **BALANCED**: no uninitialised variable is read, no block is freed twice, and
    whoever returns has released a handle that was created exactly once. -/
structure Balanced (o : Outcome Nat Use α) : Prop where
  initialised : Use.undefined ∉ o.trace
  freed_once : (freed o.trace).Nodup
  released : o.ret.isSome →
    ∀ s, .created s ∈ o.trace → o.trace.count (.released s) = 1

/-- Nothing is known of a run that read an uninitialised variable. -/
def undefined : Traced Nat Use α := do
  emit .undefined
  fault

/-- The value of a variable. -/
def Local.read : Local → Traced Nat Use (Option Nat)
  | .uninit => undefined
  | .null => pure none
  | .allocated b => pure (some b)

/-- What the variable points to is read or written. -/
def Local.access (v : Local) : Traced Nat Use Unit := do
  let addr ← v.read
  let _ ← orFault addr
  pure ()

/-- `if (v != NULL) kfree(v);`. -/
def Local.kfree (v : Local) : Traced Nat Use Unit := do
  let addr ← v.read
  match addr with
  | none => pure ()
  | some b => emit (.freed b)

/-- The handle is released. -/
def Local.release (v : Local) : Traced Nat Use Unit := do
  let addr ← v.read
  match addr with
  | none => fault
  | some s => emit (.released s)

/-- A block that was not there before. -/
def newBlock : Traced Nat Use Nat := do
  let n ← getState
  putState (n + 1)
  pure n

/-- `kzalloc`; `alloc` says which allocations succeed. -/
def kzalloc (alloc : Nat → Bool) : Traced Nat Use Local := do
  let n ← newBlock
  pure (if alloc n then .allocated n else .null)

/-- `krealloc`: the new block replaces the old one, which stays where there is none. -/
def krealloc (alloc : Nat → Bool) (v : Local) : Traced Nat Use Local := do
  let n ← newBlock
  if alloc n then do
    v.kfree
    pure (.allocated n)
  else pure .null

/-- The values of several variables. -/
def readAll : List Local → Traced Nat Use Unit
  | [] => pure ()
  | v :: vs => do
      let _ ← v.read
      readAll vs

/-! ## Running -/

theorem run_newBlock (n : Nat) : newBlock n = ⟨some n, n + 1, []⟩ := rfl

theorem run_kzalloc (alloc : Nat → Bool) (n : Nat) :
    kzalloc alloc n
      = ⟨some (if alloc n then .allocated n else .null), n + 1, []⟩ := rfl

theorem run_kzalloc_ok {alloc : Nat → Bool} {n : Nat} (h : alloc n = true) :
    kzalloc alloc n = ⟨some (.allocated n), n + 1, []⟩ := by
  rw [run_kzalloc, if_pos h]

theorem run_kzalloc_fails {alloc : Nat → Bool} {n : Nat} (h : alloc n = false) :
    kzalloc alloc n = ⟨some .null, n + 1, []⟩ := by
  rw [run_kzalloc, h]
  rfl

theorem run_krealloc_ok {alloc : Nat → Bool} {n : Nat} (h : alloc n = true) (b : Nat) :
    krealloc alloc (.allocated b) n = ⟨some (.allocated n), n + 1, [.freed b]⟩ := by
  rw [krealloc, run_bind_some (run_newBlock n), if_pos h]
  rfl

theorem run_krealloc_fails {alloc : Nat → Bool} {n : Nat} (h : alloc n = false)
    (v : Local) : krealloc alloc v n = ⟨some .null, n + 1, []⟩ := by
  rw [krealloc, run_bind_some (run_newBlock n), h]
  rfl

theorem run_access (b n : Nat) : (Local.allocated b).access n = ⟨some (), n, []⟩ := rfl

theorem run_access_null (n : Nat) : Local.null.access n = ⟨none, n, []⟩ := rfl

theorem run_read {v : Local} (hv : v ≠ .uninit) (n : Nat) :
    ∃ addr, v.read n = ⟨some addr, n, []⟩ := by
  cases v with
  | uninit => exact absurd rfl hv
  | null => exact ⟨none, rfl⟩
  | allocated b => exact ⟨some b, rfl⟩

theorem run_readAll {vs : List Local} (hvs : .uninit ∉ vs) (n : Nat) :
    readAll vs n = ⟨some (), n, []⟩ := by
  induction vs with
  | nil => rfl
  | cons v vs ih =>
      obtain ⟨addr, hread⟩ := run_read (List.ne_of_not_mem_cons hvs).symm n
      rw [readAll, run_bind_some hread, ih (List.not_mem_of_not_mem_cons hvs)]
      rfl

/-! ## Blocks that replace one another -/

/-- The variable that pointed to `b` points to `b` or to a later block, and the blocks
    in between were freed in order. -/
def Replaces (b : Nat) (o : Outcome Nat Use (Local × β)) : Prop :=
  ∃ bs : List Nat, o.trace = bs.map .freed ∧ bs.Pairwise (· < ·) ∧ (∀ x ∈ bs, b ≤ x)
    ∧ ∀ r, o.ret = some r →
      ∃ b', r.1 = .allocated b' ∧ b ≤ b' ∧ b' < o.state ∧ ∀ x ∈ bs, x < b'

/-- Nothing was freed, and the run stopped. -/
theorem Replaces.stop (b n : Nat) :
    Replaces b (⟨none, n, []⟩ : Outcome Nat Use (Local × β)) :=
  ⟨[], rfl, .nil, fun _ hx => absurd hx List.not_mem_nil, fun _ hr => nomatch hr⟩

/-- The variable still points to the block. -/
theorem Replaces.keep {b n : Nat} (hb : b < n) (buf : β) :
    Replaces b ⟨some (.allocated b, buf), n, []⟩ := by
  refine ⟨[], rfl, .nil, fun _ hx => absurd hx List.not_mem_nil, fun r hr => ?_⟩
  rw [← Option.some.inj hr]
  exact ⟨b, rfl, Nat.le_refl b, hb, fun _ hx => absurd hx List.not_mem_nil⟩

theorem Replaces.bind {b n : Nat} {p : Traced Nat Use (Local × β)}
    {q : Local × β → Traced Nat Use (Local × β)} (hp : Replaces b (p n))
    (hq : ∀ b' buf n', b' < n' → Replaces b' (q (.allocated b', buf) n')) :
    Replaces b ((p >>= q) n) := by
  obtain ⟨bs, htrace, hsorted, hge, hret⟩ := hp
  cases hrun : p n with
  | mk ret n' t =>
      rw [hrun] at htrace hret
      cases ret with
      | none =>
          rw [run_bind_none hrun]
          exact ⟨bs, htrace, hsorted, hge, fun _ hr => nomatch hr⟩
      | some r =>
          obtain ⟨v, buf⟩ := r
          obtain ⟨b', hv, hle, hlt, hbs⟩ := hret (v, buf) rfl
          replace hv : v = .allocated b' := hv
          subst hv
          -- the second part starts behind all that the first one freed
          obtain ⟨cs, htrace', hsorted', hge', hret'⟩ := hq b' buf n' hlt
          rw [run_bind_some hrun]
          refine ⟨bs ++ cs, ?_, ?_, ?_, fun r hr => ?_⟩
          · rw [after_trace, htrace', List.map_append]
            exact congrArg (· ++ _) htrace
          · refine List.pairwise_append.mpr ⟨hsorted, hsorted', fun x hx y hy => ?_⟩
            exact Nat.lt_of_lt_of_le (hbs x hx) (hge' y hy)
          · intro x hx
            rcases List.mem_append.mp hx with hx | hx
            · exact hge x hx
            · exact Nat.le_trans hle (hge' x hx)
          · obtain ⟨c, hc, hle', hlt', hcs⟩ := hret' r hr
            refine ⟨c, hc, Nat.le_trans hle hle', hlt', fun x hx => ?_⟩
            rcases List.mem_append.mp hx with hx | hx
            · exact Nat.lt_of_lt_of_le (hbs x hx) hle'
            · exact hcs x hx

/-- The variable points to a new block, and the old one was freed. -/
theorem Replaces.replace {b n : Nat} (hb : b < n) (buf : Option β) :
    Replaces b
      ⟨buf.map fun buf => (.allocated n, buf), n + 1, [.freed b]⟩ := by
  refine ⟨[b], rfl, List.pairwise_singleton _ b, fun x hx => ?_, fun r hr => ?_⟩
  · exact Nat.le_of_eq (List.mem_singleton.mp hx).symm
  · obtain ⟨buf', -, hbuf⟩ := Option.map_eq_some_iff.mp hr
    rw [← hbuf]
    refine ⟨n, rfl, Nat.le_of_lt hb, Nat.lt_succ_self n, fun x hx => ?_⟩
    rw [List.mem_singleton.mp hx]
    exact hb

/-! ## Balance -/

theorem freed_append (t u : List Use) : freed (t ++ u) = freed t ++ freed u :=
  List.filterMap_append

theorem freed_map (bs : List Nat) : freed (bs.map .freed) = bs := by
  rw [freed, List.filterMap_map]
  exact List.filterMap_some

theorem not_mem_map_freed {u : Use} (h : ∀ b, u ≠ .freed b) (bs : List Nat) :
    u ∉ bs.map .freed := by
  intro hu
  obtain ⟨b, -, hb⟩ := List.mem_map.mp hu
  exact h b hb.symm

/-- The run ends where it reads an uninitialised variable. -/
def Undefined (o : Outcome Nat Use α) : Prop := o.ret = none ∧ .undefined ∈ o.trace

theorem Undefined.not_balanced {o : Outcome Nat Use α} (h : Undefined o)
    (t : List Use) : ¬ Balanced (o.after t) :=
  fun hbalanced => hbalanced.initialised (List.mem_append_right t h.2)

/-- A handle that is kept is not released exactly once. -/
theorem not_balanced_kept {o : Outcome Nat Use α} (hret : o.ret.isSome) {s : Nat}
    (hcreated : .created s ∈ o.trace) (hkept : .released s ∉ o.trace) :
    ¬ Balanced o := by
  intro hbalanced
  have hone := hbalanced.released hret s hcreated
  rw [List.count_eq_zero_of_not_mem hkept] at hone
  exact absurd hone Nat.zero_ne_one

/-- The run stopped, or it freed everything from the block `b` on, in order, and
    released the handle. -/
def Cleaned (handle b : Nat) (o : Outcome Nat Use α) : Prop :=
  (o.ret = none ∧ o.trace = [])
    ∨ ∃ cs : List Nat, (b :: cs).Pairwise (· < ·)
        ∧ o.trace = (b :: cs).map .freed ++ [.released handle]

theorem mem_cleanup {handle : Nat} {u : Use} {bs : List Nat}
    (h : u ∈ Use.created handle :: (bs.map .freed ++ [.released handle])) :
    u = .created handle ∨ (∃ b, u = .freed b) ∨ u = .released handle := by
  rcases List.mem_cons.mp h with h | h
  · exact .inl h
  rcases List.mem_append.mp h with h | h
  · obtain ⟨b, -, hb⟩ := List.mem_map.mp h
    exact .inr (.inl ⟨b, hb.symm⟩)
  · exact .inr (.inr (List.mem_singleton.mp h))

/-- **NO DOUBLE FREE**: blocks that are freed in order are freed once. -/
theorem balanced_released (ret : Option α) (handle n : Nat) {bs : List Nat}
    (hsorted : bs.Pairwise (· < ·)) :
    Balanced ⟨ret, n, .created handle :: (bs.map .freed ++ [.released handle])⟩ where
  initialised h := by
    rcases mem_cleanup h with h | ⟨b, h⟩ | h
    · cases h
    · cases h
    · cases h
  freed_once := by
    show (freed (bs.map .freed ++ [.released handle])).Nodup
    rw [freed_append, freed_map]
    show (bs ++ []).Nodup
    rw [List.append_nil]
    exact hsorted.imp fun h => Nat.ne_of_lt h
  released _ s hs := by
    have hhandle : s = handle := by
      rcases mem_cleanup hs with h | ⟨b, h⟩ | h
      · exact Use.created.inj h
      · cases h
      · cases h
    have hnone : (bs.map Use.freed).count (.released s) = 0 :=
      List.count_eq_zero_of_not_mem (not_mem_map_freed (fun b h => by cases h) bs)
    have hne : Use.created handle ≠ .released s := fun h => by cases h
    show (Use.created handle :: (bs.map Use.freed ++ [Use.released handle])).count _ = 1
    rw [List.count_cons_of_ne hne, List.count_append, hnone, hhandle,
      List.count_singleton_self]

/-- A run that stops on the way is asked for nothing more. -/
theorem Balanced.stopped_before {ret : Option α} {n : Nat} {t u : List Use}
    (h : Balanced (⟨ret, n, t ++ u⟩ : Outcome Nat Use α)) (n' : Nat) :
    Balanced (⟨none, n', t⟩ : Outcome Nat Use α) where
  initialised hu := h.initialised (List.mem_append_left u hu)
  freed_once := by
    have hall : (freed (t ++ u)).Nodup := h.freed_once
    rw [freed_append] at hall
    exact (List.nodup_append.mp hall).1
  released h := Bool.noConfusion h

theorem balanced_stopped (handle n : Nat) {bs : List Nat} (hsorted : bs.Pairwise (· < ·)) :
    Balanced (⟨none, n, .created handle :: bs.map .freed⟩ : Outcome Nat Use α) :=
  (balanced_released none handle n hsorted).stopped_before n

/-- **CLEANUP**: what was freed before is freed in order as well. -/
theorem Cleaned.balanced {handle b : Nat} {o : Outcome Nat Use α}
    (h : Cleaned handle b o) {bs : List Nat} (hsorted : bs.Pairwise (· < ·))
    (hbs : ∀ x ∈ bs, x < b) :
    Balanced (o.after (.created handle :: bs.map .freed)) := by
  obtain ⟨ret, n, t⟩ := o
  rcases h with ⟨hret, htrace⟩ | ⟨cs, hcs, htrace⟩
  · replace hret : ret = none := hret
    replace htrace : t = [] := htrace
    rw [hret, htrace]
    show Balanced ⟨none, n, .created handle :: bs.map .freed ++ []⟩
    rw [List.append_nil]
    exact balanced_stopped handle n hsorted
  · have hall : (bs ++ b :: cs).Pairwise (· < ·) := by
      refine List.pairwise_append.mpr ⟨hsorted, hcs, fun x hx y hy => ?_⟩
      rcases List.mem_cons.mp hy with hy | hy
      · rw [hy]
        exact hbs x hx
      · exact Nat.lt_trans (hbs x hx) ((List.pairwise_cons.mp hcs).1 y hy)
    have hbalanced := balanced_released ret handle n hall
    rw [List.map_append, List.append_assoc, ← htrace] at hbalanced
    exact hbalanced

/-- A part of a run that does nothing to answer for comes to its end, or stops. -/
theorem run_silent {p : Traced Nat Use Unit} (hp : Emits (fun _ => False) p) (n : Nat) :
    (∃ n', p n = ⟨some (), n', []⟩) ∨ ∃ n', p n = ⟨none, n', []⟩ := by
  have htrace : (p n).trace = [] :=
    List.eq_nil_iff_forall_not_mem.mpr fun u hu => hp n u hu
  cases hrun : p n with
  | mk ret n' t =>
      rw [hrun] at htrace
      replace htrace : t = [] := htrace
      rw [htrace]
      cases ret with
      | none => exact .inr ⟨n', rfl⟩
      | some _ => exact .inl ⟨n', rfl⟩

end Ownership
