import Mathlib.Algebra.BigOperators.Group.List.Basic
import Mathlib.Data.Multiset.OrderedMonoid
import Mathlib.Data.Finset.Erase
import Mathlib.Data.Finset.Insert

/-! # Who owns which block

    Programs over a heap of numbered blocks, and triples for them.  A program ends with
    a value or a crash: it follows NULL, or it misuses a block, which is to free it twice
    or to use it when it is gone.  Any allocation may fail; `grants` says which ones do
    not.

    `Spec grants own p post` is about the blocks in `own`: whatever else there is on the
    heap (the frame, which stays as it is), the program does not misuse a block, follows
    NULL only if an allocation was denied, and with its value it leaves the blocks of the
    postcondition in the place of `own`.  So the frame rule holds by definition, and
    `Spec.foldlM` is the rule for a loop with an invariant. -/

namespace Slab

/-- Why a program stops. -/
inductive Crash where
  | null
  | misuse
  deriving DecidableEq

/-- What an allocation returns: NULL, the pointer that stands for no bytes, or a block. -/
inductive Pointer where
  | null
  | zero
  | block (n : Nat)
  deriving DecidableEq

/-- The live blocks, and the number of the next allocation. -/
structure Heap where
  next : Nat
  live : Finset Nat
  fresh : ∀ b ∈ live, b < next

def Heap.empty : Heap := ⟨0, ∅, fun _ h => absurd h (Finset.notMem_empty _)⟩

/-- One more live block. -/
def Heap.alloc (h : Heap) : Heap where
  next := h.next + 1
  live := insert h.next h.live
  fresh b hb := by
    rcases Finset.mem_insert.mp hb with heq | hold
    · rw [heq]
      exact Nat.lt_succ_self _
    · exact Nat.lt_succ_of_lt (h.fresh b hold)

/-- An allocation that failed. -/
def Heap.skip (h : Heap) : Heap :=
  ⟨h.next + 1, h.live, fun b hb => Nat.lt_succ_of_lt (h.fresh b hb)⟩

/-- One live block less. -/
def Heap.drop (h : Heap) (b : Nat) : Heap :=
  ⟨h.next, h.live.erase b, fun c hc => h.fresh c (Finset.mem_of_mem_erase hc)⟩

/-- A program over the heap. -/
def Prog (α : Type) : Type := Heap → Except Crash (α × Heap)

instance : Monad Prog where
  pure a := fun h => .ok (a, h)
  bind p q := fun h =>
    match p h with
    | .ok (a, h') => q a h'
    | .error c => .error c

/-- The program stops. -/
def crash {α : Type} (c : Crash) : Prog α := fun _ => .error c

/-- A value that has to be there. -/
def demand {α : Type} : Option α → Prog α
  | some a => pure a
  | none => crash .misuse

/-- Allocate; no bytes need no block. -/
def kmalloc (grants : Nat → Nat → Bool) (size : Nat) : Prog Pointer := fun h =>
  if size = 0 then .ok (.zero, h)
  else if grants h.next size then .ok (.block h.next, h.alloc)
  else .ok (.null, h.skip)

/-- Free what the pointer points to, if it points to a block. -/
def kfree : Pointer → Prog Unit
  | .null => pure ()
  | .zero => pure ()
  | .block b => fun h => if b ∈ h.live then .ok ((), h.drop b) else .error .misuse

/-- A block for another one; where there is none, the old one stays. -/
def krealloc (grants : Nat → Nat → Bool) (p : Pointer) (size : Nat) : Prog Pointer := do
  let q ← kmalloc grants size
  if q = .null then pure .null
  else do
    kfree p
    pure q

/-- Follow the pointer. -/
def access : Pointer → Prog Unit
  | .null => crash .null
  | .zero => crash .misuse
  | .block b => fun h => if b ∈ h.live then .ok ((), h) else .error .misuse

/-- Copy so many bytes to where the pointer points; none need no block. -/
def fill (p : Pointer) (n : Nat) : Prog Unit := if n = 0 then pure () else access p

/-- The blocks that belong to whoever has the pointer. -/
def Pointer.owned : Pointer → Multiset Nat
  | .null => 0
  | .zero => 0
  | .block b => {b}

theorem Pointer.card_owned (p : Pointer) : p.owned.card ≤ 1 := by
  cases p with
  | null => exact Nat.zero_le 1
  | zero => exact Nat.zero_le 1
  | block b => exact Nat.le_of_eq (Multiset.card_singleton b)

theorem Pointer.card_owned_block {p : Pointer} (hzero : p ≠ .zero) (hnull : p ≠ .null) :
    p.owned.card = 1 := by
  cases p with
  | null => exact absurd rfl hnull
  | zero => exact absurd rfl hzero
  | block b => exact Multiset.card_singleton b

/-- The blocks of several pointers. -/
def ownedAll (ps : List Pointer) : Multiset Nat := (ps.map Pointer.owned).sum

/-- There is a block that the pointer points to. -/
def Pointer.IsBlock (p : Pointer) : Prop := p ≠ .null ∧ p ≠ .zero

/-! ## Triples -/

/-- Some allocation fails. -/
def Denied (grants : Nat → Nat → Bool) : Prop := ∃ n size, grants n size = false

/-- What holds of the outcome of a program that owned part of the heap, next to a
    frame. -/
def Leaves {α : Type} (grants : Nat → Nat → Bool) (frame : Multiset Nat)
    (post : α → Multiset Nat → Prop) : Except Crash (α × Heap) → Prop
  | .ok (a, h) => ∃ own, post a own ∧ h.live.val = own + frame
  | .error c => c = .null ∧ Denied grants

/-- The triple. -/
def Spec {α : Type} (grants : Nat → Nat → Bool) (own : Multiset Nat) (p : Prog α)
    (post : α → Multiset Nat → Prop) : Prop :=
  ∀ (h : Heap) (frame : Multiset Nat), h.live.val = own + frame →
    Leaves grants frame post (p h)

section Rules

variable {α β σ : Type} {grants : Nat → Nat → Bool} {own : Multiset Nat}

theorem Spec.pure {post : α → Multiset Nat → Prop} {a : α} (h : post a own) :
    Spec grants own (Pure.pure a) post :=
  fun _ _ hlive => ⟨own, h, hlive⟩

theorem run_bind_ok {p : Prog α} {q : α → Prog β} {h h' : Heap} {a : α}
    (hrun : p h = .ok (a, h')) : (p >>= q) h = q a h' := by
  show (match p h with
    | .ok (a, h') => q a h'
    | .error c => .error c) = _
  rw [hrun]

theorem run_bind_error {p : Prog α} {q : α → Prog β} {h : Heap} {c : Crash}
    (hrun : p h = .error c) : (p >>= q) h = .error c := by
  show (match p h with
    | .ok (a, h') => q a h'
    | .error c => .error c) = _
  rw [hrun]

/-- **SEQUENCE**: the second program owns what the first one leaves. -/
theorem Spec.bind {p : Prog α} {q : α → Prog β} {mid : α → Multiset Nat → Prop}
    {post : β → Multiset Nat → Prop} (hp : Spec grants own p mid)
    (hq : ∀ a own', mid a own' → Spec grants own' (q a) post) :
    Spec grants own (p >>= q) post := by
  intro h frame hlive
  have hleaves := hp h frame hlive
  cases hrun : p h with
  | error c =>
      rw [hrun] at hleaves
      rw [run_bind_error hrun]
      exact hleaves
  | ok r =>
      rw [hrun] at hleaves
      obtain ⟨own', hmid, hlive'⟩ := hleaves
      rw [run_bind_ok hrun]
      exact hq r.1 own' hmid r.2 frame hlive'

theorem Spec.weaken {p : Prog α} {post post' : α → Multiset Nat → Prop}
    (hp : Spec grants own p post) (h : ∀ a own', post a own' → post' a own') :
    Spec grants own p post' := by
  intro heap frame hlive
  have hleaves := hp heap frame hlive
  cases hrun : p heap with
  | error c =>
      rw [hrun] at hleaves
      exact hleaves
  | ok r =>
      rw [hrun] at hleaves
      obtain ⟨own', hpost, hlive'⟩ := hleaves
      exact ⟨own', h _ _ hpost, hlive'⟩

theorem Spec.demand {a : α} {o : Option α} (h : o = some a) :
    Spec grants own (demand o) fun b own' => b = a ∧ own' = own := by
  rw [h]
  exact Spec.pure ⟨rfl, rfl⟩

/-- An allocation adds its block, and returns NULL only if it was denied. -/
theorem Spec.kmalloc (size : Nat) :
    Spec grants own (kmalloc grants size) fun p own' => own' = own + p.owned
      ∧ (0 < size → p ≠ .zero) ∧ (p = .null → Denied grants) := by
  intro h frame hlive
  rw [Slab.kmalloc]
  by_cases hsize : size = 0
  · rw [if_pos hsize]
    exact ⟨own, ⟨(add_zero _).symm, fun hpos => absurd hsize (Nat.pos_iff_ne_zero.mp hpos),
      fun h0 => nomatch h0⟩, hlive⟩
  rw [if_neg hsize]
  cases hgrant : grants h.next size with
  | false =>
      rw [if_neg Bool.false_ne_true]
      exact ⟨own, ⟨(add_zero _).symm, fun _ h0 => (nomatch h0), fun _ => ⟨_, _, hgrant⟩⟩,
        hlive⟩
  | true =>
      rw [if_pos rfl]
      have hnew : h.next ∉ h.live := fun hmem => Nat.lt_irrefl _ (h.fresh _ hmem)
      refine ⟨own + {h.next}, ⟨rfl, fun _ h0 => (nomatch h0), fun h0 => nomatch h0⟩, ?_⟩
      show (insert h.next h.live).val = _
      rw [Finset.insert_val_of_notMem hnew, hlive, ← Multiset.singleton_add,
        add_right_comm, add_comm _ ({h.next} : Multiset Nat)]

/-- What is owned can be freed, and is not owned any more. -/
theorem Spec.kfree (p : Pointer) :
    Spec grants (own + p.owned) (kfree p) fun _ own' => own' = own := by
  cases p with
  | null => exact Spec.pure (add_zero _)
  | zero => exact Spec.pure (add_zero _)
  | block b =>
      intro h frame hlive
      replace hlive : h.live.val = own + {b} + frame := hlive
      have hmem : b ∈ h.live := by
        rw [← Finset.mem_val, hlive]
        exact Multiset.mem_add.mpr (Or.inl (Multiset.mem_add.mpr
          (Or.inr (Multiset.mem_singleton_self b))))
      have hrun : Slab.kfree (.block b) h = .ok ((), h.drop b) := if_pos hmem
      rw [hrun]
      refine ⟨own, rfl, ?_⟩
      show (h.live.erase b).val = _
      rw [Finset.erase_val, hlive, add_right_comm, add_comm _ ({b} : Multiset Nat),
        Multiset.singleton_add, Multiset.erase_cons_head]

/-- A new block in the place of the old one, which was copied to it. -/
theorem Spec.krealloc (p : Pointer) (size : Nat) :
    Spec grants (own + p.owned) (krealloc grants p size) fun q own' =>
      (q = .null ∧ Denied grants)
        ∨ (own' = own + q.owned ∧ q ≠ .null ∧ (0 < size → q ≠ .zero)) := by
  rw [Slab.krealloc]
  refine (Spec.kmalloc size).bind fun q own1 ⟨h1, hzero, hdenied⟩ => ?_
  by_cases hq : q = .null
  · rw [if_pos hq]
    exact Spec.pure (Or.inl ⟨rfl, hdenied hq⟩)
  · rw [if_neg hq, h1, add_right_comm]
    refine (Spec.kfree p).bind fun _ own2 h2 => ?_
    rw [h2]
    exact Spec.pure (Or.inr ⟨rfl, hq, hzero⟩)

/-- What is owned can be used. -/
theorem Spec.access {p : Pointer} (hzero : p ≠ .zero)
    (hnull : p = .null → Denied grants) (hown : p.owned ≤ own) :
    Spec grants own (access p) fun _ own' => own' = own ∧ p ≠ .null := by
  cases p with
  | null => exact fun _ _ _ => ⟨rfl, hnull rfl⟩
  | zero => exact absurd rfl hzero
  | block b =>
      intro h frame hlive
      have hmem : b ∈ h.live := by
        rw [← Finset.mem_val, hlive]
        exact Multiset.mem_add.mpr (Or.inl (Multiset.mem_of_le hown
          (Multiset.mem_singleton_self b)))
      have hrun : Slab.access (.block b) h = .ok ((), h) := if_pos hmem
      rw [hrun]
      exact ⟨own, ⟨rfl, fun h0 => nomatch h0⟩, hlive⟩

theorem Spec.access_block {p : Pointer} (hp : p.IsBlock) (hown : p.owned ≤ own) :
    Spec grants own (Slab.access p) fun _ own' => own' = own :=
  (Spec.access hp.2 (fun h => absurd h hp.1) hown).weaken fun _ _ h => h.1

/-- The pointer comes from an allocation of so many bytes. -/
structure Obtained (grants : Nat → Nat → Bool) (size : Nat) (p : Pointer) : Prop where
  zero : 0 < size → p ≠ .zero
  null : p = .null → Denied grants

/-- Whoever follows it finds out whether there is a block. -/
theorem Obtained.access {p : Pointer} {size : Nat} (h : Obtained grants size p)
    (hsize : 0 < size) (hown : p.owned ≤ own) :
    Spec grants own (Slab.access p) fun _ own' => own' = own ∧ p.IsBlock :=
  (Spec.access (h.zero hsize) h.null hown).weaken
    fun _ _ hp => ⟨hp.1, hp.2, h.zero hsize⟩

/-- A block that was allocated for so many bytes can be filled with them. -/
theorem Spec.fill {p : Pointer} {n : Nat} (hzero : 0 < n → p ≠ .zero)
    (hnull : p = .null → Denied grants) (hown : p.owned ≤ own) :
    Spec grants own (fill p n) fun _ own' => own' = own ∧ (0 < n → p ≠ .null) := by
  rw [Slab.fill]
  by_cases hn : n = 0
  · rw [if_pos hn]
    exact Spec.pure ⟨rfl, fun hpos => absurd hn (Nat.pos_iff_ne_zero.mp hpos)⟩
  · rw [if_neg hn]
    exact (Spec.access (hzero (Nat.pos_of_ne_zero hn)) hnull hown).weaken
      fun _ _ h => ⟨h.1, fun _ => h.2⟩

/-- **LOOP**: an invariant that says what is owned, of the state and of what the loop
    has gone through. -/
theorem Spec.foldlM {α : Type} {step : σ → α → Prog σ}
    {I : List α → σ → Multiset Nat → Prop} {s : σ} (h0 : I [] s own)
    (hstep : ∀ as s own' a, I as s own' → Spec grants own' (step s a) (I (as ++ [a])))
    (as : List α) : Spec grants own (as.foldlM step s) (I as) := by
  suffices h : ∀ (bs as : List α) (s : σ) (own : Multiset Nat), I as s own →
      Spec grants own (bs.foldlM step s) (I (as ++ bs)) from h as [] s own h0
  intro bs
  induction bs with
  | nil =>
      intro as s own h
      rw [List.append_nil]
      exact Spec.pure h
  | cons b bs ih =>
      intro as s own h
      refine (hstep as s own b h).bind fun s' own' h' => ?_
      have hrest := ih (as ++ [b]) s' own' h'
      rwa [List.append_assoc] at hrest

/-- The program stops in any case: it misuses a block, unless it follows the NULL of an
    allocation that was denied. -/
def Fails (grants : Nat → Nat → Bool) (own : Multiset Nat) (p : Prog α) : Prop :=
  ∀ (h : Heap) (frame : Multiset Nat), h.live.val = own + frame →
    p h = .error .misuse ∨ (p h = .error .null ∧ Denied grants)

theorem Fails.demand {o : Option α} (h : o = none) : Fails grants own (demand o) := by
  rw [h]
  exact fun _ _ _ => Or.inl rfl

theorem Fails.bind {p : Prog α} (hp : Fails grants own p) (q : α → Prog β) :
    Fails grants own (p >>= q) := by
  intro h frame hlive
  rcases hp h frame hlive with hrun | ⟨hrun, hdenied⟩
  · exact Or.inl (run_bind_error hrun)
  · exact Or.inr ⟨run_bind_error hrun, hdenied⟩

/-- A program stops if what follows its first part does. -/
theorem Spec.fails {p : Prog α} {q : α → Prog β} {mid : α → Multiset Nat → Prop}
    (hp : Spec grants own p mid) (hq : ∀ a own', mid a own' → Fails grants own' (q a)) :
    Fails grants own (p >>= q) := by
  intro h frame hlive
  have hleaves := hp h frame hlive
  cases hrun : p h with
  | error c =>
      rw [hrun] at hleaves
      rw [run_bind_error hrun, hleaves.1]
      exact Or.inr ⟨rfl, hleaves.2⟩
  | ok r =>
      rw [hrun] at hleaves
      obtain ⟨own', hmid, hlive'⟩ := hleaves
      rw [run_bind_ok hrun]
      exact hq r.1 own' hmid r.2 frame hlive'

/-- **FROM THE EMPTY HEAP**: whoever returns owns the whole heap. -/
theorem Spec.whole {p : Prog α} {post : α → Multiset Nat → Prop}
    (hp : Spec grants 0 p post) :
    (p Heap.empty = .error .null ∧ Denied grants)
      ∨ ∃ a h, p Heap.empty = .ok (a, h) ∧ post a h.live.val := by
  have hleaves := hp Heap.empty 0 (zero_add 0).symm
  cases hrun : p Heap.empty with
  | error c =>
      rw [hrun] at hleaves
      exact Or.inl ⟨by rw [hleaves.1], hleaves.2⟩
  | ok r =>
      rw [hrun] at hleaves
      obtain ⟨own', hpost, hlive⟩ := hleaves
      rw [add_zero] at hlive
      exact Or.inr ⟨r.1, r.2, rfl, by rw [hlive]; exact hpost⟩

end Rules

end Slab
