import Mathlib.Data.List.Nodup
import Mathlib.Logic.Function.Basic

/-! # Arrays of pointers to heap objects

    The usual growable table of a C program: an array whose first slots point to
    objects on the heap.  `Table` keeps the array, the heap and a supply of fresh
    addresses; a slot that was never written, an index outside of the array and
    an object that was freed are all `none`.

    `Lists t ps as` says that the first slots are the pointers `ps`, pairwise
    different, to the live objects `as`: what a table that is used as a list
    should satisfy.  `Live t n` is the part of it that a traversal of `n` slots
    needs.  Traversals are linear searches, and `search` is the loop for any kind
    of array. -/

namespace PointerArray

variable {α β : Type}

/-! ## Linear search -/

/-- What a search stops at. -/
structure Hit (β : Type) where
  index : Nat
  val : β

/-- `for (; n rounds from i; i++) if (P(array[i])) break;` over an array that is
    read with `get`. -/
def search (get : Nat → Option β) (P : β → Bool) :
    Nat → Nat → Option (Option (Hit β))
  | _, 0 => some none
  | i, n + 1 => do
      let b ← get i
      if P b then some (some ⟨i, b⟩) else search get P (i + 1) n

/-- The first `n` elements can be read. -/
def Readable (get : Nat → Option β) (n : Nat) : Prop :=
  ∀ i, i < n → ∃ b, get i = some b

/-- The first element from `i` on that satisfies `P`. -/
structure FirstHit (get : Nat → Option β) (P : β → Bool) (i : Nat)
    (h : Hit β) : Prop where
  le_index : i ≤ h.index
  get_index : get h.index = some h.val
  sat : P h.val = true
  before : ∀ j, i ≤ j → j < h.index → ∀ b, get j = some b → P b = false

/-- None of the `n` elements from `i` on satisfies `P`. -/
def NoHit (get : Nat → Option β) (P : β → Bool) (i n : Nat) : Prop :=
  ∀ j, i ≤ j → j < i + n → ∀ b, get j = some b → P b = false

theorem search_succ (get : Nat → Option β) (P : β → Bool) (i n : Nat) :
    search get P i (n + 1)
      = (get i).bind fun b =>
          if P b then some (some ⟨i, b⟩) else search get P (i + 1) n := rfl

/-- **SEARCH**: over readable elements the loop neither faults nor misses. -/
theorem search_cases {get : Nat → Option β} (P : β → Bool) (n i : Nat)
    (hread : ∀ j, i ≤ j → j < i + n → ∃ b, get j = some b) :
    (search get P i n = some none ∧ NoHit get P i n)
      ∨ ∃ h, search get P i n = some (some h) ∧ FirstHit get P i h
          ∧ h.index < i + n := by
  induction n generalizing i with
  | zero => exact Or.inl ⟨rfl, fun j h1 h2 => absurd h2 (by omega)⟩
  | succ n ih =>
      obtain ⟨b, hb⟩ := hread i (Nat.le_refl i) (by omega)
      rw [search_succ, hb, Option.bind_some]
      by_cases hP : P b = true
      · rw [if_pos hP]
        exact Or.inr ⟨⟨i, b⟩, rfl, ⟨Nat.le_refl i, hb, hP,
          fun j h1 h2 => absurd h2 (Nat.not_lt.mpr h1)⟩,
          Nat.lt_add_of_pos_right (Nat.succ_pos n)⟩
      · rw [if_neg hP]
        have hhead : ∀ c, get i = some c → P c = false := by
          intro c hc
          rw [hb] at hc
          cases Option.some.inj hc
          exact Bool.eq_false_iff.mpr hP
        rcases ih (i + 1) (fun j h1 h2 => hread j (by omega) (by omega))
          with ⟨hnone, hno⟩ | ⟨h, hsome, hfirst, hlt⟩
        · refine Or.inl ⟨hnone, fun j hj1 hj2 => ?_⟩
          rcases Nat.eq_or_lt_of_le hj1 with heq | hlt
          · rw [← heq]
            exact hhead
          · exact hno j hlt (by omega)
        · refine Or.inr ⟨h, hsome, ⟨Nat.le_of_succ_le hfirst.le_index,
            hfirst.get_index, hfirst.sat, fun j hj1 hj2 => ?_⟩, by omega⟩
          rcases Nat.eq_or_lt_of_le hj1 with heq | hlt
          · rw [← heq]
            exact hhead
          · exact hfirst.before j hlt hj2

theorem Readable.search {get : Nat → Option β} {n : Nat}
    (h : Readable get n) (P : β → Bool) :
    (search get P 0 n = some none ∧ NoHit get P 0 n)
      ∨ ∃ hit, search get P 0 n = some (some hit) ∧ FirstHit get P 0 hit
          ∧ hit.index < n := by
  have := search_cases P n 0 (fun j _ hj => h j (by omega))
  rwa [Nat.zero_add] at this

/-- The elements that a search by a key goes past have another one. -/
theorem NoHit.ne {γ : Type} [BEq γ] [LawfulBEq γ] {get : Nat → Option β}
    {key : β → γ} {c : γ} {n : Nat} (h : NoHit get (fun b => key b == c) 0 n)
    {j : Nat} (hj : j < n) {b : β} (hb : get j = some b) : key b ≠ c :=
  beq_eq_false_iff_ne.mp (h j (Nat.zero_le j) (by rw [Nat.zero_add]; exact hj) b hb)

theorem FirstHit.ne {γ : Type} [BEq γ] [LawfulBEq γ] {get : Nat → Option β}
    {key : β → γ} {c : γ} {hit : Hit β}
    (h : FirstHit get (fun b => key b == c) 0 hit) {j : Nat} (hj : j < hit.index)
    {b : β} (hb : get j = some b) : key b ≠ c :=
  beq_eq_false_iff_ne.mp (h.before j (Nat.zero_le j) hj b hb)

/-- A hit is an element of the array that satisfies the condition. -/
theorem search_hit {get : Nat → Option β} {P : β → Bool} {n i : Nat} {h : Hit β}
    (hit : search get P i n = some (some h)) :
    get h.index = some h.val ∧ P h.val = true := by
  induction n generalizing i with
  | zero => exact nomatch hit
  | succ n ih =>
      rw [search_succ] at hit
      obtain ⟨b, hb, hrest⟩ := Option.bind_eq_some_iff.mp hit
      by_cases hP : P b = true
      · rw [if_pos hP] at hrest
        cases Option.some.inj (Option.some.inj hrest)
        exact ⟨hb, hP⟩
      · rw [if_neg hP] at hrest
        exact ih hrest

/-- Changing the elements in a way that the condition does not see changes what
    a search returns, and nothing else. -/
theorem search_map {γ : Type} {get : Nat → Option β} {get' : Nat → Option γ}
    {P : β → Bool} {P' : γ → Bool} {g : β → γ}
    (hget : ∀ i, get' i = (get i).map g)
    (hP : ∀ i b, get i = some b → P' (g b) = P b) (n i : Nat) :
    search get' P' i n
      = (search get P i n).map fun found =>
          found.map fun h => ⟨h.index, g h.val⟩ := by
  induction n generalizing i with
  | zero => rfl
  | succ n ih =>
      rw [search_succ, search_succ, hget i]
      cases hb : get i with
      | none => rfl
      | some b =>
          rw [Option.map_some, Option.bind_some, Option.bind_some, hP i b hb]
          by_cases hsat : P b = true
          · rw [if_pos hsat, if_pos hsat]
            rfl
          · rw [if_neg hsat, if_neg hsat]
            exact ih (i + 1)

/-- A search looks at no other elements than those in its range. -/
theorem search_congr {get get' : Nat → Option β} (P : β → Bool) (n i : Nat)
    (hget : ∀ j, i ≤ j → j < i + n → get' j = get j) :
    search get' P i n = search get P i n := by
  induction n generalizing i with
  | zero => rfl
  | succ n ih =>
      rw [search_succ, search_succ, hget i (Nat.le_refl i) (by omega),
        ih (i + 1) fun j h1 h2 => hget j (by omega) (by omega)]

/-- A search of a whole list. -/
theorem search_list (P : β → Bool) {l : List β} (n i : Nat)
    (hn : i + n = l.length) :
    (search (fun i => l[i]?) P i n).map (Option.map Hit.val)
      = some ((l.drop i).find? P) := by
  induction n generalizing i with
  | zero =>
      rw [List.drop_eq_nil_of_le (by omega)]
      rfl
  | succ n ih =>
      have hi : i < l.length := by omega
      rw [search_succ, List.getElem?_eq_getElem hi, Option.bind_some,
        List.drop_eq_getElem_cons hi]
      by_cases hP : P l[i] = true
      · rw [if_pos hP, List.find?_cons_of_pos hP]
        rfl
      · rw [if_neg hP, List.find?_cons_of_neg hP]
        exact ih (i + 1) (by omega)

/-- The elements from `i` on, `n` of them. -/
def readFrom (get : Nat → Option β) : Nat → Nat → Option (List β)
  | _, 0 => some []
  | i, n + 1 => do
      let b ← get i
      let bs ← readFrom get (i + 1) n
      some (b :: bs)

theorem readFrom_spec {get : Nat → Option β} (n i : Nat)
    (hread : ∀ j, i ≤ j → j < i + n → ∃ b, get j = some b) :
    ∃ bs, readFrom get i n = some bs ∧ bs.length = n
      ∧ ∀ j, j < n → bs[j]? = get (i + j) := by
  induction n generalizing i with
  | zero => exact ⟨[], rfl, rfl, fun j hj => absurd hj (Nat.not_lt_zero j)⟩
  | succ n ih =>
      obtain ⟨b, hb⟩ := hread i (Nat.le_refl i) (by omega)
      obtain ⟨bs, hbs, hlen, hget⟩ := ih (i + 1)
        fun j h1 h2 => hread j (by omega) (by omega)
      refine ⟨b :: bs, ?_, by rw [List.length_cons, hlen], fun j hj => ?_⟩
      · rw [readFrom, hb, Option.bind_eq_bind, Option.bind_some, hbs]
        rfl
      · -- the first value was read here, the others by the rest of the loop
        cases j with
        | zero => exact hb.symm
        | succ j =>
            rw [List.getElem?_cons_succ, hget j (by omega), Nat.add_right_comm,
              Nat.add_assoc]

/-- **READING ALL**: readable elements are read in order. -/
theorem Readable.readFrom {get : Nat → Option β} {n : Nat} (h : Readable get n) :
    ∃ bs, PointerArray.readFrom get 0 n = some bs ∧ bs.length = n
      ∧ ∀ j, j < n → bs[j]? = get j := by
  obtain ⟨bs, hbs, hlen, hget⟩ := readFrom_spec n 0
    fun j _ hj => h j (by omega)
  exact ⟨bs, hbs, hlen, fun j hj => by rw [hget j hj, Nat.zero_add]⟩

theorem readFrom_list (l : List β) :
    PointerArray.readFrom (fun i => l[i]?) 0 l.length = some l := by
  have hread : Readable (fun i => l[i]?) l.length :=
    fun i hi => ⟨_, List.getElem?_eq_getElem hi⟩
  obtain ⟨bs, hbs, hlen, hget⟩ := hread.readFrom
  rw [hbs]
  refine congrArg some (List.ext_getElem? fun i => ?_)
  by_cases hi : i < l.length
  · exact hget i hi
  · rw [List.getElem?_eq_none (by omega), List.getElem?_eq_none (by omega)]

/-! ## Tables -/

/-- The array, the objects by address, and the next address `alloc` returns. -/
structure Table (α : Type) where
  slots : List (Option Nat)
  heap : Nat → Option α
  next : Nat

/-- No array and no objects. -/
def Table.empty : Table α := ⟨[], fun _ => none, 0⟩

/-- The pointer in slot `i`. -/
def Table.slot (t : Table α) (i : Nat) : Option Nat := t.slots[i]?.join

/-- The pointer in slot `i` and the object there. -/
def Table.deref (t : Table α) (i : Nat) : Option (Nat × α) :=
  (t.slot i).bind fun p => (t.heap p).map fun a => (p, a)

/-- `array[i] = p`, inside the array. -/
def Table.write (t : Table α) (i p : Nat) : Option (Table α) :=
  if i < t.slots.length then some { t with slots := t.slots.set i (some p) }
  else none

/-- Make the array `n` slots long; new slots hold no pointer. -/
def Table.resize (t : Table α) (n : Nat) : Table α :=
  { t with slots := t.slots.take n ++ List.replicate (n - t.slots.length) none }

/-- Put an object on the heap, at the address `next`. -/
def Table.alloc (t : Table α) (a : α) : Table α :=
  { t with heap := Function.update t.heap t.next (some a), next := t.next + 1 }

/-- Free the object at an address; freeing twice is a fault. -/
def Table.free (t : Table α) (p : Nat) : Option (Table α) :=
  match t.heap p with
  | some _ => some { t with heap := Function.update t.heap p none }
  | none => none

/-- Replace the object at an address. -/
def Table.update (t : Table α) (p : Nat) (a : α) : Table α :=
  { t with heap := Function.update t.heap p (some a) }

@[simp] theorem update_slot (t : Table α) (p : Nat) (a : α) (i : Nat) :
    (t.update p a).slot i = t.slot i := rfl

theorem update_heap_self (t : Table α) (p : Nat) (a : α) :
    (t.update p a).heap p = some a := Function.update_self ..

theorem update_heap_ne (t : Table α) {p q : Nat} (a : α) (h : q ≠ p) :
    (t.update p a).heap q = t.heap q := Function.update_of_ne h ..

theorem length_resize (t : Table α) (n : Nat) :
    (t.resize n).slots.length = n := by
  show (t.slots.take n ++ List.replicate (n - t.slots.length) none).length = n
  rw [List.length_append, List.length_take, List.length_replicate]
  omega

/-- What an assignment to a slot leaves. -/
theorem write_spec {t t' : Table α} {i p : Nat} (h : t.write i p = some t') :
    t'.heap = t.heap ∧ t'.slots.length = t.slots.length
      ∧ t'.slot i = some p ∧ ∀ j, j ≠ i → t'.slot j = t.slot j := by
  rw [Table.write] at h
  by_cases hi : i < t.slots.length
  · rw [if_pos hi] at h
    rw [← Option.some.inj h]
    refine ⟨rfl, List.length_set .., ?_, fun j hj => ?_⟩
    · show ((t.slots.set i (some p))[i]?).join = some p
      rw [List.getElem?_set_self hi]
      rfl
    · show ((t.slots.set i (some p))[j]?).join = t.slots[j]?.join
      rw [List.getElem?_set_ne (Ne.symm hj)]
  · rw [if_neg hi] at h
    exact nomatch h

theorem write_lt {t t' : Table α} {i p : Nat} (h : t.write i p = some t') :
    i < t.slots.length := by
  by_contra hi
  rw [Table.write, if_neg hi] at h
  exact nomatch h

theorem write_next {t t' : Table α} {i p : Nat} (h : t.write i p = some t') :
    t'.next = t.next := by
  rw [Table.write, if_pos (write_lt h)] at h
  rw [← Option.some.inj h]

/-- Live objects stay live when another one is allocated. -/
theorem alloc_live (t : Table α) (a : α) {p : Nat} {b : α}
    (h : t.heap p = some b) : ∃ c, (t.alloc a).heap p = some c := by
  by_cases hp : p = t.next
  · exact ⟨a, by rw [hp]; exact Function.update_self ..⟩
  · exact ⟨b, by rw [← h]; exact Function.update_of_ne hp ..⟩

theorem slot_lt {t : Table α} {i p : Nat} (h : t.slot i = some p) :
    i < t.slots.length := by
  rw [Table.slot, Option.join_eq_some_iff] at h
  exact (List.getElem?_eq_some_iff.mp h).1

/-- Slots inside the new size keep their pointers. -/
theorem resize_slot (t : Table α) {n i p : Nat} (hi : i < n)
    (h : t.slot i = some p) : (t.resize n).slot i = some p := by
  have hlt := slot_lt h
  show ((t.slots.take n ++ List.replicate (n - t.slots.length) none)[i]?).join
    = some p
  rw [List.getElem?_append_left (by rw [List.length_take]; omega),
    List.getElem?_take_of_lt hi]
  exact h

theorem deref_eq_some {t : Table α} {i p : Nat} {a : α} :
    t.deref i = some (p, a) ↔ t.slot i = some p ∧ t.heap p = some a := by
  rw [Table.deref, Option.bind_eq_some_iff]
  constructor
  · rintro ⟨q, hq, hmap⟩
    obtain ⟨b, hb, hqb⟩ := Option.map_eq_some_iff.mp hmap
    cases hqb
    exact ⟨hq, hb⟩
  · rintro ⟨hslot, hheap⟩
    exact ⟨p, hslot, by rw [hheap]; rfl⟩

/-- Slots seen after an object was replaced. -/
theorem deref_update {t : Table α} {p : Nat} {a : α} (hp : t.heap p = some a)
    (b : α) (i : Nat) :
    (t.update p b).deref i
      = (t.deref i).map fun x => if x.1 = p then (p, b) else x := by
  rw [Table.deref, Table.deref, update_slot]
  cases t.slot i with
  | none => rfl
  | some q =>
      rw [Option.bind_some, Option.bind_some]
      by_cases hq : q = p
      · rw [hq, update_heap_self, hp, Option.map_some, Option.map_some,
          Option.map_some, if_pos rfl]
      · rw [update_heap_ne t b hq, Option.map_map]
        cases t.heap q with
        | none => rfl
        | some c =>
            rw [Option.map_some, Option.map_some, Function.comp_apply, if_neg hq]

/-- The same table with every object replaced by its image. -/
def Table.map (f : α → β) (t : Table α) : Table β :=
  ⟨t.slots, fun p => (t.heap p).map f, t.next⟩

theorem deref_map (f : α → β) (t : Table α) (i : Nat) :
    (t.map f).deref i = (t.deref i).map fun x => (x.1, f x.2) := by
  show ((t.slot i).bind fun p => ((t.heap p).map f).map fun b => (p, b))
    = ((t.slot i).bind fun p => (t.heap p).map fun a => (p, a)).map _
  cases t.slot i with
  | none => rfl
  | some p =>
      rw [Option.bind_some, Option.bind_some, Option.map_map, Option.map_map]
      rfl

theorem map_alloc (f : α → β) (t : Table α) (a : α) :
    (t.map f).alloc (f a) = (t.alloc a).map f := by
  refine congrArg (fun heap => (⟨t.slots, heap, t.next + 1⟩ : Table β))
    (funext fun p => ?_)
  show Function.update (fun p => (t.heap p).map f) t.next (some (f a)) p
    = (Function.update t.heap t.next (some a) p).map f
  by_cases hp : p = t.next
  · rw [hp, Function.update_self, Function.update_self, Option.map_some]
  · rw [Function.update_of_ne hp, Function.update_of_ne hp]

theorem map_write (f : α → β) (t : Table α) (i p : Nat) :
    (t.map f).write i p = (t.write i p).map (Table.map f) := by
  show (if i < t.slots.length then some _ else none)
    = (if i < t.slots.length then some _ else none).map _
  by_cases hi : i < t.slots.length
  · rw [if_pos hi, if_pos hi]
    rfl
  · rw [if_neg hi, if_neg hi]
    rfl

/-- What is in the slots after a new object was stored in slot `i`. -/
theorem deref_alloc_write {t t' : Table α} {i : Nat} {a : α}
    (hfresh : ∀ p b, t.heap p = some b → p < t.next)
    (h : (t.alloc a).write i t.next = some t') :
    t'.deref i = some (t.next, a)
      ∧ ∀ j, j ≠ i → t.deref j ≠ none → t'.deref j = t.deref j := by
  obtain ⟨hheap, -, hself, hother⟩ := write_spec h
  refine ⟨deref_eq_some.mpr ⟨hself, ?_⟩, fun j hj hsome => ?_⟩
  · rw [hheap]
    exact Function.update_self ..
  · obtain ⟨⟨p, b⟩, hb⟩ := Option.ne_none_iff_exists'.mp hsome
    obtain ⟨hslot, hobj⟩ := deref_eq_some.mp hb
    rw [hb]
    refine deref_eq_some.mpr ⟨(hother j hj).trans hslot, ?_⟩
    rw [hheap, ← hobj]
    exact Function.update_of_ne (Nat.ne_of_lt (hfresh p b hobj)) ..

/-- Every one of the first `n` slots points to a live object. -/
def Live (t : Table α) (n : Nat) : Prop := Readable t.deref n

/-- A loop that ends before the live slots do can be run. -/
theorem Live.below {t : Table α} {n m : Nat} (h : Live t n) (hle : m ≤ n) :
    Readable t.deref m := fun i hi => h i (Nat.lt_of_lt_of_le hi hle)

/-- A live table stays live when an object is replaced. -/
theorem Live.update {t : Table α} {n : Nat} (h : Live t n) (p : Nat) (a : α) :
    Live (t.update p a) n := by
  intro i hi
  obtain ⟨⟨q, b⟩, hqb⟩ := h i hi
  obtain ⟨hq, hb⟩ := deref_eq_some.mp hqb
  by_cases hqp : q = p
  · exact ⟨(q, a), deref_eq_some.mpr
      ⟨hq, by rw [hqp]; exact update_heap_self t p a⟩⟩
  · exact ⟨(q, b), deref_eq_some.mpr
      ⟨hq, by rw [update_heap_ne t a hqp]; exact hb⟩⟩

/-- **PUSH**: a new object behind the live slots. -/
theorem Live.push {t t' : Table α} {n : Nat} {a : α} (h : Live t n)
    (hfresh : ∀ p b, t.heap p = some b → p < t.next)
    (hwrite : (t.alloc a).write n t.next = some t') :
    Live t' (n + 1) ∧ t'.deref n = some (t.next, a)
      ∧ (∀ i, i < n → t'.deref i = t.deref i)
      ∧ ∀ p b, t'.heap p = some b → p < t'.next := by
  obtain ⟨hlast, hother⟩ := deref_alloc_write hfresh hwrite
  have hkept : ∀ i, i < n → t'.deref i = t.deref i := by
    intro i hi
    obtain ⟨b, hb⟩ := h i hi
    refine hother i (Nat.ne_of_lt hi) ?_
    rw [hb]
    exact Option.some_ne_none b
  refine ⟨fun i hi => ?_, hlast, hkept, fun p b hb => ?_⟩
  · -- the slot is the new one, or it was live before
    rcases Nat.eq_or_lt_of_le (Nat.le_of_lt_succ hi) with heq | hlt
    · rw [heq]
      exact ⟨_, hlast⟩
    · obtain ⟨b, hb⟩ := h i hlt
      exact ⟨b, (hkept i hlt).trans hb⟩
  · rw [write_next hwrite]
    rw [(write_spec hwrite).1] at hb
    by_cases hp : p = t.next
    · rw [hp]
      exact Nat.lt_succ_self _
    · rw [show (t.alloc a).heap p = t.heap p from Function.update_of_ne hp ..] at hb
      exact Nat.lt_succ_of_lt (hfresh p b hb)

/-! ## Tables used as lists -/

/-- The first slots are pairwise different pointers `ps` to live objects
    `as`. -/
structure Lists (t : Table α) (ps : List Nat) (as : List α) : Prop where
  slots : ps.map some <+: t.slots
  objects : ps.map t.heap = as.map some
  nodup : ps.Nodup
  fresh : ∀ p ∈ ps, p < t.next

theorem lists_empty : Lists (Table.empty : Table α) [] [] :=
  ⟨List.nil_prefix, rfl, List.nodup_nil, fun _ h => nomatch h⟩

section Lists

variable {t : Table α} {ps : List Nat} {as : List α}

theorem Lists.length_eq (h : Lists t ps as) : ps.length = as.length := by
  have := congrArg List.length h.objects
  rwa [List.length_map, List.length_map] at this

theorem Lists.length_le (h : Lists t ps as) : ps.length ≤ t.slots.length := by
  have := h.slots.length_le
  rwa [List.length_map] at this

/-- Slot `i` and its object. -/
theorem Lists.deref (h : Lists t ps as) {i p : Nat} (hi : ps[i]? = some p) :
    ∃ a, as[i]? = some a ∧ t.deref i = some (p, a) := by
  have hlt : i < ps.length := (List.getElem?_eq_some_iff.mp hi).1
  have hslot : t.slots[i]? = some (some p) := by
    obtain ⟨rest, hrest⟩ := h.slots
    rw [← hrest, List.getElem?_append_left (by rwa [List.length_map]),
      List.getElem?_map, hi]
    rfl
  have hobj := congrArg (fun l => l[i]?) h.objects
  simp only [List.getElem?_map, hi, Option.map_some] at hobj
  cases has : as[i]? with
  | none => rw [has] at hobj; exact nomatch hobj
  | some a =>
      rw [has] at hobj
      exact ⟨a, rfl, deref_eq_some.mpr
        ⟨by rw [Table.slot, hslot]; rfl, Option.some.inj hobj⟩⟩

theorem Lists.live (h : Lists t ps as) : Live t ps.length := by
  intro i hi
  obtain ⟨a, -, hderef⟩ := h.deref (List.getElem?_eq_getElem hi)
  exact ⟨_, hderef⟩

/-- Which pointer and object a traversal sees in slot `i`. -/
theorem Lists.of_deref (h : Lists t ps as) {i p : Nat} {a : α}
    (hi : i < ps.length) (hderef : t.deref i = some (p, a)) :
    ps[i]? = some p ∧ as[i]? = some a := by
  obtain ⟨b, hb, hderef'⟩ := h.deref (List.getElem?_eq_getElem hi)
  rw [hderef] at hderef'
  cases Option.some.inj hderef'
  exact ⟨List.getElem?_eq_getElem hi, hb⟩

/-- **APPEND**: an allocated object, stored behind the last one. -/
theorem Lists.append (h : Lists t ps as) (hroom : ps.length < t.slots.length)
    (a : α) :
    ∃ t', (t.alloc a).write ps.length t.next = some t'
      ∧ t'.slots.length = t.slots.length
      ∧ Lists t' (ps ++ [t.next]) (as ++ [a]) := by
  refine ⟨_, if_pos hroom, List.length_set .., ?_, ?_, ?_, ?_⟩
  · obtain ⟨rest, hrest⟩ := h.slots
    show (ps ++ [t.next]).map some <+: t.slots.set ps.length (some t.next)
    -- the slot that is written is the first one behind the list
    cases rest with
    | nil =>
        rw [← hrest, List.append_nil, List.length_map] at hroom
        exact absurd hroom (Nat.lt_irrefl _)
    | cons old rest =>
        refine ⟨rest, ?_⟩
        rw [← hrest, List.map_append, List.append_assoc,
          List.set_append_right _ _ (Nat.le_of_eq (List.length_map ..)), List.length_map,
          Nat.sub_self]
        rfl
  · rw [List.map_append, List.map_append]
    show ps.map (Function.update t.heap t.next (some a))
        ++ [Function.update t.heap t.next (some a) t.next] = as.map some ++ [some a]
    rw [Function.update_self, ← h.objects]
    congr 1
    exact List.map_congr_left fun p hp =>
      Function.update_of_ne (Nat.ne_of_lt (h.fresh p hp)) ..
  · rw [List.nodup_append]
    refine ⟨h.nodup, List.nodup_singleton _, fun p hp q hq => ?_⟩
    rw [List.mem_singleton.mp hq]
    exact Nat.ne_of_lt (h.fresh p hp)
  · intro p hp
    show p < t.next + 1
    rcases List.mem_append.mp hp with h1 | h1
    · exact Nat.lt_succ_of_lt (h.fresh p h1)
    · rw [List.mem_singleton.mp h1]
      exact Nat.lt_succ_self _

theorem Lists.resize (h : Lists t ps as) {n : Nat} (hn : ps.length ≤ n) :
    Lists (t.resize n) ps as := by
  refine ⟨?_, h.objects, h.nodup, h.fresh⟩
  show ps.map some <+: t.slots.take n
    ++ List.replicate (n - t.slots.length) none
  have htake : ps.map some <+: t.slots.take n :=
    List.prefix_take_iff.mpr ⟨h.slots, by rwa [List.length_map]⟩
  exact htake.trans (List.prefix_append ..)

/-- **DROP**: free the object of the last slot, and stop counting it. -/
theorem Lists.dropLast {p : Nat} {a : α} (h : Lists t (ps ++ [p]) (as ++ [a])) :
    ∃ t', t.free p = some t' ∧ t'.slots = t.slots ∧ Lists t' ps as := by
  have hobj := h.objects
  rw [List.map_append, List.map_append] at hobj
  obtain ⟨hps, hp⟩ := List.append_inj' hobj rfl
  have hheap : t.heap p = some a := List.cons.inj hp |>.1
  obtain ⟨hnodup, -, hne⟩ := List.nodup_append.mp h.nodup
  refine ⟨{ t with heap := Function.update t.heap p none },
    by rw [Table.free, hheap], rfl, ?_, ?_, hnodup, ?_⟩
  · refine List.IsPrefix.trans ?_ h.slots
    rw [List.map_append]
    exact List.prefix_append ..
  · rw [← hps]
    exact List.map_congr_left fun q hq => Function.update_of_ne
      (hne q hq p (List.mem_singleton.mpr rfl)) ..
  · exact fun q hq => h.fresh q (List.mem_append.mpr (Or.inl hq))

/-- **REPLACE**: a new object behind the pointer in slot `i`. -/
theorem Lists.update (h : Lists t ps as) {i p : Nat} (hi : ps[i]? = some p)
    (a : α) : Lists (t.update p a) ps (as.set i a) := by
  refine ⟨h.slots, ?_, h.nodup, h.fresh⟩
  apply List.ext_getElem?
  intro j
  rw [List.getElem?_map, List.getElem?_map, List.getElem?_set]
  have hobj := congrArg (fun l => l[j]?) h.objects
  simp only [List.getElem?_map] at hobj
  have hlen := h.length_eq
  have hilt := (List.getElem?_eq_some_iff.mp hi).1
  by_cases hij : i = j
  · rw [if_pos hij, ← hij, hi, if_pos (by omega)]
    show some ((t.update p a).heap p) = some (some a)
    rw [update_heap_self]
  · rw [if_neg hij, ← hobj]
    cases hj : ps[j]? with
    | none => rfl
    | some q =>
        -- no pointer is stored twice, so only slot `i` changes
        have hqp : q ≠ p := by
          intro heq
          rw [heq, ← hi] at hj
          exact hij ((List.getElem?_inj hilt h.nodup).mp hj.symm)
        show some ((t.update p a).heap q) = some (t.heap q)
        rw [update_heap_ne t a hqp]

end Lists

end PointerArray
