import DistComm.Memory
import Mathlib.Algebra.Order.Floor.Div

/-! # Byte buffers that grow by a fixed increment

    The usual append-only output buffer of a C encoder: a block of `maxSize`
    bytes of which a prefix is used.  Appending compares the used length plus
    the source length with the block size in 32-bit arithmetic, enlarges the
    block once by a fixed increment, and copies.  `append` returns `none` when
    the copy would write outside the block, so a `Buffer` never holds more than
    its block.

    What fits exactly is `appends_iff`: a piece does if it ends before the block
    would have to be enlarged twice.  So pieces no longer than the increment always
    fit, as long as the total stays clear of the 32-bit limit (`piecesFit_small`).
    `writes` are the copies without the bytes, also those that leave the block
    (`writes_inside_iff`). -/

namespace GrowBuffer

/-- The bytes written so far, and the size of the block that holds them. -/
structure Buffer where
  contents : List UInt8
  maxSize : UInt32
  fits : contents.length ≤ maxSize.toNat

/-- A fresh block. -/
def Buffer.ofSize (size : UInt32) : Buffer := ⟨[], size, Nat.zero_le _⟩

/-- The used length, as the 32-bit word the encoder keeps. -/
def Buffer.length (b : Buffer) : UInt32 := UInt32.ofNat b.contents.length

/-- The block size after the growth check. -/
def grownSize (inc : UInt32) (b : Buffer) (srcLength : UInt32) : UInt32 :=
  if b.length + srcLength > b.maxSize then b.maxSize + inc else b.maxSize

/-- Grow once if the sum of the lengths exceeds the block, then copy. -/
def append (inc : UInt32) (b : Buffer) (src : List UInt8) : Option Buffer :=
  let maxSize := grownSize inc b (UInt32.ofNat src.length)
  if h : b.contents.length + src.length ≤ maxSize.toNat then
    some ⟨b.contents ++ src, maxSize, by rw [List.length_append]; exact h⟩
  else none

@[simp] theorem ofSize_contents (size : UInt32) :
    (Buffer.ofSize size).contents = [] := rfl

/-- The 32-bit length is exact: the contents fit in the block. -/
theorem Buffer.toNat_length (b : Buffer) :
    b.length.toNat = b.contents.length := by
  have h1 := b.fits
  have h2 := b.maxSize.toNat_lt
  unfold Buffer.length
  rw [UInt32.toNat_ofNat']
  exact Nat.mod_eq_of_lt (by omega)

/-- An append that is done appends. -/
theorem append_contents {inc : UInt32} {b b' : Buffer} {src : List UInt8}
    (h : append inc b src = some b') : b'.contents = b.contents ++ src := by
  unfold append at h
  by_cases hfit : b.contents.length + src.length
      ≤ (grownSize inc b (UInt32.ofNat src.length)).toNat
  · rw [dif_pos hfit] at h
    exact congrArg Buffer.contents (Option.some.inj h).symm
  · rw [dif_neg hfit] at h
    exact nomatch h

/-! ## Exactly what fits -/

/-- The number of increments in a block that was enlarged for `n` bytes. -/
def blocks (inc n : Nat) : Nat := max 1 (n ⌈/⌉ inc)

theorem blocks_le_iff {inc : Nat} (hinc : 0 < inc) {n k : Nat} :
    blocks inc n ≤ k ↔ 1 ≤ k ∧ n ≤ inc * k := by
  rw [blocks, Nat.max_le, ceilDiv_le_iff_le_mul hinc]

theorem one_le_blocks (inc n : Nat) : 1 ≤ blocks inc n := Nat.le_max_left _ _

theorem le_mul_blocks {inc : Nat} (hinc : 0 < inc) (n : Nat) :
    n ≤ inc * blocks inc n :=
  ((blocks_le_iff hinc).mp (Nat.le_refl _)).2

theorem blocks_mono {inc : Nat} (hinc : 0 < inc) {n k : Nat} (h : n ≤ k) :
    blocks inc n ≤ blocks inc k :=
  (blocks_le_iff hinc).mpr
    ⟨one_le_blocks inc k, Nat.le_trans h (le_mul_blocks hinc k)⟩

/-- The block was enlarged for its contents only. -/
def Buffer.Tight (inc : UInt32) (b : Buffer) : Prop :=
  b.maxSize.toNat = inc.toNat * blocks inc.toNat b.contents.length

theorem ofSize_tight (inc : UInt32) : (Buffer.ofSize inc).Tight inc := by
  show inc.toNat = inc.toNat * max 1 (0 ⌈/⌉ inc.toNat)
  rw [zero_ceilDiv, Nat.max_eq_left (Nat.zero_le 1), Nat.mul_one]

/-- The grown block, where the sum of the lengths can be computed. -/
theorem toNat_grownSize {inc : UInt32} {b : Buffer} {n : Nat}
    (hn : b.contents.length + n < 2 ^ 32) :
    (grownSize inc b (UInt32.ofNat n)).toNat
      = if b.maxSize.toNat < b.contents.length + n then
          (b.maxSize.toNat + inc.toNat) % 2 ^ 32
        else b.maxSize.toNat := by
  have hadd : (b.length + UInt32.ofNat n).toNat = b.contents.length + n := by
    rw [UInt32.toNat_add, b.toNat_length, UInt32.toNat_ofNat_of_lt'
      (Nat.lt_of_le_of_lt (Nat.le_add_left _ _) hn)]
    exact Nat.mod_eq_of_lt hn
  rw [grownSize]
  by_cases hgrow : b.length + UInt32.ofNat n > b.maxSize
  · have hlt := UInt32.lt_iff_toNat_lt.mp hgrow
    rw [hadd] at hlt
    rw [if_pos hgrow, if_pos hlt, UInt32.toNat_add]
  · have hle := UInt32.le_iff_toNat_le.mp (UInt32.not_lt.mp hgrow)
    rw [hadd] at hle
    rw [if_neg hgrow, if_neg (Nat.not_lt.mpr hle)]

/-- A piece is appended if it fits the block, or the block enlarged once. -/
theorem append_iff {inc : UInt32} {b : Buffer} {src : List UInt8} :
    (∃ b', append inc b src = some b')
      ↔ b.contents.length + src.length ≤ b.maxSize.toNat
        ∨ b.contents.length + src.length ≤ b.maxSize.toNat + inc.toNat
          ∧ b.maxSize.toNat + inc.toNat < 2 ^ 32 := by
  have hmax := b.maxSize.toNat_lt
  have hinc := inc.toNat_lt
  have hgrown := (grownSize inc b (UInt32.ofNat src.length)).toNat_lt
  have hsome : (∃ b', append inc b src = some b')
      ↔ b.contents.length + src.length
        ≤ (grownSize inc b (UInt32.ofNat src.length)).toNat := by
    constructor
    · rintro ⟨b', h⟩
      by_contra hno
      rw [append, dif_neg hno] at h
      exact nomatch h
    · intro hfit
      rw [append, dif_pos hfit]
      exact ⟨_, rfl⟩
  rw [hsome]
  -- where the sum of the lengths wraps around, neither side can hold
  by_cases hn : b.contents.length + src.length < 2 ^ 32
  · rw [toNat_grownSize hn]
    by_cases hlt : b.maxSize.toNat < b.contents.length + src.length
    · rw [if_pos hlt]
      omega
    · rw [if_neg hlt]
      omega
  · omega

/-- The grown block of a tight buffer is tight. -/
theorem append_tight {inc : UInt32} (hinc : 0 < inc.toNat) {b b' : Buffer}
    (hb : b.Tight inc) {src : List UInt8} (h : append inc b src = some b') :
    b'.Tight inc := by
  have hmax := b.maxSize.toNat_lt
  have hcontents := append_contents h
  have hfit := append_iff.mp ⟨b', h⟩
  have hsize : b'.maxSize = grownSize inc b (UInt32.ofNat src.length) := by
    rw [append] at h
    split at h
    · rw [← Option.some.inj h]
    · exact nomatch h
  have hmono : blocks inc.toNat b.contents.length
      ≤ blocks inc.toNat (b.contents.length + src.length) :=
    blocks_mono hinc (Nat.le_add_right _ _)
  have hone := one_le_blocks inc.toNat b.contents.length
  rw [Buffer.Tight] at hb ⊢
  rw [hsize, hcontents, List.length_append]
  by_cases hle : b.contents.length + src.length ≤ b.maxSize.toNat
  · -- nothing is enlarged, and nothing was needed
    rw [toNat_grownSize (Nat.lt_of_le_of_lt hle hmax),
      if_neg (Nat.not_lt.mpr hle), hb]
    have hle' : blocks inc.toNat (b.contents.length + src.length)
        ≤ blocks inc.toNat b.contents.length := by
      rw [hb] at hle
      exact (blocks_le_iff hinc).mpr ⟨hone, hle⟩
    rw [Nat.le_antisymm hmono hle']
  · -- the block was enlarged, so one increment more is needed, and no two
    obtain ⟨hle', hlt⟩ := hfit.resolve_left hle
    rw [toNat_grownSize (Nat.lt_of_le_of_lt hle' hlt),
      if_pos (Nat.lt_of_not_le hle), Nat.mod_eq_of_lt hlt, hb]
    have hsucc : inc.toNat * blocks inc.toNat b.contents.length + inc.toNat
        = inc.toNat * (blocks inc.toNat b.contents.length + 1) :=
      (Nat.mul_succ _ _).symm
    rw [hb] at hle hle'
    rw [hsucc] at hle' ⊢
    have hupper : blocks inc.toNat (b.contents.length + src.length)
        ≤ blocks inc.toNat b.contents.length + 1 :=
      (blocks_le_iff hinc).mpr ⟨Nat.le_add_left _ _, hle'⟩
    have hlower : ¬ blocks inc.toNat (b.contents.length + src.length)
        ≤ blocks inc.toNat b.contents.length :=
      fun h0 => hle ((blocks_le_iff hinc).mp h0).2
    rw [Nat.le_antisymm hupper (Nat.lt_of_not_le hlower)]

/-- A tight buffer takes a piece exactly if it fits. -/
theorem append_tight_iff {inc : UInt32} (hinc : 0 < inc.toNat) {b : Buffer}
    (hb : b.Tight inc) (src : List UInt8) :
    (∃ b', append inc b src = some b')
      ↔ blocks inc.toNat (b.contents.length + src.length)
          ≤ blocks inc.toNat b.contents.length + 1
        ∧ inc.toNat * blocks inc.toNat (b.contents.length + src.length)
          < 2 ^ 32 := by
  have hmax := b.maxSize.toNat_lt
  rw [append_iff, blocks_le_iff hinc]
  rw [Buffer.Tight] at hb
  rw [hb] at hmax ⊢
  have hone := one_le_blocks inc.toNat b.contents.length
  have hmono : blocks inc.toNat b.contents.length
      ≤ blocks inc.toNat (b.contents.length + src.length) :=
    blocks_mono hinc (Nat.le_add_right _ _)
  have hsame := @blocks_le_iff inc.toNat hinc
    (b.contents.length + src.length) (blocks inc.toNat b.contents.length)
  have hnext := @blocks_le_iff inc.toNat hinc
    (b.contents.length + src.length) (blocks inc.toNat b.contents.length + 1)
  rw [Nat.mul_succ] at hnext ⊢
  constructor
  · -- in the old block nothing grows, in the enlarged one a single step does
    rintro (hle | ⟨hle, hlt⟩)
    · have heq := Nat.le_antisymm (hsame.mpr ⟨hone, hle⟩) hmono
      rw [heq]
      exact ⟨⟨by omega, by omega⟩, hmax⟩
    · refine ⟨⟨by omega, hle⟩, Nat.lt_of_le_of_lt (Nat.mul_le_mul_left _
        (hnext.mpr ⟨by omega, hle⟩)) ?_⟩
      rw [Nat.mul_succ]
      exact hlt
  · rintro ⟨⟨-, hle⟩, hlt⟩
    by_cases hle' : b.contents.length + src.length
        ≤ inc.toNat * blocks inc.toNat b.contents.length
    · exact Or.inl hle'
    · refine Or.inr ⟨hle, ?_⟩
      have hlower : ¬ blocks inc.toNat (b.contents.length + src.length)
          ≤ blocks inc.toNat b.contents.length :=
        fun h0 => hle' (hsame.mp h0).2
      have heq := Nat.le_antisymm (hnext.mpr ⟨by omega, hle⟩)
        (Nat.lt_of_not_le hlower)
      rw [heq, Nat.mul_succ] at hlt
      exact hlt

/-- Pieces of these lengths fit behind `n` bytes: each of them ends before the
    block would have to be enlarged twice for it, and the block sizes fit in
    32 bits. -/
def PiecesFit (inc : Nat) : Nat → List Nat → Prop
  | _, [] => True
  | n, k :: ks =>
      blocks inc (n + k) ≤ blocks inc n + 1 ∧ inc * blocks inc (n + k) < 2 ^ 32
        ∧ PiecesFit inc (n + k) ks

/-- **CAPACITY, EXACTLY**: a tight buffer takes one piece after the other if and
    only if they fit. -/
theorem appends_iff {inc : UInt32} (hinc : 0 < inc.toNat)
    (srcs : List (List UInt8)) {b : Buffer} (hb : b.Tight inc) :
    (∃ b', srcs.foldlM (append inc) b = some b')
      ↔ PiecesFit inc.toNat b.contents.length (srcs.map List.length) := by
  -- each append leaves a tight buffer for the next piece
  induction srcs generalizing b with
  | nil => exact iff_of_true ⟨b, rfl⟩ trivial
  | cons src srcs ih =>
      have hfirst := append_tight_iff hinc hb src
      rw [List.map_cons, PiecesFit, ← and_assoc, ← hfirst]
      constructor
      · rintro ⟨b', h⟩
        obtain ⟨b1, h1, h2⟩ := Option.bind_eq_some_iff.mp h
        have hrest := (ih (append_tight hinc hb h1)).mp ⟨b', h2⟩
        rw [append_contents h1, List.length_append] at hrest
        exact ⟨⟨b1, h1⟩, hrest⟩
      · rintro ⟨⟨b1, h1⟩, hrest⟩
        rw [← List.length_append, ← append_contents h1] at hrest
        obtain ⟨b', h2⟩ := (ih (append_tight hinc hb h1)).mpr hrest
        exact ⟨b', Option.bind_eq_some_iff.mpr ⟨b1, h1, h2⟩⟩

/-- The bytes of the pieces of several things. -/
theorem flatten_flatMap {α : Type} (pieces : α → List (List UInt8))
    (as : List α) :
    (as.flatMap pieces).flatten = as.flatMap fun a => (pieces a).flatten := by
  rw [List.flatMap_def, List.flatten_flatten, List.map_map]
  rfl

theorem appends_contents {inc : UInt32} (srcs : List (List UInt8))
    {b b' : Buffer} (h : srcs.foldlM (append inc) b = some b') :
    b'.contents = b.contents ++ srcs.flatten := by
  induction srcs generalizing b with
  | nil =>
      cases Option.some.inj h
      exact (List.append_nil _).symm
  | cons src srcs ih =>
      obtain ⟨b1, h1, h2⟩ := Option.bind_eq_some_iff.mp h
      rw [ih h2, append_contents h1, List.flatten_cons, List.append_assoc]

/-- Pieces no longer than the increment fit if their sum does. -/
theorem piecesFit_small {inc : Nat} (hinc : 0 < inc) {ks : List Nat}
    (hks : ∀ k ∈ ks, k ≤ inc) {n : Nat} (hn : inc * blocks inc n < 2 ^ 32) :
    PiecesFit inc n ks ↔ inc * blocks inc (n + ks.sum) < 2 ^ 32 := by
  induction ks generalizing n with
  | nil => exact iff_of_true trivial hn
  | cons k ks ih =>
      have hk := hks k (List.mem_cons_self ..)
      have hks' : ∀ k' ∈ ks, k' ≤ inc :=
        fun k' h => hks k' (List.mem_cons_of_mem _ h)
      have hnext : blocks inc (n + k) ≤ blocks inc n + 1 := by
        refine (blocks_le_iff hinc).mpr ⟨Nat.le_add_left _ _, ?_⟩
        rw [Nat.mul_succ]
        exact Nat.add_le_add (le_mul_blocks hinc n) hk
      rw [PiecesFit, List.sum_cons, ← Nat.add_assoc]
      constructor
      · rintro ⟨-, hlt, hrest⟩
        exact (ih hks' hlt).mp hrest
      · intro hsum
        have hlt : inc * blocks inc (n + k) < 2 ^ 32 :=
          Nat.lt_of_le_of_lt (Nat.mul_le_mul_left _
            (blocks_mono hinc (Nat.le_add_right _ _))) hsum
        exact ⟨hnext, hlt, (ih hks' hlt).mpr hsum⟩

/-- Pieces that fit stay clear of the 32-bit limit together. -/
theorem PiecesFit.sum {inc : Nat} {ks : List Nat} {n : Nat} (h : PiecesFit inc n ks)
    (hn : inc * blocks inc n < 2 ^ 32) : inc * blocks inc (n + ks.sum) < 2 ^ 32 := by
  induction ks generalizing n with
  | nil => exact hn
  | cons k ks ih =>
      obtain ⟨-, hlt, hrest⟩ := h
      rw [List.sum_cons, ← Nat.add_assoc]
      exact ih hrest hlt

/-! ## The copies on their own -/

/-- One copy of an encoder: where it goes, how many bytes, and the size of the block
    by then. -/
structure Write where
  offset : UInt32
  length : UInt32
  size : UInt32

/-- The copy stays in the block. -/
def Write.Inside (w : Write) : Prop :=
  w.offset.toNat + w.length.toNat ≤ w.size.toNat

/-- The block size after the growth check, from the words that the encoder keeps. -/
def grown (inc length maxSize n : UInt32) : UInt32 :=
  if length + n > maxSize then maxSize + inc else maxSize

/-- The copies of an encoder for pieces of these lengths, one after the other,
    whatever becomes of them. -/
def writes (inc : UInt32) : UInt32 → UInt32 → List UInt32 → List Write
  | _, _, [] => []
  | length, maxSize, n :: ns =>
      ⟨length, n, grown inc length maxSize n⟩
        :: writes inc (length + n) (grown inc length maxSize n) ns

/-- An append is done if its copy stays in the block. -/
theorem append_some_iff {inc : UInt32} {b : Buffer} {src : List UInt8} {n : UInt32}
    (hn : src.length = n.toNat) :
    (∃ b', append inc b src = some b')
      ↔ (⟨b.length, n, grown inc b.length b.maxSize n⟩ : Write).Inside := by
  have hword : UInt32.ofNat src.length = n := by rw [hn, UInt32.ofNat_toNat]
  have hinside : (⟨b.length, n, grown inc b.length b.maxSize n⟩ : Write).Inside
      ↔ b.contents.length + src.length
        ≤ (grownSize inc b (UInt32.ofNat src.length)).toNat := by
    rw [Write.Inside, b.toNat_length, hn, ← hn, hword]
    exact Iff.rfl
  rw [hinside]
  constructor
  · rintro ⟨b', h⟩
    by_contra hno
    rw [append, dif_neg hno] at h
    cases h
  · intro hfit
    rw [append, dif_pos hfit]
    exact ⟨_, rfl⟩

/-- The words that the encoder keeps, after an append. -/
theorem append_words {inc : UInt32} {b b' : Buffer} {src : List UInt8} {n : UInt32}
    (hn : src.length = n.toNat) (h : append inc b src = some b') :
    b'.length = b.length + n ∧ b'.maxSize = grown inc b.length b.maxSize n := by
  have hword : UInt32.ofNat src.length = n := by rw [hn, UInt32.ofNat_toNat]
  constructor
  · rw [Buffer.length, append_contents h, List.length_append, UInt32.ofNat_add,
      hword]
    rfl
  · rw [append] at h
    split at h
    · rw [← Option.some.inj h, ← hword]
      rfl
    · cases h

/-- **WRITES**: all copies stay in the block exactly if all appends are done. -/
theorem writes_inside_iff {inc : UInt32} {ns : List UInt32}
    {srcs : List (List UInt8)} (hns : srcs.map List.length = ns.map UInt32.toNat)
    (b : Buffer) :
    (∀ w ∈ writes inc b.length b.maxSize ns, w.Inside)
      ↔ ∃ b', srcs.foldlM (append inc) b = some b' := by
  induction srcs generalizing b ns with
  | nil =>
      rw [List.map_nil, eq_comm, List.map_eq_nil_iff] at hns
      subst hns
      exact ⟨fun _ => ⟨b, rfl⟩, fun _ w hw => absurd hw List.not_mem_nil⟩
  | cons src srcs ih =>
      obtain ⟨n, ns, rfl, hn, hrest⟩ := List.map_eq_cons_iff.mp hns.symm
      rw [writes, List.forall_mem_cons, ← append_some_iff hn.symm]
      constructor
      · rintro ⟨⟨b1, h1⟩, hall⟩
        obtain ⟨hlen, hmax⟩ := append_words hn.symm h1
        rw [← hlen, ← hmax] at hall
        obtain ⟨b', h2⟩ := (ih hrest.symm b1).mp hall
        exact ⟨b', Option.bind_eq_some_iff.mpr ⟨b1, h1, h2⟩⟩
      · rintro ⟨b', h⟩
        obtain ⟨b1, h1, h2⟩ := Option.bind_eq_some_iff.mp h
        obtain ⟨hlen, hmax⟩ := append_words hn.symm h1
        refine ⟨⟨b1, h1⟩, ?_⟩
        rw [← hlen, ← hmax]
        exact (ih hrest.symm b1).mpr ⟨b', h2⟩

end GrowBuffer
