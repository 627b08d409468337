import Mathlib.Algebra.Group.Nat.Defs
import Mathlib.Data.List.Basic

/-! # Raw memory and little-endian words

    A program that is handed a pointer sees one byte at every offset from it,
    whether or not the object it was handed reaches that far.  `Mem` is this
    view; `slice` is what a copy of `n` bytes obtains, `Holds` says which bytes
    an object stores at an offset, and `overlay` is a memory whose first bytes
    are known and whose bytes behind them are arbitrary.

    Words are the 32-bit little-endian integers of the machine. -/

namespace RawMemory

/-- The bytes seen from a base address: one byte at every offset. -/
abbrev Mem := Nat → UInt8

/-- The `n` bytes that start at offset `pos`. -/
def slice (m : Mem) : Nat → Nat → List UInt8
  | _, 0 => []
  | pos, n + 1 => m pos :: slice m (pos + 1) n

/-- The bytes `bs` are stored at offset `pos`. -/
def Holds (m : Mem) (pos : Nat) (bs : List UInt8) : Prop :=
  slice m pos bs.length = bs

/-- A memory that starts with `bs` and continues with `rest`. -/
def overlay (bs : List UInt8) (rest : Mem) : Mem :=
  fun i => bs.getD i (rest (i - bs.length))

/-- The memory after `bs` were copied to its beginning. -/
def store (bs : List UInt8) (m : Mem) : Mem :=
  overlay bs fun i => m (bs.length + i)

/-- Two memories with the same bytes below `n`. -/
def AgreeBelow (n : Nat) (m m' : Mem) : Prop :=
  ∀ i, i < n → m i = m' i

/-! ## Slices -/

@[simp] theorem slice_zero (m : Mem) (pos : Nat) : slice m pos 0 = [] := rfl

theorem slice_succ (m : Mem) (pos n : Nat) :
    slice m pos (n + 1) = m pos :: slice m (pos + 1) n := rfl

@[simp] theorem length_slice (m : Mem) (pos n : Nat) :
    (slice m pos n).length = n := by
  induction n generalizing pos with
  | zero => rfl
  | succ n ih => rw [slice_succ, List.length_cons, ih]

/-- A copy of `a + b` bytes is a copy of `a` bytes and of the `b` bytes
    behind them. -/
theorem slice_add (m : Mem) (pos a b : Nat) :
    slice m pos (a + b) = slice m pos a ++ slice m (pos + a) b := by
  induction a generalizing pos with
  | zero => rw [Nat.zero_add, slice_zero, List.nil_append, Nat.add_zero]
  | succ a ih =>
      rw [show a + 1 + b = (a + b) + 1 from by omega, slice_succ, slice_succ,
        ih, List.cons_append, show pos + 1 + a = pos + (a + 1) from by omega]

/-- Slices only depend on the bytes they copy. -/
theorem slice_congr {m m' : Mem} {pos n : Nat}
    (h : ∀ i, pos ≤ i → i < pos + n → m i = m' i) :
    slice m pos n = slice m' pos n := by
  induction n generalizing pos with
  | zero => rfl
  | succ n ih =>
      rw [slice_succ, slice_succ, h pos (by omega) (by omega)]
      rw [ih (fun i h1 h2 => h i (by omega) (by omega))]

/-- The byte at position `i` of a slice. -/
theorem slice_getElem? (m : Mem) (pos n i : Nat) (hi : i < n) :
    (slice m pos n)[i]? = some (m (pos + i)) := by
  induction n generalizing pos i with
  | zero => exact absurd hi (Nat.not_lt_zero i)
  | succ n ih =>
      cases i with
      | zero => rfl
      | succ i =>
          rw [slice_succ, List.getElem?_cons_succ, ih (pos + 1) i (by omega),
            show pos + 1 + i = pos + (i + 1) from by omega]

theorem AgreeBelow.slice {n : Nat} {m m' : Mem} (h : AgreeBelow n m m')
    {pos k : Nat} (hk : pos + k ≤ n) :
    slice m pos k = RawMemory.slice m' pos k :=
  slice_congr (fun i _ hi => h i (by omega))

theorem AgreeBelow.refl (n : Nat) (m : Mem) : AgreeBelow n m m :=
  fun _ _ => rfl

theorem AgreeBelow.symm {n : Nat} {m m' : Mem} (h : AgreeBelow n m m') :
    AgreeBelow n m' m :=
  fun i hi => (h i hi).symm

/-! ## Stored bytes -/

@[simp] theorem holds_nil (m : Mem) (pos : Nat) : Holds m pos [] := rfl

theorem holds_append {m : Mem} {pos : Nat} {as bs : List UInt8} :
    Holds m pos (as ++ bs)
      ↔ Holds m pos as ∧ Holds m (pos + as.length) bs := by
  unfold Holds
  rw [List.length_append, slice_add]
  constructor
  · intro h
    exact List.append_inj h (length_slice m pos as.length)
  · rintro ⟨h1, h2⟩
    rw [h1, h2]

theorem holds_slice (m : Mem) (pos n : Nat) : Holds m pos (slice m pos n) := by
  unfold Holds
  rw [length_slice]

/-- What is stored in one memory is stored in every memory that agrees
    with it there. -/
theorem Holds.congr {m m' : Mem} {pos : Nat} {bs : List UInt8}
    (h : Holds m pos bs)
    (heq : ∀ i, pos ≤ i → i < pos + bs.length → m i = m' i) :
    Holds m' pos bs := by
  unfold Holds
  rw [← slice_congr heq]
  exact h

/-- Stored bytes that fit below `n` are a prefix of the `n` bytes there. -/
theorem Holds.prefix_slice {m : Mem} {pos n : Nat} {bs : List UInt8}
    (h : Holds m pos bs) (hn : bs.length ≤ n) : bs <+: slice m pos n := by
  refine ⟨slice m (pos + bs.length) (n - bs.length), ?_⟩
  have hsplit := slice_add m pos bs.length (n - bs.length)
  rw [show bs.length + (n - bs.length) = n from by omega, h] at hsplit
  exact hsplit.symm

/-- A prefix of the bytes at `pos` is stored there. -/
theorem holds_of_isPrefix {m : Mem} {pos n : Nat} {bs : List UInt8}
    (h : bs <+: slice m pos n) : Holds m pos bs := by
  obtain ⟨rest, hrest⟩ := h
  have hall : Holds m pos (bs ++ rest) := by
    rw [hrest]
    exact holds_slice m pos n
  exact (holds_append.mp hall).1

theorem prefix_slice_length {m : Mem} {pos n : Nat} {bs : List UInt8}
    (h : bs <+: slice m pos n) : bs.length ≤ n := by
  have hle := h.length_le
  rwa [length_slice] at hle

/-! ## Known bytes in front of unknown memory -/

theorem overlay_lt {bs : List UInt8} (rest : Mem) {i : Nat}
    (hi : i < bs.length) : overlay bs rest i = bs[i] := by
  unfold overlay
  rw [List.getD_eq_getElem?_getD, List.getElem?_eq_getElem hi]
  rfl

theorem overlay_ge {bs : List UInt8} (rest : Mem) {i : Nat}
    (hi : bs.length ≤ i) : overlay bs rest i = rest (i - bs.length) := by
  unfold overlay
  rw [List.getD_eq_getElem?_getD, List.getElem?_eq_none hi]
  rfl

/-- Whatever lies behind, the first bytes are the known ones. -/
theorem overlay_agree (bs : List UInt8) (rest rest' : Mem) :
    AgreeBelow bs.length (overlay bs rest) (overlay bs rest') := by
  intro i hi
  rw [overlay_lt rest hi, overlay_lt rest' hi]

theorem slice_overlay (bs : List UInt8) (rest : Mem) :
    slice (overlay bs rest) 0 bs.length = bs := by
  apply List.ext_getElem?
  intro i
  by_cases hi : i < bs.length
  · rw [slice_getElem? _ 0 _ i hi, Nat.zero_add, overlay_lt rest hi,
      List.getElem?_eq_getElem hi]
  · rw [List.getElem?_eq_none (by rw [length_slice]; omega),
      List.getElem?_eq_none (by omega)]

theorem holds_overlay (bs : List UInt8) (rest : Mem) :
    Holds (overlay bs rest) 0 bs :=
  slice_overlay bs rest

theorem holds_store (bs : List UInt8) (m : Mem) : Holds (store bs m) 0 bs :=
  holds_overlay bs _

theorem store_nil (m : Mem) : store [] m = m := by
  funext i
  rw [store, overlay_ge _ (Nat.zero_le i), List.length_nil, Nat.zero_add,
    Nat.sub_zero]

/-- Bytes stored in front of further known bytes. -/
theorem holds_overlay_append (as bs : List UInt8) (rest : Mem) :
    Holds (overlay (as ++ bs) rest) 0 as
      ∧ Holds (overlay (as ++ bs) rest) as.length bs := by
  have h := holds_append.mp (holds_overlay (as ++ bs) rest)
  rwa [Nat.zero_add] at h

theorem holds_overlay_of_isPrefix {b bs : List UInt8} (h : bs <+: b)
    (behind : Mem) : Holds (overlay b behind) 0 bs := by
  rw [← slice_overlay b behind] at h
  exact holds_of_isPrefix h

theorem isPrefix_of_holds {b bs : List UInt8} {behind : Mem}
    (h : Holds (overlay b behind) 0 bs) (hlen : bs.length ≤ b.length) :
    bs <+: b := by
  have hpre := h.prefix_slice hlen
  rwa [slice_overlay] at hpre

/-! ## Words -/

/-- The four bytes of a word, least significant first. -/
def wordBytes (w : UInt32) : List UInt8 :=
  [UInt8.ofNat w.toNat, UInt8.ofNat (w.toNat / 2 ^ 8),
   UInt8.ofNat (w.toNat / 2 ^ 16), UInt8.ofNat (w.toNat / 2 ^ 24)]

/-- The word stored at offset `pos`. -/
def wordAt (m : Mem) (pos : Nat) : UInt32 :=
  UInt32.ofNat ((m pos).toNat + 2 ^ 8 * (m (pos + 1)).toNat
    + 2 ^ 16 * (m (pos + 2)).toNat + 2 ^ 24 * (m (pos + 3)).toNat)

/-- The `n` words stored in a row from offset `pos` on. -/
def wordsAt (m : Mem) : Nat → Nat → List UInt32
  | _, 0 => []
  | pos, n + 1 => wordAt m pos :: wordsAt m (pos + 4) n

@[simp] theorem length_wordBytes (w : UInt32) : (wordBytes w).length = 4 := rfl

theorem wordBytes_ne_nil (w : UInt32) : wordBytes w ≠ [] :=
  List.cons_ne_nil _ _

/-- Storing a word and loading it gives the word back. -/
theorem wordAt_of_holds {m : Mem} {pos : Nat} {w : UInt32}
    (h : Holds m pos (wordBytes w)) : wordAt m pos = w := by
  have hbytes : [m pos, m (pos + 1), m (pos + 2), m (pos + 3)] = wordBytes w := h
  unfold wordBytes at hbytes
  simp only [List.cons.injEq, and_true] at hbytes
  obtain ⟨h0, h1, h2, h3⟩ := hbytes
  unfold wordAt
  rw [h0, h1, h2, h3]
  apply UInt32.toNat_inj.mp
  have hw := w.toNat_lt
  simp only [UInt32.toNat_ofNat', UInt8.toNat_ofNat']
  omega

/-- The four bytes at an offset are the bytes of the word loaded there. -/
theorem holds_wordAt (m : Mem) (pos : Nat) :
    Holds m pos (wordBytes (wordAt m pos)) := by
  have h0 := (m pos).toNat_lt
  have h1 := (m (pos + 1)).toNat_lt
  have h2 := (m (pos + 2)).toNat_lt
  have h3 := (m (pos + 3)).toNat_lt
  show [m pos, m (pos + 1), m (pos + 2), m (pos + 3)] = wordBytes (wordAt m pos)
  unfold wordBytes wordAt
  simp only [List.cons.injEq, and_true]
  refine ⟨?_, ?_, ?_, ?_⟩ <;>
    (apply UInt8.toNat_inj.mp
     simp only [UInt32.toNat_ofNat', UInt8.toNat_ofNat']
     omega)

/-- Words stored in a row are loaded in order. -/
theorem wordsAt_of_holds {m : Mem} {pos : Nat} {ws : List UInt32}
    (h : Holds m pos (ws.flatMap wordBytes)) : wordsAt m pos ws.length = ws := by
  induction ws generalizing pos with
  | nil => rfl
  | cons w ws ih =>
      rw [List.flatMap_cons] at h
      obtain ⟨hw, hws⟩ := holds_append.mp h
      rw [length_wordBytes] at hws
      rw [List.length_cons, wordsAt, wordAt_of_holds hw, ih hws]

/-! ## Writing into a block -/

/-- `memcpy(block + off, src, n)`, inside the block. -/
def copyInto (block : List UInt8) (off : Nat) (src : List UInt8) :
    Option (List UInt8) :=
  if off + src.length ≤ block.length then
    some (block.take off ++ src ++ block.drop (off + src.length))
  else none

/-- A copy behind the bytes that are written already. -/
theorem copyInto_append (done : List UInt8) {src rest : List UInt8}
    (h : src.length ≤ rest.length) :
    copyInto (done ++ rest) done.length src
      = some (done ++ src ++ rest.drop src.length) := by
  rw [copyInto, if_pos (by rw [List.length_append]; omega), List.take_left,
    List.drop_append]
  simp only [Nat.add_sub_cancel_left, List.drop_eq_nil_of_le (Nat.le_add_right ..),
    List.nil_append]

end RawMemory
