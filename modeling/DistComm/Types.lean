import DistComm.GrowBuffer

/-! # Data types and constants shared by the kernel module and the library

    The structures of `module/interface.h` and `lib/include/dist_comm/interface.h`
    (the two headers declare the same ones), the constants of the headers, the
    pointers to byte arrays that these structures hold, and `copy_to_buffer`,
    which both packet encoders are written with. -/

namespace DistComm

open RawMemory GrowBuffer

/-- `BUFFER_INC_SIZE` of both packet headers. -/
def BUFFER_INC_SIZE : UInt32 := 65536

/-- `MAX_INTERFACES` of the kernel headers. -/
def MAX_INTERFACES : UInt32 := 256

/-- `MAX_PAYLOAD` of the library header. -/
def MAX_PAYLOAD : UInt32 := 512

/-- `INCOME_HANDSHAKE`. -/
def INCOME_HANDSHAKE : UInt8 := 0

/-- `INCOME_RESULT`. -/
def INCOME_RESULT : UInt8 := 1

/-- `copy_to_buffer` of the kernel module. -/
def Kernel.copyToBuffer (b : Buffer) (src : List UInt8) : Option Buffer :=
  append BUFFER_INC_SIZE b src

/-- `copy_to_buffer` of the library: the same code over `realloc`. -/
def Lib.copyToBuffer (b : Buffer) (src : List UInt8) : Option Buffer :=
  append BUFFER_INC_SIZE b src

theorem bufferInc_pos : 0 < BUFFER_INC_SIZE.toNat := by decide

/-- A fresh buffer of either code base takes the pieces exactly if they fit. -/
theorem fresh_appends_iff (srcs : List (List UInt8)) :
    (∃ b, srcs.foldlM (append BUFFER_INC_SIZE) (Buffer.ofSize BUFFER_INC_SIZE) = some b)
      ↔ PiecesFit BUFFER_INC_SIZE.toNat 0 (srcs.map List.length) :=
  appends_iff bufferInc_pos srcs (ofSize_tight _)

/-- How much a buffer of either code base holds at most. -/
theorem block_below_limit {n : Nat} :
    BUFFER_INC_SIZE.toNat * blocks BUFFER_INC_SIZE.toNat n < 2 ^ 32
      ↔ n ≤ 2 ^ 32 - BUFFER_INC_SIZE.toNat := by
  have hinc : BUFFER_INC_SIZE.toNat = 65536 := rfl
  have hle := @blocks_le_iff BUFFER_INC_SIZE.toNat bufferInc_pos n 65535
  rw [hinc] at hle ⊢
  omega

/-- Pieces of no more than one growth step fit if all of them do. -/
theorem piecesFit_below_limit {ks : List Nat}
    (hks : ∀ k ∈ ks, k ≤ BUFFER_INC_SIZE.toNat) :
    PiecesFit BUFFER_INC_SIZE.toNat 0 ks ↔ ks.sum ≤ 2 ^ 32 - BUFFER_INC_SIZE.toNat := by
  rw [piecesFit_small bufferInc_pos hks (by decide), Nat.zero_add, block_below_limit]

/-- Pieces that fit a fresh buffer can be counted together. -/
theorem length_of_piecesFit {srcs : List (List UInt8)}
    (h : PiecesFit BUFFER_INC_SIZE.toNat 0 (srcs.map List.length)) :
    srcs.flatten.length < 2 ^ 32 := by
  have hle := block_below_limit.mp (h.sum (by decide))
  have hinc : BUFFER_INC_SIZE.toNat = 65536 := rfl
  rw [List.length_flatten]
  omega

/-- A `char *`: NULL, the start of an allocated block, or whatever an
    uninitialised pointer variable happens to hold. -/
inductive Ptr where
  | null
  | block (bytes : List UInt8)
  | stale (address : Nat)
  deriving DecidableEq, Repr

/-- The bytes `memcpy` copies from a pointer; `none` is a read outside of an
    allocated block. -/
def Ptr.read (n : Nat) : Ptr → Option (List UInt8)
  | .block bs => if n ≤ bs.length then some (bs.take n) else none
  | .null => none
  | .stale _ => none

/-- `attr_value_t`: the value of an argument or of a result. -/
structure AttrValue where
  length : UInt32
  addr : Ptr
  deriving DecidableEq, Repr

/-- The address points to at least `length` bytes; where `length` is 0 it may
    be anything. -/
def AttrValue.Valid (v : AttrValue) : Prop :=
  v.length = 0 ∨ ∃ bs, v.addr = .block bs ∧ v.length.toNat ≤ bs.length

/-- The byte string an attribute value stands for. -/
def AttrValue.value (v : AttrValue) : List UInt8 :=
  match v.addr with
  | .block bs => bs.take v.length.toNat
  | .null => []
  | .stale _ => []

/-- A value whose block is exactly its byte string, as the callers that own
    their buffers build it. -/
def AttrValue.ofBytes (bs : List UInt8) : AttrValue :=
  ⟨UInt32.ofNat bs.length, .block bs⟩

theorem AttrValue.length_value {v : AttrValue} (hv : v.Valid) :
    v.value.length = v.length.toNat := by
  rcases hv with h0 | ⟨bs, hbs, hlen⟩
  · unfold AttrValue.value
    rw [h0]
    cases v.addr <;> rfl
  · unfold AttrValue.value
    rw [hbs]
    show (bs.take v.length.toNat).length = v.length.toNat
    rw [List.length_take, Nat.min_eq_left hlen]

/-- Copying a valid value with a nonzero length copies its byte string. -/
theorem AttrValue.read_addr {v : AttrValue} (hv : v.Valid)
    (h0 : v.length ≠ 0) : v.addr.read v.length.toNat = some v.value := by
  rcases hv with hz | ⟨bs, hbs, hlen⟩
  · exact absurd hz h0
  · unfold AttrValue.value
    rw [hbs]
    show (if v.length.toNat ≤ bs.length then some (bs.take v.length.toNat)
      else none) = some (bs.take v.length.toNat)
    rw [if_pos hlen]

/-- What can be copied is valid. -/
theorem AttrValue.valid_of_read {v : AttrValue} {bytes : List UInt8}
    (h : v.addr.read v.length.toNat = some bytes) : v.Valid := by
  cases haddr : v.addr with
  | null =>
      rw [haddr] at h
      cases h
  | stale address =>
      rw [haddr] at h
      cases h
  | block bs =>
      rw [haddr] at h
      refine Or.inr ⟨bs, haddr, ?_⟩
      by_contra hlong
      rw [Ptr.read, if_neg hlong] at h
      cases h

theorem AttrValue.valid_ofBytes (bs : List UInt8) :
    (AttrValue.ofBytes bs).Valid := by
  refine Or.inr ⟨bs, rfl, ?_⟩
  show (UInt32.ofNat bs.length).toNat ≤ bs.length
  rw [UInt32.toNat_ofNat']
  exact Nat.mod_le _ _

theorem AttrValue.value_ofBytes {bs : List UInt8} (h : bs.length < 2 ^ 32) :
    (AttrValue.ofBytes bs).value = bs := by
  show bs.take (UInt32.ofNat bs.length).toNat = bs
  rw [UInt32.toNat_ofNat', Nat.mod_eq_of_lt h, List.take_length]

end DistComm
