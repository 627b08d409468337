import DistComm.RpcPacket

/-! # Where the encoders of RPC packets write

    `copy_to_buffer` enlarges the block by `BUFFER_INC_SIZE` at most once, however
    long the source is, and compares a 32-bit sum.  So it copies the source behind
    the old contents only if the source ends within the block or within one
    increment more, and `serialize_rpc_packet` leaves its block with the first
    value that does not.  A result that a callback left at `length = -1` is such a
    value: the sum with 12 wraps around, nothing is enlarged, and four gigabytes
    are copied. -/

namespace DistComm

open GrowBuffer

/-- What an append is for: the source is behind the old contents, the length word is
    the sum of the lengths, and it does not exceed the block. -/
def Copied (copy : Buffer → List UInt8 → Option Buffer) (b : Buffer)
    (src : List UInt8) : Prop :=
  ∃ b', copy b src = some b' ∧ b'.contents = b.contents ++ src
    ∧ b'.length.toNat = b.length.toNat + src.length ∧ b'.length ≤ b'.maxSize

theorem copied_iff (b : Buffer) (src : List UInt8) :
    Copied (append BUFFER_INC_SIZE) b src
      ↔ ∃ b', append BUFFER_INC_SIZE b src = some b' := by
  constructor
  · rintro ⟨b', h, -⟩
    exact ⟨b', h⟩
  · rintro ⟨b', h⟩
    have hcontents := append_contents h
    refine ⟨b', h, hcontents, ?_, ?_⟩
    · rw [b'.toNat_length, b.toNat_length, hcontents, List.length_append]
    · rw [UInt32.le_iff_toNat_le, b'.toNat_length]
      exact b'.fits

/-- The copies that `serialize_rpc_packet` makes for values of any lengths, in the
    kernel module and in the library. -/
def rpcWrites (values : List AttrValue) : List Write :=
  writes BUFFER_INC_SIZE 0 BUFFER_INC_SIZE (rpcLengths values)

/-- The copies stay in the block exactly if the lengths fit. -/
theorem rpcWrites_inside_iff (values : List AttrValue) :
    (∀ w ∈ rpcWrites values, w.Inside)
      ↔ PiecesFit BUFFER_INC_SIZE.toNat 0
          ((rpcLengths values).map UInt32.toNat) := by
  -- the bytes do not matter: sources of these lengths, all zero
  let srcs := (rpcLengths values).map fun n => List.replicate n.toNat (0 : UInt8)
  have hlengths : srcs.map List.length = (rpcLengths values).map UInt32.toNat := by
    rw [List.map_map]
    exact List.map_congr_left fun n _ => List.length_replicate
  have hwrites := @writes_inside_iff BUFFER_INC_SIZE _ _ hlengths
    (Buffer.ofSize BUFFER_INC_SIZE)
  have hfit := fresh_appends_iff srcs
  rw [hlengths] at hfit
  exact hwrites.trans hfit

/-- The copies of an encoder that is given valid values stay in the block exactly if
    it produces the packet. -/
theorem rpcWrites_inside_iff_serialize {id argc : UInt32} {values : List AttrValue}
    (hargc : argc.toNat = values.length) (hv : ∀ v ∈ values, v.Valid) :
    (∀ w ∈ rpcWrites values, w.Inside)
      ↔ Kernel.serializeRpcPacket id argc values
        = some (rpcEncoding id (values.map AttrValue.value)) :=
  (rpcWrites_inside_iff values).trans (Kernel.serializeRpcPacket_iff hargc hv).symm

/-- **ENCODER WRITES**.  Both `copy_to_buffer` append exactly the sources that end
    within the block or within one increment more; every copy of
    `serialize_rpc_packet` is inside its block exactly if no piece, a length word or
    the bytes of a value, takes more than one increment and the block stays below
    `2 ^ 32` bytes. -/
theorem encoder_writes (b : Buffer) (src : List UInt8) (values : List AttrValue) :
    ((Copied Kernel.copyToBuffer b src ∧ Copied Lib.copyToBuffer b src)
      ↔ b.contents.length + src.length ≤ b.maxSize.toNat
        ∨ b.contents.length + src.length ≤ b.maxSize.toNat + BUFFER_INC_SIZE.toNat
          ∧ b.maxSize.toNat + BUFFER_INC_SIZE.toNat < 2 ^ 32)
    ∧ ((∀ w ∈ rpcWrites values, w.Inside)
      ↔ PiecesFit BUFFER_INC_SIZE.toNat 0
          ((rpcLengths values).map UInt32.toNat)) := by
  refine ⟨?_, rpcWrites_inside_iff values⟩
  -- the two `copy_to_buffer` are one program
  have hsame : (Copied Kernel.copyToBuffer b src ∧ Copied Lib.copyToBuffer b src)
      ↔ Copied (append BUFFER_INC_SIZE) b src := and_self_iff
  rw [hsame, copied_iff, append_iff]

/-- The result that `handle_rpc` prepared and the callback left alone: its bytes are
    copied to offset 12 of a block of 65536, all `2 ^ 32 - 1` of them. -/
theorem encoder_writes_unset_result :
    ¬ ∀ w ∈ rpcWrites [⟨-1, .null⟩], w.Inside := by
  unfold Write.Inside
  decide

end DistComm
