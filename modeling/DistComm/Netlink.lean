import DistComm.Interface

/-! # Netlink framing between the kernel module and the library

    Both directions of the link: `netlink_sendto_kern` and
    `netlink_recvfrom_kern` of `lib/src/netlink.c`, `send_msg_to_user` and the
    beginning of `handle_netlink_income` of `module/interface.c`.  A message is
    its bytes, the 16-byte `nlmsghdr` included; what a receiver sees behind a
    message is arbitrary memory.

    The two sides do not agree on what the length field counts.  The library
    stores the padded size of the whole message, and the kernel subtracts one
    byte from it, so that no body is delivered with its own length
    (`framedExactly_iff`). -/

namespace DistComm

open RawMemory RawScan TracedProgram

/-- `struct nlmsghdr` with `nlmsg_flags` and `nlmsg_seq` zero. -/
def nlmsghdr (len : UInt32) (type : UInt8) (pid : UInt32) : List UInt8 :=
  wordBytes len ++ [type, 0, 0, 0] ++ wordBytes 0 ++ wordBytes pid

/-- `NLMSG_SPACE(m)`: `m + 16` rounded up to a multiple of 4.  The sum is a
    `size_t`, and the mask `~3U` keeps its low 32 bits. -/
def NLMSG_SPACE (m : Nat) : UInt32 := UInt32.ofNat ((m + 16 + 3) / 4 * 4)

/-- `NLMSG_DONE`. -/
def NLMSG_DONE : UInt8 := 3

/-! ## From a process to the kernel -/

/-- The message `netlink_sendto_kern` passes to `sendmsg`; `none` where its
    `malloc` is asked for a negative size or the copies leave the block. -/
def Lib.netlinkSendtoKern (portid : UInt32) (type : UInt8)
    (packet : List UInt8) (packetLength : UInt32) : Option (List UInt8) := do
  let packetLen := (NLMSG_SPACE (packetLength.toNat + 1)).toInt32
  let data ← (Ptr.block packet).read packetLength.toNat
  if 0 ≤ packetLen.toInt ∧ 17 + data.length ≤ packetLen.toInt.toNat then
    some (nlmsghdr packetLen.toUInt32 0 portid ++ [type] ++ data
      ++ List.replicate (packetLen.toInt.toNat - (17 + data.length)) 0)
  else none

/-- What `handle_netlink_income` passes to a handler. -/
structure Income where
  type : UInt8
  bodyLength : UInt32
  portid : UInt32
  deriving DecidableEq, Repr

/-- The header fields of an incoming message, as `handle_netlink_income` reads
    them.  The body starts behind them; its length is computed from `nlmsg_len`
    by an unsigned subtraction, and a message that is too short is reported in
    the log and processed all the same. -/
def netlinkIncome : Scan Income := do
  let length ← word
  skip 8
  let portid ← word
  let type ← byte
  pure ⟨type, length - 1, portid⟩

/-! ## From the kernel to a process -/

/-- What the calls a kernel handler makes into the rest of the kernel return. -/
structure Env where
  /-- the results of `sock_sendto`, one call after the other -/
  sendRet : Nat → Int32
  /-- `nlmsg_new` returned a buffer -/
  skbAlloc : Bool
  /-- the result of `nlmsg_unicast` -/
  unicastRet : Int32

/-- The message that `nlmsg_new`, `nlmsg_put` and `memcpy` build: the header
    counts itself and the data, and the padding is zeroed. -/
def userMessage (data : List UInt8) (size : UInt32) : List UInt8 :=
  nlmsghdr (16 + size) NLMSG_DONE 0 ++ data
    ++ List.replicate ((size.toNat + 3) / 4 * 4 - size.toNat) 0

/-- `send_msg_to_user` of the `size` bytes at offset `data`. -/
def sendMsgToUser {σ : Type} (env : Env) (portid : UInt32) (m : Mem)
    (data : Nat) (size : UInt32) : Traced σ Event Int32 :=
  if env.skbAlloc = false then pure (-1)
  else do
    let content ← readPacket (bytes size.toNat) m data
    emit (.unicast portid (userMessage content size) env.unicastRet)
    if env.unicastRet < 0 then pure (-1) else pure 0

/-- `sizeof(buf)` in `netlink_recvfrom_kern`. -/
def recvBufferSize : Nat := 8192

/-- `netlink_recvfrom_kern`: the bytes it copies to `packet`, whose number it
    returns; `none` is the return value -1.  `received` is what `recvmsg` got
    (nothing, if it failed), and `stack` the former content of the receive
    array. -/
def Lib.netlinkRecvfromKern (stack : Mem) (received : Option (List UInt8))
    (packetLength : UInt32) : Option (List UInt8) :=
  match received with
  | none => none
  | some [] => none
  | some (b :: message) =>
      let buf := overlay ((b :: message).take recvBufferSize) stack
      let payloadLength := wordAt buf 0 - 16
      if payloadLength > packetLength then none
      else some (slice buf 16 payloadLength.toNat)

/-! ## What a handler gets to see -/

theorem length_nlmsghdr (len : UInt32) (type : UInt8) (pid : UInt32) :
    (nlmsghdr len type pid).length = 16 := rfl

/-- A message starts with its header. -/
theorem holds_nlmsghdr {len pid : UInt32} {type : UInt8} {m : Mem}
    (h : Holds m 0 (nlmsghdr len type pid)) :
    wordAt m 0 = len ∧ wordAt m 12 = pid := by
  obtain ⟨h1, h2⟩ := holds_append.mp h
  obtain ⟨h3, -⟩ := holds_append.mp h1
  obtain ⟨h4, -⟩ := holds_append.mp h3
  exact ⟨wordAt_of_holds h4, wordAt_of_holds h2⟩

/-- `NLMSG_SPACE` of a packet and the one-byte inner header. -/
theorem toNat_NLMSG_SPACE (n : Nat) :
    (NLMSG_SPACE (n + 1)).toNat = (n + 20) / 4 * 4 % 2 ^ 32 :=
  UInt32.toNat_ofNat'

/-- The library builds a message exactly when the padded size is a positive
    `int`. -/
theorem netlinkSendtoKern_spec {packet : List UInt8} {packetLength : UInt32}
    (hlen : packetLength.toNat = packet.length) (portid : UInt32)
    (type : UInt8) :
    Lib.netlinkSendtoKern portid type packet packetLength
      = if packet.length + 20 < 2 ^ 31 then
          some (nlmsghdr (NLMSG_SPACE (packet.length + 1)) 0 portid ++ [type]
            ++ packet ++ List.replicate
              ((packet.length + 20) / 4 * 4 - (17 + packet.length)) 0)
        else none := by
  have hread : (Ptr.block packet).read packet.length = some packet := by
    show (if packet.length ≤ packet.length then
      some (packet.take packet.length) else none) = some packet
    rw [if_pos (Nat.le_refl _), List.take_length]
  have hspace := toNat_NLMSG_SPACE packet.length
  have hint := toInt_toInt32 (NLMSG_SPACE (packet.length + 1))
  have hmax := packetLength.toNat_lt
  simp only [Lib.netlinkSendtoKern, hread, Option.bind_eq_bind,
    Option.bind_some, hlen]
  by_cases hfit : packet.length + 20 < 2 ^ 31
  · have hexact : (NLMSG_SPACE (packet.length + 1)).toNat
        = (packet.length + 20) / 4 * 4 := by omega
    rw [if_pos (by omega)] at hint
    rw [if_pos hfit, if_pos (by omega), hint, Int.toNat_natCast, hexact]
    rfl
  · -- a negative size, or one that wrapped around to less than the header
    rw [if_neg hfit, if_neg ?_]
    rintro ⟨hpos, hle⟩
    by_cases hsign : (NLMSG_SPACE (packet.length + 1)).toNat < 2 ^ 31
    · rw [if_pos hsign] at hint
      omega
    · rw [if_neg hsign] at hint
      have := (NLMSG_SPACE (packet.length + 1)).toNat_lt
      omega

/-- **DELIVERY**: the handler gets the type, the sender's port and the packet, but
    a body length that counts the `nlmsghdr` and the padding as well. -/
theorem netlinkIncome_of_sent {packet : List UInt8} {packetLength portid : UInt32}
    {type : UInt8} {message : List UInt8}
    (hlen : packetLength.toNat = packet.length)
    (h : Lib.netlinkSendtoKern portid type packet packetLength = some message)
    (behind : Mem) :
    let income := (netlinkIncome (overlay message behind) 0).val
    packet.length + 20 < 2 ^ 31 ∧ income.type = type
      ∧ income.portid = portid
      ∧ income.bodyLength.toNat = (packet.length + 20) / 4 * 4 - 1
      ∧ message.length = (packet.length + 20) / 4 * 4
      ∧ Holds (overlay message behind) 17 packet := by
  rw [netlinkSendtoKern_spec hlen] at h
  by_cases hfit : packet.length + 20 < 2 ^ 31
  · rw [if_pos hfit] at h
    have hholds := holds_overlay message behind
    rw [← Option.some.inj h] at hholds ⊢
    generalize overlay _ behind = m at hholds ⊢
    obtain ⟨h1, -⟩ := holds_append.mp hholds
    obtain ⟨h2, hpacket⟩ := holds_append.mp h1
    obtain ⟨hhdr, htype⟩ := holds_append.mp h2
    obtain ⟨hword, hpid⟩ := holds_nlmsghdr hhdr
    have hbyte : m 16 = type := (List.cons.inj htype).1
    intro income
    have hincome : income = ⟨type, NLMSG_SPACE (packet.length + 1) - 1, portid⟩ := by
      show (⟨m 16, wordAt m 0 - 1, wordAt m 12⟩ : Income) = _
      rw [hbyte, hword, hpid]
    have hspace := toNat_NLMSG_SPACE packet.length
    rw [hincome]
    refine ⟨hfit, rfl, rfl, ?_, ?_, ?_⟩
    · rw [toNat_pred (by omega), hspace]
      omega
    · simp only [List.length_append, length_nlmsghdr, List.length_singleton,
        List.length_replicate]
      omega
    · simpa [length_nlmsghdr] using hpacket
  · rw [if_neg hfit] at h
    exact nomatch h

/-- If a message is built, the handler of its type is called with the packet and
    nothing else, its length, and the port of the sender. -/
def FramedExactly (portid : UInt32) (type : UInt8) (packet : List UInt8) :
    Prop :=
  ∀ message behind,
    Lib.netlinkSendtoKern portid type packet (UInt32.ofNat packet.length)
      = some message →
    let m := overlay message behind
    let income := (netlinkIncome m 0).val
    income.type = type ∧ income.portid = portid
      ∧ income.bodyLength.toNat = packet.length
      ∧ slice m 17 income.bodyLength.toNat = packet

/-- **FRAMING**: no message that is built is framed exactly.  What is left are the
    packets for which none is built, since the size does not fit in an `int`. -/
theorem framedExactly_iff {packet : List UInt8} (hlen : packet.length < 2 ^ 32)
    (portid : UInt32) (type : UInt8) :
    FramedExactly portid type packet ↔ 2 ^ 31 ≤ packet.length + 20 := by
  have hlen' : (UInt32.ofNat packet.length).toNat = packet.length :=
    UInt32.toNat_ofNat_of_lt' hlen
  constructor
  · intro h
    by_contra hfit
    have hsent := netlinkSendtoKern_spec hlen' portid type
    rw [if_pos (Nat.lt_of_not_le hfit)] at hsent
    obtain ⟨-, -, -, hbody, -⟩ := netlinkIncome_of_sent hlen' hsent fun _ => 0
    obtain ⟨-, -, hexact, -⟩ := h _ (fun _ => 0) hsent
    rw [hexact] at hbody
    omega
  · intro hbig message behind hsent
    have hfit := (netlinkIncome_of_sent hlen' hsent behind).1
    omega

/-- A result of three bytes. -/
theorem framedExactly_iff_three : ¬ FramedExactly 7 INCOME_RESULT [1, 2, 3] :=
  fun h => absurd ((framedExactly_iff (by decide) 7 INCOME_RESULT).mp h)
    (by decide)

/-- An empty packet arrives as a body of 19 bytes. -/
theorem empty_packet_misframed :
    ∃ message, Lib.netlinkSendtoKern 7 INCOME_RESULT [] 0 = some message
      ∧ (netlinkIncome (overlay message fun _ => 0) 0).val.bodyLength = 19
      ∧ ¬ FramedExactly 7 INCOME_RESULT [] := by
  have hsent : Lib.netlinkSendtoKern 7 INCOME_RESULT [] 0
      = some (nlmsghdr 20 0 7 ++ [1, 0, 0, 0]) := by decide
  have hbody : (netlinkIncome (overlay (nlmsghdr 20 0 7 ++ [1, 0, 0, 0])
      fun _ => 0) 0).val.bodyLength = 19 := by decide
  refine ⟨_, hsent, hbody, fun h => ?_⟩
  obtain ⟨-, -, hexact, -⟩ := h _ (fun _ => 0) hsent
  rw [hbody] at hexact
  exact absurd hexact (by decide)

/-! ## What a process gets to see -/

/-- **RECEPTION**: the data of a kernel message up to the size of the caller's
    buffer, and an error above it. -/
theorem netlinkRecvfromKern_userMessage (stack : Mem) {data : List UInt8}
    {size packetLength : UInt32} (hsize : size.toNat = data.length)
    (hbuf : packetLength.toNat + 16 ≤ recvBufferSize) :
    Lib.netlinkRecvfromKern stack (some (userMessage data size)) packetLength
      = if size ≤ packetLength then some data else none := by
  have hlong : 16 ≤ recvBufferSize := by decide
  have htake : (userMessage data size).take recvBufferSize
      = nlmsghdr (16 + size) NLMSG_DONE 0
        ++ (data ++ List.replicate ((size.toNat + 3) / 4 * 4 - size.toNat)
          0).take (recvBufferSize - 16) := by
    rw [userMessage, List.append_assoc, List.take_append, length_nlmsghdr,
      List.take_of_length_le (by rw [length_nlmsghdr]; exact hlong)]
  have hholds := holds_overlay ((userMessage data size).take recvBufferSize)
    stack
  have hrecv : Lib.netlinkRecvfromKern stack (some (userMessage data size))
      packetLength
    = if wordAt (overlay ((userMessage data size).take recvBufferSize) stack) 0
          - 16 > packetLength then none
      else some (slice (overlay ((userMessage data size).take recvBufferSize)
        stack) 16 (wordAt (overlay ((userMessage data size).take recvBufferSize)
          stack) 0 - 16).toNat) := rfl
  rw [hrecv]
  generalize overlay _ stack = buf at hholds ⊢
  rw [htake] at hholds
  obtain ⟨hhdr, hdata⟩ := holds_append.mp hholds
  have hlength : wordAt buf 0 - 16 = size := by
    rw [(holds_nlmsghdr hhdr).1, UInt32.add_comm, UInt32.add_sub_cancel]
  rw [hlength]
  by_cases hle : size ≤ packetLength
  · rw [if_neg (UInt32.not_lt.mpr hle), if_pos hle]
    have hle' := UInt32.le_iff_toNat_le.mp hle
    rw [List.take_append, List.take_of_length_le (by omega)] at hdata
    have hpacket : Holds buf 16 data := (holds_append.mp hdata).1
    rw [hsize]
    exact congrArg some hpacket
  · rw [if_pos (UInt32.not_le.mp hle), if_neg hle]

end DistComm
