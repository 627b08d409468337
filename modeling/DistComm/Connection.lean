import DistComm.Service

/-! # Connections

    Stream sockets as `util/socket.c` uses them, and `handle_connection` of
    `module/network/service.c`.  A packet travels behind a word with its length,
    and both ends receive it in the same way: the word, a fresh buffer of that
    size, and as many bytes as one call returns (`receiveFrame`). -/

namespace DistComm

open RawMemory RawScan PointerArray TracedProgram

/-- `EINVALIDSIZE`. -/
def EINVALIDSIZE : Int32 := 30001

/-- What a receive on a stream meets: an error, or up to `n` bytes that have
    arrived. -/
inductive Arrival where
  | failed (err : Int32)
  | upTo (n : Nat)
  deriving DecidableEq

/-- `sock_recvfrom(sock, NULL, buf, len)` on a stream: its result, what it copies
    to `buf`, and what is still to come. -/
def sockRecvfrom (a : Arrival) (len : Nat) (incoming : List UInt8) :
    Int32 × List UInt8 × List UInt8 :=
  match a with
  | .failed err => (err, [], incoming)
  | .upTo n =>
      let data := incoming.take (min n len)
      (Int32.ofNat data.length, data, incoming.drop data.length)

/-- What the calls of a receiver return: its two receives, its `kzalloc`, and the
    memory behind the buffer. -/
structure Receiver where
  arrivals : Nat → Arrival
  alloc : Bool
  behind : Mem

/-- How `handle_connection` and `execute_remote_interface` receive a packet: the
    buffer and the result of the second receive, or nothing where they give up
    with `EINVALIDSIZE`.  `size` is what the variable of this name holds before,
    and the result of the first receive is not looked at. -/
def receiveFrame (size : Mem) (r : Receiver) (incoming : List UInt8) :
    Option (Mem × UInt32) :=
  let (_, sizeBytes, incoming) := sockRecvfrom (r.arrivals 0) 4 incoming
  let size := (wordAt (store sizeBytes size) 0).toInt32
  if size.toInt ≤ 0 then none
  else if r.alloc = false then none
  else
    let (length, data, _) := sockRecvfrom (r.arrivals 1) size.toInt.toNat incoming
    let buffer := store (List.replicate size.toInt.toNat 0) r.behind
    some (store data buffer, length.toUInt32)

/-- `handle_connection`; `getname` is the result of `sock->ops->getname`. -/
def handleConnection (env : Env) (getname : Int32) (r : Receiver)
    (sock : SockId) (incoming : List UInt8) : Traced Registry Event Int32 :=
  if getname < 0 then pure getname
  else
    match receiveFrame (fun _ => 0) r incoming with
    | none => pure (-EINVALIDSIZE)
    | some (buffer, length) => do
        let _ ← executeInterface env buffer length (some sock)
        pure getname

/-! ## The two receives -/

/-- What a receive of `len` bytes copies. -/
def Arrival.bytes (a : Arrival) (len : Nat) (incoming : List UInt8) : List UInt8 :=
  match a with
  | .failed _ => []
  | .upTo n => incoming.take (min n len)

/-- `size` after the first receive: what came of the length, and behind it what the
    variable held before. -/
def Receiver.announced (r : Receiver) (size : Mem) (incoming : List UInt8) : Int32 :=
  (wordAt (store ((r.arrivals 0).bytes 4 incoming) size) 0).toInt32

/-- The number of bytes that `receiveFrame` asks for in its second receive. -/
def Receiver.frameSize (r : Receiver) (size : Mem) (incoming : List UInt8) : Nat :=
  (r.announced size incoming).toInt.toNat

/-- What is still to come after the first receive. -/
def Receiver.remaining (r : Receiver) (incoming : List UInt8) : List UInt8 :=
  incoming.drop ((r.arrivals 0).bytes 4 incoming).length

theorem receiveFrame_eq (size : Mem) (r : Receiver) (incoming : List UInt8) :
    receiveFrame size r incoming
      = if (r.announced size incoming).toInt ≤ 0 then none
        else if r.alloc = false then none
        else
          let second := sockRecvfrom (r.arrivals 1) (r.frameSize size incoming)
            (r.remaining incoming)
          some (store second.2.1 (store
            (List.replicate (r.frameSize size incoming) 0) r.behind),
              second.1.toUInt32) := by
  rw [Receiver.frameSize, Receiver.announced, Receiver.remaining, receiveFrame]
  cases r.arrivals 0 with
  | failed err => rfl
  | upTo n => rfl

/-- `receiveFrame` gives up if the size is not positive, or if it gets no buffer. -/
theorem receiveFrame_none {size : Mem} {r : Receiver} {incoming : List UInt8} :
    receiveFrame size r incoming = none
      ↔ (r.announced size incoming).toInt ≤ 0 ∨ r.alloc = false := by
  rw [receiveFrame_eq]
  by_cases hsize : (r.announced size incoming).toInt ≤ 0
  · rw [if_pos hsize]
    exact ⟨fun _ => Or.inl hsize, fun _ => rfl⟩
  · rw [if_neg hsize]
    by_cases halloc : r.alloc = false
    · rw [if_pos halloc]
      exact ⟨fun _ => Or.inr halloc, fun _ => rfl⟩
    · rw [if_neg halloc]
      exact ⟨fun h => absurd h (Option.some_ne_none _), fun h =>
        absurd h (not_or.mpr ⟨hsize, halloc⟩)⟩

/-- Where the stream starts with zeros, no size is read. -/
theorem receiveFrame_zeros {r : Receiver} {incoming : List UInt8}
    (h : ∀ b ∈ incoming.take 4, b = 0) :
    receiveFrame (fun _ => 0) r incoming = none := by
  refine receiveFrame_none.mpr (Or.inl ?_)
  have hbytes : ∀ b ∈ (r.arrivals 0).bytes 4 incoming, b = 0 := by
    intro b hb
    cases harrival : r.arrivals 0 with
    | failed err =>
        rw [harrival] at hb
        exact nomatch hb
    | upTo n =>
        rw [harrival] at hb
        refine h b ?_
        have hsub : incoming.take (min n 4) <+: incoming.take 4 :=
          List.take_prefix_take_left (Nat.min_le_right n 4)
        exact hsub.subset hb
  have hzero : ∀ i, store ((r.arrivals 0).bytes 4 incoming) (fun _ => 0) i = 0 := by
    intro i
    rw [store]
    by_cases hi : i < ((r.arrivals 0).bytes 4 incoming).length
    · rw [overlay_lt _ hi]
      exact hbytes _ (List.getElem_mem hi)
    · rw [overlay_ge _ (Nat.le_of_not_lt hi)]
  have hword : wordAt (store ((r.arrivals 0).bytes 4 incoming) fun _ => 0) 0 = 0 := by
    rw [wordAt, hzero, hzero, hzero, hzero]
    rfl
  rw [Receiver.announced, hword]
  decide

/-- A connection whose packet was received does what `execute_interface` does. -/
theorem handleConnection_received {getname : Int32} (hname : ¬ getname < 0)
    {r : Receiver} {incoming : List UInt8} {buffer : Mem} {length : UInt32}
    (hframe : receiveFrame (fun _ => 0) r incoming = some (buffer, length))
    (env : Env) (sock : SockId) (k : Registry) :
    handleConnection env getname r sock incoming k
      = ⟨(executeInterface env buffer length (some sock) k).ret.map
            fun _ => getname,
          (executeInterface env buffer length (some sock) k).state,
          (executeInterface env buffer length (some sock) k).trace⟩ := by
  rw [handleConnection, if_neg hname, hframe]
  exact run_bind_pure _ getname k

/-! ## Whole packets -/

/-- A packet behind its length. -/
def frame (packet : List UInt8) : List UInt8 :=
  wordBytes (UInt32.ofNat packet.length) ++ packet

/-- The stream delivers what a receive asks for, and the buffer is allocated. -/
structure Receiver.Reliable (r : Receiver) : Prop where
  alloc : r.alloc = true
  whole : ∀ i, ∃ n, r.arrivals i = .upTo n ∧ 2 ^ 31 ≤ n

theorem Receiver.Reliable.recv {r : Receiver} (h : r.Reliable) (i : Nat)
    {data : List UInt8} (hlen : data.length < 2 ^ 31) (rest : List UInt8) :
    sockRecvfrom (r.arrivals i) data.length (data ++ rest)
      = (Int32.ofNat data.length, data, rest) := by
  obtain ⟨n, harrival, hn⟩ := h.whole i
  have htake : (data ++ rest).take (min n data.length) = data := by
    rw [Nat.min_eq_right (by omega)]
    exact List.take_left
  rw [harrival, sockRecvfrom, htake, List.drop_left]

/-- **FRAMING**: a reliable receiver gets the packet, and its length. -/
theorem Receiver.Reliable.receiveFrame {r : Receiver} (h : r.Reliable)
    (size : Mem) {packet : List UInt8} (hpos : 0 < packet.length)
    (hlen : packet.length < 2 ^ 31) :
    ∃ behind, DistComm.receiveFrame size r (frame packet)
      = some (overlay packet behind, UInt32.ofNat packet.length) := by
  have hword : (UInt32.ofNat packet.length).toNat = packet.length :=
    UInt32.toNat_ofNat_of_lt' (Nat.lt_trans hlen (by decide))
  have hint : (UInt32.ofNat packet.length).toInt32.toInt = packet.length := by
    rw [toInt_toInt32, hword, if_pos hlen]
  have hfour : (wordBytes (UInt32.ofNat packet.length)).length < 2 ^ 31 := by
    rw [length_wordBytes]
    decide
  have hfirst := h.recv 0 hfour packet
  have hsecond := h.recv 1 hlen []
  rw [List.append_nil] at hsecond
  have hsize : wordAt (store (wordBytes (UInt32.ofNat packet.length)) size) 0
      = UInt32.ofNat packet.length := wordAt_of_holds (holds_store _ size)
  rw [length_wordBytes] at hfirst
  simp only [DistComm.receiveFrame, frame, hfirst, hsize, hint,
    Int.toNat_natCast, hsecond]
  rw [if_neg (by omega), if_neg (by rw [h.alloc]; exact Bool.noConfusion)]
  exact ⟨_, rfl⟩

/-- A receiver whose calls all succeed. -/
def Receiver.fine (behind : Mem) : Receiver :=
  ⟨fun _ => .upTo (2 ^ 31), true, behind⟩

theorem Receiver.fine_reliable (behind : Mem) : (Receiver.fine behind).Reliable :=
  ⟨rfl, fun _ => ⟨2 ^ 31, rfl, Nat.le_refl _⟩⟩

/-- **REQUEST**: a request that arrives on a connection, for an interface that is
    registered. -/
theorem handleConnection_found {env : Env} {getname : Int32} {r : Receiver}
    (hname : ¬ getname < 0) (hr : r.Reliable) {id : UInt32}
    {args : List (List UInt8)} (hlen : (rpcEncoding id args).length < 2 ^ 31)
    (hid : id ≠ 0) {k : Registry} {p : Nat} {x : Interface}
    (hfound : k.findInterface id.toInt32 = some (some (p, x))) (sock : SockId) :
    ∃ behind, handleConnection env getname r sock (frame (rpcEncoding id args)) k
      = ⟨some getname, k.assign p (x.setSocket (some sock)),
          .read ⟨0, 4⟩ :: forwardEvents env
            (overlay (rpcEncoding id args) behind)
            (UInt32.ofNat (rpcEncoding id args).length) x⟩ := by
  have hpos : 0 < (rpcEncoding id args).length := by
    rw [length_rpcEncoding]
    omega
  obtain ⟨behind, hframe⟩ := hr.receiveFrame (fun _ => 0) hpos hlen
  have hword : wordAt (overlay (rpcEncoding id args) behind) 0 = id :=
    wordAt_of_holds (holds_append.mp (holds_overlay _ behind)).1
  have hexec := executeInterface_found (by rw [hword]; exact hid)
    (by rw [hword]; exact hfound) env
    (UInt32.ofNat (rpcEncoding id args).length) (some sock)
  refine ⟨behind, ?_⟩
  rw [handleConnection_received hname hframe, hexec]
  rfl

end DistComm
