import DistComm.RemoteCall

/-! # Framing

    A request and its reply, each behind a word with its length, over connections
    that deliver what they like and with sends that fail when they like.  Each end
    receives with two calls, does not look at the result of the first one, and uses
    that of the second one as the length of the packet, also where it is an error.

    What a receiver takes for the packet is the packet exactly if it gives up, or if
    the packet comes next in the stream behind the first receive and the second
    one takes all of it (`receiveFrame_exactly`).  The sender of a reply checks
    both sends in an unsigned variable, and its checks never fire.  Together they
    say when no failure does harm (`framing_iff`). -/

namespace DistComm

open RawMemory RawScan PointerArray TracedProgram

/-! ## Receiving -/

/-- A receive that fails returns a negative error. -/
def Receiver.Proper (r : Receiver) : Prop :=
  ∀ i err, r.arrivals i = .failed err → err < 0

/-- The buffer starts with the packet, and `length`, as the `int` that the receive
    returned, is the length of the packet. -/
def Exactly (buffer : Mem) (length : UInt32) (packet : List UInt8) : Prop :=
  length.toInt32.toInt = packet.length ∧ Holds buffer 0 packet

/-- The size that was read is not positive, or there is no memory for it. -/
def Receiver.GivesUp (r : Receiver) (size : Mem) (incoming : List UInt8) : Prop :=
  (r.announced size incoming).toInt ≤ 0 ∨ r.alloc = false

/-- The packet comes next in the stream after the first receive, and the second
    receive takes this packet and no more. -/
def Receiver.Gets (r : Receiver) (size : Mem) (incoming packet : List UInt8) :
    Prop :=
  ∃ n, r.arrivals 1 = .upTo n ∧ packet <+: r.remaining incoming
    ∧ packet.length
      = min (min n (r.frameSize size incoming)) (r.remaining incoming).length

theorem isPrefix_take {as bs : List UInt8} {n : Nat} :
    bs.take n = as ↔ as <+: bs ∧ as.length = min n bs.length := by
  constructor
  · intro h
    rw [← h]
    refine ⟨?_, List.length_take⟩
    exact List.take_prefix n bs
  · rintro ⟨hpre, hlen⟩
    rw [List.prefix_iff_eq_take.mp hpre, hlen]
    by_cases hn : n ≤ bs.length
    · rw [Nat.min_eq_left hn]
    · rw [Nat.min_eq_right (Nat.le_of_not_le hn), List.take_length,
        List.take_of_length_le (Nat.le_of_not_le hn)]

/-- Bytes at the beginning of a buffer are the packet if there are as many. -/
theorem exactly_store {data packet : List UInt8} {buffer : Mem}
    (hlen : data.length < 2 ^ 31) :
    Exactly (store data buffer) (Int32.ofNat data.length).toUInt32 packet
      ↔ data = packet := by
  have hint : (Int32.ofNat data.length).toUInt32.toInt32.toInt = data.length :=
    Int32.toInt_ofNat_of_lt hlen
  rw [Exactly, hint]
  constructor
  · rintro ⟨hsame, hholds⟩
    have hdata := holds_store data buffer
    rw [Holds, Int.natCast_inj.mp hsame] at hdata
    exact hdata.symm.trans hholds
  · intro heq
    rw [← heq]
    exact ⟨rfl, holds_store data buffer⟩

/-- Where the first receive takes the whole length, the packet is what remains. -/
theorem Receiver.whole_length {r : Receiver} {n : Nat} (hfirst : r.arrivals 0 = .upTo n)
    (hn : 4 ≤ n) (size : Mem) (packet : List UInt8) :
    r.announced size (frame packet) = (UInt32.ofNat packet.length).toInt32
      ∧ r.remaining (frame packet) = packet := by
  have hbytes : (r.arrivals 0).bytes 4 (frame packet)
      = wordBytes (UInt32.ofNat packet.length) := by
    rw [hfirst, Arrival.bytes, Nat.min_eq_right hn]
    rfl
  rw [Receiver.announced, Receiver.remaining, hbytes]
  exact ⟨congrArg UInt32.toInt32 (wordAt_of_holds (holds_store _ size)), rfl⟩

/-- **UNSPLIT LENGTH**: then the packet arrives exactly if the second receive takes
    all of it. -/
theorem Receiver.gets_iff {r : Receiver} {n : Nat} (hfirst : r.arrivals 0 = .upTo n)
    (hn : 4 ≤ n) (size : Mem) {packet : List UInt8} (hlen : packet.length < 2 ^ 31) :
    r.Gets size (frame packet) packet
      ↔ ∃ n, r.arrivals 1 = .upTo n ∧ packet.length ≤ n := by
  obtain ⟨hannounced, hremaining⟩ := r.whole_length hfirst hn size packet
  have hsize : r.frameSize size (frame packet) = packet.length := by
    rw [Receiver.frameSize, hannounced, toInt_toInt32,
      UInt32.toNat_ofNat_of_lt' (Nat.lt_trans hlen (by decide)), if_pos hlen]
    rfl
  rw [Receiver.Gets, hremaining, hsize]
  constructor
  · rintro ⟨n, hsecond, -, heq⟩
    exact ⟨n, hsecond, by omega⟩
  · rintro ⟨n, hsecond, hle⟩
    exact ⟨n, hsecond, List.prefix_rfl, by omega⟩

theorem forall_some_pair {α β : Type} {P : α → β → Prop} {a : α} {b : β} :
    (∀ x y, some (a, b) = some (x, y) → P x y) ↔ P a b := by
  constructor
  · intro h
    exact h a b rfl
  · intro h x y heq
    cases heq
    exact h

/-- **ONE PACKET**: what a receiver takes for the packet is the packet, exactly if
    it gives up or gets the packet. -/
theorem receiveFrame_exactly {r : Receiver} (hr : r.Proper) (size : Mem)
    (incoming packet : List UInt8) :
    (∀ buffer length, receiveFrame size r incoming = some (buffer, length) →
        Exactly buffer length packet)
      ↔ r.GivesUp size incoming ∨ r.Gets size incoming packet := by
  by_cases hgives : r.GivesUp size incoming
  · refine ⟨fun _ => Or.inl hgives, fun _ buffer length hsome => ?_⟩
    rw [receiveFrame_none.mpr hgives] at hsome
    exact nomatch hsome
  obtain ⟨hsize, halloc⟩ := not_or.mp hgives
  rw [receiveFrame_eq, if_neg hsize, if_neg halloc, forall_some_pair,
    or_iff_right hgives, Receiver.Gets]
  cases harrival : r.arrivals 1 with
  | failed err =>
      -- a negative number is the length of no packet
      constructor
      · rintro ⟨hlen, -⟩
        have hneg := Int32.lt_iff_toInt_lt.mp (hr 1 err harrival)
        replace hlen : err.toInt = packet.length := hlen
        rw [hlen] at hneg
        exact absurd hneg (Int.not_lt.mpr (Int.natCast_nonneg _))
      · rintro ⟨n, hupTo, -⟩
        exact nomatch hupTo
  | upTo n =>
      have hlen : ((r.remaining incoming).take
          (min n (r.frameSize size incoming))).length < 2 ^ 31 := by
        have hint := (r.announced size incoming).toInt_lt
        rw [List.length_take, Receiver.frameSize]
        omega
      refine (exactly_store hlen).trans (isPrefix_take.trans ⟨fun h => ?_, ?_⟩)
      · exact ⟨n, rfl, h⟩
      · rintro ⟨n', hn, h⟩
        cases hn
        exact h

/-- The same where the packet may be taken under a condition only. -/
theorem receiveFrame_exactly_and {r : Receiver} (hr : r.Proper) (size : Mem)
    (incoming packet : List UInt8) (p : Prop) :
    (∀ buffer length, receiveFrame size r incoming = some (buffer, length) →
        p ∧ Exactly buffer length packet)
      ↔ r.GivesUp size incoming ∨ p ∧ r.Gets size incoming packet := by
  by_cases hp : p
  · rw [and_iff_right hp, ← receiveFrame_exactly hr]
    exact forall_congr' fun _ => forall_congr' fun _ =>
      forall_congr' fun _ => and_iff_right hp
  · rw [or_iff_left fun h => hp h.1]
    constructor
    · intro h
      refine receiveFrame_none.mp (Option.eq_none_iff_forall_ne_some.mpr ?_)
      rintro ⟨buffer, length⟩ hsome
      exact hp (h buffer length hsome).1
    · intro hgives buffer length hsome
      rw [receiveFrame_none.mpr hgives] at hsome
      exact nomatch hsome

/-! ## Sending -/

/-- The writes to sockets, also the failed ones, with their results. -/
def attempts (t : List Event) : List (SockId × List UInt8 × Int32) :=
  t.filterMap fun
    | .sendto sock data ret => some (sock, data, ret)
    | _ => none

theorem attempts_append (s t : List Event) :
    attempts (s ++ t) = attempts s ++ attempts t :=
  List.filterMap_append

theorem attempts_reads (reads : List Span) :
    attempts (reads.map Event.read) = [] := by
  rw [attempts, List.filterMap_map]
  exact List.filterMap_eq_nil_iff.mpr fun _ _ => rfl

/-- What a socket got is what the successful sends wrote to it. -/
theorem written_attempts (sock : SockId) (t : List Event) :
    written sock t = (attempts t).flatMap fun a =>
      if a.1 = sock ∧ ¬ a.2.2 < 0 then a.2.1 else [] := by
  induction t with
  | nil => rfl
  | cons e t ih =>
      rw [written, List.flatMap_cons, ← written, ih]
      cases e with
      | sendto s data ret => rfl
      | read span => rfl
      | load value n => rfl
      | print value => rfl
      | unicast port message ret => rfl

/-- The packet has no first value exactly if its second word is 0. -/
theorem no_values_iff {id : UInt32} {vs : List (List UInt8)} {m : Mem} {pos : Nat}
    (henc : Encodable vs) (hm : Holds m pos (rpcEncoding id vs)) :
    wordAt m (pos + 4) = 0 ↔ vs = [] := by
  obtain ⟨-, hbody⟩ := holds_append.mp hm
  have hcount : wordAt m (pos + 4) = UInt32.ofNat vs.length :=
    wordAt_of_holds (holds_append.mp hbody).1
  rw [hcount]
  constructor
  · intro hzero
    have hlen := congrArg UInt32.toNat hzero
    rw [UInt32.toNat_ofNat_of_lt' henc.1] at hlen
    exact List.eq_nil_of_length_eq_zero hlen
  · intro hnil
    rw [hnil]
    rfl

/-! ## A request and its reply -/

/-- A caller with its request, the connection at the serving host, and a result
    that the serving host gets; the sends and receives return what they like. -/
structure Exchange where
  caller : CallEnv
  call : RemoteInterface
  request : List UInt8
  sock : SockId
  getname : Int32
  receiver : Receiver
  host : SockId
  env : Env
  m : Mem
  packet : Nat
  packetLength : UInt32
  portid : UInt32
  registry : Registry
  serialized : Kernel.serializeRpcPacket call.id call.argc call.argv = some request
  caller_proper : caller.receiver.Proper
  receiver_proper : receiver.Proper

namespace Exchange

variable (x : Exchange)

/-- What `execute_remote_interface` writes to its connection. -/
def sent : List UInt8 :=
  written x.sock (executeRemoteInterface x.caller x.sock [] x.call).trace

/-- What `handle_connection` calls `execute_interface` with, if it does. -/
def received : Option (Mem × UInt32) :=
  if x.getname < 0 then none
  else receiveFrame (fun _ => 0) x.receiver x.sent

/-- The packet of the result. -/
def reply : List UInt8 := slice x.m x.packet x.packetLength.toNat

/-- What `handle_interface_result` does with the result. -/
def result : Outcome Registry Event Unit :=
  handleInterfaceResult x.env x.m x.packet x.packetLength x.portid x.registry

/-- What it writes to the caller's connection. -/
def answer : List UInt8 := written x.host x.result.trace

/-- What `execute_remote_interface` decodes, if it does. -/
def decoded : Option (Mem × UInt32) :=
  if x.caller.initSocket < 0 ∨ x.caller.sendRet 0 < 0
      ∨ ¬ x.request.length < 2 ^ 31 ∨ x.caller.sendRet 1 < 0 then none
  else receiveFrame x.caller.size x.caller.receiver x.answer

/-- The result is sent to this socket: an interface is found for it, and the packet
    has a first value to print. -/
def resultSocket : Option SockId :=
  match x.registry.findInterface (wordAt x.m x.packet).toInt32 with
  | some (some (_, interface)) =>
      if wordAt x.m (x.packet + 4) = 0 then none else interface.ctrl.socket
  | some none => none
  | none => none

/-- One of the two checks in `handle_interface_result` fires, and its warning is
    printed. -/
def Warned : Prop :=
  (x.env.sendRet 0).toUInt32 < 0 ∨ (x.env.sendRet 1).toUInt32 < 0

/-! ## What should hold -/

/-- `handle_connection` calls `execute_interface` with the request and its length,
    or returns an error. -/
def RequestFramed : Prop :=
  (∀ buffer length, x.received = some (buffer, length) →
      Exactly buffer length x.request)
    ∧ (x.received = none → ∀ env k, ∃ err,
      (handleConnection env x.getname x.receiver x.host x.sent k).ret = some err
        ∧ err < 0)

/-- `execute_remote_interface` decodes the reply whose length was sent, or returns
    an error. -/
def ReplyFramed : Prop :=
  (∀ buffer length, x.decoded = some (buffer, length) →
      (x.resultSocket = some x.host ∧ ¬ x.env.sendRet 0 < 0)
        ∧ Exactly buffer length x.reply)
    ∧ (x.decoded = none → ∃ err,
      (executeRemoteInterface x.caller x.sock x.answer x.call).ret = some err
        ∧ err < 0)

/-- A send of `handle_interface_result` that fails is its last one, and is
    reported. -/
def SendsChecked : Prop :=
  ∀ before sock data ret after,
    attempts x.result.trace = before ++ (sock, data, ret) :: after →
      ret < 0 → after = [] ∧ x.Warned

/-! ## When it holds -/

/-- What the sends of `execute_remote_interface` leave in the stream. -/
def requestStream : List UInt8 :=
  if x.caller.initSocket < 0 ∨ x.caller.sendRet 0 < 0 then []
  else wordBytes (UInt32.ofNat x.request.length)
    ++ if x.request.length < 2 ^ 31 ∧ ¬ x.caller.sendRet 1 < 0 then x.request
      else []

/-- What the sends of `handle_interface_result` leave in the stream. -/
def replyStream : List UInt8 :=
  if x.resultSocket = some x.host then
    (if x.env.sendRet 0 < 0 then [] else wordBytes x.packetLength)
      ++ if x.env.sendRet 1 < 0 then []
        else slice x.m x.packet (iovLength x.packetLength)
  else []

/-- `handle_connection` gives up, or gets the request. -/
def RequestWhole : Prop :=
  x.getname < 0 ∨ x.receiver.GivesUp (fun _ => 0) x.requestStream
    ∨ x.receiver.Gets (fun _ => 0) x.requestStream x.request

/-- `execute_remote_interface` cannot send its request, or gives up, or the length
    of the reply was sent and it gets the reply. -/
def ReplyWhole : Prop :=
  x.caller.initSocket < 0 ∨ x.caller.sendRet 0 < 0
    ∨ x.request.length < 2 ^ 31 ∧ (x.caller.sendRet 1 < 0
      ∨ x.caller.receiver.GivesUp x.caller.size x.replyStream
      ∨ (x.resultSocket = some x.host ∧ ¬ x.env.sendRet 0 < 0)
        ∧ x.caller.receiver.Gets x.caller.size x.replyStream x.reply)

/-- `handle_interface_result` sends nothing, or neither send fails. -/
def SendsSucceed : Prop :=
  x.resultSocket = none ∨ ¬ x.env.sendRet 0 < 0 ∧ ¬ x.env.sendRet 1 < 0

/-! ## The result -/

/-- **THE SENDS** of `handle_interface_result`: the length, and then the packet,
    whatever became of the length. -/
theorem attempts_result :
    attempts x.result.trace = match x.resultSocket with
      | none => []
      | some sock => [(sock, wordBytes x.packetLength, x.env.sendRet 0),
          (sock, slice x.m x.packet (iovLength x.packetLength),
            x.env.sendRet 1)] := by
  rw [resultSocket, result]
  cases hfind : x.registry.findInterface (wordAt x.m x.packet).toInt32 with
  | none =>
      rw [handleInterfaceResult_fault hfind]
      rfl
  | some found =>
      cases found with
      | none =>
          rw [handleInterfaceResult_missing hfind]
          rfl
      | some hit =>
          obtain ⟨p, interface⟩ := hit
          obtain ⟨vs, henc, hm⟩ := holds_rpcEncoding x.m x.packet
          obtain ⟨reads, -, hrun⟩ := handleInterfaceResult_found hfind henc hm
            x.env x.packetLength x.portid
          rw [hrun]
          show attempts (Event.read ⟨x.packet, 4⟩ :: (reads.map Event.read ++ _))
            = match (if wordAt x.m (x.packet + 4) = 0 then none
              else interface.ctrl.socket) with
            | none => []
            | some sock => _
          rw [attempts, List.filterMap_cons_none rfl, ← attempts, attempts_append,
            attempts_reads, List.nil_append]
          cases vs with
          | nil =>
              -- the first value is printed before anything is sent
              rw [if_pos ((no_values_iff henc hm).mpr rfl)]
              rfl
          | cons v vs =>
              rw [if_neg fun h => List.cons_ne_nil _ _ ((no_values_iff henc hm).mp h)]
              cases interface.ctrl.socket with
              | none => rfl
              | some sock => rfl

/-- **SENDS**: failures are the end and are reported, exactly if there are none. -/
theorem sendsChecked_iff : x.SendsChecked ↔ x.SendsSucceed := by
  have hnever : ¬ x.Warned := by
    rintro (h | h)
    · exact Nat.not_lt_zero _ (UInt32.lt_iff_toNat_lt.mp h)
    · exact Nat.not_lt_zero _ (UInt32.lt_iff_toNat_lt.mp h)
  rw [SendsChecked, SendsSucceed, attempts_result]
  cases x.resultSocket with
  | none =>
      refine ⟨fun _ => Or.inl rfl, fun _ before sock data ret after heq _ => ?_⟩
      exact absurd heq.symm (List.append_ne_nil_of_right_ne_nil _
        (List.cons_ne_nil _ _))
  | some sock =>
      constructor
      · intro h
        refine Or.inr ⟨fun h0 => ?_, fun h1 => ?_⟩
        · -- a failed length is followed by the packet, and not reported
          exact hnever (h [] sock _ _ [_] rfl h0).2
        · -- a failed packet is not reported
          exact hnever (h [_] sock _ _ [] rfl h1).2
      · rintro (hnone | ⟨h0, h1⟩) before sock' data ret after heq hret
        · exact nomatch hnone
        · have hmem : (sock', data, ret) ∈ before ++ (sock', data, ret) :: after :=
            List.mem_append.mpr (Or.inr List.mem_cons_self)
          rw [← heq] at hmem
          rcases List.mem_cons.mp hmem with hfirst | hsecond
          · cases hfirst
            exact absurd hret h0
          · cases List.mem_singleton.mp hsecond
            exact absurd hret h1

/-- The stream of the reply. -/
theorem answer_eq : x.answer = x.replyStream := by
  rw [answer, written_attempts, attempts_result, replyStream]
  cases hsocket : x.resultSocket with
  | none =>
      rw [if_neg fun h => nomatch h]
      rfl
  | some sock =>
      by_cases hsock : sock = x.host
      · rw [if_pos (congrArg some hsock)]
        simp only [List.flatMap_cons, List.flatMap_nil, List.append_nil, hsock,
          true_and, ite_not]
      · rw [if_neg fun h => hsock (Option.some.inj h)]
        simp only [List.flatMap_cons, List.flatMap_nil, List.append_nil, hsock,
          false_and, if_false]

/-- If no send fails, the reply arrives behind its length. -/
theorem replyStream_sent (hsocket : x.resultSocket = some x.host)
    (hsends : ∀ i, ¬ x.env.sendRet i < 0) (hlen : x.packetLength.toNat < 2 ^ 31) :
    x.replyStream = frame x.reply := by
  rw [replyStream, if_pos hsocket, if_neg (hsends 0), if_neg (hsends 1), iovLength,
    if_pos hlen, frame, reply, length_slice, UInt32.ofNat_toNat]

/-! ## The request -/

/-- What the caller does before it receives anything. -/
theorem caller_cases (incoming : List UInt8) :
    (x.caller.initSocket < 0 ∧ executeRemoteInterface x.caller x.sock incoming x.call
        = ⟨some x.caller.initSocket, x.call, []⟩)
      ∨ ¬ x.caller.initSocket < 0 ∧ x.caller.sendRet 0 < 0
        ∧ executeRemoteInterface x.caller x.sock incoming x.call
          = ⟨some (x.caller.sendRet 0), x.call,
              [.sendto x.sock (wordBytes (UInt32.ofNat x.request.length))
                (x.caller.sendRet 0)]⟩
      ∨ ¬ x.caller.initSocket < 0 ∧ ¬ x.caller.sendRet 0 < 0
        ∧ ¬ x.request.length < 2 ^ 31
        ∧ executeRemoteInterface x.caller x.sock incoming x.call
          = ⟨none, x.call,
              [.sendto x.sock (wordBytes (UInt32.ofNat x.request.length))
                (x.caller.sendRet 0)]⟩
      ∨ ¬ x.caller.initSocket < 0 ∧ ¬ x.caller.sendRet 0 < 0
        ∧ x.request.length < 2 ^ 31
        ∧ executeRemoteInterface x.caller x.sock incoming x.call
          = (if x.caller.sendRet 1 < 0 then ⟨some (x.caller.sendRet 1), x.call, []⟩
              else receiveResult x.caller (x.caller.sendRet 1) incoming
                x.call).after
              [.sendto x.sock (wordBytes (UInt32.ofNat x.request.length))
                  (x.caller.sendRet 0),
                .sendto x.sock x.request (x.caller.sendRet 1)] := by
  have hfour : (wordBytes (UInt32.ofNat x.request.length)).length < 2 ^ 31 := by
    rw [length_wordBytes]
    decide
  rw [executeRemoteInterface]
  by_cases hinit : x.caller.initSocket < 0
  · rw [if_pos hinit]
    exact Or.inl ⟨hinit, rfl⟩
  refine Or.inr ?_
  rw [if_neg hinit, run_getState_bind, run_orFault_some_bind x.serialized,
    run_bind_some (run_sendBlock x.sock hfour (x.caller.sendRet 0) x.call)]
  by_cases hfirst : x.caller.sendRet 0 < 0
  · rw [if_pos hfirst]
    exact Or.inl ⟨hinit, hfirst, rfl⟩
  refine Or.inr ?_
  rw [if_neg hfirst]
  by_cases hlen : x.request.length < 2 ^ 31
  · refine Or.inr ⟨hinit, hfirst, hlen, ?_⟩
    rw [run_bind_some (run_sendBlock x.sock hlen (x.caller.sendRet 1) x.call),
      run_ite, after_after]
    rfl
  · refine Or.inl ⟨hinit, hfirst, hlen, ?_⟩
    -- too long for one `kernel_sendmsg`
    rw [run_bind_none (run_sendBlock_fault (Or.inr hlen) _ _)]
    rfl

/-- The stream of the request. -/
theorem sent_eq : x.sent = x.requestStream := by
  rw [sent, requestStream]
  rcases x.caller_cases [] with ⟨hinit, hrun⟩ | ⟨hinit, hfirst, hrun⟩
    | ⟨hinit, hfirst, hlen, hrun⟩ | ⟨hinit, hfirst, hlen, hrun⟩
  · rw [hrun, if_pos (Or.inl hinit)]
    rfl
  · rw [hrun, if_pos (Or.inr hfirst), written_attempts]
    exact List.flatMap_eq_nil_iff.mpr fun a ha => by
      rw [List.mem_singleton.mp ha]
      exact if_neg fun h => h.2 hfirst
  · rw [hrun, if_neg (not_or.mpr ⟨hinit, hfirst⟩), if_neg fun h => hlen h.1]
    simp only [written, List.flatMap_cons, List.flatMap_nil, hfirst,
      not_false_eq_true, and_self, if_true]
  · rw [hrun, if_neg (not_or.mpr ⟨hinit, hfirst⟩), after_trace, written_append]
    by_cases hsecond : x.caller.sendRet 1 < 0
    · rw [if_pos hsecond, if_neg fun h => h.2 hsecond]
      simp only [written, List.flatMap_cons, List.flatMap_nil, List.append_nil,
        hfirst, hsecond, not_false_eq_true, not_true_eq_false, and_self, and_false,
        if_true, if_false]
    · rw [if_neg hsecond, if_pos ⟨hlen, hsecond⟩, written_receiveResult]
      simp only [written, List.flatMap_cons, List.flatMap_nil, List.append_nil,
        hfirst, hsecond, not_false_eq_true, and_self, if_true]

/-- If no send fails, the request arrives behind its length. -/
theorem requestStream_sent (hinit : ¬ x.caller.initSocket < 0)
    (hsends : ∀ i, ¬ x.caller.sendRet i < 0) (hlen : x.request.length < 2 ^ 31) :
    x.requestStream = frame x.request := by
  rw [requestStream, if_neg (not_or.mpr ⟨hinit, hsends 0⟩), if_pos ⟨hlen, hsends 1⟩]
  rfl

/-- **REQUESTS**: `execute_interface` gets the request or the failure is returned,
    exactly if the connection gives up or gets the request. -/
theorem requestFramed_iff : x.RequestFramed ↔ x.RequestWhole := by
  have hreported : x.received = none → ∀ env k, ∃ err,
      (handleConnection env x.getname x.receiver x.host x.sent k).ret = some err
        ∧ err < 0 := by
    intro hnone env k
    rw [received] at hnone
    rw [handleConnection]
    by_cases hname : x.getname < 0
    · -- the value `getname` fails with is what the caller gets
      rw [if_pos hname]
      exact ⟨x.getname, rfl, hname⟩
    · -- the connection ended before a size was there
      rw [if_neg hname] at hnone
      rw [if_neg hname, hnone]
      exact ⟨-EINVALIDSIZE, rfl, by decide⟩
  rw [RequestFramed, and_iff_left hreported, received, RequestWhole]
  by_cases hname : x.getname < 0
  · rw [if_pos hname]
    refine ⟨fun _ => Or.inl hname, fun _ buffer length hsome => ?_⟩
    cases hsome
  · rw [if_neg hname, or_iff_right hname, ← sent_eq]
    exact receiveFrame_exactly x.receiver_proper _ _ _

/-! ## The reply -/

theorem decoded_sent (hinit : ¬ x.caller.initSocket < 0)
    (hfirst : ¬ x.caller.sendRet 0 < 0) (hlen : x.request.length < 2 ^ 31)
    (hsecond : ¬ x.caller.sendRet 1 < 0) :
    x.decoded = receiveFrame x.caller.size x.caller.receiver x.answer := by
  refine if_neg ?_
  rintro (h | h | h | h)
  · exact hinit h
  · exact hfirst h
  · exact h hlen
  · exact hsecond h

/-- **REPLIES**: the caller decodes the reply or returns the failure, exactly if it
    has no connection, gives up or gets the reply. -/
theorem replyFramed_iff : x.ReplyFramed ↔ x.ReplyWhole := by
  -- where the caller returns before it receives, it decodes nothing
  have hearly : ∀ err, err < 0 → x.decoded = none →
      (executeRemoteInterface x.caller x.sock x.answer x.call).ret = some err →
        x.ReplyFramed := by
    intro err herr hnone hret
    rw [ReplyFramed, hnone, hret]
    exact ⟨(fun _ _ h => nomatch h), fun _ => ⟨err, rfl, herr⟩⟩
  rcases x.caller_cases x.answer with ⟨hinit, hrun⟩ | ⟨hinit, hfirst, hrun⟩
    | ⟨hinit, hfirst, hlen, hrun⟩ | ⟨hinit, hfirst, hlen, hrun⟩
  · have hnone : x.decoded = none := if_pos (Or.inl hinit)
    exact ⟨fun _ => Or.inl hinit, fun _ => hearly _ hinit hnone (by rw [hrun])⟩
  · have hnone : x.decoded = none := if_pos (Or.inr (Or.inl hfirst))
    exact ⟨fun _ => Or.inr (Or.inl hfirst), fun _ =>
      hearly _ hfirst hnone (by rw [hrun])⟩
  · -- the second send goes wrong, and there is no result
    have hnone : x.decoded = none := if_pos (Or.inr (Or.inr (Or.inl hlen)))
    rw [ReplyFramed, hnone, hrun, ReplyWhole, or_iff_right hinit,
      or_iff_right hfirst]
    constructor
    · rintro ⟨-, hreported⟩
      obtain ⟨err, hret, -⟩ := hreported rfl
      exact nomatch hret
    · rintro ⟨hlen', -⟩
      exact absurd hlen' hlen
  · by_cases hsecond : x.caller.sendRet 1 < 0
    · have hnone : x.decoded = none := if_pos (Or.inr (Or.inr (Or.inr hsecond)))
      exact ⟨fun _ => Or.inr (Or.inr ⟨hlen, Or.inl hsecond⟩), fun _ =>
        hearly _ hsecond hnone (by rw [hrun, if_pos hsecond]; rfl)⟩
    · have hdecoded := x.decoded_sent hinit hfirst hlen hsecond
      have hreported : receiveFrame x.caller.size x.caller.receiver x.answer = none →
          ∃ err, (executeRemoteInterface x.caller x.sock x.answer x.call).ret
            = some err ∧ err < 0 := by
        intro hnone
        rw [hrun, if_neg hsecond, after_ret, receiveResult, hnone]
        exact ⟨-EINVALIDSIZE, rfl, by decide⟩
      rw [ReplyFramed, hdecoded, and_iff_left hreported, ReplyWhole,
        or_iff_right hinit, or_iff_right hfirst, and_iff_right hlen,
        or_iff_right hsecond, ← answer_eq]
      exact receiveFrame_exactly_and x.caller_proper _ _ _ _

/-- **FRAMING** holds for an exchange exactly if the request and the reply come
    whole, where they are not given up, and no send of the reply fails. -/
theorem framing_iff :
    x.RequestFramed ∧ x.ReplyFramed ∧ x.SendsChecked
      ↔ x.RequestWhole ∧ x.ReplyWhole ∧ x.SendsSucceed := by
  rw [requestFramed_iff, replyFramed_iff, sendsChecked_iff]

/-! ## An exchange -/

/-- The packet with the id 1 and no arguments. -/
theorem serialize_bare : Kernel.serializeRpcPacket 1 0 [] = some (rpcEncoding 1 []) :=
  Kernel.serializeRpcPacket_ok rfl (fun _ h => nomatch h) (by decide)

theorem fine_proper (behind : Mem) : (Receiver.fine behind).Proper :=
  fun _ _ h => nomatch h

/-- A receiver that gets at most `n` bytes a time. -/
def atMost (n : Nat) : Receiver := ⟨fun _ => .upTo n, true, fun _ => 0⟩

theorem atMost_proper (n : Nat) : (atMost n).Proper := fun _ _ h => nomatch h

/-- A call of interface 1 and its result.  The server gets the request in pieces of
    `n` bytes, and nothing else goes wrong. -/
def inPieces (n : Nat) : Exchange where
  caller := ⟨0, fun _ => 0, .fine fun _ => 0, fun _ => 0⟩
  call := ⟨1, 0, [], 1, none⟩
  request := rpcEncoding 1 []
  sock := 3
  getname := 0
  receiver := atMost n
  host := 5
  env := .fine
  m := overlay (rpcEncoding 1 [[42]]) fun _ => 0
  packet := 0
  packetLength := 13
  portid := 9
  registry := .sole ((UserInterface.bare.registered 1 7 none).setSocket (some 5))
  serialized := serialize_bare
  caller_proper := fine_proper _
  receiver_proper := atMost_proper n

theorem inPieces_requestStream (n : Nat) :
    (inPieces n).requestStream = frame (rpcEncoding 1 []) := by
  have hlen : (rpcEncoding 1 []).length < 2 ^ 31 := by decide
  exact (inPieces n).requestStream_sent zero_not_neg (fun _ => zero_not_neg) hlen

/-- The server gets the request if it comes in one piece, or in pieces that are too
    short for its length. -/
theorem inPieces_requestWhole {n : Nat} (hn : 4 ≤ n) :
    (inPieces n).RequestWhole ↔ 8 ≤ n := by
  have hlen : (rpcEncoding 1 []).length = 8 := by decide
  -- the length arrives in the first piece
  have hkept : ¬ (inPieces n).receiver.GivesUp (fun _ => 0)
      (frame (rpcEncoding 1 [])) := by
    rintro (hsize | halloc)
    · rw [((inPieces n).receiver.whole_length rfl hn _ _).1, hlen] at hsize
      exact absurd hsize (by decide)
    · exact nomatch halloc
  rw [RequestWhole, or_iff_right (show ¬ (inPieces n).getname < 0 from zero_not_neg),
    inPieces_requestStream, or_iff_right hkept]
  refine (Receiver.gets_iff rfl hn _ (by decide)).trans ⟨?_, fun hle => ?_⟩
  · rintro ⟨n', hn', hle⟩
    cases hn'
    rw [hlen] at hle
    exact hle
  · exact ⟨n, rfl, by rw [hlen]; exact hle⟩

theorem inPieces_resultSocket (n : Nat) : (inPieces n).resultSocket = some 5 := by
  have hm := holds_overlay (rpcEncoding 1 [[42]]) fun _ => 0
  have hid : wordAt (inPieces n).m (inPieces n).packet = 1 :=
    wordAt_of_holds (holds_append.mp hm).1
  have hcount : ¬ wordAt (inPieces n).m ((inPieces n).packet + 4) = 0 := by
    intro hzero
    have henc : Encodable [[42]] := ⟨by decide, by decide⟩
    exact List.cons_ne_nil _ _ ((no_values_iff henc hm).mp hzero)
  have hfound : (inPieces n).registry.findInterface (1 : UInt32).toInt32
      = some (some (0, (UserInterface.bare.registered 1 7 none).setSocket (some 5))) :=
    findInterface_sole _
  rw [resultSocket, hid, hfound]
  exact if_neg hcount

theorem inPieces_replyWhole (n : Nat) : (inPieces n).ReplyWhole := by
  have hlen : (inPieces n).reply.length = 13 := length_slice _ _ _
  have hrequest : (rpcEncoding 1 []).length < 2 ^ 31 := by decide
  have hsize : (13 : UInt32).toNat < 2 ^ 31 := by decide
  have hstream := (inPieces n).replyStream_sent (inPieces_resultSocket n)
    (fun _ => zero_not_neg) hsize
  refine Or.inr (Or.inr ⟨hrequest, Or.inr (Or.inr
    ⟨⟨inPieces_resultSocket n, zero_not_neg⟩, ?_⟩)⟩)
  rw [hstream]
  exact (Receiver.gets_iff rfl (by decide) _ (by rw [hlen]; decide)).mpr
    ⟨2 ^ 31, rfl, by rw [hlen]; decide⟩

/-- **PIECES**: the exchange is framed if the request comes in one piece. -/
theorem inPieces_framed {n : Nat} (hn : 8 ≤ n) : (inPieces n).RequestFramed
    ∧ (inPieces n).ReplyFramed ∧ (inPieces n).SendsChecked := by
  exact ⟨(requestFramed_iff _).mpr ((inPieces_requestWhole (by omega)).mpr hn),
    (replyFramed_iff _).mpr (inPieces_replyWhole n),
    (sendsChecked_iff _).mpr (Or.inr ⟨zero_not_neg, zero_not_neg⟩)⟩

/-- In two pieces of four bytes it is not: `execute_interface` is called with the
    first one. -/
theorem split_request_not_framed : ¬ ((inPieces 4).RequestFramed
    ∧ (inPieces 4).ReplyFramed ∧ (inPieces 4).SendsChecked) := by
  rintro ⟨h, -⟩
  have hle := (inPieces_requestWhole (Nat.le_refl 4)).mp ((requestFramed_iff _).mp h)
  exact absurd hle (by decide)

end Exchange

end DistComm
