import DistComm.HandleRpc
import DistComm.NetlinkBounds

/-! # Remote calls

    `execute_remote_interface` of `module/network/peer.c`, and the whole way of a
    call: the caller's request over a connection to the serving kernel, as a
    netlink message to the process, the results as a netlink message back to the
    kernel, and over the connection to the caller.

    The kernel counts the header and the padding of the netlink message when it
    forwards a result, so that the caller gets 16 to 19 more bytes behind it, most
    of them kernel memory.  Its decoder does not look at them, and the call returns
    what the callback computes (`remote_call_is_local_call`). -/

namespace DistComm

open RawMemory RawScan PointerArray TracedProgram

/-! ## The caller -/

/-- The fields of the `interface_t` that `execute_remote_interface` is given. -/
structure RemoteInterface where
  id : UInt32
  argc : UInt32
  argv : List AttrValue
  retc : UInt32
  retv : Option (List AttrValue)
  deriving DecidableEq

/-- What the calls of `execute_remote_interface` return; `size` is what its
    variable of this name holds before. -/
structure CallEnv where
  initSocket : Int32
  sendRet : Nat → Int32
  receiver : Receiver
  size : Mem

/-- `execute_remote_interface` from the receive on. -/
def receiveResult (c : CallEnv) (err : Int32) (incoming : List UInt8) :
    Traced RemoteInterface Event Int32 :=
  match receiveFrame c.size c.receiver incoming with
  | none => pure (-EINVALIDSIZE)
  | some (buffer, length) => do
      let decoded ← readPacket (Kernel.unserializeRpcPacket length) buffer 0
      let interface ← getState
      putState { interface with retc := decoded.1, retv := some decoded.2 }
      pure err

/-- `execute_remote_interface` over the connected socket `sock`, from which
    `incoming` will arrive. -/
def executeRemoteInterface (c : CallEnv) (sock : SockId)
    (incoming : List UInt8) : Traced RemoteInterface Event Int32 :=
  if c.initSocket < 0 then pure c.initSocket
  else do
    let interface ← getState
    let packet ← orFault
      (Kernel.serializeRpcPacket interface.id interface.argc interface.argv)
    let err ← sendBlock (some sock) (wordBytes (UInt32.ofNat packet.length))
      (c.sendRet 0)
    if err < 0 then pure err
    else do
      let err ← sendBlock (some sock) packet (c.sendRet 1)
      if err < 0 then pure err
      else receiveResult c err incoming

/-! ## The serving host -/

/-- The netlink messages that reach the process with the given port. -/
def delivered (portid : UInt32) (t : List Event) : List (List UInt8) :=
  t.filterMap fun
    | .unicast port message ret =>
        if port = portid ∧ ¬ ret < 0 then some message else none
    | _ => none

/-- The bytes that successful sends wrote to a socket. -/
def written (sock : SockId) (t : List Event) : List UInt8 :=
  t.flatMap fun
    | .sendto s data ret => if s = sock ∧ ¬ ret < 0 then data else []
    | _ => []

/-- The kernel receives netlink messages, one after the other. -/
def handleMessages (env : Env) (behind : Mem) :
    List (List UInt8) → Traced Registry Event Unit
  | [] => pure ()
  | message :: rest => do
      handleNetlinkIncome env (overlay message behind)
      handleMessages env behind rest

/-- A connection of the serving host, the process its requests are for, and what
    the calls on the way return; `behind` is the kernel's memory behind a netlink
    message. -/
structure Host where
  env : Env
  getname : Int32
  receiver : Receiver
  sock : SockId
  process : Process
  left : Leftovers
  resultEnv : Env
  behind : Mem

/-- What the host writes to the connection once it has received `incoming` from
    it: the kernel forwards the request, the process answers, and the kernel
    forwards the result. -/
def Host.serve (h : Host) (incoming : List UInt8) (k : Registry) : List UInt8 :=
  let connected := handleConnection h.env h.getname h.receiver h.sock incoming k
  let results := (delivered h.process.portid connected.trace).flatMap
    fun message => messages (handleRpc h.process h.left (some message) ()).trace
  written h.sock
    (handleMessages h.resultEnv h.behind results connected.state).trace

/-! ## The result on its way back -/

theorem written_append (sock : SockId) (s t : List Event) :
    written sock (s ++ t) = written sock s ++ written sock t :=
  List.flatMap_append

theorem written_reads (sock : SockId) (reads : List Span) :
    written sock (reads.map Event.read) = [] := by
  rw [written, List.flatMap_map]
  exact List.flatMap_eq_nil_iff.mpr fun _ _ => rfl

/-- The result of an interface that is registered: the registry stays as it is,
    and what is sent is what `handle_interface_result` sends. -/
theorem handleNetlinkIncome_result {k : Registry} {m : Mem}
    (htype : m 16 = INCOME_RESULT) {p : Nat} {x : Interface}
    (hfound : k.findInterface (wordAt m 17).toInt32 = some (some (p, x)))
    {id : UInt32} {vs : List (List UInt8)} (henc : Encodable vs)
    (hm : Holds m 17 (rpcEncoding id vs)) (env : Env) :
    ∃ reads : List Span, handleNetlinkIncome env m k
      = ⟨resultRet vs, k, reads.map Event.read
          ++ resultEvents env m 17 (wordAt m 0 - 1) x.ctrl.socket vs⟩ := by
  obtain ⟨reads, -, hrun⟩ := handleInterfaceResult_found hfound henc hm env
    (wordAt m 0 - 1) (wordAt m 12)
  rw [handleNetlinkIncome_isResult htype, hrun]
  exact ⟨⟨0, 4⟩ :: ⟨12, 4⟩ :: ⟨16, 1⟩ :: ⟨17, 4⟩ :: reads, rfl⟩

/-- **RESULT TO THE CONNECTION**: the results in the library's message, for an
    interface whose socket is set, are written to this socket behind a length that
    goes on past them. -/
theorem result_written {k : Registry} {p : Nat} {x : Interface} {id : UInt32}
    (hfound : k.findInterface id.toInt32 = some (some (p, x))) {sock : SockId}
    (hsock : x.ctrl.socket = some sock) {v : List UInt8}
    {vs : List (List UInt8)}
    (hlen : (rpcEncoding id (v :: vs)).length < 2 ^ 30) {portid : UInt32}
    {message : List UInt8}
    (hsent : Lib.netlinkSendtoKern portid INCOME_RESULT (rpcEncoding id (v :: vs))
      (UInt32.ofNat (rpcEncoding id (v :: vs)).length) = some message)
    {env : Env} (hsends : ∀ i, ¬ env.sendRet i < 0) (behind : Mem) :
    ∃ reply, rpcEncoding id (v :: vs) <+: reply ∧ reply.length < 2 ^ 31
      ∧ written sock (handleMessages env behind [message] k).trace
        = frame reply := by
  have hword : (UInt32.ofNat (rpcEncoding id (v :: vs)).length).toNat
      = (rpcEncoding id (v :: vs)).length :=
    UInt32.toNat_ofNat_of_lt' (Nat.lt_trans hlen (by decide))
  have henc : Encodable (v :: vs) :=
    @encodable_of_length id (v :: vs) (Nat.lt_trans hlen (by decide))
  obtain ⟨-, htype, -, hbody, -, hm⟩ := netlinkIncome_of_sent hword hsent behind
  -- from here on only what the message holds is used
  generalize hmem : overlay message behind = m at htype hbody hm
  replace htype : m 16 = INCOME_RESULT := htype
  replace hbody : (wordAt m 0 - 1).toNat
    = ((rpcEncoding id (v :: vs)).length + 20) / 4 * 4 - 1 := hbody
  have hid : wordAt m 17 = id := wordAt_of_holds (holds_append.mp hm).1
  obtain ⟨reads, hrun⟩ := handleNetlinkIncome_result htype
    (by rw [hid]; exact hfound) henc hm env
  have hiov : iovLength (wordAt m 0 - 1) = (wordAt m 0 - 1).toNat := by
    rw [iovLength, if_pos (by omega)]
  refine ⟨slice m 17 (wordAt m 0 - 1).toNat, hm.prefix_slice (by omega),
    by rw [length_slice]; omega, ?_⟩
  have hall : handleMessages env behind [message] k = ⟨some (), k,
      reads.map Event.read ++ (.print (some (decodedValue .null v))
        :: sendEvents env m 17 (wordAt m 0 - 1) (some sock)) ++ []⟩ := by
    rw [handleMessages, hmem, run_bind_some (hrun.trans (by rw [hsock]; rfl))]
    rfl
  rw [hall, List.append_nil, written_append, written_reads, sendEvents, hiov]
  simp only [written, List.flatMap_cons, List.flatMap_nil, List.nil_append,
    List.append_nil, hsends, not_false_eq_true, and_self, if_true]
  rw [frame, length_slice, UInt32.ofNat_toNat]

/-! ## The request on its way -/

/-- The host serves `x`: it is registered under its id, activated by the process,
    and managed there with the same numbers of arguments and results. -/
structure Host.Serves (h : Host) (k : Registry) (x : Interface)
    (interface : Managed) : Prop where
  registered : ∃ p, k.findInterface x.id.toInt32 = some (some (p, x))
  id_ne_zero : x.id ≠ 0
  activated : x.ctrl.activated = 1
  port : x.ctrl.clientPortid = h.process.portid
  managed : h.process.findInterface x.id.toInt32 = some (some interface)
  argc : interface.argc = x.argc
  retc : interface.retc = x.retc

/-- The host's sockets and its netlink socket deliver, and its allocations
    succeed. -/
structure Host.Delivers (h : Host) : Prop where
  getname : ¬ h.getname < 0
  receiver : h.receiver.Reliable
  skbAlloc : h.env.skbAlloc = true
  unicast : ¬ h.env.unicastRet < 0
  sends : ∀ i, ¬ h.resultEnv.sendRet i < 0

/-- Replacing the socket of an interface keeps it registered. -/
theorem findInterface_setSocket {k : Registry} {id : UInt32} {p : Nat}
    {x : Interface} (hfound : k.findInterface id.toInt32 = some (some (p, x)))
    (sock : Option SockId) :
    (k.assign p (x.setSocket sock)).findInterface id.toInt32
      = some (some (p, x.setSocket sock)) := by
  rw [@findInterface_assign k p x (x.setSocket sock)
    (findInterface_hit hfound).1 rfl, hfound, Option.map_some, Option.map_some,
    if_pos rfl]

/-- What a forwarded request leaves for the process. -/
theorem delivered_forward {env : Env} (halloc : env.skbAlloc = true)
    (hunicast : ¬ env.unicastRet < 0) (x : Interface) (packet : List UInt8)
    (behind : Mem) (hlen : packet.length < 2 ^ 32) :
    delivered x.ctrl.clientPortid (.read ⟨0, 4⟩ :: forwardEvents env
      (overlay packet behind) (UInt32.ofNat packet.length) x)
      = [userMessage packet (UInt32.ofNat packet.length)] := by
  rw [forwardEvents, if_neg (by rw [halloc]; exact Bool.noConfusion),
    slice_packet hlen]
  simp only [delivered, List.filterMap_cons, List.filterMap_nil, hunicast,
    not_false_eq_true, and_self, if_true]

/-- **THE HOST** answers a request for an interface that it serves with the results
    of the callback, and with bytes that nobody asked for behind them. -/
theorem Host.serve_results {h : Host} {k : Registry} {x : Interface}
    {interface : Managed} (hserves : h.Serves k x interface)
    (hhost : h.Delivers) {args results : List (List UInt8)}
    (hshort : (rpcEncoding x.id args).length ≤ MAX_PAYLOAD.toNat)
    (hargc : x.argc.toNat = args.length)
    (hcall : Computes interface.callback args results)
    (hretc : x.retc.toNat = results.length) (hpos : 0 < results.length)
    (hlen : (rpcEncoding x.id results).length < 2 ^ 30) :
    ∃ reply, rpcEncoding x.id results <+: reply ∧ reply.length < 2 ^ 31
      ∧ h.serve (frame (rpcEncoding x.id args)) k = frame reply := by
  obtain ⟨p, hfound⟩ := hserves.registered
  have hmax : MAX_PAYLOAD.toNat = 512 := rfl
  obtain ⟨behind, hconnected⟩ := @handleConnection_found h.env _ _ hhost.getname
    hhost.receiver _ args (by omega) hserves.id_ne_zero _ _ _ hfound h.sock
  have hmessages := delivered_forward hhost.skbAlloc hhost.unicast x
    (rpcEncoding x.id args) behind (by omega)
  rw [hserves.port] at hmessages
  obtain ⟨argv, message, -, hsent, hround⟩ := handleRpc_answers h.left
    hserves.managed hshort (by rw [hserves.argc]; exact hargc) hcall
    (by rw [hserves.retc]; exact hretc) hlen
  cases results with
  | nil => exact absurd hpos (Nat.lt_irrefl 0)
  | cons v vs =>
      -- the connection is the socket that the request stored in `ctrl`
      obtain ⟨reply, hpre, hsmall, hwritten⟩ := result_written
        (findInterface_setSocket hfound (some h.sock)) rfl hlen hsent
        hhost.sends h.behind
      refine ⟨reply, hpre, hsmall, ?_⟩
      rw [Host.serve, hconnected, ← hwritten]
      show written _ (handleMessages _ _ ((delivered _ _).flatMap _) _).trace = _
      rw [hmessages, List.flatMap_cons, hround]
      rfl

/-! ## The whole call -/

/-- The caller's sockets deliver, and its allocations succeed. -/
structure CallEnv.Delivers (c : CallEnv) : Prop where
  initSocket : ¬ c.initSocket < 0
  sends : ∀ i, ¬ c.sendRet i < 0
  receiver : c.receiver.Reliable

/-- The caller writes its request before it waits for anything. -/
theorem executeRemoteInterface_run {c : CallEnv} (hc : c.Delivers)
    {call : RemoteInterface} {packet : List UInt8}
    (hpacket : Kernel.serializeRpcPacket call.id call.argc call.argv = some packet)
    (hlen : packet.length < 2 ^ 31) (sock : SockId) (incoming : List UInt8) :
    executeRemoteInterface c sock incoming call
      = (receiveResult c (c.sendRet 1) incoming call).after
          [.sendto sock (wordBytes (UInt32.ofNat packet.length)) (c.sendRet 0),
            .sendto sock packet (c.sendRet 1)] := by
  have hfour : (wordBytes (UInt32.ofNat packet.length)).length < 2 ^ 31 := by
    rw [length_wordBytes]
    decide
  -- both frames are sent, so the call goes on to wait for the answer
  rw [executeRemoteInterface, if_neg hc.initSocket, run_getState_bind,
    run_orFault_some_bind hpacket,
    run_bind_some (run_sendBlock sock hfour (c.sendRet 0) call),
    if_neg (hc.sends 0), run_bind_some (run_sendBlock sock hlen (c.sendRet 1) call),
    if_neg (hc.sends 1), after_after]
  rfl

theorem written_receiveResult (c : CallEnv) (err : Int32)
    (incoming : List UInt8) (call : RemoteInterface) (sock : SockId) :
    written sock (receiveResult c err incoming call).trace = [] := by
  rw [receiveResult]
  cases receiveFrame c.size c.receiver incoming with
  | none => rfl
  | some received =>
      show written sock ((Kernel.unserializeRpcPacket received.2 received.1
        0).reads.map Event.read ++ []) = []
      rw [List.append_nil, written_reads]

theorem written_executeRemoteInterface {c : CallEnv} (hc : c.Delivers)
    {call : RemoteInterface} {packet : List UInt8}
    (hpacket : Kernel.serializeRpcPacket call.id call.argc call.argv = some packet)
    (hlen : packet.length < 2 ^ 31) (sock : SockId) (incoming : List UInt8) :
    written sock (executeRemoteInterface c sock incoming call).trace
      = frame packet := by
  rw [executeRemoteInterface_run hc hpacket hlen, after_trace, written_append,
    written_receiveResult, List.append_nil]
  simp only [written, List.flatMap_cons, List.flatMap_nil, List.append_nil,
    hc.sends, not_false_eq_true, and_self, if_true]
  rfl

/-- The caller decodes the results, whatever comes behind them. -/
theorem receiveResult_results {c : CallEnv} (hc : c.Delivers) (err : Int32)
    {id : UInt32} {results : List (List UInt8)} (henc : Encodable results)
    {reply : List UInt8} (hpre : rpcEncoding id results <+: reply)
    (hlen : reply.length < 2 ^ 31) (call : RemoteInterface) :
    (receiveResult c err (frame reply) call).ret = some err
      ∧ (receiveResult c err (frame reply) call).state
        = { call with
            retc := UInt32.ofNat results.length
            retv := some (valuesFrom (fun _ => decodedValue .null) 0 results) } := by
  have hpos : 0 < reply.length := by
    have hle := hpre.length_le
    rw [length_rpcEncoding] at hle
    omega
  obtain ⟨behind, hframe⟩ := hc.receiver.receiveFrame c.size hpos hlen
  have hval := Kernel.unserializeRpcPacket_val henc
    (holds_overlay_of_isPrefix hpre behind) (UInt32.ofNat reply.length)
  rw [receiveResult, hframe]
  refine ⟨rfl, ?_⟩
  show ({ call with
    retc := (Kernel.unserializeRpcPacket _ _ 0).val.1
    retv := some (Kernel.unserializeRpcPacket _ _ 0).val.2 } : RemoteInterface) = _
  rw [hval]

/-- The outcome of a call to a host: the caller writes its request, and gets what
    the host writes once it has received this request. -/
def remoteCall (c : CallEnv) (sock : SockId) (h : Host) (k : Registry)
    (call : RemoteInterface) : Outcome RemoteInterface Event Int32 :=
  let request := written sock (executeRemoteInterface c sock [] call).trace
  executeRemoteInterface c sock (h.serve request k) call

/-- **A REMOTE CALL IS A LOCAL CALL**: the caller ends with the number of results
    and the results that the callback computes from its arguments. -/
theorem remote_call_is_local_call {c : CallEnv} (hc : c.Delivers) {h : Host}
    (hhost : h.Delivers) {k : Registry} {x : Interface} {interface : Managed}
    (hserves : h.Serves k x interface)
    {call : RemoteInterface} (hid : call.id = x.id) (hargc : call.argc = x.argc)
    (hargv : call.argv.length = call.argc.toNat)
    (hvalid : ∀ v ∈ call.argv, v.Valid)
    (hrequest : (rpcEncoding call.id (call.argv.map AttrValue.value)).length
      ≤ MAX_PAYLOAD.toNat)
    (f : List (List UInt8) → List (List UInt8))
    (hcall : Computes interface.callback (call.argv.map AttrValue.value)
      (f (call.argv.map AttrValue.value)))
    (hretc : (f (call.argv.map AttrValue.value)).length = x.retc.toNat)
    (hpos : 1 ≤ x.retc.toNat)
    (hresult : (rpcEncoding x.id (f (call.argv.map AttrValue.value))).length
      < 2 ^ 30) (sock : SockId) :
    let done := remoteCall c sock h k call
    done.ret = some (c.sendRet 1) ∧ done.state.retc = x.retc
      ∧ ∃ retv, done.state.retv = some retv
          ∧ retv.map AttrValue.value = f (call.argv.map AttrValue.value) := by
  have hmax : MAX_PAYLOAD.toNat = 512 := rfl
  have hgrow : BUFFER_INC_SIZE.toNat = 65536 := rfl
  -- values in a request of `MAX_PAYLOAD` bytes fit the send buffer
  have hsend : ∀ v ∈ call.argv, Sendable v := by
    intro v hv
    refine ⟨hvalid v hv, ?_⟩
    have hle := length_mem_flatMap_encodeValue
      (List.mem_map_of_mem (f := AttrValue.value) hv)
    rw [AttrValue.length_value (hvalid v hv)] at hle
    rw [length_rpcEncoding] at hrequest
    omega
  have hpacket := @Kernel.serializeRpcPacket_ok call.id call.argc call.argv
    hargv.symm hsend (by omega)
  rw [hid] at hpacket hrequest
  obtain ⟨reply, hpre, hlen, hreply⟩ := Host.serve_results hserves hhost hrequest
    (by rw [← hargc, ← hargv, List.length_map]) hcall hretc.symm (by omega) hresult
  have henc : Encodable (f (call.argv.map AttrValue.value)) :=
    @encodable_of_length x.id _ (Nat.lt_trans hresult (by decide))
  have hcount : UInt32.ofNat (f (call.argv.map AttrValue.value)).length
      = x.retc := by
    rw [hretc, UInt32.ofNat_toNat]
  intro done
  -- the request is written before the answer is read, so it does not depend on it
  have hdone : done = executeRemoteInterface c sock (frame reply) call := by
    show executeRemoteInterface c sock (h.serve (written sock
      (executeRemoteInterface c sock [] call).trace) k) call = _
    rw [written_executeRemoteInterface hc (by rw [hid]; exact hpacket) (by omega),
      hreply]
  obtain ⟨hret, hstate⟩ := receiveResult_results hc (c.sendRet 1) henc hpre hlen
    call
  rw [hdone, executeRemoteInterface_run hc (by rw [hid]; exact hpacket) (by omega),
    after_ret, after_state, hret, hstate]
  exact ⟨rfl, hcount, _, rfl, map_value_valuesFrom (fun _ => .null) henc⟩

/-! ## A call -/

/-- The interface of a process that takes no arguments and answers with one
    result. -/
def UserInterface.answering : UserInterface :=
  { UserInterface.bare with
    retc := 1
    retInfo := [⟨.empty, .empty⟩]
    retInfo_length := rfl }

/-- The same in the process, with the result 42. -/
def Managed.answering : Managed :=
  ⟨1, 0, 1, fun _ _ => (0, [AttrValue.ofBytes [42]])⟩

/-- A host that serves this interface, with ones behind every message. -/
def Host.answering : Host :=
  ⟨.fine, 0, .fine fun _ => 1, 5, ⟨9, [.answering]⟩,
    ⟨fun _ => .null, fun _ => 0, fun _ => 0⟩, .fine, fun _ => 1⟩

theorem remote_call_is_local_call_answering :
    ∃ retv, (remoteCall ⟨0, fun _ => 0, .fine fun _ => 0, fun _ => 0⟩ 3 .answering
        (.sole ((UserInterface.answering.registered 1 7 none).activate 9))
        ⟨1, 0, [], 1, none⟩).state.retv = some retv
      ∧ retv.map AttrValue.value = [[42]] := by
  obtain ⟨-, -, hretv⟩ := @remote_call_is_local_call
    ⟨0, fun _ => 0, .fine fun _ => 0, fun _ => 0⟩
    ⟨zero_not_neg, fun _ => zero_not_neg, Receiver.fine_reliable _⟩ .answering
    ⟨zero_not_neg, Receiver.fine_reliable _, rfl, zero_not_neg, fun _ => zero_not_neg⟩
    (.sole ((UserInterface.answering.registered 1 7 none).activate 9))
    _ .answering
    ⟨⟨0, findInterface_sole _⟩, by decide, rfl, rfl, rfl, rfl, rfl⟩
    ⟨1, 0, [], 1, none⟩ rfl rfl rfl (fun _ h => nomatch h) (by decide)
    (fun _ => [[42]])
    (fun _ _ _ => ⟨zero_not_neg, rfl, fun v hv => by
      rw [List.mem_singleton.mp hv]
      exact ⟨AttrValue.valid_ofBytes _, by decide⟩⟩)
    rfl (by decide) (by decide) 3
  exact hretv

end DistComm
