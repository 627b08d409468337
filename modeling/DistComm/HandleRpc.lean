import DistComm.Connection

/-! # The loop of a process

    `handle_rpc` of `lib/src/interface.c`: one round receives a packet from the
    kernel, calls the callback of the interface it is for, and sends the results
    back.  What the callbacks do is a parameter, as is what `malloc` and the stack
    hold before. -/

namespace DistComm

open RawMemory RawScan PointerArray TracedProgram

/-- A callback: from the arguments and the array of results, as it was set up, to
    its return value and the array as it leaves it. -/
abbrev Callback := List AttrValue → List AttrValue → Int32 × List AttrValue

/-- An interface that a process manages. -/
structure Managed where
  id : UInt32
  argc : UInt32
  retc : UInt32
  callback : Callback

/-- A process in `handle_rpc`: its port, and `managed_interfaces`. -/
structure Process where
  portid : UInt32
  managed : List Managed

/-- What the memory of a process holds: the blocks `malloc` returns, the array
    `netlink_recvfrom_kern` receives into, and what lies behind `packet`. -/
structure Leftovers where
  heap : Nat → Ptr
  stack : Mem
  behind : Mem

/-- What a round does: a call of a callback, a call of `sendmsg` with a message to the
    kernel. -/
inductive RpcEvent where
  | call (id : UInt32) (argv : List AttrValue)
  | send (message : List UInt8)

/-- The messages to the kernel. -/
def messages (t : List RpcEvent) : List (List UInt8) :=
  t.filterMap fun
    | .call _ _ => none
    | .send message => some message

/-- `find_interface(managed_interfaces, count, id)` of the library. -/
def Process.findInterface (p : Process) (id : Int32) :
    Option (Option Managed) :=
  (DistComm.findInterface (fun i => p.managed[i]?) Managed.id
    (UInt32.ofNat p.managed.length).toInt32 id).map fun found =>
      found.map Hit.val

/-- The round from the results on.  The code only prints what `sendmsg` returns; `send`
    is its call, which is taken to accept the message. -/
def sendBack (p : Process) (id retc : UInt32) (retv : List AttrValue) :
    Traced Unit RpcEvent Unit := do
  let retBuffer ← orFault (Lib.serializeRpcPacket id.toInt32 retc.toInt32 retv)
  let message ← orFault (Lib.netlinkSendtoKern p.portid INCOME_RESULT retBuffer
    (UInt32.ofNat retBuffer.length))
  emit (.send message)

/-- The round from the call of the callback on. -/
def callInterface (p : Process) (id : UInt32) (interface : Managed)
    (argv : List AttrValue) : Traced Unit RpcEvent Unit := do
  let retv := List.replicate interface.retc.toNat ⟨-1, .null⟩
  emit (.call interface.id argv)
  let called := interface.callback argv retv
  if called.1 < 0 then pure ()
  else sendBack p id interface.retc called.2

/-- The round from the lookup on. -/
def selectInterface (p : Process) (heap : Nat → Ptr) (packet : Mem)
    (packetLength : UInt32) : Option Managed → Traced Unit RpcEvent Unit
  | none => pure ()
  | some interface =>
      -- the id, the number of arguments, and the arguments
      let decoded := (Lib.unserializeRpcPacket heap packetLength packet 0).val
      if interface.argc ≠ decoded.2.1 then pure ()
      else callInterface p decoded.1 interface decoded.2.2

/-- The value of `netlink_recvfrom_kern` as the `uint32_t` it is assigned to. -/
def recvLength : Option (List UInt8) → UInt32
  | none => -1
  | some data => UInt32.ofNat data.length

/-- The content of `packet` after `netlink_recvfrom_kern` returned. -/
def receivedPacket (left : Leftovers) (data : Option (List UInt8)) : Mem :=
  store (data.getD []) (store (List.replicate MAX_PAYLOAD.toNat 0) left.behind)

/-- After an error the packet is zeroed. -/
theorem receivedPacket_none (left : Leftovers) : receivedPacket left none
    = store (List.replicate MAX_PAYLOAD.toNat 0) left.behind :=
  store_nil _

/-- The round from the receive on.  The length is unsigned, so that its check
    catches an empty packet only; after an error the round goes on with the zeroed
    one. -/
def handlePacket (p : Process) (left : Leftovers) (data : Option (List UInt8)) :
    Traced Unit RpcEvent Unit :=
  if recvLength data = 0 then pure ()
  else do
    let packet := receivedPacket left data
    let found ← orFault (p.findInterface (interfaceId packet 0).val)
    selectInterface p left.heap packet (recvLength data) found

/-- One round of `handle_rpc`. -/
def handleRpc (p : Process) (left : Leftovers) (received : Option (List UInt8)) :
    Traced Unit RpcEvent Unit :=
  handlePacket p left (Lib.netlinkRecvfromKern left.stack received MAX_PAYLOAD)

/-- A forwarded packet is received whole, or not at all. -/
theorem handleRpc_userMessage (p : Process) (left : Leftovers)
    {data : List UInt8} {size : UInt32} (hsize : size.toNat = data.length) :
    handleRpc p left (some (userMessage data size))
      = handlePacket p left (if size ≤ MAX_PAYLOAD then some data else none) := by
  rw [handleRpc, netlinkRecvfromKern_userMessage left.stack hsize (by decide)]

/-! ## Rounds -/

/-- The argument array that the decoder leaves. -/
def decodedArgs (heap : Nat → Ptr) (args : List (List UInt8)) : List AttrValue :=
  valuesFrom (fun i => decodedValue (heap i)) 0 args

/-- After an error the id that is read is 0. -/
theorem interfaceId_none (left : Leftovers) :
    (interfaceId (receivedPacket left none) 0).val = 0 := by
  have hmax : MAX_PAYLOAD.toNat = 4 + 508 := rfl
  have hz : Holds (receivedPacket left none) 0
      (wordBytes 0 ++ List.replicate 508 0) := by
    rw [receivedPacket_none, hmax, List.replicate_add]
    exact holds_store _ _
  show (wordAt (receivedPacket left none) 0).toInt32 = 0
  rw [wordAt_of_holds (holds_append.mp hz).1]
  rfl

/-- A round on a forwarded request that can be received looks its id up. -/
theorem handleRpc_lookup (p : Process) (left : Leftovers) {id : UInt32}
    {args : List (List UInt8)}
    (hshort : (rpcEncoding id args).length ≤ MAX_PAYLOAD.toNat) :
    handleRpc p left (some (userMessage (rpcEncoding id args)
        (UInt32.ofNat (rpcEncoding id args).length))) ()
      = (do
          let found ← orFault (p.findInterface id.toInt32)
          selectInterface p left.heap (receivedPacket left (some (rpcEncoding id args)))
            (recvLength (some (rpcEncoding id args))) found) () := by
  have hword : (UInt32.ofNat (rpcEncoding id args).length).toNat
      = (rpcEncoding id args).length :=
    UInt32.toNat_ofNat_of_lt' (Nat.lt_of_le_of_lt hshort (by decide))
  have hne : ¬ recvLength (some (rpcEncoding id args)) = 0 := by
    intro h0
    have hzero := congrArg UInt32.toNat h0
    rw [recvLength, hword, length_rpcEncoding] at hzero
    exact absurd hzero (by rw [UInt32.toNat_zero]; omega)
  have hm : Holds (receivedPacket left (some (rpcEncoding id args))) 0
      (rpcEncoding id args) := holds_store _ _
  rw [handleRpc_userMessage p left hword, if_pos (by
    rw [UInt32.le_iff_toNat_le, hword]
    exact hshort), handlePacket, if_neg hne, interfaceId_val hm]

theorem handleRpc_request {p : Process} (left : Leftovers) {id : UInt32}
    {args : List (List UInt8)} {found : Option Managed}
    (hfound : p.findInterface id.toInt32 = some found)
    (hshort : (rpcEncoding id args).length ≤ MAX_PAYLOAD.toNat) :
    handleRpc p left (some (userMessage (rpcEncoding id args)
        (UInt32.ofNat (rpcEncoding id args).length))) ()
      = selectInterface p left.heap (receivedPacket left (some (rpcEncoding id args)))
          (recvLength (some (rpcEncoding id args))) found () := by
  rw [handleRpc_lookup p left hshort, run_orFault_some_bind hfound]

/-- It comes to a call if the interface takes as many arguments. -/
theorem handleRpc_found {p : Process} (left : Leftovers) {id : UInt32}
    {args : List (List UInt8)} {x : Managed}
    (hfound : p.findInterface id.toInt32 = some (some x))
    (hshort : (rpcEncoding id args).length ≤ MAX_PAYLOAD.toNat) :
    handleRpc p left (some (userMessage (rpcEncoding id args)
        (UInt32.ofNat (rpcEncoding id args).length))) ()
      = if x.argc.toNat = args.length then
          callInterface p id x (decodedArgs left.heap args) ()
        else ⟨some (), (), []⟩ := by
  have henc : Encodable args := @encodable_of_length id args
    (Nat.lt_of_le_of_lt hshort (by decide))
  have hm : Holds (receivedPacket left (some (rpcEncoding id args))) 0
      (rpcEncoding id args) := holds_store _ _
  have hargc : x.argc = UInt32.ofNat args.length ↔ x.argc.toNat = args.length := by
    rw [← UInt32.toNat_inj, UInt32.toNat_ofNat_of_lt' henc.1]
  rw [handleRpc_request left hfound hshort, selectInterface,
    Lib.unserializeRpcPacket_val henc hm]
  by_cases heq : x.argc.toNat = args.length
  · rw [if_neg (not_not_intro (hargc.mpr heq)), if_pos heq]
    rfl
  · rw [if_pos fun h => heq (hargc.mp h), if_neg heq]
    rfl

/-! ## Answers -/

/-- On the given arguments the callback succeeds and sets the given results, each
    of which fits one growth step of the encoder. -/
def Computes (callback : Callback) (args results : List (List UInt8)) : Prop :=
  ∀ argv preset, argv.map AttrValue.value = args →
    ¬ (callback argv preset).1 < 0
      ∧ (callback argv preset).2.map AttrValue.value = results
      ∧ ∀ v ∈ (callback argv preset).2, Sendable v

/-- **THE RESULTS** are packed, and the packet is sent as one message; where either
    faults, nothing is sent. -/
theorem sendBack_cases (p : Process) (id retc : UInt32) (retv : List AttrValue) :
    (∃ packet message, Lib.serializeRpcPacket id.toInt32 retc.toInt32 retv = some packet
        ∧ Lib.netlinkSendtoKern p.portid INCOME_RESULT packet
            (UInt32.ofNat packet.length) = some message
        ∧ sendBack p id retc retv () = ⟨some (), (), [.send message]⟩)
      ∨ sendBack p id retc retv () = ⟨none, (), []⟩
        ∧ ∀ packet, Lib.serializeRpcPacket id.toInt32 retc.toInt32 retv = some packet →
          Lib.netlinkSendtoKern p.portid INCOME_RESULT packet
            (UInt32.ofNat packet.length) = none := by
  rw [sendBack]
  cases hpacket : Lib.serializeRpcPacket id.toInt32 retc.toInt32 retv with
  | none => exact Or.inr ⟨rfl, fun _ h => nomatch h⟩
  | some packet =>
      rw [run_orFault_some_bind rfl]
      cases hmessage : Lib.netlinkSendtoKern p.portid INCOME_RESULT packet
          (UInt32.ofNat packet.length) with
      | none =>
          refine Or.inr ⟨rfl, fun packet' h => ?_⟩
          rw [← Option.some.inj h, hmessage]
      | some message => exact Or.inl ⟨packet, message, rfl, hmessage, rfl⟩

/-- Results that can be sent are sent. -/
theorem sendBack_ok (p : Process) {id retc : UInt32} {retv : List AttrValue}
    (hretc : retc.toNat = retv.length) (hsend : ∀ v ∈ retv, Sendable v)
    (hlen : (rpcEncoding id (retv.map AttrValue.value)).length + 20 < 2 ^ 31) :
    ∃ message,
      Lib.netlinkSendtoKern p.portid INCOME_RESULT
        (rpcEncoding id (retv.map AttrValue.value))
        (UInt32.ofNat (rpcEncoding id (retv.map AttrValue.value)).length)
        = some message
      ∧ sendBack p id retc retv () = ⟨some (), (), [.send message]⟩ := by
  have hgrow : BUFFER_INC_SIZE.toNat = 65536 := rfl
  have hpacket : Lib.serializeRpcPacket id.toInt32 retc.toInt32 retv
      = some (rpcEncoding id (retv.map AttrValue.value)) := by
    refine Lib.serializeRpcPacket_ok hretc hsend ?_
    show (rpcEncoding id _).length + _ < _
    omega
  have hshort : (rpcEncoding id (retv.map AttrValue.value)).length < 2 ^ 32 := by
    omega
  have hword := UInt32.toNat_ofNat_of_lt' hshort
  refine ⟨_, by rw [netlinkSendtoKern_spec hword, if_pos hlen], ?_⟩
  rw [sendBack, run_orFault_some_bind hpacket, run_orFault_some_bind
    (by rw [netlinkSendtoKern_spec hword, if_pos hlen])]
  rfl

/-- Results whose packet makes a message of `2 ^ 31` bytes are a fault. -/
theorem sendBack_fault (p : Process) {id retc : UInt32} {retv : List AttrValue}
    (hretc : retc.toNat = retv.length)
    (hlen : ¬ (rpcEncoding id (retv.map AttrValue.value)).length + 20 < 2 ^ 31) :
    (sendBack p id retc retv ()).ret = none := by
  rcases sendBack_cases p id retc retv
    with ⟨packet, message, hpacket, hmessage, -⟩ | ⟨hrun, -⟩
  · have hword := UInt32.toNat_ofNat_of_lt' (Lib.serializeRpcPacket_id hpacket).2
    rw [Lib.serializeRpcPacket_eq] at hpacket
    have hencoding := (Kernel.serializeRpcPacket_some hretc hpacket).1
    have hlong : ¬ packet.length + 20 < 2 ^ 31 := by
      rw [hencoding]
      exact hlen
    rw [netlinkSendtoKern_spec hword, if_neg hlong] at hmessage
    cases hmessage
  · rw [hrun]

/-- A successful call sends its results. -/
theorem callInterface_answers (p : Process) (id : UInt32) {interface : Managed}
    {argv : List AttrValue} {results : List (List UInt8)}
    (hcall : Computes interface.callback (argv.map AttrValue.value) results)
    (hretc : interface.retc.toNat = results.length)
    (hlen : (rpcEncoding id results).length + 20 < 2 ^ 31) :
    ∃ message,
      Lib.netlinkSendtoKern p.portid INCOME_RESULT (rpcEncoding id results)
        (UInt32.ofNat (rpcEncoding id results).length) = some message
      ∧ callInterface p id interface argv ()
        = ⟨some (), (), [.call interface.id argv, .send message]⟩ := by
  obtain ⟨hret, hvalues, hsend⟩ := hcall argv
    (List.replicate interface.retc.toNat ⟨-1, .null⟩) rfl
  rw [callInterface, run_emit_bind, if_neg hret]
  generalize (interface.callback argv _).2 = retv at hvalues hsend
  rw [← hvalues] at hretc hlen ⊢
  rw [List.length_map] at hretc
  obtain ⟨message, hmessage, hrun⟩ := sendBack_ok p hretc hsend hlen
  exact ⟨message, hmessage, by rw [hrun]; rfl⟩

/-- **ANSWER**: a forwarded request for a managed interface, with as many arguments
    as it takes, is answered with the results of its callback. -/
theorem handleRpc_answers {p : Process} (left : Leftovers) {id : UInt32}
    {args results : List (List UInt8)} {interface : Managed}
    (hfound : p.findInterface id.toInt32 = some (some interface))
    (hshort : (rpcEncoding id args).length ≤ MAX_PAYLOAD.toNat)
    (hargc : interface.argc.toNat = args.length)
    (hcall : Computes interface.callback args results)
    (hretc : interface.retc.toNat = results.length)
    (hlen : (rpcEncoding id results).length < 2 ^ 30) :
    ∃ argv message, argv.map AttrValue.value = args
      ∧ Lib.netlinkSendtoKern p.portid INCOME_RESULT (rpcEncoding id results)
        (UInt32.ofNat (rpcEncoding id results).length) = some message
      ∧ handleRpc p left (some (userMessage (rpcEncoding id args)
          (UInt32.ofNat (rpcEncoding id args).length))) ()
        = ⟨some (), (), [.call interface.id argv, .send message]⟩ := by
  have henc : Encodable args := @encodable_of_length id args
    (Nat.lt_of_le_of_lt hshort (by decide))
  have hvalues := map_value_valuesFrom (fun i => left.heap i) henc
  have hcall' : Computes interface.callback
      ((decodedArgs left.heap args).map AttrValue.value) results := by
    rw [decodedArgs, hvalues]
    exact hcall
  obtain ⟨message, hmessage, hrun⟩ := callInterface_answers p id hcall' hretc
    (by omega)
  refine ⟨_, message, hvalues, hmessage, ?_⟩
  rw [handleRpc_found left hfound hshort, if_pos hargc]
  exact hrun

end DistComm
