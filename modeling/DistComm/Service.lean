import DistComm.InfoPacket
import DistComm.Netlink
import DistComm.Traversal
import DistComm.RpcPacket

/-! # The handlers of the serving kernel

    `execute_interface` and `fetch_interface_info`, which a client's connection
    calls with the packet it received, and `handle_netlink_income` with
    `handle_interface_result`, which the netlink socket calls with a process's
    message.  A handler gets the address of a packet and a length, and sees
    whatever bytes lie behind the packet in the kernel's memory. -/

namespace DistComm

open RawMemory RawScan PointerArray TracedProgram

/-- `sock_sendto` of a block that the caller owns; the `int` length must not turn
    negative. -/
def sendBlock {σ : Type} (sock : Option SockId) (block : List UInt8)
    (ret : Int32) : Traced σ Event Int32 :=
  match sock with
  | none => fault
  | some sock =>
      if block.length < 2 ^ 31 then do
        emit (.sendto sock block ret)
        pure ret
      else fault

/-- The number of bytes `sock_sendto` makes of its `int len`: a negative length
    is a huge `size_t`. -/
def iovLength (len : UInt32) : Nat :=
  if len.toNat < 2 ^ 31 then len.toNat else 2 ^ 64 - 2 ^ 32 + len.toNat

/-- The end of `fetch_interface_info`, given what `serialize_interface_info`
    made. -/
def sendReply (env : Env) (sock : Option SockId) :
    Except Stop (List UInt8) → Traced Registry Event Int32
  | .error .fault => fault
  | .error (.error _) => pure (-1)
  | .ok reply => do
      let err ← sendBlock sock reply (env.sendRet 0)
      if err < 0 then pure (-1) else pure 0

/-- `fetch_interface_info` from the lookup of `id` on. -/
def replyInterfaceInfo (env : Env) (id : UInt32) (sock : Option SockId) :
    Option (Nat × Interface) → Traced Registry Event Int32
  | none => pure (-1)
  | some (_, dst) =>
      sendReply env sock (serializeInterfaceInfo id dst.argc dst.retc dst.info)

/-- `fetch_interface_info` on the packet at offset 0. -/
def fetchInterfaceInfo (env : Env) (m : Mem) (packetLength : UInt32)
    (sock : Option SockId) : Traced Registry Event Int32 := do
  let decoded ← readPacket (Kernel.unserializeRpcPacket packetLength) m 0
  -- `id = *(uint32_t *)argv[0].addr`
  emit (.load decoded.2[0]? 4)
  let idBytes ← orFault (decoded.2[0]?.bind fun v => v.addr.read 4)
  let id := wordAt (overlay idBytes fun _ => 0) 0
  let k ← getState
  let found ← orFault (k.findInterface id.toInt32)
  replyInterfaceInfo env id sock found

/-- Assignment to `interface->ctrl->socket`. -/
def Interface.setSocket (sock : Option SockId) (x : Interface) : Interface :=
  { x with ctrl := { x.ctrl with socket := sock } }

/-- `execute_interface` from the lookup on. -/
def forwardRequest (env : Env) (m : Mem) (packetLength : UInt32)
    (sock : Option SockId) :
    Option (Nat × Interface) → Traced Registry Event Int32
  | none => pure (-1)
  | some (p, interface) => do
      let k ← getState
      putState (k.assign p (interface.setSocket sock))
      let ret ← sendMsgToUser env interface.ctrl.clientPortid m 0 packetLength
      if ret < 0 then pure (-1) else pure 0

/-- `execute_interface` on the packet at offset 0. -/
def executeInterface (env : Env) (m : Mem) (packetLength : UInt32)
    (sock : Option SockId) : Traced Registry Event Int32 := do
  let id ← readPacket interfaceId m 0
  if id = 0 then fetchInterfaceInfo env m packetLength sock
  else do
    let k ← getState
    let found ← orFault (k.findInterface id)
    forwardRequest env m packetLength sock found

/-- The two sends of `handle_interface_result`.  `ret` is a `uint32_t`, so that
    neither check of it ever fires. -/
def sendResult (env : Env) (m : Mem) (packet : Nat) (packetLength : UInt32) :
    Option SockId → Traced Registry Event Unit
  | none => pure ()
  | some sock => do
      emit (.sendto sock (wordBytes packetLength) (env.sendRet 0))
      if (env.sendRet 0).toUInt32 < 0 then pure ()
      else do
        let data ← readPacket (bytes (iovLength packetLength)) m packet
        emit (.sendto sock data (env.sendRet 1))

/-- `handle_interface_result` from the lookup on. -/
def forwardResult (env : Env) (m : Mem) (packet : Nat) (packetLength : UInt32) :
    Option (Nat × Interface) → Traced Registry Event Unit
  | none => pure ()
  | some (_, interface) => do
      let decoded ← readPacket (Kernel.unserializeRpcPacket packetLength) m packet
      emit (.print decoded.2[0]?)
      let _ ← orFault decoded.2[0]?
      sendResult env m packet packetLength interface.ctrl.socket

/-- `handle_interface_result` on the packet at offset `packet`. -/
def handleInterfaceResult (env : Env) (m : Mem) (packet : Nat)
    (packetLength _portid : UInt32) : Traced Registry Event Unit := do
  let id ← readPacket interfaceId m packet
  let k ← getState
  let found ← orFault (k.findInterface id)
  forwardResult env m packet packetLength found

/-- `handle_netlink_income` on the message at offset 0. -/
def handleNetlinkIncome (env : Env) (m : Mem) : Traced Registry Event Unit := do
  let income ← readPacket netlinkIncome m 0
  if income.type = INCOME_HANDSHAKE then
    handleActivateInterface m 17 income.bodyLength income.portid
  else if income.type = INCOME_RESULT then
    handleInterfaceResult env m 17 income.bodyLength income.portid
  else pure ()

/-! ## Runs of `execute_interface` -/

theorem run_sendBlock {σ : Type} (sock : SockId) {block : List UInt8}
    (h : block.length < 2 ^ 31) (ret : Int32) (s : σ) :
    sendBlock (some sock) block ret s = ⟨some ret, s, [.sendto sock block ret]⟩ := by
  rw [sendBlock, if_pos h]
  rfl

theorem run_sendBlock_fault {σ : Type} {sock : Option SockId}
    {block : List UInt8} (h : sock = none ∨ ¬ block.length < 2 ^ 31)
    (ret : Int32) (s : σ) : sendBlock sock block ret s = ⟨none, s, []⟩ := by
  cases sock with
  | none => rfl
  | some sock =>
      rw [sendBlock, if_neg (h.resolve_left (fun h0 => nomatch h0))]
      rfl

/-- What forwarding leaves behind: no buffer, or a message to the process. -/
def forwardEvents (env : Env) (m : Mem) (packetLength : UInt32)
    (x : Interface) : List Event :=
  if env.skbAlloc = false then []
  else [.read ⟨0, packetLength.toNat⟩,
    .unicast x.ctrl.clientPortid
      (userMessage (slice m 0 packetLength.toNat) packetLength) env.unicastRet]

/-- The packet reaches the process if there is memory for the message and the call
    succeeds. -/
theorem deliveries_forwardEvents (env : Env) (m : Mem) (packetLength : UInt32)
    (x : Interface) :
    deliveries (forwardEvents env m packetLength x)
      = if env.skbAlloc = true ∧ ¬ env.unicastRet < 0 then
          [(x.ctrl.clientPortid,
            userMessage (slice m 0 packetLength.toNat) packetLength)]
        else [] := by
  rw [forwardEvents]
  cases halloc : env.skbAlloc with
  | false =>
      rw [if_pos rfl, if_neg fun h => Bool.noConfusion h.1]
      rfl
  | true =>
      rw [if_neg (by decide)]
      by_cases hret : env.unicastRet < 0
      · rw [if_neg fun h => h.2 hret]
        simp only [deliveries, List.filterMap_cons, List.filterMap_nil, if_pos hret]
      · rw [if_pos ⟨rfl, hret⟩]
        simp only [deliveries, List.filterMap_cons, List.filterMap_nil, if_neg hret]

/-- A packet that is passed on with its own length is passed on as it is. -/
theorem slice_packet {packet : List UInt8} (hlen : packet.length < 2 ^ 32)
    (behind : Mem) :
    slice (overlay packet behind) 0 (UInt32.ofNat packet.length).toNat
      = packet := by
  rw [UInt32.toNat_ofNat_of_lt' hlen]
  exact slice_overlay packet behind

/-- The result of forwarding. -/
def forwardCode (env : Env) : Int32 :=
  if env.skbAlloc = false ∨ env.unicastRet < 0 then -1 else 0

theorem run_sendMsgToUser {σ : Type} (env : Env) (x : Interface) (m : Mem)
    (packetLength : UInt32) (s : σ) :
    (sendMsgToUser env x.ctrl.clientPortid m 0 packetLength) s
      = ⟨some (forwardCode env), s, forwardEvents env m packetLength x⟩ := by
  rw [sendMsgToUser, forwardCode, forwardEvents]
  by_cases halloc : env.skbAlloc = false
  · rw [if_pos halloc, if_pos (Or.inl halloc), if_pos halloc]
    rfl
  · rw [if_neg halloc, if_neg halloc, run_readPacket_bind, run_emit_bind]
    by_cases hret : env.unicastRet < 0
    · rw [if_pos hret, if_pos (Or.inr hret)]
      rfl
    · rw [if_neg hret, if_neg (not_or.mpr ⟨halloc, hret⟩)]
      rfl

theorem run_sendReply (env : Env) (sock : SockId) {reply : List UInt8}
    (h : reply.length < 2 ^ 31) (k : Registry) :
    sendReply env (some sock) (.ok reply) k
      = ⟨some (if env.sendRet 0 < 0 then -1 else 0), k,
          [.sendto sock reply (env.sendRet 0)]⟩ := by
  rw [sendReply, run_bind_some (run_sendBlock sock h (env.sendRet 0) k), run_ite]
  by_cases hret : env.sendRet 0 < 0
  · rw [if_pos hret, if_pos hret]
    rfl
  · rw [if_neg hret, if_neg hret]
    rfl

/-- A reply consists of at most one send. -/
theorem sendReply_events (env : Env) (sock : Option SockId)
    (made : Except Stop (List UInt8)) (k : Registry) :
    ∀ e ∈ (sendReply env sock made k).trace, ∃ s data ret,
      e = .sendto s data ret := by
  intro e he
  rcases made with (_ | code) | reply
  · exact nomatch he
  · exact nomatch he
  · by_cases hsend : sock = none ∨ ¬ reply.length < 2 ^ 31
    · rw [sendReply, run_bind_none (run_sendBlock_fault hsend _ k)] at he
      exact nomatch he
    · obtain ⟨hsock, hlen⟩ := not_or.mp hsend
      obtain ⟨s, hs⟩ := Option.ne_none_iff_exists'.mp hsock
      rw [hs, run_sendReply env s (not_not.mp hlen)] at he
      exact ⟨s, reply, _, List.mem_singleton.mp he⟩

theorem toInt32_eq_zero {w : UInt32} : w.toInt32 = 0 ↔ w = 0 := by
  constructor
  · intro h
    exact congrArg Int32.toUInt32 h
  · intro h
    rw [h]
    rfl

theorem run_forwardRequest (env : Env) (m : Mem) (packetLength : UInt32)
    (sock : Option SockId) (p : Nat) (x : Interface) (k : Registry) :
    forwardRequest env m packetLength sock (some (p, x)) k
      = ⟨some (forwardCode env), k.assign p (x.setSocket sock),
          forwardEvents env m packetLength x⟩ := by
  rw [forwardRequest, run_getState_bind, run_putState_bind,
    run_bind_some (run_sendMsgToUser env x m packetLength _), run_ite]
  have hcode : (if forwardCode env < 0 then (-1 : Int32) else 0)
      = forwardCode env := by
    rw [forwardCode]
    split
    · rfl
    · rfl
  by_cases hneg : forwardCode env < 0
  · rw [if_pos hneg] at hcode ⊢
    rw [← hcode]
    exact congrArg (Outcome.mk _ _) (List.append_nil _)
  · rw [if_neg hneg] at hcode ⊢
    rw [← hcode]
    exact congrArg (Outcome.mk _ _) (List.append_nil _)

/-- **DESCRIBE**: a request with the id 0 is a description query. -/
theorem executeInterface_zero {m : Mem} (h : wordAt m 0 = 0) (env : Env)
    (len : UInt32) (sock : Option SockId) (k : Registry) :
    executeInterface env m len sock k
      = (fetchInterfaceInfo env m len sock k).after [.read ⟨0, 4⟩] := by
  have hzero : (interfaceId m 0).val = 0 := toInt32_eq_zero.mpr h
  rw [executeInterface, run_readPacket_bind, if_pos hzero]
  rfl

/-- **FORWARD**: a request for an interface that is there is forwarded, and its
    socket remembered. -/
theorem executeInterface_found {k : Registry} {m : Mem} (hid : wordAt m 0 ≠ 0)
    {p : Nat} {x : Interface}
    (hfound : k.findInterface (wordAt m 0).toInt32 = some (some (p, x)))
    (env : Env) (packetLength : UInt32) (sock : Option SockId) :
    executeInterface env m packetLength sock k
      = ⟨some (forwardCode env), k.assign p (x.setSocket sock),
          .read ⟨0, 4⟩ :: forwardEvents env m packetLength x⟩ := by
  have hne : ¬ (interfaceId m 0).val = 0 := fun h => hid (toInt32_eq_zero.mp h)
  have hfound' : k.findInterface (interfaceId m 0).val = some (some (p, x)) :=
    hfound
  rw [executeInterface, run_readPacket_bind, if_neg hne, run_getState_bind,
    run_orFault_some_bind hfound', run_forwardRequest]
  rfl

/-- **REFUSE**: a request for an interface that is not there. -/
theorem executeInterface_missing {k : Registry} {m : Mem} (hid : wordAt m 0 ≠ 0)
    (hnone : k.findInterface (wordAt m 0).toInt32 = some none) (env : Env)
    (packetLength : UInt32) (sock : Option SockId) :
    executeInterface env m packetLength sock k
      = ⟨some (-1), k, [.read ⟨0, 4⟩]⟩ := by
  have hne : ¬ (interfaceId m 0).val = 0 := fun h => hid (toInt32_eq_zero.mp h)
  have hnone' : k.findInterface (interfaceId m 0).val = some none := hnone
  rw [executeInterface, run_readPacket_bind, if_neg hne, run_getState_bind,
    run_orFault_some_bind hnone']
  rfl

/-- **FAULT**: the traversal comes to a slot that it cannot read. -/
theorem executeInterface_fault {k : Registry} {m : Mem} (hid : wordAt m 0 ≠ 0)
    (hfault : k.findInterface (wordAt m 0).toInt32 = none) (env : Env)
    (packetLength : UInt32) (sock : Option SockId) :
    executeInterface env m packetLength sock k = ⟨none, k, [.read ⟨0, 4⟩]⟩ := by
  have hne : ¬ (interfaceId m 0).val = 0 := fun h => hid (toInt32_eq_zero.mp h)
  have hfault' : k.findInterface (interfaceId m 0).val = none := hfault
  rw [executeInterface, run_readPacket_bind, if_neg hne, run_getState_bind,
    run_orFault_none_bind hfault']
  rfl

/-! ## What the handlers leave of the registry -/

theorem readOnly_sendBlock {σ : Type} (sock : Option SockId) (block : List UInt8)
    (ret : Int32) : ReadOnly (sendBlock sock block ret : Traced σ Event Int32) := by
  cases sock with
  | none => exact readOnly_fault
  | some sock =>
      exact ((readOnly_emit _).bind fun _ => readOnly_pure _).ite readOnly_fault

theorem readOnly_replyInterfaceInfo (env : Env) (id : UInt32)
    (sock : Option SockId) (found : Option (Nat × Interface)) :
    ReadOnly (replyInterfaceInfo env id sock found) := by
  rcases found with _ | ⟨p, dst⟩
  · exact readOnly_pure _
  · rw [replyInterfaceInfo]
    generalize serializeInterfaceInfo id dst.argc dst.retc dst.info = made
    rcases made with (_ | code) | reply
    · exact readOnly_fault
    · exact readOnly_pure _
    · exact (readOnly_sendBlock _ _ _).bind fun _ =>
        (readOnly_pure _).ite (readOnly_pure _)

/-- A description query changes nothing. -/
theorem readOnly_fetchInterfaceInfo (env : Env) (m : Mem) (packetLength : UInt32)
    (sock : Option SockId) :
    ReadOnly (fetchInterfaceInfo env m packetLength sock) :=
  (readOnly_readPacket _ _ _).bind fun _ => (readOnly_emit _).bind fun _ =>
    (readOnly_orFault _).bind fun _ => readOnly_getState.bind fun _ =>
      (readOnly_orFault _).bind fun _ => readOnly_replyInterfaceInfo _ _ _ _

/-- A description query sends nothing to a process. -/
theorem unicasts_fetchInterfaceInfo (env : Env) (m : Mem) (packetLength : UInt32)
    (sock : Option SockId) (k : Registry) :
    unicasts (fetchInterfaceInfo env m packetLength sock k).trace = [] := by
  have hsend : ∀ id found, Emits (fun e => ∀ port message ret,
      e ≠ Event.unicast port message ret) (replyInterfaceInfo env id sock found) := by
    intro id found
    rcases found with _ | ⟨p, dst⟩
    · exact emits_pure _
    · intro k' e he port message ret heq
      obtain ⟨s, data, ret', hsendto⟩ := sendReply_events env sock _ k' e he
      rw [heq] at hsendto
      exact nomatch hsendto
  have hall : Emits (fun e => ∀ port message ret,
      e ≠ Event.unicast port message ret)
      (fetchInterfaceInfo env m packetLength sock) :=
    (emits_readPacket (fun _ _ _ _ h => nomatch h) _ _ _).bind fun _ =>
      (emits_emit fun _ _ _ h => nomatch h).bind fun _ =>
        (emits_orFault _).bind fun _ => emits_getState.bind fun _ =>
          (emits_orFault _).bind fun _ => hsend _ _
  refine List.filterMap_eq_nil_iff.mpr fun e he => ?_
  cases e with
  | unicast port message ret => exact absurd rfl (hall k _ he port message ret)
  | read span => rfl
  | load value n => rfl
  | print value => rfl
  | sendto sock data ret => rfl

theorem readOnly_sendResult (env : Env) (m : Mem) (packet : Nat)
    (packetLength : UInt32) (sock : Option SockId) :
    ReadOnly (sendResult env m packet packetLength sock) := by
  cases sock with
  | none => exact readOnly_pure _
  | some sock =>
      exact (readOnly_emit _).bind fun _ => (readOnly_pure _).ite
        ((readOnly_readPacket _ _ _).bind fun _ => readOnly_emit _)

/-- A result changes nothing, not even the socket it was sent to. -/
theorem readOnly_handleInterfaceResult (env : Env) (m : Mem) (packet : Nat)
    (packetLength portid : UInt32) :
    ReadOnly (handleInterfaceResult env m packet packetLength portid) := by
  refine (readOnly_readPacket _ _ _).bind fun _ => readOnly_getState.bind fun _ =>
    (readOnly_orFault _).bind fun found => ?_
  rcases found with _ | ⟨p, interface⟩
  · exact readOnly_pure _
  · exact (readOnly_readPacket _ _ _).bind fun _ => (readOnly_emit _).bind fun _ =>
      (readOnly_orFault _).bind fun _ => readOnly_sendResult _ _ _ _ _

/-- A request changes the socket of its interface, if it has one. -/
theorem executeInterface_state {k : Registry} (hk : k.Live) (env : Env) (m : Mem)
    (packetLength : UInt32) (sock : Option SockId) :
    (executeInterface env m packetLength sock k).state = k
      ∨ ∃ p x, wordAt m 0 ≠ 0
          ∧ k.findInterface (wordAt m 0).toInt32 = some (some (p, x))
          ∧ (executeInterface env m packetLength sock k).state
            = k.assign p (x.setSocket sock) := by
  by_cases hid : wordAt m 0 = 0
  · rw [executeInterface_zero hid, after_state]
    exact Or.inl (readOnly_fetchInterfaceInfo env m packetLength sock k)
  · rcases hk.findInterface (wordAt m 0).toInt32 with hnone | ⟨p, x, hfound, -⟩
    · rw [executeInterface_missing hid hnone]
      exact Or.inl rfl
    · rw [executeInterface_found hid hfound]
      exact Or.inr ⟨p, x, hid, hfound, rfl⟩

/-! ## The link to the process -/

/-- A request that `execute_interface` reports as forwarded was sent once, to the
    port of its interface. -/
theorem executeInterface_forwarded {k : Registry} (hk : k.Live) {env : Env}
    {m : Mem} (hid : wordAt m 0 ≠ 0) {packetLength : UInt32}
    {sock : Option SockId}
    (hret : (executeInterface env m packetLength sock k).ret = some 0) :
    ∃ p x, k.findInterface (wordAt m 0).toInt32 = some (some (p, x))
      ∧ executeInterface env m packetLength sock k
        = ⟨some 0, k.assign p (x.setSocket sock),
            [.read ⟨0, 4⟩, .read ⟨0, packetLength.toNat⟩,
              .unicast x.ctrl.clientPortid
                (userMessage (slice m 0 packetLength.toNat) packetLength)
                env.unicastRet]⟩ := by
  rcases hk.findInterface (wordAt m 0).toInt32 with hnone | ⟨p, x, hfound, -⟩
  · rw [executeInterface_missing hid hnone] at hret
    have hne : (-1 : Int32) = 0 := Option.some.inj hret
    exact absurd hne (by decide)
  · rw [executeInterface_found hid hfound] at hret ⊢
    refine ⟨p, x, hfound, ?_⟩
    have hcode : forwardCode env = 0 := Option.some.inj hret
    have hsent : ¬ (env.skbAlloc = false ∨ env.unicastRet < 0) := by
      intro h
      rw [forwardCode, if_pos h] at hcode
      exact absurd hcode (by decide)
    rw [hcode, forwardEvents, if_neg (not_or.mp hsent).1]

/-- **LINK TO THE PROCESS**: of the packets reported as forwarded, those of at most
    `MAX_PAYLOAD` bytes are returned to `handle_rpc` exactly, and the longer ones
    are refused. -/
theorem link_delivers {k : Registry} (hk : Traversable k) (env : Env) (m : Mem)
    (packetLength : UInt32) (sock : Option SockId) (stack : Mem)
    (hid : wordAt m 0 ≠ 0)
    (hret : (executeInterface env m packetLength sock k).ret = some 0) :
    ∃ portid message,
      unicasts (executeInterface env m packetLength sock k).trace
        = [(portid, message)]
      ∧ Lib.netlinkRecvfromKern stack (some message) MAX_PAYLOAD
        = if packetLength ≤ MAX_PAYLOAD then
            some (slice m 0 packetLength.toNat)
          else none := by
  obtain ⟨p, x, -, hrun⟩ := executeInterface_forwarded hk.live hid hret
  rw [hrun]
  exact ⟨_, _, rfl, netlinkRecvfromKern_userMessage stack
    (length_slice m 0 packetLength.toNat).symm (by decide)⟩

/-- A kernel in which every call succeeds. -/
def Env.fine : Env := ⟨fun _ => 0, true, 0⟩

/-- The interface with id 1 in a registry of its own. -/
def Registry.one : Registry := .sole (UserInterface.bare.registered 1 7 none)

theorem one_findInterface {m : Mem} (h : wordAt m 0 = 1) :
    Registry.one.findInterface (wordAt m 0).toInt32
      = some (some (0, UserInterface.bare.registered 1 7 none)) := by
  rw [h]
  exact findInterface_sole _

theorem one_forwards {m : Mem} (h : wordAt m 0 = 1) (packetLength : UInt32)
    (sock : Option SockId) :
    (executeInterface .fine m packetLength sock .one).ret = some 0 := by
  have hid : wordAt m 0 ≠ 0 := by
    rw [h]
    decide
  rw [executeInterface_found hid (one_findInterface h)]
  rfl

/-- A packet of twelve bytes for interface 1. -/
theorem link_delivers_twelve :
    ∃ portid message,
      unicasts (executeInterface .fine (overlay (rpcEncoding 1 [[]]) fun _ => 0)
        12 (some 5) .one).trace = [(portid, message)]
      ∧ Lib.netlinkRecvfromKern (fun _ => 0) (some message) MAX_PAYLOAD
        = if (12 : UInt32) ≤ MAX_PAYLOAD then
            some (slice (overlay (rpcEncoding 1 [[]]) fun _ => 0) 0 12)
          else none := by
  have hone : wordAt (overlay (rpcEncoding 1 [[]]) fun _ => 0) 0 = 1 := by
    decide
  exact link_delivers (traversable_sole _) .fine _ 12 (some 5) (fun _ => 0)
    (by rw [hone]; decide) (one_forwards hone 12 (some 5))

/-- A packet of 513 bytes is reported as forwarded, and not returned. -/
theorem long_packet_lost :
    ∃ portid message,
      (executeInterface .fine (overlay (wordBytes 1) fun _ => 0) 513 (some 5)
        .one).ret = some 0
      ∧ unicasts (executeInterface .fine (overlay (wordBytes 1) fun _ => 0) 513
        (some 5) .one).trace = [(portid, message)]
      ∧ Lib.netlinkRecvfromKern (fun _ => 0) (some message) MAX_PAYLOAD = none := by
  have hone : wordAt (overlay (wordBytes 1) fun _ => 0) 0 = 1 := by decide
  have hret := one_forwards hone 513 (some 5)
  obtain ⟨p, x, -, hrun⟩ := executeInterface_forwarded (traversable_sole _).live
    (by rw [hone]; decide) hret
  refine ⟨x.ctrl.clientPortid,
    userMessage (slice (overlay (wordBytes 1) fun _ => 0) 0 513) 513, hret, ?_, ?_⟩
  · exact congrArg (fun o => unicasts o.trace) hrun
  · have hsize : (513 : UInt32).toNat
        = (slice (overlay (wordBytes 1) fun _ => 0) 0 513).length :=
      (length_slice _ 0 513).symm
    have hbuf : MAX_PAYLOAD.toNat + 16 ≤ recvBufferSize := by decide
    exact netlinkRecvfromKern_userMessage (fun _ => 0) hsize hbuf

end DistComm
