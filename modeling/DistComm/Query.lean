import DistComm.RemoteCall

/-! # Description queries

    `fetch_remote_interface_info` of `module/network/peer.c`: a client asks the
    serving host for the description of an interface with a packet for id 0.

    The client writes this packet without the length that `handle_connection`
    expects in front of it.  The server reads the id as a length of 0 and gives up,
    and since it does not release the connection the client waits for a
    description forever (`remote_query_fails`). -/

namespace DistComm

open RawMemory RawScan PointerArray TracedProgram

/-- The fields of the `interface_t` that `fetch_remote_interface_info` is given;
    `info` may be NULL. -/
structure PeerInterface where
  id : UInt32
  info : Option Info
  deriving DecidableEq

/-- What the calls of `fetch_remote_interface_info` return, and the memory behind
    its buffer. -/
structure QueryEnv where
  initSocket : Int32
  sendRet : Int32
  arrival : Arrival
  behind : Mem

/-- `sock_recvfrom` on a connection that the other end keeps open: while nothing has
    arrived, the call does not return. -/
def awaitRecvfrom (a : Arrival) (len : Nat) (incoming : List UInt8) :
    Option (Int32 × List UInt8 × List UInt8) :=
  match a, incoming with
  | .upTo _, [] => none
  | a, incoming => some (sockRecvfrom a len incoming)

/-- `fetch_remote_interface_info` from the receive on.  The check of the result is
    one of a `uint32_t`, and never fires. -/
def receiveInfo (q : QueryEnv) (incoming : List UInt8) :
    Traced PeerInterface Event Unit := do
  let (length, data, _) ←
    orFault (awaitRecvfrom q.arrival BUFFER_INC_SIZE.toNat incoming)
  let buffer := store (List.replicate BUFFER_INC_SIZE.toNat 0) q.behind
  let info ← readPacket (unserializeInterfaceInfo length.toUInt32)
    (store data buffer) 0
  let interface ← getState
  putState { interface with info := some info }

/-- `fetch_remote_interface_info` over the connected socket `sock`, from which
    `incoming` will arrive.  It has no result where it waits. -/
def fetchRemoteInterfaceInfo (q : QueryEnv) (sock : SockId)
    (incoming : List UInt8) : Traced PeerInterface Event Unit :=
  if q.initSocket < 0 then pure ()
  else do
    let interface ← getState
    let packet ← orFault (Kernel.serializeRpcPacket 0 1
      [AttrValue.ofBytes (wordBytes interface.id)])
    let err ← sendBlock (some sock) packet q.sendRet
    if err < 0 then pure ()
    else receiveInfo q incoming

/-- What the host writes to the connection once it has received `incoming` from
    it. -/
def Host.describe (h : Host) (incoming : List UInt8) (k : Registry) :
    List UInt8 :=
  written h.sock
    (handleConnection h.env h.getname h.receiver h.sock incoming k).trace

/-- The outcome of a query to a host: the client writes its request, and gets what
    the host writes once it has received this request. -/
def remoteQuery (q : QueryEnv) (sock : SockId) (h : Host) (k : Registry)
    (interface : PeerInterface) : Outcome PeerInterface Event Unit :=
  let request := written sock (fetchRemoteInterfaceInfo q sock [] interface).trace
  fetchRemoteInterfaceInfo q sock (h.describe request k) interface

/-- The query returns, and the client has the description. -/
def Fetches (q : QueryEnv) (sock : SockId) (h : Host) (k : Registry)
    (interface : PeerInterface) (info : Info) : Prop :=
  (remoteQuery q sock h k interface).ret = some ()
    ∧ (remoteQuery q sock h k interface).state.info = some info

/-- The client is connected, its send succeeds, and its receive takes what there is,
    up to the size of its buffer. -/
structure QueryEnv.Delivers (q : QueryEnv) : Prop where
  initSocket : ¬ q.initSocket < 0
  send : ¬ q.sendRet < 0
  arrival : ∃ n, q.arrival = .upTo n ∧ BUFFER_INC_SIZE.toNat ≤ n

/-! ## The request -/

theorem length_query (id : UInt32) : (rpcEncoding 0 [wordBytes id]).length = 16 :=
  rfl

/-- The packet of a query. -/
theorem query_packet (id : UInt32) :
    Kernel.serializeRpcPacket 0 1 [AttrValue.ofBytes (wordBytes id)]
      = some (rpcEncoding 0 [wordBytes id]) := by
  have hvalue : (AttrValue.ofBytes (wordBytes id)).value = wordBytes id :=
    AttrValue.value_ofBytes (by rw [length_wordBytes]; decide)
  have hfour : (AttrValue.ofBytes (wordBytes id)).length = 4 := rfl
  have hsend : ∀ v ∈ [AttrValue.ofBytes (wordBytes id)], Sendable v := by
    intro v hv
    rw [List.mem_singleton.mp hv]
    exact ⟨AttrValue.valid_ofBytes _, by rw [hfour]; decide⟩
  have hpacket := @Kernel.serializeRpcPacket_ok 0 1
    [AttrValue.ofBytes (wordBytes id)] rfl hsend (by
      rw [List.map_singleton, hvalue, length_query]
      decide)
  rw [List.map_singleton, hvalue] at hpacket
  exact hpacket

/-- The client writes its packet before it waits for anything. -/
theorem fetchRemoteInterfaceInfo_run {q : QueryEnv} (hq : q.Delivers)
    (sock : SockId) (incoming : List UInt8) (interface : PeerInterface) :
    fetchRemoteInterfaceInfo q sock incoming interface
      = (receiveInfo q incoming interface).after
          [.sendto sock (rpcEncoding 0 [wordBytes interface.id]) q.sendRet] := by
  have hlen : (rpcEncoding 0 [wordBytes interface.id]).length < 2 ^ 31 := by
    rw [length_query]
    decide
  rw [fetchRemoteInterfaceInfo, if_neg hq.initSocket, run_getState_bind,
    run_orFault_some_bind (query_packet interface.id),
    run_bind_some (run_sendBlock sock hlen q.sendRet interface), if_neg hq.send]

theorem receiveInfo_waits {q : QueryEnv} (hq : q.Delivers)
    (interface : PeerInterface) :
    receiveInfo q [] interface = ⟨none, interface, []⟩ := by
  obtain ⟨n, harrival, -⟩ := hq.arrival
  rw [receiveInfo]
  exact run_orFault_none_bind (by rw [harrival]; rfl) _ interface

theorem written_fetchRemoteInterfaceInfo {q : QueryEnv} (hq : q.Delivers)
    (sock : SockId) (interface : PeerInterface) :
    written sock (fetchRemoteInterfaceInfo q sock [] interface).trace
      = rpcEncoding 0 [wordBytes interface.id] := by
  rw [fetchRemoteInterfaceInfo_run hq, receiveInfo_waits hq, after_trace]
  simp only [written, List.append_nil, List.flatMap_cons, List.flatMap_nil, List.append_nil,
    hq.send, not_false_eq_true, and_self, if_true]

/-! ## The server -/

/-- **NO ANSWER**: the server reads the id 0 of the packet as a length, and writes
    nothing, whatever its calls return. -/
theorem Host.describe_query (h : Host) (id : UInt32) (k : Registry) :
    h.describe (rpcEncoding 0 [wordBytes id]) k = [] := by
  have hzeros : ∀ b ∈ (rpcEncoding 0 [wordBytes id]).take 4, b = 0 := by
    have hfirst : (rpcEncoding 0 [wordBytes id]).take 4 = [0, 0, 0, 0] := rfl
    rw [hfirst]
    intro b hb
    exact List.eq_of_mem_replicate (show b ∈ List.replicate 4 0 from hb)
  rw [Host.describe, handleConnection]
  by_cases hname : h.getname < 0
  · rw [if_pos hname]
    rfl
  · rw [if_neg hname, receiveFrame_zeros hzeros]
    rfl

/-- The server finds the id in the first value of the packet. -/
theorem load_query (id : UInt32) (behind : Mem) (len : UInt32) :
    ((Kernel.unserializeRpcPacket len (overlay (rpcEncoding 0 [wordBytes id]) behind)
        0).val.2[0]?.bind fun v => v.addr.read 4) = some (wordBytes id) := by
  have henc : Encodable [wordBytes id] := by
    refine ⟨by rw [List.length_singleton]; decide, fun v hv => ?_⟩
    rw [List.mem_singleton.mp hv, length_wordBytes]
    decide
  have hrun := (Kernel.unserializeRpcPacket_run henc (holds_overlay
    (rpcEncoding 0 [wordBytes id]) behind) len).1
  rw [hrun]
  rfl

/-- **AN ANSWER TO A FRAMED QUERY**: behind its length, the same packet is answered
    with the description of the interface. -/
theorem Host.describe_framed {h : Host} (hname : ¬ h.getname < 0)
    (hr : h.receiver.Reliable) (hsend : ¬ h.env.sendRet 0 < 0) {id : UInt32}
    {k : Registry} {p : Nat} {x : Interface}
    (hfound : k.findInterface id.toInt32 = some (some (p, x)))
    {packet : List UInt8} (hlen : packet.length < 2 ^ 31)
    (hmade : serializeInterfaceInfo id x.argc x.retc x.info = .ok packet) :
    h.describe (frame (rpcEncoding 0 [wordBytes id])) k = packet := by
  obtain ⟨behind, hframe⟩ := @Receiver.Reliable.receiveFrame _ hr (fun _ => 0)
    (rpcEncoding 0 [wordBytes id]) (by rw [length_query]; decide)
    (by rw [length_query]; decide)
  have hzero : wordAt (overlay (rpcEncoding 0 [wordBytes id]) behind) 0 = 0 :=
    wordAt_of_holds (holds_append.mp (holds_overlay _ behind)).1
  have hword : wordAt (overlay (wordBytes id) fun _ => 0) 0 = id :=
    wordAt_of_holds (holds_overlay _ _)
  rw [Host.describe, handleConnection_received hname hframe,
    executeInterface_zero hzero, fetchInterfaceInfo, run_readPacket_bind,
    run_emit_bind, run_orFault_some_bind (load_query id behind _), run_getState_bind,
    hword, run_orFault_some_bind hfound, replyInterfaceInfo, hmade,
    run_sendReply h.env h.sock hlen]
  simp only [after_after, after_trace, written_append, written_reads]
  simp only [written, List.flatMap_cons, List.flatMap_nil, List.append_nil,
    List.nil_append, hsend, not_false_eq_true, and_self, if_true]

/-- The client decodes what it gets. -/
theorem receiveInfo_described {q : QueryEnv} (hq : q.Delivers)
    {packet : List UInt8} (hne : packet ≠ [])
    (hlen : packet.length ≤ BUFFER_INC_SIZE.toNat) {info : Info}
    (hdecoded : ∀ behind, (unserializeInterfaceInfo (UInt32.ofNat packet.length)
      (overlay packet behind) 0).val = info) (interface : PeerInterface) :
    (receiveInfo q packet interface).ret = some ()
      ∧ (receiveInfo q packet interface).state
        = { interface with info := some info } := by
  obtain ⟨n, harrival, hn⟩ := hq.arrival
  have hrecv : awaitRecvfrom q.arrival BUFFER_INC_SIZE.toNat packet
      = some (Int32.ofNat packet.length, packet, []) := by
    have htake : packet.take (min n BUFFER_INC_SIZE.toNat) = packet :=
      List.take_of_length_le (by rw [Nat.min_eq_right hn]; exact hlen)
    cases packet with
    | nil => exact absurd rfl hne
    | cons b bs =>
        rw [harrival]
        show some (sockRecvfrom (.upTo n) _ (b :: bs)) = _
        rw [sockRecvfrom, htake, List.drop_length]
  rw [receiveInfo, run_orFault_some_bind hrecv]
  refine ⟨rfl, ?_⟩
  show ({ interface with info := some (unserializeInterfaceInfo
    (Int32.ofNat packet.length).toUInt32 (store packet _) 0).val } :
      PeerInterface) = _
  exact congrArg (fun info => { interface with info := some info }) (hdecoded _)

/-! ## The query -/

/-- **WAITING FOREVER**: a query of a connected client ends where it waits for the
    description, and the client knows what it knew before. -/
theorem remoteQuery_waits {q : QueryEnv} (hq : q.Delivers) (sock : SockId)
    (h : Host) (k : Registry) (interface : PeerInterface) :
    remoteQuery q sock h k interface
      = ⟨none, interface,
          [.sendto sock (rpcEncoding 0 [wordBytes interface.id]) q.sendRet]⟩ := by
  rw [remoteQuery, written_fetchRemoteInterfaceInfo hq, h.describe_query,
    fetchRemoteInterfaceInfo_run hq, receiveInfo_waits hq]
  rfl

/-- **NO DESCRIPTION**: no query works, whatever is registered on the host. -/
theorem remote_query_fails {q : QueryEnv} (hq : q.Delivers) (sock : SockId)
    (h : Host) (k : Registry) (interface : PeerInterface) (info : Info) :
    ¬ Fetches q sock h k interface info := by
  rintro ⟨hret, -⟩
  rw [remoteQuery_waits hq] at hret
  exact nomatch hret

/-- A query for the interface of another process, to a host that answers. -/
theorem remote_query_fails_bare :
    ¬ Fetches ⟨0, 0, .upTo (2 ^ 31), fun _ => 0⟩ 3 .answering .one ⟨1, none⟩
      (UserInterface.bare.registered 1 7 none).info :=
  remote_query_fails ⟨by decide, by decide, _, rfl, by decide⟩ 3 .answering .one
    ⟨1, none⟩ _

/-- The interface is registered, its description fits a packet, the host's calls all
    succeed, and still the client does not get the description. -/
theorem registered_info_not_fetched :
    Registry.one.findInterface 1
        = some (some (0, UserInterface.bare.registered 1 7 none))
      ∧ (∃ packet, serializeInterfaceInfo 1 0 0
          (UserInterface.bare.registered 1 7 none).info = .ok packet
        ∧ packet.length ≤ BUFFER_INC_SIZE.toNat)
      ∧ Host.answering.Delivers
      ∧ ¬ Fetches ⟨0, 0, .upTo (2 ^ 31), fun _ => 0⟩ 3 .answering .one ⟨1, none⟩
        (UserInterface.bare.registered 1 7 none).info := by
  obtain ⟨packet, hmade, hlen⟩ := serializeInterfaceInfo_bare 1
    .empty .empty rfl rfl
  have hinfo : (UserInterface.bare.registered 1 7 none).info
      = ⟨some .empty, some .empty, [], []⟩ := rfl
  rw [← hinfo] at hmade
  refine ⟨findInterface_sole _, ⟨packet, hmade, by rw [hlen]; decide⟩,
    ⟨zero_not_neg, Receiver.fine_reliable _, rfl, zero_not_neg, fun _ => zero_not_neg⟩, ?_⟩
  intro hfetches
  have hwaits := remoteQuery_waits (q := ⟨0, 0, .upTo (2 ^ 31), fun _ => 0⟩)
    ⟨zero_not_neg, zero_not_neg, _, rfl, by decide⟩ 3 .answering .one ⟨1, none⟩
  have hret := hfetches.1
  rw [hwaits] at hret
  exact absurd hret.symm (Option.some_ne_none _)

/-- **ONLY THE LENGTH IS MISSING**: if the server received the same packet behind
    its length, the client would get the description, where it travels in one
    receive. -/
theorem framed_query_fetches {q : QueryEnv} (hq : q.Delivers) {h : Host}
    (hname : ¬ h.getname < 0) (hr : h.receiver.Reliable)
    (hsend : ¬ h.env.sendRet 0 < 0) {k : Registry} {p : Nat} {x : Interface}
    {interface : PeerInterface}
    (hfound : k.findInterface interface.id.toInt32 = some (some (p, x)))
    {packet : List UInt8} (hne : packet ≠ [])
    (hlen : packet.length ≤ BUFFER_INC_SIZE.toNat)
    (hmade : serializeInterfaceInfo interface.id x.argc x.retc x.info = .ok packet)
    (hdecoded : ∀ behind, (unserializeInterfaceInfo (UInt32.ofNat packet.length)
      (overlay packet behind) 0).val = x.info) (sock : SockId) :
    let reply := h.describe (frame (rpcEncoding 0 [wordBytes interface.id])) k
    let done := fetchRemoteInterfaceInfo q sock reply interface
    done.ret = some () ∧ done.state.info = some x.info := by
  intro reply done
  have hreply : reply = packet := h.describe_framed hname hr hsend hfound
    (Nat.lt_of_le_of_lt hlen (by decide)) hmade
  obtain ⟨hret, hstate⟩ := receiveInfo_described hq hne hlen hdecoded interface
  have hdone : done = (receiveInfo q packet interface).after
      [.sendto sock (rpcEncoding 0 [wordBytes interface.id]) q.sendRet] := by
    show fetchRemoteInterfaceInfo q sock reply interface = _
    rw [fetchRemoteInterfaceInfo_run hq, hreply]
  rw [hdone, after_ret, after_state, hret, hstate]
  exact ⟨rfl, rfl⟩

end DistComm
