import DistComm.Ownership
import DistComm.Peers
import DistComm.Query

/-! # Cleanup of remote calls

    `execute_remote_interface` and `fetch_remote_interface_info` of
    `module/network/peer.c` once more, for what becomes of their buffers and of the
    socket that `init_socket` creates: every local variable is uninitialised, NULL or
    points to a block, and the calls on the way may fail in every way.  The functions
    of the source have the prefix `Cleanup` in this view, and return what they return
    in the other one (`Cleanup.executeRemoteInterface_ret`).

    No buffer is freed twice.  But a call that is given up before its `buffer` is
    allocated frees what the uninitialised variable points to, and a socket that does
    not connect, or that a query used, is not released (`cleanup_balanced_iff`). -/

namespace DistComm

open RawMemory RawScan PointerArray TracedProgram GrowBuffer Ownership

/-- A call of `sock_sendto` or `sock_recvfrom`, which are given the variables. -/
def sockCall {α : Type} (sock : Local) (args : List Local) (result : α) :
    Traced Nat Use α := do
  sock.access
  readAll args
  pure result

/-! ## Packets -/

/-- The growth step of `copy_to_buffer`. -/
def Cleanup.growBuffer (alloc : Nat → Bool) (buf : Local × Buffer)
    (srcLength : UInt32) : Traced Nat Use Local :=
  if buf.2.length + srcLength > buf.2.maxSize then krealloc alloc buf.1
  else pure buf.1

/-- `copy_to_buffer`, with the variable that points to the buffer. -/
def Cleanup.copyToBuffer (alloc : Nat → Bool) (buf : Local × Buffer)
    (src : List UInt8) : Traced Nat Use (Local × Buffer) := do
  let v ← Cleanup.growBuffer alloc buf (UInt32.ofNat src.length)
  v.access
  let b ← orFault (Kernel.copyToBuffer buf.2 src)
  pure (v, b)

/-- One round of the loop of `serialize_rpc_packet`. -/
def Cleanup.serializeValue (alloc : Nat → Bool) (attrv : AttrValue)
    (buf : Local × Buffer) : Traced Nat Use (Local × Buffer) := do
  let buf ← Cleanup.copyToBuffer alloc buf (wordBytes attrv.length)
  if attrv.length ≠ 0 then do
    let bytes ← orFault (attrv.addr.read attrv.length.toNat)
    Cleanup.copyToBuffer alloc buf bytes
  else pure buf

/-- The loop of `serialize_rpc_packet`. -/
def Cleanup.serializeValues (alloc : Nat → Bool) (values : List AttrValue) :
    Nat → Nat → Local × Buffer → Traced Nat Use (Local × Buffer)
  | _, 0, buf => pure buf
  | i, n + 1, buf => do
      let attrv ← orFault values[i]?
      let buf ← Cleanup.serializeValue alloc attrv buf
      Cleanup.serializeValues alloc values (i + 1) n buf

/-- `serialize_rpc_packet`. -/
def Cleanup.serializeRpcPacket (alloc : Nat → Bool) (id argc : UInt32)
    (values : List AttrValue) : Traced Nat Use (Local × Buffer) := do
  let buf ← kzalloc alloc
  let buf ← Cleanup.copyToBuffer alloc (buf, Buffer.ofSize BUFFER_INC_SIZE)
    (wordBytes id)
  let buf ← Cleanup.copyToBuffer alloc buf (wordBytes argc)
  Cleanup.serializeValues alloc values 0 argc.toNat buf

/-- The blocks of `n` values or strings, one after the other. -/
def copyBlocks (alloc : Nat → Bool) : Nat → Traced Nat Use Unit
  | 0 => pure ()
  | n + 1 => do
      let addr ← kzalloc alloc
      addr.access
      copyBlocks alloc n

/-- A block for an array of `n` entries, which is not accessed where `n` is 0. -/
def arrayBlock (alloc : Nat → Bool) (n : Nat) : Traced Nat Use Unit := do
  let array ← kzalloc alloc
  if n = 0 then pure () else array.access

/-- The allocations of `unserialize_rpc_packet`, for the values it decodes: the empty
    ones get no block. -/
def Cleanup.unserializeRpcPacket (alloc : Nat → Bool) (values : List AttrValue) :
    Traced Nat Use Unit := do
  arrayBlock alloc values.length
  copyBlocks alloc (values.countP fun v => v.length ≠ 0)

/-- The allocations of `unserialize_interface_info`, for the description it
    decodes. -/
def Cleanup.unserializeInterfaceInfo (alloc : Nat → Bool) (info : Info) :
    Traced Nat Use Unit := do
  arrayBlock alloc 1
  copyBlocks alloc 2
  arrayBlock alloc info.argInfo.length
  copyBlocks alloc (2 * info.argInfo.length)
  arrayBlock alloc info.retInfo.length
  copyBlocks alloc (2 * info.retInfo.length)

/-! ## The callers -/

/-- What the calls on the way return, and the memory behind the buffers. -/
structure CleanupEnv where
  peerCount : Int32
  sockCreate : Int32
  connect : Int32
  sendRet : Nat → Int32
  arrivals : Nat → Arrival
  alloc : Nat → Bool
  behind : Mem

/-- `init_socket`: its result, and what `sock` and `addr` of its caller hold then. -/
def Cleanup.initSocket (e : CleanupEnv) (peerid : Int32) :
    Traced Nat Use (Int32 × Local × Local) :=
  if peerid < 0 ∨ e.peerCount ≤ peerid then
    pure (Int32.ofInt (-EINVALIDPEERID), .uninit, .uninit)
  else if e.sockCreate < 0 then pure (e.sockCreate, .uninit, .uninit)
  else do
    let sock ← newBlock
    emit (.created sock)
    let addr ← kzalloc e.alloc
    addr.access
    pure (e.connect, .allocated sock, addr)

/-- What `size` holds after the first receive, unless not all of it has arrived. -/
def receivedSize (data : List UInt8) : Option Int32 :=
  if data.length = 4 then some (wordAt (store data fun _ => 0) 0).toInt32 else none

/-- `execute_remote_interface` from `end_execute_remote_interface` on. -/
def Cleanup.endExecute (packet buffer sock : Local) (err : Int32) :
    Traced Nat Use Int32 := do
  packet.kfree
  buffer.kfree
  sock.release
  pure err

/-- `execute_remote_interface` from the allocation of `buffer` on. -/
def Cleanup.receiveAnswer (e : CleanupEnv) (sock packet : Local) (err size : Int32)
    (incoming : List UInt8) : Traced Nat Use Int32 := do
  let buffer ← kzalloc e.alloc
  if buffer = .null then Cleanup.endExecute packet buffer sock (-EINVALIDSIZE)
  else do
    let received ← sockCall sock [.null, buffer]
      (sockRecvfrom (e.arrivals 1) size.toInt.toNat incoming)
    let block := store (List.replicate size.toInt.toNat 0) e.behind
    let decoded := (Kernel.unserializeRpcPacket received.1.toUInt32
      (store received.2.1 block) 0).val
    Cleanup.unserializeRpcPacket e.alloc decoded.2
    Cleanup.endExecute packet buffer sock err

/-- `execute_remote_interface` from the first receive on. -/
def Cleanup.receiveResult (e : CleanupEnv) (sock packet : Local) (err : Int32)
    (incoming : List UInt8) : Traced Nat Use Int32 := do
  let received ← sockCall sock [.null] (sockRecvfrom (e.arrivals 0) 4 incoming)
  match receivedSize received.2.1 with
  | none => undefined
  | some size =>
      if size.toInt ≤ 0 then Cleanup.endExecute packet .uninit sock (-EINVALIDSIZE)
      else Cleanup.receiveAnswer e sock packet err size received.2.2

/-- `execute_remote_interface` once its packet is made. -/
def Cleanup.sendPacket (e : CleanupEnv) (sock addr packet : Local)
    (incoming : List UInt8) : Traced Nat Use Int32 := do
  let err ← sockCall sock [addr] (e.sendRet 0)
  if err < 0 then Cleanup.endExecute packet .uninit sock err
  else do
    let err ← sockCall sock [addr, packet] (e.sendRet 1)
    if err < 0 then Cleanup.endExecute packet .uninit sock err
    else Cleanup.receiveResult e sock packet err incoming

/-- `execute_remote_interface` once it is connected. -/
def Cleanup.sendRequest (e : CleanupEnv) (call : RemoteInterface)
    (incoming : List UInt8) (sock addr : Local) : Traced Nat Use Int32 := do
  let (packet, _) ←
    Cleanup.serializeRpcPacket e.alloc call.id call.argc call.argv
  Cleanup.sendPacket e sock addr packet incoming

/-- `execute_remote_interface`. -/
def Cleanup.executeRemoteInterface (e : CleanupEnv) (peerid : Int32)
    (call : RemoteInterface) (incoming : List UInt8) : Traced Nat Use Int32 := do
  let (err, sock, addr) ← Cleanup.initSocket e peerid
  if err < 0 then pure err
  else Cleanup.sendRequest e call incoming sock addr

/-- `fetch_remote_interface_info` from `end_execute_remote_interface` on. -/
def Cleanup.endFetch (packet buffer : Local) : Traced Nat Use Unit := do
  packet.kfree
  buffer.kfree

/-- The description that the buffer of `fetch_remote_interface_info` holds. -/
def CleanupEnv.info (e : CleanupEnv) (length : Int32) (data : List UInt8) : Info :=
  let buffer := store (List.replicate BUFFER_INC_SIZE.toNat 0) e.behind
  (unserializeInterfaceInfo length.toUInt32 (store data buffer) 0).val

/-- `fetch_remote_interface_info` from the allocation of `buffer` on: the decoder reads
    this buffer, whatever was received. -/
def Cleanup.receiveInfo (e : CleanupEnv) (sock addr packet : Local)
    (incoming : List UInt8) : Traced Nat Use Unit := do
  let buffer ← kzalloc e.alloc
  let received ← sockCall sock [addr, buffer]
    (awaitRecvfrom (e.arrivals 0) BUFFER_INC_SIZE.toNat incoming)
  let received ← orFault received
  buffer.access
  Cleanup.unserializeInterfaceInfo e.alloc (e.info received.1 received.2.1)
  Cleanup.endFetch packet buffer

/-- `fetch_remote_interface_info` once it is connected. -/
def Cleanup.sendQuery (e : CleanupEnv) (id : UInt32) (incoming : List UInt8)
    (sock addr : Local) : Traced Nat Use Unit := do
  let argv ← kzalloc e.alloc
  argv.access
  let (packet, _) ←
    Cleanup.serializeRpcPacket e.alloc 0 1 [AttrValue.ofBytes (wordBytes id)]
  let err ← sockCall sock [addr, packet] (e.sendRet 0)
  if err < 0 then Cleanup.endFetch packet .null
  else Cleanup.receiveInfo e sock addr packet incoming

/-- `fetch_remote_interface_info`. -/
def Cleanup.fetchRemoteInterfaceInfo (e : CleanupEnv) (peerid : Int32) (id : UInt32)
    (incoming : List UInt8) : Traced Nat Use Unit := do
  let (err, sock, addr) ← Cleanup.initSocket e peerid
  if err < 0 then pure ()
  else Cleanup.sendQuery e id incoming sock addr

/-! ## Making a packet -/

/-- A socket that was created is there. -/
theorem run_sockCall {α : Type} {args : List Local} (hargs : .uninit ∉ args) (s : Nat)
    (result : α) (n : Nat) :
    sockCall (.allocated s) args result n = ⟨some result, n, []⟩ := by
  rw [sockCall, run_bind_some (run_access s n), run_bind_some (run_readAll hargs n)]
  rfl

/-- **ONE COPY** keeps the block or replaces it. -/
theorem Cleanup.copyToBuffer_replaces (alloc : Nat → Bool) {b n : Nat} (hb : b < n)
    (buf : Buffer) (src : List UInt8) :
    Replaces b (Cleanup.copyToBuffer alloc (.allocated b, buf) src n) := by
  by_cases hgrow : buf.length + UInt32.ofNat src.length > buf.maxSize
  · have hrealloc : Cleanup.growBuffer alloc (.allocated b, buf)
        (UInt32.ofNat src.length) = krealloc alloc (.allocated b) := if_pos hgrow
    rw [Cleanup.copyToBuffer, hrealloc]
    cases halloc : alloc n with
    | false =>
        rw [run_bind_some (run_krealloc_fails halloc _)]
        exact .stop b _
    | true =>
        have hcopied := Replaces.replace hb (Kernel.copyToBuffer buf src)
        rw [run_bind_some (run_krealloc_ok halloc b)]
        cases hcopy : Kernel.copyToBuffer buf src with
        | none =>
            rw [hcopy] at hcopied
            exact hcopied
        | some buf' =>
            rw [hcopy] at hcopied
            exact hcopied
  · have hsame : Cleanup.growBuffer alloc (.allocated b, buf)
        (UInt32.ofNat src.length) = pure (.allocated b) := if_neg hgrow
    rw [Cleanup.copyToBuffer, hsame]
    cases Kernel.copyToBuffer buf src with
    | none => exact .stop b n
    | some buf' => exact .keep hb buf'

theorem Cleanup.serializeValue_replaces (alloc : Nat → Bool) (attrv : AttrValue)
    {b n : Nat} (hb : b < n) (buf : Buffer) :
    Replaces b (Cleanup.serializeValue alloc attrv (.allocated b, buf) n) := by
  rw [Cleanup.serializeValue]
  refine Replaces.bind (Cleanup.copyToBuffer_replaces alloc hb buf _)
    fun b' buf' n' hb' => ?_
  by_cases hempty : attrv.length ≠ 0
  · rw [if_pos hempty]
    cases attrv.addr.read attrv.length.toNat with
    | none => exact .stop b' n'
    | some bytes => exact Cleanup.copyToBuffer_replaces alloc hb' buf' bytes
  · rw [if_neg hempty]
    exact .keep hb' buf'

/-- **THE LOOP** goes on with the block that one round leaves. -/
theorem Cleanup.serializeValues_replaces (alloc : Nat → Bool) (values : List AttrValue)
    (count i : Nat) {b n : Nat} (hb : b < n) (buf : Buffer) :
    Replaces b
      (Cleanup.serializeValues alloc values i count (.allocated b, buf) n) := by
  induction count generalizing i b n buf with
  | zero => exact .keep hb buf
  | succ count ih =>
      rw [Cleanup.serializeValues]
      cases values[i]? with
      | none => exact .stop b n
      | some attrv =>
          exact Replaces.bind (Cleanup.serializeValue_replaces alloc attrv hb buf)
            fun b' buf' n' hb' => ih (i + 1) hb' buf'

/-- There is no block to copy the packet to. -/
theorem Cleanup.serializeRpcPacket_fails {alloc : Nat → Bool} {n : Nat}
    (halloc : alloc n = false) (id argc : UInt32) (values : List AttrValue) :
    Cleanup.serializeRpcPacket alloc id argc values n = ⟨none, n + 1, []⟩ := by
  have hfresh : ¬ (Buffer.ofSize BUFFER_INC_SIZE).length
      + UInt32.ofNat (wordBytes id).length > (Buffer.ofSize BUFFER_INC_SIZE).maxSize := by
    rw [length_wordBytes]
    decide
  have hsame : Cleanup.growBuffer alloc (.null, Buffer.ofSize BUFFER_INC_SIZE)
      (UInt32.ofNat (wordBytes id).length) = pure .null := if_neg hfresh
  have hcopy : Cleanup.copyToBuffer alloc (.null, Buffer.ofSize BUFFER_INC_SIZE)
      (wordBytes id) (n + 1) = ⟨none, n + 1, []⟩ := by
    rw [Cleanup.copyToBuffer, hsame]
    rfl
  rw [Cleanup.serializeRpcPacket, run_bind_some (run_kzalloc_fails halloc),
    run_bind_none hcopy]
  rfl

/-- **THE PACKET** is copied to the block that was allocated for it, and to its
    replacements. -/
theorem Cleanup.serializeRpcPacket_replaces (alloc : Nat → Bool) (id argc : UInt32)
    (values : List AttrValue) (n : Nat) :
    Replaces n (Cleanup.serializeRpcPacket alloc id argc values n) := by
  cases halloc : alloc n with
  | false =>
      rw [Cleanup.serializeRpcPacket_fails halloc]
      exact .stop n _
  | true =>
      rw [Cleanup.serializeRpcPacket, run_bind_some (run_kzalloc_ok halloc)]
      exact Replaces.bind (Cleanup.copyToBuffer_replaces alloc (Nat.lt_succ_self n) _ _)
        fun b buf m hb => Replaces.bind (Cleanup.copyToBuffer_replaces alloc hb buf _)
          fun c buf' m' hc => Cleanup.serializeValues_replaces alloc values _ 0 hc buf'

/-- The packet of a query needs no other block. -/
theorem Cleanup.serializeQuery_run {alloc : Nat → Bool} {n : Nat}
    (halloc : alloc n = true) (id : UInt32) :
    ∃ buf, Cleanup.serializeRpcPacket alloc 0 1 [AttrValue.ofBytes (wordBytes id)] n
      = ⟨some (.allocated n, buf), n + 1, []⟩ := by
  rw [Cleanup.serializeRpcPacket, run_bind_some (run_kzalloc_ok halloc)]
  exact ⟨_, rfl⟩

/-! ## The socket -/

/-- `init_socket` does not come to the connect: there is no such peer, no socket, or
    no block for the address. -/
def CleanupEnv.Unconnected (e : CleanupEnv) (peerid : Int32) : Prop :=
  (peerid < 0 ∨ e.peerCount ≤ peerid) ∨ e.sockCreate < 0 ∨ e.alloc 1 = false

theorem Cleanup.initSocket_unconnected {e : CleanupEnv} {peerid : Int32}
    (h : e.Unconnected peerid) :
    (∃ err, err < 0
        ∧ Cleanup.initSocket e peerid 0 = ⟨some (err, .uninit, .uninit), 0, []⟩)
      ∨ Cleanup.initSocket e peerid 0 = ⟨none, 2, [.created 0]⟩ := by
  rw [Cleanup.initSocket]
  by_cases hpeer : peerid < 0 ∨ e.peerCount ≤ peerid
  · rw [if_pos hpeer]
    exact .inl ⟨_, by decide, rfl⟩
  · rw [if_neg hpeer]
    by_cases hcreate : e.sockCreate < 0
    · rw [if_pos hcreate]
      exact .inl ⟨_, hcreate, rfl⟩
    · have halloc := (h.resolve_left hpeer).resolve_left hcreate
      rw [if_neg hcreate, run_bind_some (run_newBlock 0), run_emit_bind,
        run_bind_some (run_kzalloc_fails halloc)]
      exact .inr rfl

theorem Cleanup.initSocket_connected {e : CleanupEnv} {peerid : Int32}
    (h : ¬ e.Unconnected peerid) :
    Cleanup.initSocket e peerid 0
      = ⟨some (e.connect, .allocated 0, .allocated 1), 2, [.created 0]⟩ := by
  obtain ⟨hpeer, h⟩ := not_or.mp h
  obtain ⟨hcreate, halloc⟩ := not_or.mp h
  rw [Cleanup.initSocket, if_neg hpeer, if_neg hcreate, run_bind_some (run_newBlock 0),
    run_emit_bind, run_bind_some (run_kzalloc_ok (Bool.not_eq_false _ ▸ halloc))]
  rfl

/-- **THE SOCKET**: both callers return the error of `init_socket`, and go on with a
    socket otherwise.  If it does not connect, it is kept. -/
theorem balanced_initSocket_iff {α : Type} (e : CleanupEnv) (peerid : Int32)
    (failed : Int32 → α) (connected : Local → Local → Traced Nat Use α) :
    Balanced ((do
        let (err, sock, addr) ← Cleanup.initSocket e peerid
        if err < 0 then pure (failed err) else connected sock addr) 0)
      ↔ e.Unconnected peerid ∨ ¬ e.connect < 0
          ∧ Balanced ((connected (.allocated 0) (.allocated 1) 2).after [.created 0]) := by
  by_cases hun : e.Unconnected peerid
  · refine iff_of_true ?_ (.inl hun)
    rcases Cleanup.initSocket_unconnected hun with ⟨err, herr, hrun⟩ | hrun
    · rw [run_bind_some hrun]
      show Balanced (((if err < 0 then pure (failed err) else _ :
        Traced Nat Use α) 0).after [])
      rw [if_pos herr]
      exact ⟨List.not_mem_nil, List.nodup_nil, fun _ _ hs => absurd hs List.not_mem_nil⟩
    · rw [run_bind_none hrun]
      exact balanced_stopped 0 2 .nil
  · rw [run_bind_some (Cleanup.initSocket_connected hun)]
    show Balanced (((if e.connect < 0 then pure (failed e.connect)
      else connected (.allocated 0) (.allocated 1) : Traced Nat Use α) 2).after _) ↔ _
    by_cases hconnect : e.connect < 0
    · rw [if_pos hconnect]
      refine iff_of_false (not_balanced_kept rfl (List.mem_singleton_self _) ?_) ?_
      · intro h
        cases List.mem_singleton.mp h
      · rintro (h | ⟨h, -⟩)
        · exact hun h
        · exact h hconnect
    · rw [if_neg hconnect]
      constructor
      · exact fun h => .inr ⟨hconnect, h⟩
      · rintro (h | ⟨-, h⟩)
        · exact absurd h hun
        · exact h

/-! ## Decoders -/

/-- The decoders allocate, and nothing else. -/
theorem silent_copyBlocks (alloc : Nat → Bool) (count : Nat) :
    Emits (fun _ => False) (copyBlocks alloc count) := by
  induction count with
  | zero => exact emits_pure ()
  | succ count ih =>
      intro n u hu
      rw [copyBlocks] at hu
      cases halloc : alloc n with
      | false =>
          rw [run_bind_some (run_kzalloc_fails halloc),
            run_bind_none (run_access_null _)] at hu
          exact absurd hu List.not_mem_nil
      | true =>
          rw [run_bind_some (run_kzalloc_ok halloc), run_bind_some (run_access n _)] at hu
          exact ih _ u hu

theorem silent_arrayBlock (alloc : Nat → Bool) (count : Nat) :
    Emits (fun _ => False) (arrayBlock alloc count) := by
  intro n u hu
  rw [arrayBlock, run_bind_some (run_kzalloc alloc n)] at hu
  by_cases hcount : count = 0
  · rw [if_pos hcount] at hu
    exact absurd hu List.not_mem_nil
  · rw [if_neg hcount] at hu
    cases halloc : alloc n with
    | false =>
        rw [halloc] at hu
        exact absurd hu List.not_mem_nil
    | true =>
        rw [halloc] at hu
        exact absurd hu List.not_mem_nil

theorem silent_unserializeRpcPacket (alloc : Nat → Bool) (values : List AttrValue) :
    Emits (fun _ => False) (Cleanup.unserializeRpcPacket alloc values) :=
  (silent_arrayBlock alloc _).bind fun _ => silent_copyBlocks alloc _

theorem silent_unserializeInterfaceInfo (alloc : Nat → Bool) (info : Info) :
    Emits (fun _ => False) (Cleanup.unserializeInterfaceInfo alloc info) :=
  (silent_arrayBlock alloc 1).bind fun _ =>
    (silent_copyBlocks alloc 2).bind fun _ =>
      (silent_arrayBlock alloc _).bind fun _ =>
        (silent_copyBlocks alloc _).bind fun _ =>
          (silent_arrayBlock alloc _).bind fun _ => silent_copyBlocks alloc _

/-! ## Calls -/

/-- The size of the answer arrives, and is one. -/
def CleanupEnv.Answered (e : CleanupEnv) (incoming : List UInt8) : Prop :=
  ∃ size, receivedSize (sockRecvfrom (e.arrivals 0) 4 incoming).2.1 = some size
    ∧ 0 < size.toInt

/-- The answer is decoded, or its buffer is NULL. -/
theorem Cleanup.receiveAnswer_cleaned (e : CleanupEnv) {b n : Nat} (hb : b < n)
    (err size : Int32) (incoming : List UInt8) :
    Cleaned 0 b
      (Cleanup.receiveAnswer e (.allocated 0) (.allocated b) err size incoming n) := by
  rw [Cleanup.receiveAnswer]
  cases halloc : e.alloc n with
  | false =>
      rw [run_bind_some (run_kzalloc_fails halloc)]
      exact .inr ⟨[], List.pairwise_singleton _ b, rfl⟩
  | true =>
      have hargs : Local.uninit ∉ [Local.null, Local.allocated n] := by simp
      have hbuffer : Local.allocated n ≠ .null := fun h => by cases h
      rw [run_bind_some (run_kzalloc_ok halloc), if_neg hbuffer,
        run_bind_some (run_sockCall hargs 0 _ _)]
      rcases run_silent (silent_unserializeRpcPacket e.alloc _) (n + 1)
        with ⟨n', hrun⟩ | ⟨n', hrun⟩
      · rw [run_bind_some hrun]
        exact .inr ⟨[n], List.pairwise_pair.mpr hb, rfl⟩
      · rw [run_bind_none hrun]
        exact .inl ⟨rfl, rfl⟩

theorem Cleanup.receiveResult_cleaned {e : CleanupEnv} {incoming : List UInt8}
    (h : e.Answered incoming) {b n : Nat} (hb : b < n) (err : Int32) :
    Cleaned 0 b
      (Cleanup.receiveResult e (.allocated 0) (.allocated b) err incoming n) := by
  obtain ⟨size, hsize, hpos⟩ := h
  have hnull : Local.uninit ∉ [Local.null] := by decide
  rw [Cleanup.receiveResult, run_bind_some (run_sockCall hnull 0 _ n)]
  simp only [hsize, if_neg (Int.not_le.mpr hpos)]
  exact Cleanup.receiveAnswer_cleaned e hb err size _

/-- A call that is given up before `buffer` is allocated reads this variable. -/
theorem Cleanup.endExecute_undefined (b : Nat) (sock : Local) (err : Int32) (n : Nat) :
    Undefined (Cleanup.endExecute (.allocated b) .uninit sock err n) :=
  ⟨rfl, List.mem_cons_of_mem _ (List.mem_singleton_self _)⟩

/-- **NO ANSWER**: `size` is read although it was not written, or `buffer` is. -/
theorem Cleanup.receiveResult_undefined {e : CleanupEnv} {incoming : List UInt8}
    (h : ¬ e.Answered incoming) (b n : Nat) (err : Int32) :
    Undefined
      (Cleanup.receiveResult e (.allocated 0) (.allocated b) err incoming n) := by
  have hnull : Local.uninit ∉ [Local.null] := by decide
  rw [Cleanup.receiveResult, run_bind_some (run_sockCall hnull 0 _ n)]
  cases hsize : receivedSize (sockRecvfrom (e.arrivals 0) 4 incoming).2.1 with
  | none => exact ⟨rfl, List.mem_singleton_self _⟩
  | some size =>
      have hle : size.toInt ≤ 0 := Int.not_lt.mp fun hpos => h ⟨size, hsize, hpos⟩
      simp only [if_pos hle]
      exact Cleanup.endExecute_undefined b _ _ n

/-- Both sends succeed, and the size of an answer arrives. -/
def CleanupEnv.Completes (e : CleanupEnv) (incoming : List UInt8) : Prop :=
  ¬ e.sendRet 0 < 0 ∧ ¬ e.sendRet 1 < 0 ∧ e.Answered incoming

theorem Cleanup.sendPacket_cleaned {e : CleanupEnv} {incoming : List UInt8}
    (h : e.Completes incoming) {b n : Nat} (hb : b < n) :
    Cleaned 0 b
      (Cleanup.sendPacket e (.allocated 0) (.allocated 1) (.allocated b) incoming n) := by
  obtain ⟨hfirst, hsecond, hanswered⟩ := h
  have haddr : Local.uninit ∉ [Local.allocated 1] := by decide
  have hargs : Local.uninit ∉ [Local.allocated 1, Local.allocated b] := by simp
  rw [Cleanup.sendPacket, run_bind_some (run_sockCall haddr 0 _ n), if_neg hfirst,
    run_bind_some (run_sockCall hargs 0 _ n), if_neg hsecond]
  exact Cleanup.receiveResult_cleaned hanswered hb _

theorem Cleanup.sendPacket_undefined {e : CleanupEnv} {incoming : List UInt8}
    (h : ¬ e.Completes incoming) (b n : Nat) :
    Undefined (Cleanup.sendPacket e (.allocated 0) (.allocated 1) (.allocated b)
      incoming n) := by
  have haddr : Local.uninit ∉ [Local.allocated 1] := by decide
  have hargs : Local.uninit ∉ [Local.allocated 1, Local.allocated b] := by simp
  rw [Cleanup.sendPacket, run_bind_some (run_sockCall haddr 0 _ n)]
  by_cases hfirst : e.sendRet 0 < 0
  · rw [if_pos hfirst]
    exact Cleanup.endExecute_undefined b _ _ n
  · rw [if_neg hfirst, run_bind_some (run_sockCall hargs 0 _ n)]
    by_cases hsecond : e.sendRet 1 < 0
    · rw [if_pos hsecond]
      exact Cleanup.endExecute_undefined b _ _ n
    · rw [if_neg hsecond]
      exact Cleanup.receiveResult_undefined (fun ha => h ⟨hfirst, hsecond, ha⟩) b n _

/-- `serialize_rpc_packet` returns, and so its allocations succeed. -/
def CleanupEnv.Serializes (e : CleanupEnv) (call : RemoteInterface) : Prop :=
  (Cleanup.serializeRpcPacket e.alloc call.id call.argc call.argv 2).ret.isSome

/-- **A CONNECTED CALL** is balanced exactly if it stops while it makes its packet, or
    sends it and gets the size of an answer. -/
theorem Cleanup.sendRequest_balanced_iff (e : CleanupEnv) (call : RemoteInterface)
    (incoming : List UInt8) :
    Balanced ((Cleanup.sendRequest e call incoming (.allocated 0) (.allocated 1)
        2).after [.created 0])
      ↔ ¬ e.Serializes call ∨ e.Completes incoming := by
  obtain ⟨bs, htrace, hsorted, -, hret⟩ :=
    Cleanup.serializeRpcPacket_replaces e.alloc call.id call.argc call.argv 2
  rw [CleanupEnv.Serializes, Cleanup.sendRequest]
  cases hrun : Cleanup.serializeRpcPacket e.alloc call.id call.argc call.argv 2 with
  | mk ret n t =>
      rw [hrun] at htrace hret
      replace htrace : t = bs.map .freed := htrace
      subst htrace
      cases ret with
      | none =>
          rw [run_bind_none hrun]
          exact iff_of_true (balanced_stopped 0 n hsorted) (.inl Bool.false_ne_true)
      | some r =>
          obtain ⟨b, hb, -, hlt, hbs⟩ := hret r rfl
          have hsome : ¬ ¬ (some r).isSome := not_not_intro rfl
          rw [run_bind_some hrun, or_iff_right hsome, after_after]
          simp only [hb]
          by_cases hcompletes : e.Completes incoming
          · refine iff_of_true ?_ hcompletes
            exact (Cleanup.sendPacket_cleaned hcompletes hlt).balanced hsorted hbs
          · exact iff_of_false
              ((Cleanup.sendPacket_undefined hcompletes b n).not_balanced _) hcompletes

/-! ## Queries -/

/-- The description arrives, and the allocations of its decoder succeed. -/
def CleanupEnv.Described (e : CleanupEnv) (incoming : List UInt8) : Prop :=
  ∃ received, awaitRecvfrom (e.arrivals 0) BUFFER_INC_SIZE.toNat incoming = some received
    ∧ (Cleanup.unserializeInterfaceInfo e.alloc
        (e.info received.1 received.2.1) 5).ret.isSome

/-- A query does not come to its end: an allocation fails, or it waits forever. -/
def CleanupEnv.QueryStops (e : CleanupEnv) (incoming : List UInt8) : Prop :=
  e.alloc 2 = false ∨ e.alloc 3 = false
    ∨ ¬ e.sendRet 0 < 0 ∧ (e.alloc 4 = false ∨ ¬ e.Described incoming)

theorem Cleanup.receiveInfo_stops {e : CleanupEnv} {incoming : List UInt8}
    (h : e.alloc 4 = false ∨ ¬ e.Described incoming) (packet : Local) :
    ∃ n, Cleanup.receiveInfo e (.allocated 0) (.allocated 1) packet incoming 4
      = ⟨none, n, []⟩ := by
  rw [Cleanup.receiveInfo]
  cases halloc : e.alloc 4 with
  | false =>
      -- the wait does not end, or the decoder reads from NULL
      have hargs : Local.uninit ∉ [Local.allocated 1, Local.null] := by decide
      rw [run_bind_some (run_kzalloc_fails halloc),
        run_bind_some (run_sockCall hargs 0 _ 5)]
      cases awaitRecvfrom (e.arrivals 0) BUFFER_INC_SIZE.toNat incoming with
      | none => exact ⟨5, rfl⟩
      | some received => exact ⟨5, rfl⟩
  | true =>
      have hfails : ¬ e.Described incoming :=
        h.resolve_left fun hnull => Bool.noConfusion (hnull.symm.trans halloc)
      have hargs : Local.uninit ∉ [Local.allocated 1, Local.allocated 4] := by decide
      rw [run_bind_some (run_kzalloc_ok halloc),
        run_bind_some (run_sockCall hargs 0 _ 5)]
      cases hreceived : awaitRecvfrom (e.arrivals 0) BUFFER_INC_SIZE.toNat incoming with
      | none => exact ⟨5, rfl⟩
      | some received =>
          rcases run_silent (silent_unserializeInterfaceInfo e.alloc
            (e.info received.1 received.2.1)) 5 with ⟨n', hrun⟩ | ⟨n', hrun⟩
          · exact absurd ⟨received, hreceived, by rw [hrun]; rfl⟩ hfails
          · rw [run_orFault_some_bind rfl, run_bind_some (run_access 4 5),
              run_bind_none hrun]
            exact ⟨n', rfl⟩

theorem Cleanup.receiveInfo_returns {e : CleanupEnv} {incoming : List UInt8}
    (halloc : e.alloc 4 = true) (h : e.Described incoming) (b : Nat) :
    ∃ n, Cleanup.receiveInfo e (.allocated 0) (.allocated 1) (.allocated b) incoming 4
      = ⟨some (), n, [.freed b, .freed 4]⟩ := by
  obtain ⟨received, hreceived, hdecoded⟩ := h
  have hargs : Local.uninit ∉ [Local.allocated 1, Local.allocated 4] := by decide
  rcases run_silent (silent_unserializeInterfaceInfo e.alloc
    (e.info received.1 received.2.1)) 5 with ⟨n', hrun⟩ | ⟨n', hrun⟩
  · rw [Cleanup.receiveInfo, run_bind_some (run_kzalloc_ok halloc),
      run_bind_some (run_sockCall hargs 0 _ 5), run_orFault_some_bind hreceived,
      run_bind_some (run_access 4 5), run_bind_some hrun]
    exact ⟨n', rfl⟩
  · rw [hrun] at hdecoded
    exact Bool.noConfusion hdecoded

/-- **A CONNECTED QUERY** does not release its socket, so that it is balanced exactly
    if it does not return. -/
theorem Cleanup.sendQuery_balanced_iff (e : CleanupEnv) (id : UInt32)
    (incoming : List UInt8) :
    Balanced ((Cleanup.sendQuery e id incoming (.allocated 0) (.allocated 1)
        2).after [.created 0]) ↔ e.QueryStops incoming := by
  have hstopped (n : Nat) :
      Balanced (⟨none, n, [.created 0]⟩ : Outcome Nat Use Unit) := balanced_stopped 0 n .nil
  have hkept (n : Nat) (bs : List Nat) : ¬ Balanced
      (⟨some (), n, .created 0 :: bs.map .freed⟩ : Outcome Nat Use Unit) := by
    refine not_balanced_kept rfl (List.mem_cons_self ..) fun h => ?_
    rcases List.mem_cons.mp h with h | h
    · cases h
    · exact not_mem_map_freed (fun b h => by cases h) bs h
  rw [CleanupEnv.QueryStops, Cleanup.sendQuery]
  cases hargv : e.alloc 2 with
  | false =>
      rw [run_bind_some (run_kzalloc_fails hargv), run_bind_none (run_access_null 3)]
      exact iff_of_true (hstopped 3) (.inl rfl)
  | true =>
      rw [run_bind_some (run_kzalloc_ok hargv), run_bind_some (run_access 2 3)]
      cases hpacket : e.alloc 3 with
      | false =>
          rw [run_bind_none (Cleanup.serializeRpcPacket_fails hpacket 0 1 _)]
          exact iff_of_true (hstopped 4) (.inr (.inl rfl))
      | true =>
          obtain ⟨buf, hrun⟩ := Cleanup.serializeQuery_run hpacket id
          have hargs : Local.uninit ∉ [Local.allocated 1, Local.allocated 3] := by decide
          rw [run_bind_some hrun]
          show Balanced (((((sockCall _ _ _ >>= _ : Traced Nat Use Unit) 4).after
            _).after _).after _) ↔ _
          rw [run_bind_some (run_sockCall hargs 0 _ 4)]
          simp only [Bool.true_eq_false, false_or]
          by_cases hsend : e.sendRet 0 < 0
          · rw [if_pos hsend]
            exact iff_of_false (hkept 4 [3]) fun h => h.1 hsend
          · rw [if_neg hsend]
            by_cases hstops : e.alloc 4 = false ∨ ¬ e.Described incoming
            · obtain ⟨n, hinfo⟩ := Cleanup.receiveInfo_stops hstops (.allocated 3)
              rw [hinfo]
              exact iff_of_true (hstopped n) ⟨hsend, hstops⟩
            · obtain ⟨halloc, hdescribed⟩ := not_or.mp hstops
              obtain ⟨n, hinfo⟩ := Cleanup.receiveInfo_returns
                (Bool.not_eq_false _ ▸ halloc) (not_not.mp hdescribed) 3
              rw [hinfo]
              exact iff_of_false (hkept n [3, 4]) fun h => hstops h.2

/-! ## Both callers -/

/-- **EVERY CALL** is balanced exactly if `init_socket` gets no connection to fail,
    and the connected call stops or completes. -/
theorem Cleanup.executeRemoteInterface_balanced_iff (e : CleanupEnv) (peerid : Int32)
    (call : RemoteInterface) (incoming : List UInt8) :
    Balanced (Cleanup.executeRemoteInterface e peerid call incoming 0)
      ↔ e.Unconnected peerid
        ∨ ¬ e.connect < 0 ∧ (¬ e.Serializes call ∨ e.Completes incoming) := by
  rw [← Cleanup.sendRequest_balanced_iff]
  exact balanced_initSocket_iff e peerid id (Cleanup.sendRequest e call incoming)

/-- **EVERY QUERY** that returns keeps its socket, if it has one. -/
theorem Cleanup.fetchRemoteInterfaceInfo_balanced_iff (e : CleanupEnv) (peerid : Int32)
    (id : UInt32) (incoming : List UInt8) :
    Balanced (Cleanup.fetchRemoteInterfaceInfo e peerid id incoming 0)
      ↔ e.Unconnected peerid ∨ ¬ e.connect < 0 ∧ e.QueryStops incoming := by
  rw [← Cleanup.sendQuery_balanced_iff e id]
  exact balanced_initSocket_iff e peerid (fun _ => ()) (Cleanup.sendQuery e id incoming)

/-- **CLEANUP** is balanced exactly on the paths that do not read `size` or `buffer`
    too early and do not keep a socket. -/
theorem cleanup_balanced_iff (e : CleanupEnv) (peerid : Int32) (incoming : List UInt8) :
    (∀ call : RemoteInterface,
        Balanced (Cleanup.executeRemoteInterface e peerid call incoming 0)
          ↔ e.Unconnected peerid
            ∨ ¬ e.connect < 0 ∧ (¬ e.Serializes call ∨ e.Completes incoming))
      ∧ ∀ id : UInt32,
        Balanced (Cleanup.fetchRemoteInterfaceInfo e peerid id incoming 0)
          ↔ e.Unconnected peerid ∨ ¬ e.connect < 0 ∧ e.QueryStops incoming :=
  ⟨fun call => Cleanup.executeRemoteInterface_balanced_iff e peerid call incoming,
    fun id => Cleanup.fetchRemoteInterfaceInfo_balanced_iff e peerid id incoming⟩

/-! ## What the calls return -/

/-- A copy that is done is the copy of the encoder. -/
theorem Cleanup.copyToBuffer_ret {alloc : Nat → Bool} {buf buf' : Local × Buffer}
    {src : List UInt8} {n : Nat}
    (h : (Cleanup.copyToBuffer alloc buf src n).ret = some buf') :
    Kernel.copyToBuffer buf.2 src = some buf'.2 := by
  rw [Cleanup.copyToBuffer] at h
  obtain ⟨v, n', -, -, h⟩ := ret_bind_some h
  obtain ⟨-, n'', -, -, h⟩ := ret_bind_some h
  obtain ⟨b, hcopy, h⟩ := ret_orFault_bind h
  rw [hcopy, ← Option.some.inj h]

theorem Cleanup.serializeValue_ret {alloc : Nat → Bool} {attrv : AttrValue}
    {buf buf' : Local × Buffer} {n : Nat}
    (h : (Cleanup.serializeValue alloc attrv buf n).ret = some buf') :
    DistComm.serializeValue Kernel.copyToBuffer attrv buf.2 = some buf'.2 := by
  rw [Cleanup.serializeValue] at h
  obtain ⟨first, n', t, hfirst, h⟩ := ret_bind_some h
  have hlength := Cleanup.copyToBuffer_ret (congrArg Outcome.ret hfirst)
  rw [DistComm.serializeValue, hlength, Option.bind_eq_bind, Option.bind_some]
  by_cases hempty : attrv.length ≠ 0
  · rw [if_pos hempty] at h ⊢
    obtain ⟨bytes, hread, h⟩ := ret_orFault_bind h
    rw [hread, Option.bind_eq_bind, Option.bind_some]
    exact Cleanup.copyToBuffer_ret h
  · rw [if_neg hempty] at h ⊢
    rw [← Option.some.inj h]
    rfl

theorem Cleanup.serializeValues_ret {alloc : Nat → Bool} {values : List AttrValue}
    (count i : Nat) {buf buf' : Local × Buffer} {n : Nat}
    (h : (Cleanup.serializeValues alloc values i count buf n).ret = some buf') :
    DistComm.serializeValues Kernel.copyToBuffer values i count buf.2
      = some buf'.2 := by
  induction count generalizing i buf n with
  | zero =>
      rw [← Option.some.inj h]
      rfl
  | succ count ih =>
      rw [Cleanup.serializeValues] at h
      obtain ⟨attrv, hget, h⟩ := ret_orFault_bind h
      obtain ⟨round, n', t, hround, h⟩ := ret_bind_some h
      have hvalue := Cleanup.serializeValue_ret (congrArg Outcome.ret hround)
      rw [DistComm.serializeValues, hget, Option.bind_eq_bind, Option.bind_some, hvalue,
        Option.bind_eq_bind, Option.bind_some]
      exact ih (i + 1) h

/-- **THE SAME PACKET** as the encoder makes, if `serialize_rpc_packet` returns. -/
theorem Cleanup.serializeRpcPacket_ret {alloc : Nat → Bool} {id argc : UInt32}
    {values : List AttrValue} {n : Nat} {buf : Local × Buffer}
    (h : (Cleanup.serializeRpcPacket alloc id argc values n).ret = some buf) :
    Kernel.serializeRpcPacket id argc values = some buf.2.contents := by
  rw [Cleanup.serializeRpcPacket] at h
  obtain ⟨v, n', t, -, h⟩ := ret_bind_some h
  obtain ⟨first, n'', t', hfirst, h⟩ := ret_bind_some h
  obtain ⟨second, n₃, t'', hsecond, h⟩ := ret_bind_some h
  have hid := Cleanup.copyToBuffer_ret (congrArg Outcome.ret hfirst)
  have hargc := Cleanup.copyToBuffer_ret (congrArg Outcome.ret hsecond)
  have hvalues := Cleanup.serializeValues_ret _ 0 h
  rw [Kernel.serializeRpcPacket]
  simp only [hid, hargc, hvalues, Option.bind_eq_bind, Option.bind_some]
  rfl

/-- The receives of a call, with the allocation of `buffer` that is number `n`. -/
def CleanupEnv.receiver (e : CleanupEnv) (n : Nat) : Receiver :=
  ⟨e.arrivals, e.alloc n, e.behind⟩

/-- Once the size has arrived, only the allocation of `buffer` can fail. -/
theorem CleanupEnv.receiveFrame_isSome {e : CleanupEnv} {incoming : List UInt8}
    {size : Int32}
    (hsize : receivedSize (sockRecvfrom (e.arrivals 0) 4 incoming).2.1 = some size)
    (hpos : 0 < size.toInt) (n : Nat) :
    (receiveFrame (fun _ => 0) (e.receiver n) incoming).isSome = e.alloc n := by
  rw [receivedSize] at hsize
  split at hsize
  · have hword := Option.some.inj hsize
    rw [receiveFrame]
    simp only [CleanupEnv.receiver, hword, if_neg (Int.not_le.mpr hpos)]
    cases e.alloc n with
    | false => rfl
    | true => rfl
  · cases hsize

theorem Cleanup.receiveAnswer_ret {e : CleanupEnv} {b n : Nat} {err size ret : Int32}
    {incoming : List UInt8}
    (h : (Cleanup.receiveAnswer e (.allocated 0) (.allocated b) err size incoming
      n).ret = some ret) :
    ret = if e.alloc n then err else -EINVALIDSIZE := by
  rw [Cleanup.receiveAnswer] at h
  cases halloc : e.alloc n with
  | false =>
      rw [run_bind_some (run_kzalloc_fails halloc)] at h
      exact (Option.some.inj h).symm
  | true =>
      have hbuffer : Local.allocated n ≠ .null := fun h => by cases h
      rw [run_bind_some (run_kzalloc_ok halloc), if_neg hbuffer, after_ret] at h
      obtain ⟨received, n', -, -, h⟩ := ret_bind_some h
      obtain ⟨-, n'', -, -, h⟩ := ret_bind_some h
      exact (Option.some.inj h).symm

theorem Cleanup.receiveResult_ret {e : CleanupEnv} {b n : Nat} {err ret : Int32}
    {incoming : List UInt8} (hanswered : e.Answered incoming)
    (h : (Cleanup.receiveResult e (.allocated 0) (.allocated b) err incoming
      n).ret = some ret) (c : CallEnv) (hsize : c.size = fun _ => 0)
    (hreceiver : c.receiver = e.receiver n) (call : RemoteInterface) :
    (DistComm.receiveResult c err incoming call).ret = some ret := by
  obtain ⟨size, hreceived, hpos⟩ := hanswered
  have hnull : Local.uninit ∉ [Local.null] := by decide
  rw [Cleanup.receiveResult, run_bind_some (run_sockCall hnull 0 _ n)] at h
  simp only [hreceived, if_neg (Int.not_le.mpr hpos), after_ret] at h
  have hframe := CleanupEnv.receiveFrame_isSome hreceived hpos n
  rw [Cleanup.receiveAnswer_ret h, DistComm.receiveResult, hsize, hreceiver]
  cases hrun : receiveFrame (fun _ => 0) (e.receiver n) incoming with
  | none =>
      rw [hrun] at hframe
      rw [← hframe]
      rfl
  | some received =>
      rw [hrun] at hframe
      rw [← hframe]
      rfl

theorem Cleanup.sendPacket_ret {e : CleanupEnv} {b n : Nat} {ret : Int32}
    {incoming : List UInt8}
    (h : (Cleanup.sendPacket e (.allocated 0) (.allocated 1) (.allocated b) incoming
      n).ret = some ret) :
    e.Completes incoming
      ∧ (Cleanup.receiveResult e (.allocated 0) (.allocated b) (e.sendRet 1) incoming
          n).ret = some ret := by
  have hcompletes : e.Completes incoming := by
    by_contra hnot
    rw [(Cleanup.sendPacket_undefined hnot b n).1] at h
    cases h
  have haddr : Local.uninit ∉ [Local.allocated 1] := by decide
  have hargs : Local.uninit ∉ [Local.allocated 1, Local.allocated b] := by simp
  rw [Cleanup.sendPacket, run_bind_some (run_sockCall haddr 0 _ n),
    if_neg hcompletes.1, run_bind_some (run_sockCall hargs 0 _ n),
    if_neg hcompletes.2.1] at h
  exact ⟨hcompletes, h⟩

/-- **THE SAME RESULT**: a call that returns has the result of the call, whose connection
    is what `init_socket` returns. -/
theorem Cleanup.executeRemoteInterface_ret {e : CleanupEnv} {peerid ret : Int32}
    {call : RemoteInterface} {incoming : List UInt8}
    (h : (Cleanup.executeRemoteInterface e peerid call incoming 0).ret = some ret)
    (hlen : ∀ packet, Kernel.serializeRpcPacket call.id call.argc call.argv = some packet →
      packet.length < 2 ^ 31) (sock : SockId) :
    ∃ init n, (Cleanup.initSocket e peerid 0).ret.map Prod.fst = some init
      ∧ (DistComm.executeRemoteInterface ⟨init, e.sendRet, e.receiver n, fun _ => 0⟩ sock
          incoming call).ret = some ret := by
  rw [Cleanup.executeRemoteInterface] at h
  obtain ⟨⟨init, s, addr⟩, n', t, hinit, h⟩ := ret_bind_some h
  refine ⟨init, ?_⟩
  rw [hinit]
  by_cases hfailed : init < 0
  · simp only [if_pos hfailed] at h
    refine ⟨0, rfl, ?_⟩
    rw [DistComm.executeRemoteInterface, if_pos hfailed]
    exact h
  · simp only [if_neg hfailed] at h
    have hconnected : ¬ e.Unconnected peerid := fun hun => by
      rcases Cleanup.initSocket_unconnected hun with ⟨err, herr, hrun⟩ | hrun
      · cases hrun.symm.trans hinit
        exact hfailed herr
      · cases hrun.symm.trans hinit
    cases (Cleanup.initSocket_connected hconnected).symm.trans hinit
    obtain ⟨⟨packet, buf⟩, n, t', hrun, h⟩ := ret_bind_some h
    obtain ⟨bs, -, -, -, hblock⟩ :=
      Cleanup.serializeRpcPacket_replaces e.alloc call.id call.argc call.argv 2
    rw [hrun] at hblock
    obtain ⟨b, hb, -⟩ := hblock (packet, buf) rfl
    replace hb : packet = .allocated b := hb
    subst hb
    obtain ⟨hcompletes, hresult⟩ := Cleanup.sendPacket_ret h
    have hpacket := Cleanup.serializeRpcPacket_ret (congrArg Outcome.ret hrun)
    have hfour : (wordBytes (UInt32.ofNat buf.contents.length)).length < 2 ^ 31 := by
      rw [length_wordBytes]
      decide
    refine ⟨n, rfl, ?_⟩
    rw [DistComm.executeRemoteInterface, if_neg hfailed, run_getState_bind,
      run_orFault_some_bind hpacket,
      run_bind_some (run_sendBlock sock hfour (e.sendRet 0) call),
      if_neg hcompletes.1,
      run_bind_some (run_sendBlock sock (hlen _ hpacket) (e.sendRet 1) call),
      if_neg hcompletes.2.1]
    exact Cleanup.receiveResult_ret hcompletes.2.2 hresult _ rfl rfl call

theorem sockCall_ret {α : Type} {sock : Local} {args : List Local} {result a : α}
    {n : Nat} (h : (sockCall sock args result n).ret = some a) : a = result := by
  rw [sockCall] at h
  obtain ⟨-, n', -, -, h⟩ := ret_bind_some h
  obtain ⟨-, n'', -, -, h⟩ := ret_bind_some h
  exact (Option.some.inj h).symm

/-- A query that returns is one that returns in `fetch_remote_interface_info`. -/
theorem Cleanup.fetchRemoteInterfaceInfo_ret {e : CleanupEnv} {peerid : Int32}
    {id : UInt32} {incoming : List UInt8}
    (h : (Cleanup.fetchRemoteInterfaceInfo e peerid id incoming 0).ret = some ())
    (sock : SockId) :
    ∃ init, (Cleanup.initSocket e peerid 0).ret.map Prod.fst = some init
      ∧ (DistComm.fetchRemoteInterfaceInfo ⟨init, e.sendRet 0, e.arrivals 0, e.behind⟩
          sock incoming ⟨id, none⟩).ret = some () := by
  rw [Cleanup.fetchRemoteInterfaceInfo] at h
  obtain ⟨⟨init, s, addr⟩, n, t, hinit, h⟩ := ret_bind_some h
  refine ⟨init, by rw [hinit]; rfl, ?_⟩
  rw [DistComm.fetchRemoteInterfaceInfo]
  by_cases hfailed : init < 0
  · rw [if_pos hfailed]
    rfl
  · simp only [if_neg hfailed, Cleanup.sendQuery] at h
    obtain ⟨argv, n', -, -, h⟩ := ret_bind_some h
    obtain ⟨-, n', -, -, h⟩ := ret_bind_some h
    obtain ⟨⟨packet, buf⟩, n', -, -, h⟩ := ret_bind_some h
    obtain ⟨err, n', t', hsend, h⟩ := ret_bind_some h
    have herr : err = e.sendRet 0 := sockCall_ret (congrArg Outcome.ret hsend)
    have hlen : (rpcEncoding 0 [wordBytes id]).length < 2 ^ 31 := by
      rw [length_query]
      decide
    rw [if_neg hfailed, run_getState_bind, run_orFault_some_bind (query_packet id),
      run_bind_some (run_sendBlock sock hlen (e.sendRet 0) _), ← herr]
    by_cases hnegative : err < 0
    · rw [if_pos hnegative]
      rfl
    · rw [if_neg hnegative, Cleanup.receiveInfo] at h
      obtain ⟨buffer, n', -, -, h⟩ := ret_bind_some h
      obtain ⟨awaited, n', t'', hawaited, h⟩ := ret_bind_some h
      obtain ⟨received, hreceived, -⟩ := ret_orFault_bind h
      rw [sockCall_ret (congrArg Outcome.ret hawaited)] at hreceived
      rw [if_neg hnegative, DistComm.receiveInfo, run_orFault_some_bind hreceived]
      rfl

/-! ## Calls that are not cleaned up -/

/-- A peer, and calls that all succeed; no answer arrives. -/
def CleanupEnv.fine : CleanupEnv :=
  ⟨1, 0, 0, fun _ => 0, fun _ => .upTo (2 ^ 31), fun _ => true, fun _ => 0⟩

/-- The connection is refused. -/
def CleanupEnv.refused : CleanupEnv := { CleanupEnv.fine with connect := -111 }

/-- The connection is reset before anything is sent. -/
def CleanupEnv.reset : CleanupEnv := { CleanupEnv.fine with sendRet := fun _ => -104 }

/-- A call without arguments. -/
def RemoteInterface.bare : RemoteInterface := ⟨1, 0, [], 0, none⟩

/-- A refused connection keeps the socket, a call that is not sent frees what its
    `buffer` points to, and a query keeps its socket in any case. -/
theorem cleanup_unbalanced :
    (¬ ∀ (e : CleanupEnv) (peerid : Int32) (call : RemoteInterface)
        (incoming : List UInt8),
        Balanced (Cleanup.executeRemoteInterface e peerid call incoming 0))
      ∧ (¬ ∀ (e : CleanupEnv) (peerid : Int32) (call : RemoteInterface)
          (incoming : List UInt8),
          .undefined ∉ (Cleanup.executeRemoteInterface e peerid call incoming 0).trace)
      ∧ ¬ ∀ (e : CleanupEnv) (peerid : Int32) (id : UInt32) (incoming : List UInt8),
          Balanced (Cleanup.fetchRemoteInterfaceInfo e peerid id incoming 0) := by
  have hpeer (e : CleanupEnv) (hcount : e.peerCount = 1) (hcreate : e.sockCreate = 0)
      (halloc : e.alloc 1 = true) : ¬ e.Unconnected 0 := by
    rw [CleanupEnv.Unconnected, hcount, hcreate, halloc]
    decide
  refine ⟨fun hall => ?_, fun hall => ?_, fun hall => ?_⟩
  · have hbalanced := hall .refused 0 .bare []
    rw [Cleanup.executeRemoteInterface_balanced_iff] at hbalanced
    rcases hbalanced with hun | ⟨hconnect, -⟩
    · exact hpeer .refused rfl rfl rfl hun
    · exact hconnect (by decide)
  · exact hall .reset 0 .bare [] (by decide)
  · have hbalanced := hall .reset 0 1 []
    rw [Cleanup.fetchRemoteInterfaceInfo_balanced_iff] at hbalanced
    rcases hbalanced with hun | ⟨-, hargv | hpacket | ⟨hsend, -⟩⟩
    · exact hpeer .reset rfl rfl rfl hun
    · cases hargv
    · cases hpacket
    · exact hsend (by decide)

end DistComm
