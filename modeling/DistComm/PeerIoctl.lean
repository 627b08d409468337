import DistComm.Peers
import DistComm.RemoteCall

/-! # The device of a peer

    `peer_ioctl` of `module/device/peer.c`: a process calls an interface of a peer
    through the device of this peer.

    The call is made on a copy of the cached interface, whose `retv` is NULL, and
    nobody looks at what `execute_remote_interface` returns.  What is written back is
    as many results as the copy has afterwards: as many as the reply has, where there
    is one, and else as many as were asked for, from NULL.  So `peer_ioctl` does what
    it should exactly if the call succeeds and the reply has as many values as were
    asked for (`peer_ioctl_iff`). -/

namespace DistComm

open RawMemory RawScan PointerArray GrowBuffer TracedProgram

/-! ## The system call -/

/-- `EXEC_INTERFACE_CMD`, which is `_IOW(101, 1, struct interface *)`. -/
def EXEC_INTERFACE_CMD : UInt32 := 0x40086501

/-- `EIFNOTFOUND`. -/
def EIFNOTFOUND : Int32 := 50000

/-- The `interface_t` a process passes to `peer_ioctl`: `argv` is NULL or has `argc`
    values, and of `retv` the addresses are read. -/
structure UserCall where
  id : UInt32
  argc : UInt32
  retc : UInt32
  argv : Option (List AttrValue)
  retv : Option (Nat → Nat)
  argv_length : ∀ values, argv = some values → values.length = argc.toNat

/-- What `peer_ioctl` writes to user memory: `retv[i].length`, and bytes with
    `copy_to_user`. -/
inductive UserWrite where
  | length (i : Nat) (n : UInt32)
  | bytes (addr : Nat) (data : List UInt8)
  deriving DecidableEq

/-- `memdup_user` of an argument: a copy, or the error pointer of `-EFAULT`. -/
def memdupUser (v : AttrValue) : Ptr :=
  if v.length = 0 then .block []
  else
    match v.addr.read v.length.toNat with
    | some bytes => .block bytes
    | none => .stale (2 ^ 64 - 14)

/-- The loop that writes back, from index `i` for `n` rounds. -/
def writeBack (retv : Option (List AttrValue)) (u : UserCall) :
    Nat → Nat → Traced Unit UserWrite Unit
  | _, 0 => pure ()
  | i, n + 1 => do
      let v ← orFault (retv.bind fun values => values[i]?)
      let addr ← orFault (u.retv.map fun addrs => addrs i)
      emit (.length i v.length)
      let data ← orFault
        (if v.length = 0 then some [] else v.addr.read v.length.toNat)
      emit (.bytes addr data)
      writeBack retv u (i + 1) n

/-- `peer_ioctl` from the checks on, for the interface `t` of the peer. -/
def callPeer (c : CallEnv) (sock : SockId) (incoming : List UInt8) (t : Advert)
    (u : UserCall) : Traced Unit UserWrite Int32 :=
  if t.argc ≠ u.argc ∨ t.retc ≠ u.retc then pure (-1)
  else if u.argc ≠ 0 ∧ u.argv = none ∨ u.retc ≠ 0 ∧ u.retv = none then pure (-1)
  else do
    let argv ← orFault (readFrom (fun i => u.argv.bind fun values => values[i]?) 0
      t.argc.toNat)
    let called := executeRemoteInterface c sock incoming
      ⟨t.id, t.argc, argv.map fun v => ⟨v.length, memdupUser v⟩, t.retc, none⟩
    -- the result of the call is dropped, whatever it is
    let interface ← orFault (called.ret.map fun _ => called.state)
    writeBack interface.retv u 0 interface.retc.toNat
    pure 0

/-- `peer_ioctl` on the device of `peer`. -/
def peerIoctl (c : CallEnv) (sock : SockId) (incoming : List UInt8) (peer : Peer)
    (ioctlNum : UInt32) (u : UserCall) : Traced Unit UserWrite Int32 :=
  if ioctlNum ≠ EXEC_INTERFACE_CMD then pure 0
  else do
    let found ← orFault (findInterface
      (fun i => peer.interfaces.bind fun interfaces => interfaces[i]?) Advert.id
      peer.interfaceCount u.id.toInt32)
    match found with
    | none => pure (-EIFNOTFOUND)
    | some hit => callPeer c sock incoming hit.val u

/-! ## What it should do -/

/-- How a call to a peer ends: a step of it fails, or a packet arrives with these
    values. -/
inductive Reply where
  | failed
  | packet (values : List (List UInt8))

/-- What the environment of the call and the incoming stream have to do with it.  A
    packet may have more bytes behind the values. -/
def CallEnv.Gets (c : CallEnv) (incoming : List UInt8) : Reply → Prop
  | .failed =>
      c.initSocket < 0 ∨ c.sendRet 0 < 0 ∨ c.sendRet 1 < 0
        ∨ receiveFrame c.size c.receiver incoming = none
        ∨ ∃ i err, i < 2 ∧ c.receiver.arrivals i = .failed err
  | .packet values =>
      c.Delivers ∧ ∃ id reply, rpcEncoding id values <+: reply
        ∧ reply.length < 2 ^ 31 ∧ incoming = frame reply

/-- The request passes the checks of `peer_ioctl`, for the interface `t`. -/
structure UserCall.Passes (u : UserCall) (peer : Peer) (t : Advert) : Prop where
  found : ∃ i, findInterface
    (fun i => peer.interfaces.bind fun interfaces => interfaces[i]?) Advert.id
    peer.interfaceCount u.id.toInt32 = some (some ⟨i, t⟩)
  argc : t.argc = u.argc
  retc : t.retc = u.retc
  argv : u.argc ≠ 0 → u.argv ≠ none
  retv : u.retc ≠ 0 → u.retv ≠ none

/-- The values written to `retv`, from index `i` on. -/
def UserCall.writes (u : UserCall) : Nat → List (List UInt8) → List UserWrite
  | _, [] => []
  | i, v :: vs =>
      .length i (UInt32.ofNat v.length)
        :: .bytes ((u.retv.map fun addrs => addrs i).getD 0) v :: u.writes (i + 1) vs

/-- A negative error, and no write. -/
def Refuses (o : Outcome Unit UserWrite Int32) : Prop :=
  ∃ err, o.ret = some err ∧ err < 0 ∧ o.trace = []

/-- The values of a reply are written back if they are as many as were asked for;
    anything else is refused. -/
def UserCall.Reports (u : UserCall) (o : Outcome Unit UserWrite Int32) :
    Reply → Prop
  | .failed => Refuses o
  | .packet values =>
      if values.length = u.retc.toNat then o.ret = some 0 ∧ o.trace = u.writes 0 values
      else Refuses o

/-- The arguments of the request, none behind NULL. -/
def UserCall.args (u : UserCall) : List AttrValue := u.argv.getD []

/-- The request can be made: its arguments can be read, and the encoder and the
    socket take it. -/
structure UserCall.Requestable (u : UserCall) : Prop where
  readable : ∀ v ∈ u.args, v.Valid
  fits : PiecesFit BUFFER_INC_SIZE.toNat 0 ((rpcLengths u.args).map UInt32.toNat)
  short : (rpcEncoding u.id (u.args.map AttrValue.value)).length < 2 ^ 31

/-! ## The request -/

/-- The argument as `peer_ioctl` copies it. -/
def AttrValue.dup (v : AttrValue) : AttrValue := ⟨v.length, memdupUser v⟩

/-- A copy is valid exactly if the argument can be read, and then it is the same. -/
theorem AttrValue.dup_spec (v : AttrValue) :
    (v.dup.Valid ↔ v.Valid) ∧ (v.Valid → v.dup.value = v.value) := by
  by_cases h0 : v.length = 0
  · refine ⟨⟨fun _ => Or.inl h0, fun _ => Or.inl h0⟩, fun hv => ?_⟩
    have hdup : v.dup.Valid := Or.inl h0
    have hlen := AttrValue.length_value hv
    have hlen' := AttrValue.length_value hdup
    rw [h0] at hlen
    rw [show v.dup.length = 0 from h0] at hlen'
    rw [List.length_eq_zero_iff.mp hlen, List.length_eq_zero_iff.mp hlen']
  · by_cases hv : v.Valid
    · have hlen := AttrValue.length_value hv
      have hdup : v.dup = ⟨v.length, .block v.value⟩ := by
        rw [AttrValue.dup, memdupUser, if_neg h0, AttrValue.read_addr hv h0]
      rw [hdup]
      refine ⟨iff_of_true (Or.inr ⟨_, rfl, Nat.le_of_eq hlen.symm⟩) hv, fun _ => ?_⟩
      exact List.take_of_length_le (Nat.le_of_eq hlen)
    · have hread : v.addr.read v.length.toNat = none := by
        cases h : v.addr.read v.length.toNat with
        | none => rfl
        | some bytes => exact absurd (AttrValue.valid_of_read h) hv
      have hdup : v.dup = ⟨v.length, .stale (2 ^ 64 - 14)⟩ := by
        rw [AttrValue.dup, memdupUser, if_neg h0, hread]
      rw [hdup]
      refine ⟨iff_of_false ?_ hv, fun h => absurd h hv⟩
      rintro (h | ⟨bs, hbs, -⟩)
      · exact h0 h
      · cases hbs

theorem rpcLengths_dup (values : List AttrValue) :
    rpcLengths (values.map AttrValue.dup) = rpcLengths values := by
  rw [rpcLengths, rpcLengths, List.flatMap_map]
  rfl

/-- **THE REQUEST** of a call can be made exactly if it is requestable. -/
theorem UserCall.requestable_iff {u : UserCall} (hargc : u.argc.toNat = u.args.length) :
    (∃ packet, Kernel.serializeRpcPacket u.id u.argc (u.args.map AttrValue.dup)
        = some packet ∧ packet.length < 2 ^ 31) ↔ u.Requestable := by
  have hargc' : u.argc.toNat = (u.args.map AttrValue.dup).length := by
    rw [List.length_map, hargc]
  have hvalid : (∀ v ∈ u.args.map AttrValue.dup, v.Valid) ↔ ∀ v ∈ u.args, v.Valid := by
    rw [List.forall_mem_map]
    exact forall₂_congr fun v _ => v.dup_spec.1
  have hvalues : (∀ v ∈ u.args, v.Valid) →
      (u.args.map AttrValue.dup).map AttrValue.value = u.args.map AttrValue.value := by
    intro h
    rw [List.map_map]
    exact List.map_congr_left fun v hv => v.dup_spec.2 (h v hv)
  constructor
  · rintro ⟨packet, hpacket, hlen⟩
    obtain ⟨heq, hv⟩ := Kernel.serializeRpcPacket_some hargc' hpacket
    have hread := hvalid.mp hv
    rw [heq] at hpacket hlen
    rw [hvalues hread] at hlen
    have hfits := (Kernel.serializeRpcPacket_iff hargc' hv).mp hpacket
    rw [rpcLengths_dup] at hfits
    exact ⟨hread, hfits, hlen⟩
  · rintro ⟨hread, hfits, hlen⟩
    rw [← rpcLengths_dup] at hfits
    rw [← hvalues hread] at hlen
    exact ⟨_, (Kernel.serializeRpcPacket_iff hargc' (hvalid.mpr hread)).mpr hfits, hlen⟩

theorem UserCall.Passes.argc_eq {u : UserCall} {peer : Peer} {t : Advert}
    (h : u.Passes peer t) : u.argc.toNat = u.args.length := by
  cases hargv : u.argv with
  | none =>
      have hzero : u.argc = 0 := by
        by_contra hne
        exact h.argv hne hargv
      rw [UserCall.args, hargv, hzero]
      rfl
  | some values =>
      rw [UserCall.args, hargv]
      exact (u.argv_length values hargv).symm

/-- The id that is found is the one that was asked for. -/
theorem UserCall.Passes.id {u : UserCall} {peer : Peer} {t : Advert}
    (h : u.Passes peer t) : t.id = u.id := by
  obtain ⟨i, hfound⟩ := h.found
  exact eq_of_beq (search_hit hfound).2

theorem UserCall.Passes.read {u : UserCall} {peer : Peer} {t : Advert}
    (h : u.Passes peer t) :
    readFrom (fun i => u.argv.bind fun values => values[i]?) 0 u.argc.toNat
      = some u.args := by
  have hargc := h.argc_eq
  cases hargv : u.argv with
  | none =>
      rw [UserCall.args, hargv] at hargc ⊢
      rw [hargc]
      rfl
  | some values =>
      rw [UserCall.args, hargv] at hargc ⊢
      rw [hargc]
      exact readFrom_list values

/-! ## The call -/

/-- The call to the peer that a request comes to. -/
def UserCall.called (u : UserCall) (c : CallEnv) (sock : SockId)
    (incoming : List UInt8) : Outcome RemoteInterface Event Int32 :=
  executeRemoteInterface c sock incoming
    ⟨u.id, u.argc, u.args.map AttrValue.dup, u.retc, none⟩

theorem UserCall.Passes.run {u : UserCall} {peer : Peer} {t : Advert}
    (h : u.Passes peer t) (c : CallEnv) (sock : SockId) (incoming : List UInt8) :
    peerIoctl c sock incoming peer EXEC_INTERFACE_CMD u ()
      = (do
          let interface ← orFault ((u.called c sock incoming).ret.map fun _ =>
            (u.called c sock incoming).state)
          writeBack interface.retv u 0 interface.retc.toNat
          pure 0 : Traced Unit UserWrite Int32) () := by
  obtain ⟨i, hfound⟩ := h.found
  have hnull : ¬ (u.argc ≠ 0 ∧ u.argv = none ∨ u.retc ≠ 0 ∧ u.retv = none) := by
    rintro (⟨h0, hnone⟩ | ⟨h0, hnone⟩)
    · exact h.argv h0 hnone
    · exact h.retv h0 hnone
  rw [peerIoctl, if_neg (not_not_intro rfl), run_orFault_some_bind hfound]
  show callPeer c sock incoming t u () = _
  rw [callPeer, if_neg (not_or.mpr ⟨not_not_intro h.argc, not_not_intro h.retc⟩),
    if_neg hnull, h.argc, run_orFault_some_bind h.read, h.id, h.retc]
  rfl

theorem UserCall.Passes.faults {u : UserCall} {peer : Peer} {t : Advert}
    (h : u.Passes peer t) {c : CallEnv} {sock : SockId} {incoming : List UInt8}
    (hcalled : (u.called c sock incoming).ret = none) :
    (peerIoctl c sock incoming peer EXEC_INTERFACE_CMD u ()).ret = none := by
  have hnone : ((u.called c sock incoming).ret.map fun _ =>
      (u.called c sock incoming).state) = none := by
    rw [hcalled]
    rfl
  rw [h.run, run_orFault_none_bind hnone]

/-- Whatever the call returns, results are written back. -/
theorem UserCall.Passes.returns {u : UserCall} {peer : Peer} {t : Advert}
    (h : u.Passes peer t) {c : CallEnv} {sock : SockId} {incoming : List UInt8}
    {result : Int32} (hcalled : (u.called c sock incoming).ret = some result) :
    peerIoctl c sock incoming peer EXEC_INTERFACE_CMD u ()
      = (do
          writeBack (u.called c sock incoming).state.retv u 0
            (u.called c sock incoming).state.retc.toNat
          pure 0 : Traced Unit UserWrite Int32) () := by
  have hsome : ((u.called c sock incoming).ret.map fun _ =>
      (u.called c sock incoming).state) = some (u.called c sock incoming).state := by
    rw [hcalled]
    rfl
  rw [h.run, run_orFault_some_bind hsome]

/-- Past its checks, `peer_ioctl` never returns an error. -/
theorem UserCall.Passes.never_refuses {u : UserCall} {peer : Peer} {t : Advert}
    (h : u.Passes peer t) (c : CallEnv) (sock : SockId) (incoming : List UInt8) :
    ¬ Refuses (peerIoctl c sock incoming peer EXEC_INTERFACE_CMD u ()) := by
  rintro ⟨err, hret, hneg, -⟩
  cases hcalled : (u.called c sock incoming).ret with
  | none =>
      rw [h.faults hcalled] at hret
      cases hret
  | some result =>
      rw [h.returns hcalled, run_bind_pure] at hret
      obtain ⟨-, -, hzero⟩ := Option.map_eq_some_iff.mp hret
      rw [← hzero] at hneg
      exact absurd hneg (by decide)

/-- The loop writes the values of the reply back. -/
theorem UserCall.writeBack_values (u : UserCall) {vs : List (List UInt8)}
    (hretv : vs ≠ [] → u.retv ≠ none) (henc : Encodable vs) (n i : Nat)
    (hn : i + n = vs.length) :
    writeBack (some (vs.map (decodedValue .null))) u i n ()
      = ⟨some (), (), u.writes i (vs.drop i)⟩ := by
  induction n generalizing i with
  | zero =>
      rw [List.drop_eq_nil_of_le (by omega)]
      rfl
  | succ n ih =>
      have hi : i < vs.length := by omega
      have hget : (some (vs.map (decodedValue .null))).bind (fun values => values[i]?)
          = some (decodedValue .null vs[i]) := by
        rw [Option.bind_some, List.getElem?_map, List.getElem?_eq_getElem hi]
        rfl
      obtain ⟨addrs, haddrs⟩ := Option.ne_none_iff_exists'.mp (hretv
        (List.ne_nil_of_length_pos (by omega)))
      have haddr : (u.retv.map fun addrs => addrs i) = some (addrs i) := by
        rw [haddrs]
        rfl
      have hshort := henc.2 vs[i] (List.getElem_mem hi)
      have hdata : (if (decodedValue .null vs[i]).length = 0 then some []
          else (decodedValue .null vs[i]).addr.read
            (decodedValue .null vs[i]).length.toNat) = some vs[i] := by
        have hvalid := decodedValue_valid .null vs[i]
        have hvalue := decodedValue_value .null hshort
        by_cases h0 : (decodedValue .null vs[i]).length = 0
        · have hlen := AttrValue.length_value hvalid
          rw [hvalue, h0] at hlen
          rw [if_pos h0, List.length_eq_zero_iff.mp hlen]
        · rw [if_neg h0, AttrValue.read_addr hvalid h0, hvalue]
      rw [writeBack, run_orFault_some_bind hget, run_orFault_some_bind haddr,
        run_emit_bind, run_orFault_some_bind hdata, run_emit_bind,
        ih (i + 1) (by omega), List.drop_eq_getElem_cons hi, UserCall.writes, haddr]
      rfl

/-- A request that cannot be made ends in a fault. -/
theorem UserCall.called_fault {u : UserCall} (hargc : u.argc.toNat = u.args.length)
    (hu : ¬ u.Requestable) {c : CallEnv} (hc : c.Delivers) (sock : SockId)
    (incoming : List UInt8) : (u.called c sock incoming).ret = none := by
  rw [← UserCall.requestable_iff hargc] at hu
  rw [UserCall.called, executeRemoteInterface, if_neg hc.initSocket,
    run_getState_bind]
  cases hpacket : Kernel.serializeRpcPacket u.id u.argc
      (u.args.map AttrValue.dup) with
  | none => rw [run_orFault_none_bind rfl]
  | some packet =>
      have hfour : (wordBytes (UInt32.ofNat packet.length)).length < 2 ^ 31 := by
        rw [length_wordBytes]
        decide
      have hlong : ¬ packet.length < 2 ^ 31 := fun hlen => hu ⟨packet, hpacket, hlen⟩
      rw [run_orFault_some_bind rfl,
        run_bind_some (run_sendBlock sock hfour (c.sendRet 0) _),
        if_neg (hc.sends 0), run_bind_none (run_sendBlock_fault (Or.inr hlong) _ _)]
      rfl

/-- A reply leaves its values in the interface. -/
theorem UserCall.called_reply {u : UserCall} (hargc : u.argc.toNat = u.args.length)
    (hu : u.Requestable) {c : CallEnv} (hc : c.Delivers) (sock : SockId) {id : UInt32}
    {vs : List (List UInt8)} (henc : Encodable vs) {reply : List UInt8}
    (hpre : rpcEncoding id vs <+: reply) (hlen : reply.length < 2 ^ 31) :
    (u.called c sock (frame reply)).ret = some (c.sendRet 1)
      ∧ (u.called c sock (frame reply)).state.retc = UInt32.ofNat vs.length
      ∧ (u.called c sock (frame reply)).state.retv
        = some (vs.map (decodedValue .null)) := by
  obtain ⟨packet, hpacket, hshort⟩ := (UserCall.requestable_iff hargc).mpr hu
  have hrun := @executeRemoteInterface_run c hc
    ⟨u.id, u.argc, u.args.map AttrValue.dup, u.retc, none⟩ packet hpacket hshort sock
    (frame reply)
  obtain ⟨hret, hstate⟩ := receiveResult_results hc (c.sendRet 1) henc hpre hlen
    ⟨u.id, u.argc, u.args.map AttrValue.dup, u.retc, none⟩
  rw [UserCall.called, hrun, after_ret, after_state, hret, hstate, valuesFrom_const]
  exact ⟨rfl, rfl, rfl⟩

/-- **THE DEVICE OF A PEER** does what it should exactly if the call succeeds, the
    reply has as many values as were asked for, and the request could be made. -/
theorem peer_ioctl_iff {u : UserCall} {peer : Peer} {t : Advert} (h : u.Passes peer t)
    {c : CallEnv} {incoming : List UInt8} {reply : Reply} (hreply : c.Gets incoming reply)
    (sock : SockId) :
    u.Reports (peerIoctl c sock incoming peer EXEC_INTERFACE_CMD u ()) reply
      ↔ (∃ values, reply = .packet values ∧ values.length = u.retc.toNat)
        ∧ u.Requestable := by
  have hrefuses := h.never_refuses c sock incoming
  cases reply with
  | failed =>
      refine iff_of_false hrefuses ?_
      rintro ⟨⟨values, hvalues, -⟩, -⟩
      cases hvalues
  | packet values =>
      obtain ⟨hc, id, reply, hpre, hlen, hincoming⟩ := hreply
      by_cases hcount : values.length = u.retc.toNat
      · have henc : Encodable values := @encodable_of_length id values
          (Nat.lt_of_le_of_lt hpre.length_le (Nat.lt_trans hlen (by decide)))
        have hreports : ∀ o, u.Reports o (.packet values)
            ↔ o.ret = some 0 ∧ o.trace = u.writes 0 values :=
          fun o => by rw [UserCall.Reports, if_pos hcount]
        rw [hreports]
        by_cases hu : u.Requestable
        · refine iff_of_true ?_ ⟨⟨values, rfl, hcount⟩, hu⟩
          obtain ⟨hret, hretc, hretv⟩ := u.called_reply h.argc_eq hu hc sock henc hpre
            hlen
          rw [← hincoming] at hret hretc hretv
          have hrounds : (UInt32.ofNat values.length).toNat = values.length :=
            UInt32.toNat_ofNat_of_lt' henc.1
          have hwritten := u.writeBack_values (fun hne => h.retv fun h0 => hne (by
            rw [h0] at hcount
            exact List.length_eq_zero_iff.mp hcount)) henc values.length 0
            (Nat.zero_add _)
          rw [h.returns hret, hretv, hretc, hrounds, run_bind_pure, hwritten]
          exact ⟨rfl, rfl⟩
        · refine iff_of_false ?_ fun hall => hu hall.2
          rw [h.faults (u.called_fault h.argc_eq hu hc sock incoming)]
          rintro ⟨hret, -⟩
          cases hret
      · refine iff_of_false ?_ ?_
        · rw [UserCall.Reports, if_neg hcount]
          exact hrefuses
        · rintro ⟨⟨values', hvalues, hcount'⟩, -⟩
          cases hvalues
          exact hcount hcount'

/-- A peer with one interface, which has no arguments and one result. -/
def Peer.oneResult : Peer := ⟨0, none, 0, some [⟨1, 0, 1, .block [], .block [0]⟩], 1⟩

/-- A request for it. -/
def UserCall.oneResult : UserCall where
  id := 1
  argc := 0
  retc := 1
  argv := none
  retv := some fun i => 4096 + 16 * i
  argv_length _ h := by cases h

theorem UserCall.oneResult_passes :
    UserCall.oneResult.Passes .oneResult ⟨1, 0, 1, .block [], .block [0]⟩ where
  found := ⟨0, rfl⟩
  argc := rfl
  retc := rfl
  argv h := absurd rfl h
  retv _ := Option.some_ne_none _

theorem peer_ioctl_one_result :
    UserCall.oneResult.Reports (peerIoctl ⟨0, fun _ => 0, .fine fun _ => 0, fun _ => 0⟩ 3
      (frame (rpcEncoding 1 [[42]])) .oneResult EXEC_INTERFACE_CMD .oneResult ())
      (.packet [[42]]) := by
  have hgets : CallEnv.Gets ⟨0, fun _ => 0, .fine fun _ => 0, fun _ => 0⟩
      (frame (rpcEncoding 1 [[42]])) (.packet [[42]]) :=
    ⟨⟨zero_not_neg, fun _ => zero_not_neg, Receiver.fine_reliable _⟩, 1, _,
      List.prefix_refl _, by decide, rfl⟩
  have hrequest : UserCall.oneResult.Requestable := by
    refine ⟨fun v hv => ?_, ?_, by decide⟩
    · cases hv
    · exact (piecesFit_below_limit (by decide)).mpr (by decide)
  exact (peer_ioctl_iff UserCall.oneResult_passes hgets 3).mpr
    ⟨⟨_, rfl, rfl⟩, hrequest⟩

/-- Where no socket can be made, the result is read from NULL. -/
theorem failed_call_reads_null :
    ¬ UserCall.oneResult.Reports (peerIoctl ⟨-1, fun _ => 0, .fine fun _ => 0, fun _ => 0⟩
      3 [] .oneResult EXEC_INTERFACE_CMD .oneResult ()) .failed := by
  rintro ⟨err, hret, -⟩
  cases hret

end DistComm
