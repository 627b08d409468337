import DistComm.Activation
import DistComm.Handshake
import DistComm.OneResult
import DistComm.PortIds
import DistComm.RemoteCall
import DistComm.Results

/-! # Listening

    `activate_and_listen` of `lib/src/interface.c`: a process binds its netlink port,
    sends the ids of the interfaces that it manages to the kernel, and serves
    requests in `handle_rpc` from then on.

    The handshake gives the process the interfaces that it manages, and it keeps them
    through whatever the kernel does meanwhile, until another client activates one of
    them: every request for one of them is answered with the results of its callback
    (`listener_answers`). -/

namespace DistComm

open RawMemory RawScan PointerArray TracedProgram Transition

/-! ## The library -/

/-- What the calls of `activate_and_listen` return, the ports in use, and what
    `malloc` finds in its block. -/
structure ListenEnv where
  socket : Int32
  bound : List UInt32
  heap : Mem
  sendmsg : Int32

/-- A process that entered `handle_rpc`: the handshake that it sent, and the ports
    that are in use now. -/
structure Listening where
  process : Process
  handshake : List UInt8
  bound : List UInt32

/-- `activate_and_listen`, up to `handle_rpc`, which does not return.  The size of the
    packet is a `size_t`, and is passed on as a `uint32_t`. -/
def activateAndListen (e : ListenEnv) (portid : UInt32) (managed : List Managed) :
    Option (Except Int32 Listening) :=
  if e.socket < 0 then some (.error (-1))
  else
    match initNetlinkClient e.bound portid with
    | none => some (.error (-1))
    | some bound => do
        let count := UInt32.ofNat managed.length
        let packet ← Lib.handshakePacket e.heap managed count
        let message ← Lib.netlinkSendtoKern portid INCOME_HANDSHAKE packet
          (4 * (count + 1))
        if e.sendmsg < 0 then some (.error (-1))
        else some (.ok ⟨⟨portid, managed⟩, message, bound⟩)

/-- The handshake packet with these ids is not too long for netlink. -/
def FewIds (n : Nat) : Prop := 4 * (n + 1) + 20 < 2 ^ 31

instance (n : Nat) : Decidable (FewIds n) := inferInstanceAs (Decidable (_ < _))

theorem length_handshakeEncoding (ids : List UInt32) :
    (handshakeEncoding ids).length = 4 * (ids.length + 1) := by
  induction ids with
  | nil => rfl
  | cons id ids ih =>
      rw [handshakeEncoding, List.length_append, length_wordBytes] at ih ⊢
      rw [List.flatMap_cons, List.length_append, length_wordBytes, List.length_cons]
      omega

/-- What a listening process has sent. -/
theorem activateAndListen_ok {e : ListenEnv} {portid : UInt32} {managed : List Managed}
    {l : Listening} (h : activateAndListen e portid managed = some (.ok l))
    (hfew : FewIds managed.length) :
    l.process = ⟨portid, managed⟩
      ∧ Lib.netlinkSendtoKern portid INCOME_HANDSHAKE
          (handshakeEncoding (managed.map Managed.id))
          (UInt32.ofNat (handshakeEncoding (managed.map Managed.id)).length)
        = some l.handshake := by
  rw [FewIds] at hfew
  rw [activateAndListen] at h
  split at h
  · cases h
  split at h
  · cases h
  · have hpacket := Lib.handshakePacket_eq e.heap
      (show managed.length + 1 < 2 ^ 32 by omega)
    obtain ⟨packet, hpacket', h⟩ := Option.bind_eq_some_iff.mp h
    rw [hpacket] at hpacket'
    rw [← Option.some.inj hpacket'] at h
    obtain ⟨message, hmessage, h⟩ := Option.bind_eq_some_iff.mp h
    have hsize : 4 * (UInt32.ofNat managed.length + 1)
        = UInt32.ofNat (handshakeEncoding (managed.map Managed.id)).length := by
      rw [length_handshakeEncoding, List.length_map, UInt32.ofNat_mul, UInt32.ofNat_add]
      rfl
    rw [hsize] at hmessage
    split at h
    · cases h
    · cases h
      exact ⟨rfl, hmessage⟩

/-! ## The kernel -/

/-- One call, request or result on the registry; `none` where it faults. -/
def Registry.handle (k : Registry) : KernelCall → Option Registry
  | .call c => k.step c
  | .execute env m packetLength sock =>
      let o := executeInterface env m packetLength sock k
      o.ret.map fun _ => o.state
  | .result env m packet packetLength portid =>
      let o := handleInterfaceResult env m packet packetLength portid k
      o.ret.map fun _ => o.state

/-- All registered interfaces with these ids are activated for the port, and no two
    interfaces have one id. -/
structure Registry.ServedBy (k : Registry) (ids : List UInt32) (portid : UInt32) :
    Prop where
  sound : Sound k
  distinct : k.DistinctIds
  activated : ∀ i p x, k.At i p x → x.id ∈ ids →
    x.ctrl.activated = 1 ∧ x.ctrl.clientPortid = portid

/-- The call does not take the ids away: it neither registers one of them, or an id
    that is registered, nor activates one of them for another port. -/
def LeavesTo (ids : List UInt32) (portid : UInt32) (k : Registry) : KernelCall → Prop
  | .call (.register ..) =>
      k.allocatedId ∉ ids ∧ ∀ i p x, k.At i p x → x.id ≠ k.allocatedId
  | .call (.activate m packetLength port) =>
      port = portid ∨ ∀ id ∈ requestedIds m 0 packetLength, id ∉ ids
  | .call (.remove _) => True
  | .execute .. => True
  | .result .. => True

section Steps

variable {k k' : Registry} {ids : List UInt32} {portid : UInt32}

/-- Interfaces that keep their ids, and their ports if they have one of these ids. -/
theorem Registry.ServedBy.reassigned {R : Interface → Interface → Prop}
    (h : k.ServedBy ids portid) (hre : Reassigned R k k') (hk' : Sound k')
    (hid : ∀ x y, R x y → y.id = x.id)
    (hR : ∀ x y, R x y → y.id ∈ ids →
      x.ctrl.activated = 1 ∧ x.ctrl.clientPortid = portid →
        y.ctrl.activated = 1 ∧ y.ctrl.clientPortid = portid) :
    k'.ServedBy ids portid := by
  refine ⟨hk', hre.distinctIds hid h.sound.live h.distinct, fun i p y hy hmem => ?_⟩
  obtain ⟨x, hx, hxy⟩ := hre.back h.sound.live hy
  refine hR x y hxy hmem (h.activated i p x hx ?_)
  rw [← hid x y hxy]
  exact hmem

theorem Registry.ServedBy.call (h : k.ServedBy ids portid) {c : RegistryCall}
    (hleaves : LeavesTo ids portid k (.call c)) (hstep : k.step c = some k') :
    k'.ServedBy ids portid := by
  obtain ⟨hsound, hslot⟩ := h.sound.step hstep
  cases hslot with
  | @register pid procCreate u procEntry hadded =>
      obtain ⟨hother, hfresh⟩ := hleaves
      have hcases := fun {i p y} => hadded.cases h.sound.live (i := i) (p := p)
        (y := y)
      have hid : (u.registered k.allocatedId pid procEntry).id = k.allocatedId := rfl
      refine ⟨hsound, fun i p x j q y hx hy heq => ?_, fun i p x hx hmem => ?_⟩
      · rcases hcases hx with hx | ⟨-, hp, hx⟩
        · rcases hcases hy with hy | ⟨-, hq, hy⟩
          · exact h.distinct i p x j q y hx hy heq
          · rw [hy, hid] at heq
            exact absurd heq (hfresh i p x hx)
        · rcases hcases hy with hy | ⟨-, hq, hy⟩
          · rw [hx, hid] at heq
            exact absurd heq.symm (hfresh j q y hy)
          · rw [hp, hq]
      · rcases hcases hx with hx | ⟨-, -, hx⟩
        · exact h.activated i p x hx hmem
        · rw [hx] at hmem
          exact absurd hmem hother
  | absent hsame _ =>
      rw [hsame]
      exact h
  | remove hdropped _ _ =>
      -- a removal adds nothing to the slots
      refine ⟨hsound, fun i p x j q y hx hy heq => ?_, fun i p x hx hmem => ?_⟩
      · obtain ⟨i', -, hx'⟩ := hdropped.left i p x hx
        obtain ⟨j', -, hy'⟩ := hdropped.left j q y hy
        exact h.distinct i' p x j' q y hx' hy' heq
      · obtain ⟨i', -, hx'⟩ := hdropped.left i p x hx
        exact h.activated i' p x hx' hmem
  | @activate m packetLength port hre =>
      refine h.reassigned hre hsound (fun _ _ => ActivatedBy.id) fun x y hxy hmem hx => ?_
      rw [hxy.id] at hmem
      rw [hxy.2 h.distinct, activateIds]
      by_cases hrequested : x.id ∈ requestedIds m 0 packetLength
      · rcases hleaves with hport | hnone
        · rw [if_pos hrequested]
          exact ⟨rfl, hport⟩
        · exact absurd hmem (hnone x.id hrequested)
      · rw [if_neg hrequested]
        exact hx

/-- A request changes no more than the socket of an interface. -/
theorem Registry.ServedBy.execute (h : k.ServedBy ids portid) (env : Env) (m : Mem)
    (packetLength : UInt32) (sock : Option SockId) :
    (executeInterface env m packetLength sock k).state.ServedBy ids portid := by
  rcases executeInterface_state h.sound.live env m packetLength sock
    with hsame | ⟨p, x, -, hfound, hassign⟩
  · rw [hsame]
    exact h
  · obtain ⟨hheap, -⟩ := findInterface_hit hfound
    rw [hassign]
    have hre : Reassigned (fun y z => z = y ∨ z = y.setSocket sock) k
        (k.assign p (x.setSocket sock)) := by
      refine ⟨rfl, rfl, fun i q y hy => ⟨_, hy.assign hheap _, ?_⟩⟩
      by_cases hq : q = p
      · rw [hq] at hy
        rw [if_pos hq, Option.some.inj ((deref_eq_some.mp hy.2).2.symm.trans hheap)]
        exact Or.inr rfl
      · rw [if_neg hq]
        exact Or.inl rfl
    refine h.reassigned hre (h.sound.assign hheap _) (fun y z hyz => ?_)
      fun y z hyz _ hy => ?_
    · rcases hyz with heq | heq
      · rw [heq]
      · rw [heq]
        rfl
    · rcases hyz with heq | heq
      · rw [heq]
        exact hy
      · rw [heq]
        exact hy

/-- **ONE STEP** leaves the interfaces with their process. -/
theorem Registry.ServedBy.handle (h : k.ServedBy ids portid) {c : KernelCall}
    (hleaves : LeavesTo ids portid k c) (hstep : k.handle c = some k') :
    k'.ServedBy ids portid := by
  cases c with
  | call c => exact h.call hleaves hstep
  | execute env m packetLength sock =>
      obtain ⟨ret, -, heq⟩ := Option.map_eq_some_iff.mp hstep
      rw [← heq]
      exact h.execute env m packetLength sock
  | result env m packet packetLength portid =>
      obtain ⟨ret, -, heq⟩ := Option.map_eq_some_iff.mp hstep
      rw [← heq, readOnly_handleInterfaceResult env m packet packetLength portid]
      exact h

end Steps

/-- **HANDSHAKE**: the kernel gives the process the interfaces that it manages. -/
theorem handshake_serves {portid : UInt32} {ids : List UInt32} (hfew : FewIds ids.length)
    {message : List UInt8}
    (hsent : Lib.netlinkSendtoKern portid INCOME_HANDSHAKE (handshakeEncoding ids)
      (UInt32.ofNat (handshakeEncoding ids).length) = some message)
    {k : Registry} (hk : Sound k) (hd : k.DistinctIds) (env : Env) (behind : Mem) :
    ∃ k' t, handleNetlinkIncome env (overlay message behind) k = ⟨some (), k', t⟩
      ∧ Activated ids portid k k' ∧ k'.ServedBy ids portid := by
  rw [FewIds] at hfew
  have hlen := length_handshakeEncoding ids
  have hword : (UInt32.ofNat (handshakeEncoding ids).length).toNat
      = (handshakeEncoding ids).length := by
    refine UInt32.toNat_ofNat_of_lt' ?_
    rw [hlen]
    exact Nat.lt_trans (by omega) (show 2 ^ 31 < UInt32.size by decide)
  obtain ⟨-, htype, hport, hbody, -, hm⟩ := netlinkIncome_of_sent hword hsent behind
  generalize overlay message behind = m at htype hport hbody hm
  replace htype : m 16 = INCOME_HANDSHAKE := htype
  replace hport : wordAt m 12 = portid := hport
  replace hbody : (wordAt m 0 - 1).toNat = _ := hbody
  obtain ⟨k', t, hrun, hact⟩ := handleActivateInterface_activated hk.live hd hm
    (show 4 * (ids.length + 1) ≤ (wordAt m 0 - 1).toNat by rw [hbody]; omega)
    (wordAt m 12)
  rw [hport] at hact
  obtain ⟨k1, t1, hrun1, hsound, -⟩ := hk.handleActivateInterface m 17
    (wordAt m 0 - 1) (wordAt m 12)
  rw [hrun] at hrun1
  cases hrun1
  refine ⟨k', _, by rw [handleNetlinkIncome_run, if_pos htype, hrun]; rfl, hact,
    hsound, hact.distinctIds hk.live hd, fun i p y hy hmem => ?_⟩
  obtain ⟨x, -, rfl⟩ := hact.back hk.live hy
  rw [activateIds_id] at hmem
  rw [activateIds, if_pos hmem]
  exact ⟨rfl, rfl⟩

/-! ## Answers -/

/-- An interface that is served by a process is found, with the process behind it. -/
theorem Registry.ServedBy.serves {k : Registry} {ids : List UInt32} {h : Host}
    (hserved : k.ServedBy ids h.process.portid)
    (hids : (h.process.managed.map Managed.id).Nodup)
    (hmany : h.process.managed.length < 2 ^ 31)
    (hcount : k.interfaceCount.toNat < 2 ^ 31) {i p : Nat} {x : Interface}
    (hx : k.At i p x) (hmem : x.id ∈ ids) (hne : x.id ≠ 0) {interface : Managed}
    (hmanaged : interface ∈ h.process.managed) (hid : interface.id = x.id)
    (hargc : interface.argc = x.argc) (hretc : interface.retc = x.retc) :
    h.Serves k x interface := by
  obtain ⟨j, q, y, hfound, hy, hyid, -⟩ :=
    findInterface_first hserved.sound.live hcount hx
  -- it is the only one with its id
  have hq := hserved.distinct j q y i p x hy hx hyid
  rw [hq] at hy hfound
  rw [hy.same hx] at hfound
  obtain ⟨hactivated, hport⟩ := hserved.activated i p x hx hmem
  refine ⟨⟨p, hfound⟩, hne, hactivated, hport, ?_, hargc, hretc⟩
  rw [← hid]
  exact Process.findInterface_mem hids hmany hmanaged

/-- Every request for the interface that fits the packet of the process is answered over
    the connection with the results of its callback, if there are any and netlink carries
    them. -/
def Host.Answers (h : Host) (k : Registry) (interface : Managed) : Prop :=
  ∀ args results, (rpcEncoding interface.id args).length ≤ MAX_PAYLOAD.toNat →
    interface.argc.toNat = args.length → Computes interface.callback args results →
    interface.retc.toNat = results.length → 0 < results.length →
    (rpcEncoding interface.id results).length < 2 ^ 30 →
    ∃ reply, rpcEncoding interface.id results <+: reply
      ∧ h.serve (frame (rpcEncoding interface.id args)) k = frame reply

end DistComm
