import DistComm.Convergence
import DistComm.Handshake
import DistComm.PeerDevices
import DistComm.PeerIoctl

/-! # A call across the network

    From the announcement of an interface to its results, over all parts of the
    program on two hosts: one host registers an interface and broadcasts its list,
    the other one hears it twice, and a process there calls the interface through the
    device of the peer.  The call goes over a connection to the first host, as a
    netlink message to the process that manages the interface, and back the same
    way; the results that are written to the caller's memory are those of the
    callback (`cross_host_call`). -/

namespace DistComm

open RawMemory RawScan PointerArray GrowBuffer TracedProgram Transition

variable {ι : Type} [DecidableEq ι]

/-- A process asks for the interface, with as many arguments as it has and room for
    its results; the arguments can be read, and go into one request. -/
structure UserCall.Asks (u : UserCall) (x : Interface) : Prop where
  id : u.id = x.id
  argc : u.argc = x.argc
  retc : u.retc = x.retc
  argv : u.argc ≠ 0 → u.argv ≠ none
  retv : u.retc ≠ 0 → u.retv ≠ none
  readable : ∀ v ∈ u.args, v.Valid
  short : (rpcEncoding u.id (u.args.map AttrValue.value)).length ≤ MAX_PAYLOAD.toNat

/-- The call through the device of `peer`: the request goes over the connection to
    the host with this address, and what it writes comes back. -/
def callThrough (c : CallEnv) (sock : SockId) (h : Host) (k : Registry) (peer : Peer)
    (u : UserCall) : Outcome Unit UserWrite Int32 :=
  let request := written sock (u.called c sock []).trace
  peerIoctl c sock (h.serve request k) peer EXEC_INTERFACE_CMD u ()

/-! ## The device of the peer -/

/-- A round keeps the devices. -/
theorem PeerTable.Equipped.loop {s s' : Discovery} (h : s.table.Equipped) {r : Reception}
    (hround : discoveryServerLoop s r = some s') : s'.table.Equipped := by
  obtain ⟨answer, t', hanswer, ha⟩ := h.well.answer r
  obtain ⟨-, ⟨slots, hslots⟩, -, -⟩ := h.well.ensure
  rw [discoveryServerLoop_answer, hanswer] at hround
  cases hround
  exact ha.equipped h.ensure hslots

theorem Network.equipped_receive {s s' : Network ι}
    (h : ∀ host, (s.discovery host).table.Equipped) {host : ι} {r : Reception}
    (hstep : s.receive host r = some s') :
    ∀ host, (s'.discovery host).table.Equipped := by
  obtain ⟨d, hround, heq⟩ := Option.map_eq_some_iff.mp hstep
  rw [← heq]
  intro i
  show (Function.update s.discovery host d i).table.Equipped
  by_cases hi : i = host
  · rw [hi, Function.update_self]
    exact (h host).loop hround
  · rw [Function.update_of_ne hi]
    exact h i

/-- In every state of a network each peer has its device. -/
theorem Network.equipped {owner : UInt32 → Option ι} {calls : List (NetworkCall ι)}
    {s : Network ι} (hrun : runAll (Network.step owner) Network.initial calls = some s) :
    ∀ host, (s.discovery host).table.Equipped := by
  refine runAll_invariant (I := fun _ s => ∀ host, (s.discovery host).table.Equipped)
    (fun _ => equipped_initial) (fun _ c s s' _ h hstep => ?_) calls hrun
  cases c with
  | call host c =>
      obtain ⟨k, -, heq⟩ := Option.map_eq_some_iff.mp hstep
      rw [← heq]
      exact h
  | broadcast host source e =>
      rw [Network.step] at hstep
      split at hstep
      · obtain ⟨done, -, heq⟩ := Option.map_eq_some_iff.mp hstep
        rw [← heq]
        exact h
      · cases hstep
  | deliver host n =>
      obtain ⟨d, -, hreceive⟩ := Option.bind_eq_some_iff.mp hstep
      exact Network.equipped_receive h hreceive
  | fail host err => exact Network.equipped_receive h hstep

/-- With no more peers than minors, an address that was met has a device. -/
theorem PeerTable.Equipped.opens {t : PeerTable} (h : t.Equipped)
    (hminors : t.peerCount ≤ PEER_MINORS) {addr : UInt32} (hmet : t.Met addr) :
    ∃ minor peer, openPeerDevice minor t = some peer ∧ peer ∈ t.live
      ∧ peer.addr = addr := by
  have hknown : addr ∈ t.live.map Peer.addr := by
    refine not_not.mp (hmet.resolve_right fun hfull => ?_)
    exact absurd (Nat.le_trans hfull hminors) (by decide)
  obtain ⟨p, hp, haddr⟩ := List.mem_map.mp hknown
  obtain ⟨-, -, hopen⟩ := h.reachable_iff.mpr hminors p hp
  exact ⟨p.id, p, hopen, hp, haddr⟩

/-! ## The interface of the peer -/

/-- A lookup in the list of a registry finds what a lookup in the registry finds. -/
theorem Peer.Lists.finds {k : Registry} (hlive : k.Live) {xs : List Advert}
    (hxs : k.adverts = some xs) (hfew : xs.length ≤ MAX_INTERFACES.toNat) {peer : Peer}
    (hpeer : peer.Lists xs) {id : Int32} {p : Nat} {x : Interface}
    (hfound : k.findInterface id = some (some (p, x))) :
    ∃ i, findInterface (fun i => peer.interfaces.bind fun interfaces => interfaces[i]?)
      Advert.id peer.interfaceCount id = some (some ⟨i, x.toAdvert⟩) := by
  obtain ⟨entries, hread, hlen, hget⟩ := Readable.readFrom hlive
  have hmap : xs = entries.map fun e => e.2.toAdvert := by
    rw [Registry.adverts, hread] at hxs
    exact (Option.some.inj hxs).symm
  have hcount : k.interfaceCount.toNat = xs.length := by
    rw [hmap, List.length_map, hlen]
  have hmax : MAX_INTERFACES.toNat < 2 ^ 31 := by decide
  obtain ⟨found, hsearch, hval⟩ := Option.map_eq_some_iff.mp hfound
  obtain ⟨hit, hhit, hpx⟩ := Option.map_eq_some_iff.mp hval
  rw [hhit, DistComm.findInterface, toNat_toInt32 (by omega), hcount,
    ← @search_congr _ _ (fun i => entries[i]?)] at hsearch
  · refine ⟨hit.index, ?_⟩
    obtain ⟨hinterfaces, hpeercount⟩ := hpeer
    rw [DistComm.findInterface, hinterfaces, hpeercount, toInt_count hfew,
      Int.toNat_natCast]
    have hsearch' := @search_map _ _ (fun i => entries[i]?) (fun i => xs[i]?)
      (fun e => e.2.id == id.toUInt32) (fun y => y.id == id.toUInt32)
      (fun e => e.2.toAdvert) (fun i => by rw [hmap, List.getElem?_map])
      (fun _ _ _ => rfl) xs.length 0
    rw [hsearch] at hsearch'
    refine hsearch'.trans ?_
    show some (some (⟨hit.index, hit.val.2.toAdvert⟩ : Hit Advert)) = _
    rw [hpx]
  · intro j _ hj
    exact hget j (by omega)

/-- A request for a registered interface passes the checks of a peer that lists the
    registry. -/
theorem UserCall.passes_listed {k : Registry} (hlive : k.Live) {xs : List Advert}
    (hxs : k.adverts = some xs) (hfew : xs.length ≤ MAX_INTERFACES.toNat) {peer : Peer}
    (hpeer : peer.Lists xs) {p : Nat} {x : Interface}
    (hfound : k.findInterface x.id.toInt32 = some (some (p, x))) {u : UserCall}
    (hu : u.Asks x) : u.Passes peer x.toAdvert where
  found := by
    rw [hu.id]
    exact hpeer.finds hlive hxs hfew hfound
  argc := hu.argc.symm
  retc := hu.retc.symm
  argv := hu.argv
  retv := hu.retv

/-! ## The call -/

/-- What a process asks for fits one request. -/
theorem UserCall.Asks.request {u : UserCall} {x : Interface} (hu : u.Asks x)
    (hargc : u.argc.toNat = u.args.length) :
    Kernel.serializeRpcPacket u.id u.argc (u.args.map AttrValue.dup)
      = some (rpcEncoding u.id (u.args.map AttrValue.value)) := by
  have hmax : MAX_PAYLOAD.toNat = 512 := rfl
  have hgrow : BUFFER_INC_SIZE.toNat = 65536 := rfl
  have hshort := hu.short
  have hvalues : (u.args.map AttrValue.dup).map AttrValue.value
      = u.args.map AttrValue.value := by
    rw [List.map_map]
    exact List.map_congr_left fun v hv => v.dup_spec.2 (hu.readable v hv)
  have hsend : ∀ v ∈ u.args.map AttrValue.dup, Sendable v := by
    intro v hv
    obtain ⟨w, hw, hdup⟩ := List.mem_map.mp hv
    have hvalid : v.Valid := by
      rw [← hdup]
      exact w.dup_spec.1.mpr (hu.readable w hw)
    refine ⟨hvalid, ?_⟩
    have hle := length_mem_flatMap_encodeValue
      (List.mem_map_of_mem (f := AttrValue.value) hv)
    rw [AttrValue.length_value hvalid, hvalues] at hle
    rw [length_rpcEncoding] at hshort
    omega
  have hpacket := @Kernel.serializeRpcPacket_ok u.id u.argc (u.args.map AttrValue.dup)
    (by rw [hargc, List.length_map]) hsend (by rw [hvalues]; omega)
  rw [hvalues] at hpacket
  exact hpacket

/-- **A CALL** through the device of a peer that lists what its host serves writes
    the results of the callback. -/
theorem callThrough_served {c : CallEnv} (hc : c.Delivers) {h : Host}
    (hhost : h.Delivers) {k : Registry} {x : Interface} {interface : Managed}
    (hserves : h.Serves k x interface) {peer : Peer} {u : UserCall} (hu : u.Asks x)
    (hpasses : u.Passes peer x.toAdvert) {results : List (List UInt8)}
    (hcall : Computes interface.callback (u.args.map AttrValue.value) results)
    (hretc : x.retc.toNat = results.length) (hpos : 0 < results.length)
    (hlen : (rpcEncoding x.id results).length < 2 ^ 30) (sock : SockId) :
    callThrough c sock h k peer u = ⟨some 0, (), u.writes 0 results⟩ := by
  have hmax : MAX_PAYLOAD.toNat = 512 := rfl
  have hshort := hu.short
  have hargc := hpasses.argc_eq
  have hpacket := hu.request hargc
  have hrequestable : u.Requestable :=
    (UserCall.requestable_iff hargc).mp ⟨_, hpacket, by omega⟩
  have henc : Encodable results :=
    @encodable_of_length x.id _ (Nat.lt_trans hlen (by decide))
  -- the host answers what the caller writes
  have hwritten : written sock (u.called c sock []).trace
      = frame (rpcEncoding x.id (u.args.map AttrValue.value)) := by
    have hrun := @written_executeRemoteInterface c hc
      ⟨u.id, u.argc, u.args.map AttrValue.dup, u.retc, none⟩ _ hpacket (by omega) sock []
    rw [UserCall.called, hrun, hu.id]
  rw [hu.id] at hshort
  obtain ⟨reply, hpre, hsmall, hreply⟩ := Host.serve_results hserves hhost hshort
    (by rw [← hu.argc, hargc, List.length_map]) hcall hretc hpos hlen
  rw [← hwritten] at hreply
  -- and the caller writes back what the answer has
  obtain ⟨hret, hretc', hretv⟩ := u.called_reply hargc hrequestable hc sock henc hpre
    hsmall
  have hback := u.writeBack_values (fun hne => hu.retv fun h0 => hne (by
    rw [← hu.retc, h0] at hretc
    exact List.length_eq_zero_iff.mp hretc.symm)) henc results.length 0
    (Nat.zero_add _)
  have hrounds : (UInt32.ofNat results.length).toNat = results.length :=
    UInt32.toNat_ofNat_of_lt' henc.1
  rw [callThrough]
  show peerIoctl c sock (h.serve _ k) peer EXEC_INTERFACE_CMD u () = _
  rw [hreply, hpasses.returns hret, hretv, hretc', hrounds, run_bind_pure, hback]
  rfl

/-- **A CALL ACROSS THE NETWORK**: once the hearer has heard the address twice since
    its host last changed its registry, and while its table has no more peers than there
    are minors, a process there that asks for an interface with results through the
    device of this peer gets what the callback on the other host computes. -/
theorem cross_host_call {owner : UInt32 → Option ι} {past calls : List (NetworkCall ι)}
    {s s' : Network ι} {hearer sender : ι} {addr : UInt32}
    (hpast : runAll (Network.step owner) Network.initial past = some s)
    (howner : owner addr = some sender)
    (hfew : (s.registry sender).interfaceCount ≤ MAX_INTERFACES)
    (hquiet : AlongRun (Network.step owner) (Quiet hearer sender addr s.sent.length)
      s calls)
    (htwice : 2 ≤ sumAlong (Network.step owner) (hears hearer addr) s calls)
    (hrun : runAll (Network.step owner) s calls = some s')
    (hroom : (s'.discovery hearer).table.peerCount ≤ PEER_MINORS)
    {h : Host} (hhost : h.Delivers) {x : Interface} {interface : Managed}
    (hserves : h.Serves (s'.registry sender) x interface)
    {c : CallEnv} (hc : c.Delivers) {u : UserCall} (hu : u.Asks x)
    {results : List (List UInt8)}
    (hcall : Computes interface.callback (u.args.map AttrValue.value) results)
    (hretc : x.retc.toNat = results.length) (hpos : 0 < results.length)
    (hlen : (rpcEncoding x.id results).length < 2 ^ 30) (sock : SockId) :
    ∃ minor peer, openPeerDevice minor (s'.discovery hearer).table = some peer
      ∧ peer.addr = addr
      ∧ callThrough c sock h (s'.registry sender) peer u
        = ⟨some 0, (), u.writes 0 results⟩ := by
  obtain ⟨xs, hxs, hend⟩ := Network.spreads_quiet hpast howner hfew hquiet hrun
  have hwhole : runAll (Network.step owner) Network.initial (past ++ calls)
      = some s' := by
    rw [runAll_append, hpast]
    exact hrun
  have hequipped := Network.equipped hwhole hearer
  obtain ⟨minor, peer, hopen, hlive, haddr⟩ :=
    hequipped.opens hroom (hend.heard.met (by omega))
  obtain ⟨p, hfound⟩ := hserves.registered
  have hpasses := UserCall.passes_listed (hend.sound sender).1.live hend.registered hxs
    (hend.heard.lists htwice peer hlive haddr) hfound hu
  exact ⟨minor, peer, hopen, haddr,
    callThrough_served hc hhost hserves hu hpasses hcall hretc hpos hlen sock⟩

/-- The first host registers an interface, and a process activates it. -/
def NetworkCall.activates : List (NetworkCall Bool) :=
  [.call false (.register 7 none .answering),
    .call false (.activate (overlay (handshakeEncoding [1]) fun _ => 0) 8 9)]

set_option maxRecDepth 4000 in
/-- The second host hears it twice, and gets the result 42. -/
theorem cross_host_call_two :
    ∃ s s' minor peer, runAll (Network.step twoHosts) Network.initial
        NetworkCall.activates = some s
      ∧ runAll (Network.step twoHosts) s NetworkCall.announces = some s'
      ∧ openPeerDevice minor (s'.discovery true).table = some peer ∧ peer.addr = 1
      ∧ callThrough ⟨0, fun _ => 0, .fine fun _ => 0, fun _ => 0⟩ 3 .answering
          (s'.registry false) peer .oneResult
        = ⟨some 0, (), UserCall.oneResult.writes 0 [[42]]⟩ := by
  obtain ⟨s, hpast, s', hrun, hnone, hfew, htwice, hroom, hfound⟩ : ∃ s,
      runAll (Network.step twoHosts) Network.initial NetworkCall.activates = some s
      ∧ ∃ s', runAll (Network.step twoHosts) s NetworkCall.announces = some s'
      ∧ s.sent = [] ∧ (s.registry false).interfaceCount = 1
      ∧ sumAlong (Network.step twoHosts) (hears true 1) s NetworkCall.announces = 2
      ∧ (s'.discovery true).table.peerCount = 1
      ∧ (s'.registry false).findInterface 1
        = some (some (0, (UserInterface.answering.registered 1 7 none).activate 9)) :=
    ⟨_, rfl, _, rfl, rfl, rfl, rfl, rfl, rfl⟩
  have hserves : Host.answering.Serves (s'.registry false)
      ((UserInterface.answering.registered 1 7 none).activate 9) .answering :=
    ⟨⟨0, hfound⟩, by decide, rfl, rfl, rfl, rfl, rfl⟩
  have hasks : UserCall.oneResult.Asks
      ((UserInterface.answering.registered 1 7 none).activate 9) :=
    ⟨rfl, rfl, rfl, fun h => absurd rfl h, fun _ => Option.some_ne_none _,
      fun _ hv => (nomatch hv), by decide⟩
  have hquiet := quiet_announces s
  rw [← List.length_nil (α := Datagram), ← hnone] at hquiet
  have hcall : Computes Managed.answering.callback
      (UserCall.oneResult.args.map AttrValue.value) [[42]] :=
    fun _ _ _ => ⟨zero_not_neg, rfl, fun v hv => by
      rw [List.mem_singleton.mp hv]
      exact ⟨AttrValue.valid_ofBytes _, by decide⟩⟩
  have howner : twoHosts 1 = some false := rfl
  have hhost : Host.answering.Delivers :=
    ⟨zero_not_neg, Receiver.fine_reliable _, rfl, zero_not_neg, fun _ => zero_not_neg⟩
  have hc : CallEnv.Delivers ⟨0, fun _ => 0, .fine fun _ => 0, fun _ => 0⟩ :=
    ⟨zero_not_neg, fun _ => zero_not_neg, Receiver.fine_reliable _⟩
  have hretc : ((UserInterface.answering.registered 1 7 none).activate 9).retc.toNat
      = [[(42 : UInt8)]].length := rfl
  obtain ⟨minor, peer, hopen, haddr, hcalled⟩ := cross_host_call hpast howner
    (by rw [hfew]; decide) hquiet (Nat.le_of_eq htwice.symm) hrun (by rw [hroom]; decide)
    hhost hserves hc hasks hcall hretc (by decide) (by decide) 3
  exact ⟨s, s', minor, peer, hpast, hrun, hopen, haddr, hcalled⟩

end DistComm
