import DistComm.RemoteCall
import DistComm.Transition

/-! # Reply routing

    The serving host as a transition system: requests arrive from connections and
    from the local test command, the processes take the packets that were
    forwarded to them and send results, and the kernel forwards the results to
    sockets.  The steps run the code's functions on the registry; `requests` and
    `replies`, and the numbers that stand beside the messages, are history and
    influence nothing.

    The kernel remembers a request only in the `socket` field of its interface.
    `Alone` is what this is good for: no request from a connection while another
    request for the same interface is on its way.  In runs of such steps every
    reply goes where its request came from (`replies_routed`), and two overlapping
    requests are enough for a reply to the wrong client (`overlap_misroutes`). -/

namespace DistComm

open RawMemory RawScan PointerArray TracedProgram Transition

/-! ## The system -/

/-- A request that arrived: from a connection or, without a socket, from
    `manager_ioctl`; and the interface it is for. -/
structure Request where
  sock : Option SockId
  id : UInt32

/-- The serving host.  `forwarded` are the netlink messages to processes with
    their ports, oldest first, and `results` the netlink messages to the kernel;
    both carry the number of the request that they are about.  `replies` has, for
    each result that was forwarded, the request's number and the writes. -/
structure Serving where
  registry : Registry
  forwarded : List (Nat × UInt32 × List UInt8)
  results : List (Nat × List UInt8)
  requests : List Request
  replies : List (Nat × List (SockId × List UInt8))

/-- A host where nothing has been requested yet. -/
def Serving.initial (k : Registry) : Serving := ⟨k, [], [], [], []⟩

/-- A reply to the request with number `t`, if something was written. -/
def replyTo (t : Nat) (writes : List (SockId × List UInt8)) :
    List (Nat × List (SockId × List UInt8)) :=
  if writes = [] then [] else [(t, writes)]

inductive Action where
  | request (env : Env) (sock : Option SockId) (id : UInt32)
      (args : List (List UInt8)) (behind : Mem)
  | round (p : Process) (left : Leftovers)
  | result (env : Env) (behind : Mem)

/-- The steps: `execute_interface` on a well-formed packet, from a connection whose
    socket is new, or from `manager_ioctl`; a round of `handle_rpc` on the oldest
    message for its port; `handle_netlink_income` on any result on its way. -/
inductive ServingStep : Serving → Action → Serving → Prop where
  | request {s : Serving} {env : Env} {sock : Option SockId} {id : UInt32}
      {args : List (List UInt8)} {behind : Mem}
      {o : Outcome Registry Event Int32} :
      id ≠ 0 → (rpcEncoding id args).length < 2 ^ 32 →
      (∀ r ∈ s.requests, r.sock ≠ none → r.sock ≠ sock) →
      executeInterface env (overlay (rpcEncoding id args) behind)
        (UInt32.ofNat (rpcEncoding id args).length) sock s.registry = o →
      ServingStep s (.request env sock id args behind)
        { s with
          registry := o.state
          requests := s.requests ++ [⟨sock, id⟩]
          forwarded := s.forwarded
            ++ (deliveries o.trace).map fun d => (s.requests.length, d) }
  | round {s : Serving} {p : Process} {left : Leftovers} {t : Nat}
      {message : List UInt8} {before behind : List (Nat × UInt32 × List UInt8)} :
      (∀ x ∈ p.managed, x.id ≠ 0) →
      s.forwarded = before ++ (t, p.portid, message) :: behind →
      (∀ e ∈ before, e.2.1 ≠ p.portid) →
      ServingStep s (.round p left)
        { s with
          forwarded := before ++ behind
          results := s.results ++ (messages
            (handleRpc p left (some message) ()).trace).map fun m => (t, m) }
  | result {s : Serving} {env : Env} {mem : Mem} {t : Nat}
      {message : List UInt8} {before behind : List (Nat × List UInt8)}
      {o : Outcome Registry Event Unit} :
      s.results = before ++ (t, message) :: behind →
      handleNetlinkIncome env (overlay message mem) s.registry = o →
      ServingStep s (.result env mem)
        { s with
          registry := o.state
          results := before ++ behind
          replies := s.replies ++ replyTo t (sends o.trace) }

/-- Every reply was written to the socket that its request arrived on, and no
    request was answered twice. -/
structure Routed (s : Serving) : Prop where
  own : ∀ t writes, (t, writes) ∈ s.replies → ∀ w ∈ writes,
    ∃ r, s.requests[t]? = some r ∧ r.sock = some w.1
  once : (s.replies.map Prod.fst).Nodup

/-- The numbers of the requests on their way. -/
def Serving.outstanding (s : Serving) : List Nat :=
  s.forwarded.map Prod.fst ++ s.results.map Prod.fst

/-- A connection makes a request only while no other request for the same interface
    is on its way. -/
def Alone (s : Serving) : Action → Prop
  | .request _ (some _) id _ _ =>
      ∀ t ∈ s.outstanding, ∀ r, s.requests[t]? = some r → r.id ≠ id
  | .request _ none _ _ _ => True
  | .round _ _ => True
  | .result _ _ => True

/-! ## What the steps do to sockets and messages -/

/-- The socket that the kernel would forward a result for `id` to. -/
def Registry.replySocket (k : Registry) (id : UInt32) : Option SockId :=
  match k.findInterface id.toInt32 with
  | some (some (_, x)) => x.ctrl.socket
  | _ => none

theorem replySocket_found {k : Registry} {id : UInt32} {p : Nat} {x : Interface}
    (hfound : k.findInterface id.toInt32 = some (some (p, x))) :
    k.replySocket id = x.ctrl.socket := by
  rw [Registry.replySocket, hfound]

/-- A request changes the socket of its own interface only. -/
theorem replySocket_setSocket {k : Registry} {id : UInt32} {p : Nat}
    {x : Interface} (hfound : k.findInterface id.toInt32 = some (some (p, x)))
    (sock : Option SockId) (id' : UInt32) :
    (k.assign p (x.setSocket sock)).replySocket id'
      = if id' = id then sock else k.replySocket id' := by
  obtain ⟨hheap, hid⟩ := findInterface_hit hfound
  by_cases hsame : id' = id
  · rw [hsame, if_pos rfl, replySocket_found (findInterface_setSocket hfound sock)]
    rfl
  · have hassign := @findInterface_assign k p x (x.setSocket sock) hheap rfl
      id'.toInt32
    rw [if_neg hsame, Registry.replySocket, Registry.replySocket, hassign]
    cases hother : k.findInterface id'.toInt32 with
    | none => rfl
    | some found =>
        cases found with
        | none => rfl
        | some hit =>
            obtain ⟨q, y⟩ := hit
            obtain ⟨hheap', hid'⟩ := findInterface_hit hother
            -- another id, so another address
            have hne : q ≠ p := by
              intro hq
              rw [hq, hheap] at hheap'
              rw [← Option.some.inj hheap', hid] at hid'
              exact hsame hid'.symm
            rw [Option.map_some, Option.map_some, if_neg hne]

/-- **A REQUEST** forwards one message at most, and sets the reply socket of its
    interface if it forwards one. -/
theorem request_step {env : Env} {sock : Option SockId} {id : UInt32}
    {args : List (List UInt8)} {behind : Mem} (hid : id ≠ 0)
    (hlen : (rpcEncoding id args).length < 2 ^ 32) {k : Registry}
    {o : Outcome Registry Event Int32}
    (hrun : executeInterface env (overlay (rpcEncoding id args) behind)
      (UInt32.ofNat (rpcEncoding id args).length) sock k = o) :
    (deliveries o.trace = [] ∨ ∃ port, deliveries o.trace
        = [(port, userMessage (rpcEncoding id args)
            (UInt32.ofNat (rpcEncoding id args).length))]
        ∧ o.state.replySocket id = sock)
      ∧ ∀ id', o.state.replySocket id' = k.replySocket id'
        ∨ id' = id ∧ o.state.replySocket id' = sock := by
  have hword : wordAt (overlay (rpcEncoding id args) behind) 0 = id :=
    wordAt_of_holds (holds_append.mp (holds_overlay _ behind)).1
  have hne : wordAt (overlay (rpcEncoding id args) behind) 0 ≠ 0 := by
    rw [hword]
    exact hid
  cases hlookup : k.findInterface id.toInt32 with
  | none =>
      -- the lookup faults before anything is forwarded
      rw [executeInterface_fault hne (by rw [hword]; exact hlookup)] at hrun
      rw [← hrun]
      exact ⟨Or.inl rfl, fun id' => Or.inl rfl⟩
  | some found =>
      cases found with
      | none =>
          -- no interface: refused
          rw [executeInterface_missing hne (by rw [hword]; exact hlookup)] at hrun
          rw [← hrun]
          exact ⟨Or.inl rfl, fun id' => Or.inl rfl⟩
      | some hit =>
          obtain ⟨p, x⟩ := hit
          rw [executeInterface_found hne (by rw [hword]; exact hlookup)] at hrun
          have hsocket : ∀ id', o.state.replySocket id'
              = if id' = id then sock else k.replySocket id' := by
            rw [← hrun]
            exact replySocket_setSocket hlookup sock
          refine ⟨?_, fun id' => ?_⟩
          · rw [hsocket, if_pos rfl, ← hrun]
            show deliveries (forwardEvents _ _ _ _) = []
              ∨ ∃ port, deliveries (forwardEvents _ _ _ _) = [(port, _)] ∧ _
            rw [deliveries_forwardEvents, slice_packet hlen]
            by_cases hsent : env.skbAlloc = true ∧ ¬ env.unicastRet < 0
            · rw [if_pos hsent]
              exact Or.inr ⟨x.ctrl.clientPortid, rfl, rfl⟩
            · rw [if_neg hsent]
              exact Or.inl rfl
          · rw [hsocket]
            by_cases hsame : id' = id
            · exact Or.inr ⟨hsame, if_pos hsame⟩
            · exact Or.inl (if_neg hsame)

/-- A message in which the library sends a result for `id`. -/
def ResultFor (id : UInt32) (message : List UInt8) : Prop :=
  ∃ portid packet, wordBytes id <+: packet ∧ packet.length < 2 ^ 32
    ∧ Lib.netlinkSendtoKern portid INCOME_RESULT packet
        (UInt32.ofNat packet.length) = some message

theorem sendBack_messages (p : Process) (id retc : UInt32)
    (retv : List AttrValue) :
    messages (sendBack p id retc retv ()).trace = []
      ∨ ∃ message, messages (sendBack p id retc retv ()).trace = [message]
          ∧ ResultFor id message := by
  rcases sendBack_cases p id retc retv
    with ⟨packet, message, hpacket, hmessage, hrun⟩ | ⟨hrun, -⟩
  · obtain ⟨hpre, hlen⟩ := Lib.serializeRpcPacket_id hpacket
    rw [hrun]
    exact Or.inr ⟨message, rfl, p.portid, packet, hpre, hlen, hmessage⟩
  · rw [hrun]
    exact Or.inl rfl

theorem callInterface_messages (p : Process) (id : UInt32) (interface : Managed)
    (argv : List AttrValue) :
    messages (callInterface p id interface argv ()).trace = []
      ∨ ∃ message, messages (callInterface p id interface argv ()).trace = [message]
          ∧ ResultFor id message := by
  rw [callInterface, run_emit_bind]
  by_cases hret : (interface.callback argv
      (List.replicate interface.retc.toNat ⟨-1, .null⟩)).1 < 0
  · rw [if_pos hret]
    exact Or.inl rfl
  · rw [if_neg hret]
    exact sendBack_messages p id interface.retc _

/-- What a lookup in the managed interfaces finds has the id. -/
theorem Process.findInterface_id {p : Process} {id : Int32} {x : Managed}
    (hfound : p.findInterface id = some (some x)) :
    x ∈ p.managed ∧ x.id = id.toUInt32 := by
  obtain ⟨found, hsearch, hval⟩ := Option.map_eq_some_iff.mp hfound
  obtain ⟨h, hsome, hx⟩ := Option.map_eq_some_iff.mp hval
  rw [hsome] at hsearch
  obtain ⟨hget, hsat⟩ := search_hit hsearch
  rw [hx] at hget hsat
  exact ⟨List.mem_of_getElem? hget, eq_of_beq hsat⟩

/-- **A ROUND** of a process on a forwarded request sends one result at most, and
    one for the interface of this request. -/
theorem round_step {p : Process} (hids : ∀ x ∈ p.managed, x.id ≠ 0)
    (left : Leftovers) {id : UInt32} {args : List (List UInt8)}
    (hlen : (rpcEncoding id args).length < 2 ^ 32) :
    let t := (handleRpc p left (some (userMessage (rpcEncoding id args)
      (UInt32.ofNat (rpcEncoding id args).length))) ()).trace
    messages t = [] ∨ ∃ message, messages t = [message]
      ∧ ResultFor id message := by
  have hword := UInt32.toNat_ofNat_of_lt' hlen
  rw [handleRpc_userMessage p left hword, handlePacket]
  generalize hdata : (if UInt32.ofNat (rpcEncoding id args).length ≤ MAX_PAYLOAD
    then some (rpcEncoding id args) else none) = data
  by_cases hempty : recvLength data = 0
  · rw [if_pos hempty]
    exact Or.inl rfl
  rw [if_neg hempty]
  cases hfound : p.findInterface
      (interfaceId (receivedPacket left data) 0).val with
  | none =>
      rw [run_orFault_none_bind rfl]
      exact Or.inl rfl
  | some found =>
      rw [run_orFault_some_bind rfl]
      cases found with
      | none => exact Or.inl rfl
      | some x =>
          by_cases hfits : UInt32.ofNat (rpcEncoding id args).length ≤ MAX_PAYLOAD
          · rw [if_pos hfits] at hdata
            have hm : Holds (receivedPacket left data) 0 (rpcEncoding id args) := by
              rw [← hdata]
              exact holds_store _ _
            have henc : Encodable args := @encodable_of_length id args hlen
            rw [selectInterface, Lib.unserializeRpcPacket_val henc hm]
            by_cases hargc : x.argc ≠ UInt32.ofNat args.length
            · rw [if_pos hargc]
              exact Or.inl rfl
            · rw [if_neg hargc]
              exact callInterface_messages p id x _
          · -- a packet that is too long leaves zeros, and no interface has id 0
            rw [if_neg hfits] at hdata
            obtain ⟨hx, hid⟩ := Process.findInterface_id hfound
            rw [← hdata, interfaceId_none] at hid
            have hval : x.id = 0 := hid
            exact absurd hval (hids x hx)

/-- **A RESULT** leaves the registry as it is, and is written to the reply socket
    of its interface only. -/
theorem result_step {id : UInt32} {message : List UInt8}
    (hmessage : ResultFor id message) {env : Env} {mem : Mem} {k : Registry}
    {o : Outcome Registry Event Unit}
    (hrun : handleNetlinkIncome env (overlay message mem) k = o) :
    o.state = k ∧ ∀ w ∈ sends o.trace, k.replySocket id = some w.1 := by
  obtain ⟨portid, packet, hpre, hlen, hsent⟩ := hmessage
  obtain ⟨-, htype, -, -, -, hm⟩ := netlinkIncome_of_sent
    (UInt32.toNat_ofNat_of_lt' hlen) hsent mem
  generalize overlay message mem = m at htype hm hrun
  replace htype : m 16 = INCOME_RESULT := htype
  have hid : wordAt m 17 = id := by
    obtain ⟨rest, hrest⟩ := hpre
    rw [← hrest] at hm
    exact wordAt_of_holds (holds_append.mp hm).1
  cases hlookup : k.findInterface id.toInt32 with
  | none =>
      rw [handleNetlinkIncome_isResult htype,
        handleInterfaceResult_fault (by rw [hid]; exact hlookup)] at hrun
      rw [← hrun]
      refine ⟨rfl, fun w hw => ?_⟩
      cases hw
  | some found =>
      cases found with
      | none =>
          rw [handleNetlinkIncome_isResult htype,
            handleInterfaceResult_missing (by rw [hid]; exact hlookup)] at hrun
          rw [← hrun]
          refine ⟨rfl, fun w hw => ?_⟩
          cases hw
      | some hit =>
          obtain ⟨p, x⟩ := hit
          obtain ⟨vs, henc, hvs⟩ := holds_rpcEncoding m 17
          obtain ⟨reads, hresult⟩ := handleNetlinkIncome_result htype
            (by rw [hid]; exact hlookup) henc hvs env
          rw [hresult] at hrun
          rw [← hrun]
          refine ⟨rfl, fun w hw => ?_⟩
          rw [replySocket_found hlookup]
          rw [sends_append, sends_reads, List.nil_append] at hw
          cases vs with
          | nil => cases hw
          | cons v vs =>
              cases hsock : x.ctrl.socket with
              | none =>
                  rw [hsock] at hw
                  cases hw
              | some sock =>
                  rw [hsock] at hw
                  -- the length and the packet, both to `sock`
                  rcases List.mem_cons.mp hw with hfirst | hsecond
                  · rw [hfirst]
                  · rw [List.mem_singleton.mp hsecond]

/-! ## Runs -/

/-- What holds of a host in every run of steps that are alone: the messages on
    their way are about their requests, every number is used at most once, and
    the reply socket of each interface with a request on its way is that
    request's, or none. -/
structure Serving.Invariant (s : Serving) : Prop where
  known : ∀ t ∈ s.outstanding ++ s.replies.map Prod.fst, t < s.requests.length
  nodup : (s.outstanding ++ s.replies.map Prod.fst).Nodup
  forwarded : ∀ e ∈ s.forwarded, ∃ r args, s.requests[e.1]? = some r
    ∧ (rpcEncoding r.id args).length < 2 ^ 32
    ∧ e.2.2 = userMessage (rpcEncoding r.id args)
        (UInt32.ofNat (rpcEncoding r.id args).length)
  results : ∀ e ∈ s.results, ∃ r, s.requests[e.1]? = some r ∧ ResultFor r.id e.2
  sockets : ∀ t ∈ s.outstanding, ∀ r, s.requests[t]? = some r →
    s.registry.replySocket r.id = none ∨ s.registry.replySocket r.id = r.sock
  own : ∀ t writes, (t, writes) ∈ s.replies → ∀ w ∈ writes,
    ∃ r, s.requests[t]? = some r ∧ r.sock = some w.1

theorem Serving.Invariant.routed {s : Serving} (h : s.Invariant) : Routed s :=
  ⟨h.own, (List.nodup_append.mp h.nodup).2.1⟩

theorem invariant_initial (k : Registry) : (Serving.initial k).Invariant :=
  ⟨(fun _ h => nomatch h), List.nodup_nil, (fun _ h => nomatch h),
    (fun _ h => nomatch h), (fun _ h => nomatch h), (fun _ _ h => nomatch h)⟩

/-- Earlier requests keep their numbers. -/
theorem request_of_lt {rs : List Request} {t : Nat} (ht : t < rs.length)
    (new : Request) {r : Request} (h : (rs ++ [new])[t]? = some r) :
    rs[t]? = some r := by
  rwa [List.getElem?_append_left ht] at h

theorem request_append {rs : List Request} {t : Nat} {r : Request}
    (h : rs[t]? = some r) (new : Request) : (rs ++ [new])[t]? = some r := by
  rw [List.getElem?_append_left (List.getElem?_eq_some_iff.mp h).1]
  exact h

/-- A request that has got its number, with nothing on its way for it. -/
theorem Serving.Invariant.ask {s : Serving} (h : s.Invariant) (new : Request)
    {k : Registry}
    (hsockets : ∀ t ∈ s.outstanding, ∀ r, s.requests[t]? = some r →
      k.replySocket r.id = none ∨ k.replySocket r.id = r.sock) :
    Serving.Invariant
      { s with registry := k, requests := s.requests ++ [new] } where
  known t ht := by
    rw [List.length_append]
    exact Nat.lt_succ_of_lt (h.known t ht)
  nodup := h.nodup
  forwarded e he := by
    obtain ⟨r, args, hr, hrest⟩ := h.forwarded e he
    exact ⟨r, args, request_append hr new, hrest⟩
  results e he := by
    obtain ⟨r, hr, hres⟩ := h.results e he
    exact ⟨r, request_append hr new, hres⟩
  sockets t ht r hr :=
    hsockets t ht r
      (request_of_lt (h.known t (List.mem_append_left _ ht)) new hr)
  own t writes hmem w hw := by
    obtain ⟨r, hr, hsock⟩ := h.own t writes hmem w hw
    exact ⟨r, request_append hr new, hsock⟩

/-- One more number is used. -/
theorem Serving.Invariant.more {s : Serving} (h : s.Invariant) {n : Nat}
    (hn : n < s.requests.length)
    (hnew : n ∉ s.outstanding ++ s.replies.map Prod.fst) {ns : List Nat}
    (hperm : ns.Perm (n :: (s.outstanding ++ s.replies.map Prod.fst))) :
    (∀ t ∈ ns, t < s.requests.length) ∧ ns.Nodup := by
  refine ⟨fun t ht => ?_, hperm.nodup_iff.mpr (List.nodup_cons.mpr ⟨hnew, h.nodup⟩)⟩
  rcases List.mem_cons.mp (hperm.mem_iff.mp ht) with heq | hmem
  · rw [heq]
    exact hn
  · exact h.known t hmem

/-- One number less is used. -/
theorem Serving.Invariant.fewer {s : Serving} (h : s.Invariant) {n : Nat}
    {ns : List Nat}
    (hperm : (s.outstanding ++ s.replies.map Prod.fst).Perm (n :: ns)) :
    (∀ t ∈ ns, t < s.requests.length) ∧ ns.Nodup ∧ n ∉ ns := by
  have hnodup := List.nodup_cons.mp (hperm.nodup_iff.mp h.nodup)
  exact ⟨fun t ht => h.known t (hperm.mem_iff.mpr (List.mem_cons_of_mem n ht)),
    hnodup.2, hnodup.1⟩

/-- A packet is on its way to a process. -/
theorem Serving.Invariant.enqueue {s : Serving} (h : s.Invariant) {n : Nat}
    {r : Request} (hr : s.requests[n]? = some r)
    (hnew : n ∉ s.outstanding ++ s.replies.map Prod.fst)
    (hsock : s.registry.replySocket r.id = none
      ∨ s.registry.replySocket r.id = r.sock)
    {args : List (List UInt8)} (hlen : (rpcEncoding r.id args).length < 2 ^ 32)
    (port : UInt32) :
    Serving.Invariant { s with
      forwarded := s.forwarded ++ [(n, port, userMessage (rpcEncoding r.id args)
        (UInt32.ofNat (rpcEncoding r.id args).length))] } := by
  have hperm : ((s.forwarded ++ [(n, port, userMessage (rpcEncoding r.id args)
      (UInt32.ofNat (rpcEncoding r.id args).length))]).map Prod.fst
      ++ s.results.map Prod.fst).Perm (n :: s.outstanding) := by
    rw [List.map_append, List.append_assoc]
    exact List.perm_middle
  obtain ⟨hknown, hnodup⟩ := h.more (List.getElem?_eq_some_iff.mp hr).1 hnew
    (hperm.append_right _)
  refine ⟨hknown, hnodup, fun e he => ?_, h.results, fun t ht r' hr' => ?_, h.own⟩
  · rcases List.mem_append.mp he with hold | hlast
    · exact h.forwarded e hold
    · rw [List.mem_singleton.mp hlast]
      exact ⟨r, args, hr, hlen, rfl⟩
  · -- the socket of the new request, or of one that was on its way
    rcases List.mem_cons.mp (hperm.mem_iff.mp ht) with heq | hold
    · rw [heq] at hr'
      cases Option.some.inj (hr.symm.trans hr')
      exact hsock
    · exact h.sockets t hold r' hr'

/-- A packet is taken by its process. -/
theorem Serving.Invariant.dequeue {s : Serving} (h : s.Invariant)
    {e : Nat × UInt32 × List UInt8}
    {before behind : List (Nat × UInt32 × List UInt8)}
    (hforwarded : s.forwarded = before ++ e :: behind) :
    Serving.Invariant { s with forwarded := before ++ behind }
      ∧ e.1 ∉ ((before ++ behind).map Prod.fst ++ s.results.map Prod.fst)
          ++ s.replies.map Prod.fst := by
  have hperm : s.outstanding.Perm (e.1 :: ((before ++ behind).map Prod.fst
      ++ s.results.map Prod.fst)) := by
    rw [Serving.outstanding, hforwarded, List.map_append, List.map_append,
      List.append_assoc, List.append_assoc]
    exact List.perm_middle
  obtain ⟨hknown, hnodup, hfree⟩ := h.fewer (hperm.append_right _)
  refine ⟨⟨hknown, hnodup, fun e' he' => h.forwarded e' ?_, h.results,
    fun t ht => h.sockets t (hperm.mem_iff.mpr (List.mem_cons_of_mem _ ht)), h.own⟩,
    hfree⟩
  rw [hforwarded]
  exact (List.perm_middle.mem_iff).mpr (List.mem_cons_of_mem e he')

/-- A result is on its way to the kernel. -/
theorem Serving.Invariant.report {s : Serving} (h : s.Invariant) {n : Nat}
    {r : Request} (hr : s.requests[n]? = some r)
    (hnew : n ∉ s.outstanding ++ s.replies.map Prod.fst)
    (hsock : s.registry.replySocket r.id = none
      ∨ s.registry.replySocket r.id = r.sock)
    {message : List UInt8} (hres : ResultFor r.id message) :
    Serving.Invariant { s with results := s.results ++ [(n, message)] } := by
  have hperm : (s.forwarded.map Prod.fst
      ++ (s.results ++ [(n, message)]).map Prod.fst).Perm (n :: s.outstanding) := by
    rw [List.map_append, ← List.append_assoc]
    exact List.perm_append_singleton _ _
  obtain ⟨hknown, hnodup⟩ := h.more (List.getElem?_eq_some_iff.mp hr).1 hnew
    (hperm.append_right _)
  refine ⟨hknown, hnodup, h.forwarded, fun e he => ?_, fun t ht r' hr' => ?_, h.own⟩
  · rcases List.mem_append.mp he with hold | hlast
    · exact h.results e hold
    · rw [List.mem_singleton.mp hlast]
      exact ⟨r, hr, hres⟩
  · rcases List.mem_cons.mp (hperm.mem_iff.mp ht) with heq | hold
    · rw [heq] at hr'
      cases Option.some.inj (hr.symm.trans hr')
      exact hsock
    · exact h.sockets t hold r' hr'

/-- A result is taken by the kernel. -/
theorem Serving.Invariant.collect {s : Serving} (h : s.Invariant)
    {e : Nat × List UInt8} {before behind : List (Nat × List UInt8)}
    (hresults : s.results = before ++ e :: behind) :
    Serving.Invariant { s with results := before ++ behind }
      ∧ e.1 ∉ (s.forwarded.map Prod.fst ++ (before ++ behind).map Prod.fst)
          ++ s.replies.map Prod.fst := by
  have hperm : s.outstanding.Perm (e.1 :: (s.forwarded.map Prod.fst
      ++ (before ++ behind).map Prod.fst)) := by
    rw [Serving.outstanding, hresults, List.map_append, List.map_append,
      ← List.append_assoc, ← List.append_assoc]
    exact List.perm_middle
  obtain ⟨hknown, hnodup, hfree⟩ := h.fewer (hperm.append_right _)
  refine ⟨⟨hknown, hnodup, h.forwarded, fun e' he' => h.results e' ?_,
    fun t ht => h.sockets t (hperm.mem_iff.mpr (List.mem_cons_of_mem _ ht)), h.own⟩,
    hfree⟩
  rw [hresults]
  exact (List.perm_middle.mem_iff).mpr (List.mem_cons_of_mem e he')

/-- A reply that goes to the socket of its request. -/
theorem Serving.Invariant.reply {s : Serving} (h : s.Invariant) {n : Nat}
    {r : Request} (hr : s.requests[n]? = some r)
    (hnew : n ∉ s.outstanding ++ s.replies.map Prod.fst)
    {writes : List (SockId × List UInt8)}
    (hown : ∀ w ∈ writes, r.sock = some w.1) :
    Serving.Invariant { s with replies := s.replies ++ replyTo n writes } := by
  by_cases hnone : writes = []
  · rw [replyTo, if_pos hnone, List.append_nil]
    exact h
  rw [replyTo, if_neg hnone]
  have hperm : (s.outstanding ++ (s.replies ++ [(n, writes)]).map Prod.fst).Perm
      (n :: (s.outstanding ++ s.replies.map Prod.fst)) := by
    rw [List.map_append, ← List.append_assoc]
    exact List.perm_append_singleton _ _
  obtain ⟨hknown, hnodup⟩ :=
    h.more (List.getElem?_eq_some_iff.mp hr).1 hnew hperm
  refine ⟨hknown, hnodup, h.forwarded, h.results, h.sockets, ?_⟩
  intro t writes' hmem w hw
  rcases List.mem_append.mp hmem with hold | hlast
  · exact h.own t writes' hold w hw
  · cases List.mem_singleton.mp hlast
    exact ⟨r, hr, hown w hw⟩

/-- A request keeps the invariant. -/
theorem Serving.Invariant.request {s : Serving} (h : s.Invariant) {env : Env}
    {sock : Option SockId} {id : UInt32} {args : List (List UInt8)}
    {behind : Mem} (halone : Alone s (.request env sock id args behind))
    {o : Outcome Registry Event Int32} (hid : id ≠ 0)
    (hlen : (rpcEncoding id args).length < 2 ^ 32)
    (hrun : executeInterface env (overlay (rpcEncoding id args) behind)
      (UInt32.ofNat (rpcEncoding id args).length) sock s.registry = o) :
    Serving.Invariant { s with
      registry := o.state
      requests := s.requests ++ [⟨sock, id⟩]
      forwarded := s.forwarded
        ++ (deliveries o.trace).map fun d => (s.requests.length, d) } := by
  obtain ⟨hforward, hsocket⟩ := request_step hid hlen hrun
  -- the requests that were on their way before are still served by their sockets
  have hasked := h.ask ⟨sock, id⟩ (k := o.state) fun t ht r hr => by
    rcases hsocket r.id with hsame | ⟨hrid, hnew⟩
    · rw [hsame]
      exact h.sockets t ht r hr
    · cases sock with
      | none => exact Or.inl hnew
      | some c => exact absurd hrid (halone t ht r hr)
  rcases hforward with hnone | ⟨port, hone, hown⟩
  · rw [hnone, List.map_nil, List.append_nil]
    exact hasked
  · rw [hone, List.map_singleton]
    have hlast : (s.requests ++ [(⟨sock, id⟩ : Request)])[s.requests.length]?
        = some ⟨sock, id⟩ := by
      rw [List.getElem?_append_right (Nat.le_refl _), Nat.sub_self]
      rfl
    exact hasked.enqueue hlast (fun hmem => Nat.lt_irrefl _ (h.known _ hmem))
      (Or.inr hown) hlen port

/-- A round keeps the invariant: the number of the packet moves to the result, if
    there is one. -/
theorem Serving.Invariant.round {s : Serving} (h : s.Invariant) {p : Process}
    (hids : ∀ x ∈ p.managed, x.id ≠ 0) (left : Leftovers) {t : Nat}
    {port : UInt32} {message : List UInt8}
    {before behind : List (Nat × UInt32 × List UInt8)}
    (hforwarded : s.forwarded = before ++ (t, port, message) :: behind) :
    Serving.Invariant { s with
      forwarded := before ++ behind
      results := s.results ++ (messages
        (handleRpc p left (some message) ()).trace).map fun m => (t, m) } := by
  have hmem : (t, port, message) ∈ s.forwarded := by
    rw [hforwarded]
    exact List.mem_append_right _ (List.mem_cons_self ..)
  obtain ⟨r, args, hr, hlen, hmessage⟩ := h.forwarded _ hmem
  have hround := round_step hids left hlen
  rw [← hmessage] at hround
  have hsock := h.sockets t (List.mem_append_left _ (List.mem_map_of_mem hmem)) r hr
  obtain ⟨htaken, hfree⟩ := h.dequeue hforwarded
  rcases hround with hnone | ⟨m, hone, hres⟩
  · rw [hnone, List.map_nil, List.append_nil]
    exact htaken
  · rw [hone, List.map_singleton]
    exact htaken.report hr hfree hsock hres

/-- A result keeps the invariant: its number moves to the reply, if there is one. -/
theorem Serving.Invariant.result {s : Serving} (h : s.Invariant) {env : Env}
    {mem : Mem} {t : Nat} {message : List UInt8}
    {before behind : List (Nat × List UInt8)}
    (hresults : s.results = before ++ (t, message) :: behind)
    {o : Outcome Registry Event Unit}
    (hrun : handleNetlinkIncome env (overlay message mem) s.registry = o) :
    Serving.Invariant { s with
      registry := o.state
      results := before ++ behind
      replies := s.replies ++ replyTo t (sends o.trace) } := by
  have hmem : (t, message) ∈ s.results := by
    rw [hresults]
    exact List.mem_append_right _ (List.mem_cons_self ..)
  obtain ⟨r, hr, hres⟩ := h.results _ hmem
  obtain ⟨hstate, hwrites⟩ := result_step hres hrun
  obtain ⟨htaken, hfree⟩ := h.collect hresults
  rw [hstate]
  refine htaken.reply hr hfree fun w hw => ?_
  -- what is written goes to the socket that the interface has, the request's own
  have hsocket := hwrites w hw
  rcases h.sockets t (List.mem_append_right _ (List.mem_map_of_mem hmem)) r hr
    with hnone | hsame
  · exact absurd (hnone.symm.trans hsocket) (Option.some_ne_none _).symm
  · exact hsame.symm.trans hsocket

/-- **ONE STEP** that is alone keeps the invariant. -/
theorem Serving.Invariant.step {s s' : Serving} {a : Action} (h : s.Invariant)
    (halone : Alone s a) (hstep : ServingStep s a s') : s'.Invariant := by
  cases hstep with
  | request hid hlen _ hrun => exact h.request halone hid hlen hrun
  | round hids hforwarded _ => exact h.round hids _ hforwarded
  | result hresults hrun => exact h.result hresults hrun

/-- **ROUTING**: in every state that steps reach which are alone, each reply went
    to the socket of its request, and no request was answered twice. -/
theorem replies_routed {k : Registry} {as : List Action} {s : Serving}
    (hrun : Run (guarded ServingStep Alone) (Serving.initial k) as s) :
    Routed s :=
  (hrun.invariant (invariant_initial k)
    fun _ _ _ h hstep => h.step hstep.1 hstep.2).routed

/-! ## One client, and two -/

/-- A request for interface 1 on the connection `sock`. -/
def Action.asks (sock : SockId) : Action :=
  .request .fine (some sock) 1 [] fun _ => 0

/-- The host after this request. -/
def Serving.asked (sock : SockId) (s : Serving) : Serving :=
  let o := executeInterface .fine (overlay (rpcEncoding 1 []) fun _ => 0) 8
    (some sock) s.registry
  { s with
    registry := o.state
    requests := s.requests ++ [⟨some sock, 1⟩]
    forwarded := s.forwarded
      ++ (deliveries o.trace).map fun d => (s.requests.length, d) }

theorem ServingStep.asks {s : Serving} {sock : SockId}
    (hnew : ∀ r ∈ s.requests, r.sock ≠ none → r.sock ≠ some sock) :
    ServingStep s (.asks sock) (s.asked sock) :=
  .request (by decide) (by decide) hnew rfl

/-- The host that serves interface 1, before anybody asked. -/
def Serving.answering : Serving :=
  .initial (.sole ((UserInterface.answering.registered 1 7 none).activate 9))

/-- The round and the result that answer the oldest request. -/
def Action.answers : List Action :=
  [.round Host.answering.process Host.answering.left, .result .fine fun _ => 1]

/-- The result that the process sends. -/
def answerMessage : List UInt8 :=
  nlmsghdr 32 0 9 ++ [INCOME_RESULT] ++ rpcEncoding 1 [[42]] ++ [0, 0]

/-- They answer request number 0, to whatever socket is set by then. -/
theorem answers_run {step : Serving → Action → Serving → Prop}
    (hstep : ∀ t, ∀ a ∈ Action.answers, ∀ u, ServingStep t a u → step t a u)
    {s : Serving} {behind : List (Nat × UInt32 × List UInt8)}
    (hforwarded : s.forwarded = (0, 9, userMessage (rpcEncoding 1 []) 8) :: behind)
    (hresults : s.results = []) :
    ∃ s', Run step s Action.answers s' ∧ s'.requests = s.requests
      ∧ s'.replies = s.replies ++ replyTo 0 (sends (handleNetlinkIncome .fine
          (overlay answerMessage fun _ => 1) s.registry).trace) := by
  have hids : ∀ x ∈ Host.answering.process.managed, x.id ≠ 0 := by
    intro x hx
    rw [List.mem_singleton.mp hx]
    decide
  have hmessages : messages (handleRpc Host.answering.process
      Host.answering.left (some (userMessage (rpcEncoding 1 []) 8)) ()).trace
      = [answerMessage] := by decide
  have hround := @ServingStep.round s _ Host.answering.left _ _ [] behind hids
    hforwarded (fun _ h => nomatch h)
  rw [hresults, hmessages] at hround
  have hresult := @ServingStep.result { s with
    forwarded := behind, results := [(0, answerMessage)] } .fine (fun _ => 1) 0
    answerMessage [] [] _ rfl rfl
  exact ⟨_, (Run.nil.snoc (hstep _ _ (List.mem_cons_self ..) _ hround)).snoc
    (hstep _ _ (List.mem_cons_of_mem _ (List.mem_cons_self ..)) _ hresult),
    rfl, rfl⟩

/-- One client, which gets its reply. -/
theorem replies_routed_one : ∃ s, s.replies ≠ [] ∧ Routed s := by
  have hstart : Run (guarded ServingStep Alone) .answering [.asks 5]
      (Serving.answering.asked 5) :=
    Run.nil.snoc ⟨(fun _ h => nomatch h), .asks fun _ h => nomatch h⟩
  have hstep : ∀ t, ∀ a ∈ Action.answers, ∀ u, ServingStep t a u →
      guarded ServingStep Alone t a u := by
    intro t a ha u h
    rcases List.mem_cons.mp ha with hround | hresult
    · rw [hround] at h ⊢
      exact ⟨trivial, h⟩
    · rw [List.mem_singleton.mp hresult] at h ⊢
      exact ⟨trivial, h⟩
  obtain ⟨s, hrun, -, hreplies⟩ := @answers_run _ hstep
    (Serving.answering.asked 5) [] rfl rfl
  refine ⟨s, ?_, replies_routed (hstart.trans hrun)⟩
  rw [hreplies]
  decide

/-- Two clients: the reply to the first one is written to the second one. -/
theorem overlap_misroutes :
    ¬ ∀ (k : Registry) (as : List Action) (s : Serving),
      Run ServingStep (.initial k) as s → Routed s := by
  intro h
  have hfirst : ServingStep .answering (.asks 5) (Serving.answering.asked 5) :=
    .asks fun _ h => nomatch h
  have hsecond : ServingStep (Serving.answering.asked 5) (.asks 6)
      ((Serving.answering.asked 5).asked 6) := by
    refine .asks fun r hr _ => ?_
    rw [List.mem_singleton.mp hr]
    decide
  obtain ⟨s, hrun, hrequests, hreplies⟩ := @answers_run _ (fun _ _ _ _ h => h)
    ((Serving.answering.asked 5).asked 6)
    [(1, 9, userMessage (rpcEncoding 1 []) 8)] rfl rfl
  have hrouted := h _ _ s ((Run.nil.snoc hfirst).snoc hsecond |>.trans hrun)
  -- the result of the first request goes to the socket of the second
  have hwritten : sends (handleNetlinkIncome .fine
      (overlay answerMessage fun _ => 1)
      ((Serving.answering.asked 5).asked 6).registry).trace
      = [(6, wordBytes 31),
          (6, rpcEncoding 1 [[42]] ++ [0, 0] ++ List.replicate 16 1)] := by
    decide
  rw [hwritten] at hreplies
  obtain ⟨r, hr, hsock⟩ := hrouted.own 0 _
    (by rw [hreplies]; exact List.mem_cons_self ..) _ (List.mem_cons_self ..)
  rw [hrequests] at hr
  rw [← Option.some.inj hr] at hsock
  exact absurd hsock (by decide)

end DistComm
