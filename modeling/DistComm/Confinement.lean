import DistComm.OneResult
import DistComm.Routing

/-! # What overlapping requests leave intact

    The serving host of `Routing` in all its runs, with any number of clients whose
    requests for one interface overlap.  A reply may then go to another client than
    its own, but not to just anyone (`replies_confined`): no request is answered
    twice, and each reply goes to a client that asked for the same interface, not
    earlier than the one it is for.  What it carries is what a round of some process
    made of the arguments of the request. -/

namespace DistComm

open RawMemory RawScan PointerArray TracedProgram Transition

/-! ## What was asked -/

/-- A request with its socket, interface and arguments. -/
structure Question where
  sock : Option SockId
  id : UInt32
  args : List (List UInt8)

def Action.question : Action → Option Question
  | .request _ sock id args _ => some ⟨sock, id, args⟩
  | .round _ _ => none
  | .result _ _ => none

/-- The requests of a run; their positions are their numbers. -/
def questions (as : List Action) : List Question := as.filterMap Action.question

/-- What a round of a process on the question sends to the kernel. -/
def Question.sentBack (q : Question) (p : Process) (left : Leftovers) :
    List (List UInt8) :=
  messages (handleRpc p left (some (userMessage (rpcEncoding q.id q.args)
    (UInt32.ofNat (rpcEncoding q.id q.args).length))) ()).trace

/-- The packet is what the library makes of the results of a successful call of the
    interface with these arguments. -/
def Process.Returns (p : Process) (left : Leftovers) (q : Question)
    (packet : List UInt8) : Prop :=
  ∃ x ∈ p.managed, x.id = q.id ∧ x.argc.toNat = q.args.length
    ∧ ¬ (x.outcome left q.args).1 < 0
    ∧ Lib.serializeRpcPacket q.id.toInt32 x.retc.toInt32 (x.outcome left q.args).2
      = some packet

/-- The packet is what some round of the run returns for the question, and the message
    carries it. -/
def Answers (as : List Action) (q : Question) (packet message : List UInt8) : Prop :=
  ∃ p left, .round p left ∈ as ∧ p.Returns left q packet
    ∧ Lib.netlinkSendtoKern p.portid INCOME_RESULT packet
        (UInt32.ofNat packet.length) = some message

/-- Question `t` or a later one asks for the interface on the socket. -/
def AskedSince (as : List Action) (t : Nat) (id : UInt32) (sock : SockId) : Prop :=
  ∃ n q, t ≤ n ∧ (questions as)[n]? = some q ∧ q.id = id ∧ q.sock = some sock

/-- A reply to question `t`: a length and a packet behind which there may be more
    bytes, both to one socket. -/
def Confined (as : List Action) (t : Nat) (writes : List (SockId × List UInt8)) : Prop :=
  ∃ q packet message sock reply, (questions as)[t]? = some q
    ∧ Answers as q packet message ∧ AskedSince as t q.id sock ∧ packet <+: reply
    ∧ writes = [(sock, wordBytes (UInt32.ofNat reply.length)), (sock, reply)]

/-! ## A round and a result -/

theorem callInterface_returns {p : Process} {x : Managed} (hx : x ∈ p.managed)
    (left : Leftovers) {q : Question} (hid : x.id = q.id)
    (hargc : x.argc.toNat = q.args.length) :
    messages (callInterface p q.id x (decodedArgs left.heap q.args) ()).trace = []
      ∨ ∃ packet message,
          messages (callInterface p q.id x (decodedArgs left.heap q.args) ()).trace
            = [message]
          ∧ p.Returns left q packet
          ∧ Lib.netlinkSendtoKern p.portid INCOME_RESULT packet
              (UInt32.ofNat packet.length) = some message := by
  rw [callInterface, run_emit_bind, messages_call]
  by_cases hret : (x.callback (decodedArgs left.heap q.args)
      (List.replicate x.retc.toNat ⟨-1, .null⟩)).1 < 0
  · rw [if_pos hret]
    exact Or.inl rfl
  · rw [if_neg hret]
    rcases sendBack_cases p q.id x.retc (x.callback (decodedArgs left.heap q.args)
        (List.replicate x.retc.toNat ⟨-1, .null⟩)).2
      with ⟨packet, message, hpacket, hmessage, hrun⟩ | ⟨hrun, -⟩
    · rw [hrun]
      exact Or.inr ⟨packet, message, rfl, ⟨x, hx, hid, hargc, hret, hpacket⟩, hmessage⟩
    · rw [hrun]
      exact Or.inl rfl

/-- A question that is longer than a process receives is dropped: no interface has the
    id 0 that is read then. -/
theorem handleRpc_long {p : Process} (hids : ∀ x ∈ p.managed, x.id ≠ 0)
    (left : Leftovers) {q : Question} (hlen : (rpcEncoding q.id q.args).length < 2 ^ 32)
    (hlong : ¬ (rpcEncoding q.id q.args).length ≤ MAX_PAYLOAD.toNat) :
    q.sentBack p left = [] := by
  have hword := UInt32.toNat_ofNat_of_lt' hlen
  have hpayload : ¬ UInt32.ofNat (rpcEncoding q.id q.args).length ≤ MAX_PAYLOAD := by
    rw [UInt32.le_iff_toNat_le, hword]
    exact hlong
  have hnone : ¬ recvLength none = 0 := by decide
  have hrun : handleRpc p left (some (userMessage (rpcEncoding q.id q.args)
      (UInt32.ofNat (rpcEncoding q.id q.args).length))) = handlePacket p left none := by
    rw [handleRpc_userMessage p left hword, if_neg hpayload]
  rw [Question.sentBack, hrun, handlePacket, if_neg hnone]
  cases hfound : p.findInterface (interfaceId (receivedPacket left none) 0).val with
  | none =>
      rw [run_orFault_none_bind rfl]
      rfl
  | some found =>
      rw [run_orFault_some_bind rfl]
      cases found with
      | none => rfl
      | some x =>
          obtain ⟨hx, hid⟩ := Process.findInterface_id hfound
          rw [interfaceId_none] at hid
          exact absurd hid (hids x hx)

/-- **A ROUND** sends one message at most, with what it returns for the question. -/
theorem handleRpc_returns {p : Process} (hids : ∀ x ∈ p.managed, x.id ≠ 0)
    (left : Leftovers) {q : Question} (hlen : (rpcEncoding q.id q.args).length < 2 ^ 32) :
    q.sentBack p left = [] ∨ ∃ packet message, q.sentBack p left = [message]
      ∧ p.Returns left q packet
      ∧ Lib.netlinkSendtoKern p.portid INCOME_RESULT packet
          (UInt32.ofNat packet.length) = some message := by
  by_cases hshort : (rpcEncoding q.id q.args).length ≤ MAX_PAYLOAD.toNat
  · cases hfound : p.findInterface q.id.toInt32 with
    | none =>
        refine Or.inl ?_
        rw [Question.sentBack, handleRpc_lookup p left hshort,
          run_orFault_none_bind hfound]
        rfl
    | some found =>
        cases found with
        | none =>
            refine Or.inl ?_
            rw [Question.sentBack, handleRpc_request left hfound hshort]
            rfl
        | some x =>
            obtain ⟨hx, hid⟩ := Process.findInterface_id hfound
            rw [Question.sentBack, handleRpc_found left hfound hshort]
            by_cases hargc : x.argc.toNat = q.args.length
            · rw [if_pos hargc]
              exact callInterface_returns hx left hid hargc
            · rw [if_neg hargc]
              exact Or.inl rfl
  · exact Or.inl (handleRpc_long hids left hlen hshort)

/-- **A RESULT** is written to the reply socket of its interface, behind its length, or
    not at all. -/
theorem result_writes {id portid : UInt32} {packet message : List UInt8}
    (hpre : wordBytes id <+: packet) (hlen : packet.length < 2 ^ 32)
    (hsent : Lib.netlinkSendtoKern portid INCOME_RESULT packet
      (UInt32.ofNat packet.length) = some message) {env : Env} {mem : Mem}
    {k : Registry} {o : Outcome Registry Event Unit}
    (hrun : handleNetlinkIncome env (overlay message mem) k = o) :
    sends o.trace = [] ∨ ∃ sock reply, k.replySocket id = some sock
      ∧ packet <+: reply
      ∧ sends o.trace = [(sock, wordBytes (UInt32.ofNat reply.length)), (sock, reply)] := by
  obtain ⟨hshort, htype, -, hbody, -, hm⟩ := netlinkIncome_of_sent
    (UInt32.toNat_ofNat_of_lt' hlen) hsent mem
  generalize overlay message mem = m at htype hbody hm hrun
  replace htype : m 16 = INCOME_RESULT := htype
  replace hbody : (wordAt m 0 - 1).toNat = (packet.length + 20) / 4 * 4 - 1 := hbody
  have hid : wordAt m 17 = id := by
    obtain ⟨rest, hrest⟩ := hpre
    rw [← hrest] at hm
    exact wordAt_of_holds (holds_append.mp hm).1
  cases hlookup : k.findInterface id.toInt32 with
  | none =>
      rw [handleNetlinkIncome_isResult htype,
        handleInterfaceResult_fault (by rw [hid]; exact hlookup)] at hrun
      rw [← hrun]
      exact Or.inl rfl
  | some found =>
      cases found with
      | none =>
          rw [handleNetlinkIncome_isResult htype,
            handleInterfaceResult_missing (by rw [hid]; exact hlookup)] at hrun
          rw [← hrun]
          exact Or.inl rfl
      | some hit =>
          obtain ⟨p, x⟩ := hit
          obtain ⟨vs, henc, hvs⟩ := holds_rpcEncoding m 17
          obtain ⟨reads, hresult⟩ := handleNetlinkIncome_result htype
            (by rw [hid]; exact hlookup) henc hvs env
          rw [hresult] at hrun
          rw [← hrun, sends_append, sends_reads, List.nil_append,
            replySocket_found hlookup]
          cases vs with
          | nil => exact Or.inl rfl
          | cons v vs =>
              cases hsock : x.ctrl.socket with
              | none => exact Or.inl rfl
              | some sock =>
                  have hiov : iovLength (wordAt m 0 - 1) = (wordAt m 0 - 1).toNat := by
                    rw [iovLength, if_pos (by omega)]
                  refine Or.inr ⟨sock, slice m 17 (wordAt m 0 - 1).toNat, rfl,
                    hm.prefix_slice (by omega), ?_⟩
                  rw [length_slice, UInt32.ofNat_toNat, ← hiov]
                  rfl

/-! ## Runs -/

theorem questions_append (as bs : List Action) :
    questions (as ++ bs) = questions as ++ questions bs := List.filterMap_append

/-- Questions keep their numbers. -/
theorem question_later {as : List Action} {t : Nat} {q : Question}
    (h : (questions as)[t]? = some q) (bs : List Action) :
    (questions (as ++ bs))[t]? = some q := by
  rw [questions_append, List.getElem?_append_left (List.getElem?_eq_some_iff.mp h).1]
  exact h

theorem question_earlier {as bs : List Action} {t : Nat} {q : Question}
    (ht : t < (questions as).length) (h : (questions (as ++ bs))[t]? = some q) :
    (questions as)[t]? = some q := by
  rwa [questions_append, List.getElem?_append_left ht] at h

theorem Answers.later {as : List Action} {q : Question} {packet message : List UInt8}
    (h : Answers as q packet message) (bs : List Action) :
    Answers (as ++ bs) q packet message := by
  obtain ⟨p, left, hmem, hrest⟩ := h
  exact ⟨p, left, List.mem_append_left bs hmem, hrest⟩

theorem AskedSince.later {as : List Action} {t : Nat} {id : UInt32} {sock : SockId}
    (h : AskedSince as t id sock) (bs : List Action) : AskedSince (as ++ bs) t id sock := by
  obtain ⟨n, q, hn, hq, hrest⟩ := h
  exact ⟨n, q, hn, question_later hq bs, hrest⟩

theorem Confined.later {as : List Action} {t : Nat}
    {writes : List (SockId × List UInt8)} (h : Confined as t writes) (bs : List Action) :
    Confined (as ++ bs) t writes := by
  obtain ⟨q, packet, message, sock, reply, hq, hanswers, hasked, hrest⟩ := h
  exact ⟨q, packet, message, sock, reply, question_later hq bs, hanswers.later bs,
    hasked.later bs, hrest⟩

/-- How many messages and replies are about question `t`. -/
def Serving.uses (s : Serving) (t : Nat) : Nat :=
  (s.forwarded.map Prod.fst).count t + (s.results.map Prod.fst).count t
    + (s.replies.map Prod.fst).count t

/-- What holds of a host in every run: at most one message or reply is about each
    question; what is on its way is about its question; and the reply socket of an
    interface with a question on its way is that of this question or of a later one. -/
structure Serving.Accounted (as : List Action) (s : Serving) : Prop where
  uses : ∀ t, s.uses t ≤ if t < (questions as).length then 1 else 0
  forwarded : ∀ e ∈ s.forwarded, ∃ q, (questions as)[e.1]? = some q
    ∧ (rpcEncoding q.id q.args).length < 2 ^ 32
    ∧ e.2.2 = userMessage (rpcEncoding q.id q.args)
        (UInt32.ofNat (rpcEncoding q.id q.args).length)
  results : ∀ e ∈ s.results, ∃ q packet, (questions as)[e.1]? = some q
    ∧ Answers as q packet e.2
  sockets : ∀ t ∈ s.outstanding, ∀ q, (questions as)[t]? = some q → ∀ sock,
    s.registry.replySocket q.id = some sock → AskedSince as t q.id sock
  replies : ∀ t writes, (t, writes) ∈ s.replies → Confined as t writes

theorem accounted_initial (k : Registry) : (Serving.initial k).Accounted [] :=
  ⟨fun _ => Nat.zero_le _, (fun _ h => nomatch h), (fun _ h => nomatch h),
    (fun _ h => nomatch h), (fun _ _ h => nomatch h)⟩

section Accounted

variable {as : List Action} {s : Serving}

/-- What is on its way is about a question. -/
theorem Serving.Accounted.lt (h : s.Accounted as) {t : Nat} (ht : t ∈ s.outstanding) :
    t < (questions as).length := by
  have hle := h.uses t
  have hpos : 0 < s.outstanding.count t := List.count_pos_iff.mpr ht
  rw [Serving.outstanding, List.count_append] at hpos
  by_contra hge
  rw [if_neg hge, Serving.uses] at hle
  omega

/-- Another step does not change what is known. -/
theorem Serving.Accounted.later (h : s.Accounted as) (bs : List Action) :
    s.Accounted (as ++ bs) where
  uses t := by
    have hle := h.uses t
    rw [questions_append, List.length_append]
    split at hle
    · rw [if_pos (by omega)]
      exact hle
    · exact Nat.le_trans hle (Nat.zero_le _)
  forwarded e he := by
    obtain ⟨q, hq, hrest⟩ := h.forwarded e he
    exact ⟨q, question_later hq bs, hrest⟩
  results e he := by
    obtain ⟨q, packet, hq, hanswers⟩ := h.results e he
    exact ⟨q, packet, question_later hq bs, hanswers.later bs⟩
  sockets t ht q hq sock hsock :=
    (h.sockets t ht q (question_earlier (h.lt ht) hq) sock hsock).later bs
  replies t writes hmem := (h.replies t writes hmem).later bs

/-- A request of the kernel. -/
theorem Serving.Accounted.request (h : s.Accounted as)
    (hcount : s.requests.length = (questions as).length) {env : Env}
    {sock : Option SockId} {id : UInt32} {args : List (List UInt8)} {behind : Mem}
    {o : Outcome Registry Event Int32} (hid : id ≠ 0)
    (hlen : (rpcEncoding id args).length < 2 ^ 32)
    (hrun : executeInterface env (overlay (rpcEncoding id args) behind)
      (UInt32.ofNat (rpcEncoding id args).length) sock s.registry = o) :
    Serving.Accounted (as ++ [.request env sock id args behind])
      { s with
        registry := o.state
        requests := s.requests ++ [⟨sock, id⟩]
        forwarded := s.forwarded
          ++ (deliveries o.trace).map fun d => (s.requests.length, d) } := by
  obtain ⟨hforward, hsocket⟩ := request_step hid hlen hrun
  have hlater := h.later [.request env sock id args behind]
  have hnew : (questions (as ++ [.request env sock id args behind]))[(questions as).length]?
      = some ⟨sock, id, args⟩ := by
    rw [questions_append, List.getElem?_append_right (Nat.le_refl _), Nat.sub_self]
    rfl
  -- the socket of an interface is the one it had, or the one of this request
  have hsockets : ∀ t, t ≤ (questions as).length → ∀ q,
      (questions (as ++ [.request env sock id args behind]))[t]? = some q →
      (t ∈ s.outstanding ∨ o.state.replySocket q.id = sock ∧ q.id = id) → ∀ c,
      o.state.replySocket q.id = some c →
      AskedSince (as ++ [.request env sock id args behind]) t q.id c := by
    intro t ht q hq hold c hc
    have hown : o.state.replySocket q.id = sock → q.id = id →
        AskedSince (as ++ [.request env sock id args behind]) t q.id c := by
      intro hset hqid
      rw [hc] at hset
      exact ⟨_, _, ht, hnew, hqid.symm, hset.symm⟩
    rcases hold with hold | ⟨hset, hqid⟩
    · rcases hsocket q.id with hsame | ⟨hqid, hset⟩
      · rw [hsame] at hc
        exact hlater.sockets t hold q hq c hc
      · exact hown hset hqid
    · exact hown hset hqid
  rcases hforward with hnone | ⟨port, hone, hset⟩
  · rw [hnone, List.map_nil, List.append_nil]
    exact ⟨hlater.uses, hlater.forwarded, hlater.results, fun t ht q hq c hc =>
      hsockets t (Nat.le_of_lt (h.lt ht)) q hq (Or.inl ht) c hc, hlater.replies⟩
  · rw [hone, List.map_singleton, hcount]
    refine ⟨fun t => ?_, fun e he => ?_, hlater.results, fun t ht q hq c hc => ?_,
      hlater.replies⟩
    · have hle := h.uses t
      rw [questions_append, List.length_append]
      show ((s.forwarded ++ [_]).map Prod.fst).count t
        + (s.results.map Prod.fst).count t + (s.replies.map Prod.fst).count t
        ≤ if t < (questions as).length + 1 then 1 else 0
      rw [List.map_append, List.count_append, List.map_singleton, List.count_singleton]
      rw [Serving.uses] at hle
      by_cases heq : (questions as).length = t
      · rw [heq, if_neg (Nat.lt_irrefl t)] at hle
        rw [heq, if_pos (beq_self_eq_true t), if_pos (Nat.lt_succ_self t)]
        omega
      · rw [if_neg (by rw [beq_iff_eq]; exact heq)]
        split at hle
        · rw [if_pos (by omega)]
          omega
        · rw [if_neg (by omega)]
          omega
    · rcases List.mem_append.mp he with hold | hlast
      · exact hlater.forwarded e hold
      · rw [List.mem_singleton.mp hlast]
        exact ⟨_, hnew, hlen, rfl⟩
    · have hmem : t ∈ s.outstanding ∨ t = (questions as).length := by
        rcases List.mem_append.mp ht with hforwarded | hresults
        · rw [List.map_append] at hforwarded
          rcases List.mem_append.mp hforwarded with hold | hlast
          · exact Or.inl (List.mem_append_left _ hold)
          · exact Or.inr (List.mem_singleton.mp hlast)
        · exact Or.inl (List.mem_append_right _ hresults)
      rcases hmem with hold | heq
      · exact hsockets t (Nat.le_of_lt (h.lt hold)) q hq (Or.inl hold) c hc
      · rw [heq] at hq ⊢
        have hq' := hq
        rw [hnew] at hq'
        rw [← Option.some.inj hq'] at hq hc ⊢
        exact hsockets _ (Nat.le_refl _) _ hq (Or.inr ⟨hset, rfl⟩) c hc

/-- A round of a process. -/
theorem Serving.Accounted.round (h : s.Accounted as) {p : Process}
    (hids : ∀ x ∈ p.managed, x.id ≠ 0) (left : Leftovers) {t : Nat} {port : UInt32}
    {message : List UInt8} {before behind : List (Nat × UInt32 × List UInt8)}
    (hforwarded : s.forwarded = before ++ (t, port, message) :: behind) :
    Serving.Accounted (as ++ [.round p left])
      { s with
        forwarded := before ++ behind
        results := s.results ++ (messages
          (handleRpc p left (some message) ()).trace).map fun m => (t, m) } := by
  have hlater := h.later [.round p left]
  have hmem : (t, port, message) ∈ s.forwarded := by
    rw [hforwarded]
    exact List.mem_append_right _ (List.mem_cons_self ..)
  have hbefore : ∀ e ∈ before ++ behind, e ∈ s.forwarded := by
    intro e he
    rw [hforwarded]
    exact List.perm_middle.mem_iff.mpr (List.mem_cons_of_mem _ he)
  obtain ⟨q, hq, hlen, hmessage⟩ := hlater.forwarded _ hmem
  replace hmessage : message = _ := hmessage
  have hround := handleRpc_returns hids left hlen
  rw [Question.sentBack, ← hmessage] at hround
  -- whatever the round sends is about the question it took
  have hfst : ∀ ms : List (List UInt8), (ms.map fun m => (t, m)).map Prod.fst
      = List.replicate ms.length t := by
    intro ms
    rw [List.map_map]
    exact List.map_const' ..
  have hone : (messages (handleRpc p left (some message) ()).trace).length ≤ 1 := by
    rcases hround with hnone | ⟨packet, m, hone, -⟩
    · rw [hnone]
      exact Nat.zero_le 1
    · rw [hone]
      exact Nat.le_refl 1
  refine ⟨fun n => ?_, fun e he => hlater.forwarded e (hbefore e he), fun e he => ?_,
    fun n hn => hlater.sockets n ?_, hlater.replies⟩
  · refine Nat.le_trans ?_ (hlater.uses n)
    rw [Serving.uses, Serving.uses, hforwarded]
    show ((before ++ behind).map Prod.fst).count n
      + ((s.results ++ List.map _ _).map Prod.fst).count n
      + (s.replies.map Prod.fst).count n ≤ _
    rw [List.map_append, List.map_append, List.map_append, List.map_cons,
      List.count_append, List.count_append, List.count_append, List.count_cons, hfst,
      List.count_replicate]
    split <;> omega
  · rcases List.mem_append.mp he with hold | hlast
    · exact hlater.results e hold
    · obtain ⟨m, hm, heq⟩ := List.mem_map.mp hlast
      rw [← heq]
      rcases hround with hnone | ⟨packet, m', hsent, hreturns, hnetlink⟩
      · rw [hnone] at hm
        exact absurd hm List.not_mem_nil
      · rw [hsent] at hm
        rw [List.mem_singleton.mp hm]
        exact ⟨q, packet, hq, p, left, List.mem_append_right _ (List.mem_singleton_self _),
          hreturns, hnetlink⟩
  · rcases List.mem_append.mp hn with hold | hnew
    · obtain ⟨e, he, heq⟩ := List.mem_map.mp hold
      rw [← heq]
      exact List.mem_append_left _ (List.mem_map_of_mem (hbefore e he))
    · rw [List.map_append] at hnew
      rcases List.mem_append.mp hnew with hold | hlast
      · exact List.mem_append_right _ hold
      · rw [hfst] at hlast
        rw [List.eq_of_mem_replicate hlast]
        exact List.mem_append_left _ (List.mem_map_of_mem hmem)

/-- A result that the kernel takes. -/
theorem Serving.Accounted.result (h : s.Accounted as) {env : Env} {mem : Mem} {t : Nat}
    {message : List UInt8} {before behind : List (Nat × List UInt8)}
    (hresults : s.results = before ++ (t, message) :: behind)
    {o : Outcome Registry Event Unit}
    (hrun : handleNetlinkIncome env (overlay message mem) s.registry = o) :
    Serving.Accounted (as ++ [.result env mem])
      { s with
        registry := o.state
        results := before ++ behind
        replies := s.replies ++ replyTo t (sends o.trace) } := by
  have hlater := h.later [.result env mem]
  have hmem : (t, message) ∈ s.results := by
    rw [hresults]
    exact List.mem_append_right _ (List.mem_cons_self ..)
  have hbefore : ∀ e ∈ before ++ behind, e ∈ s.results := by
    intro e he
    rw [hresults]
    exact List.perm_middle.mem_iff.mpr (List.mem_cons_of_mem _ he)
  have hout : t ∈ s.outstanding := List.mem_append_right _ (List.mem_map_of_mem hmem)
  obtain ⟨q, packet, hq, hanswers⟩ := hlater.results _ hmem
  obtain ⟨p, left, hround, ⟨x, hx, hid, hargc, hret, hpacket⟩, hsent⟩ := hanswers
  obtain ⟨hpre, hlen⟩ := Lib.serializeRpcPacket_id hpacket
  have hstate := (result_step ⟨p.portid, packet, hpre, hlen, hsent⟩ hrun).1
  have hwrites := result_writes hpre hlen hsent hrun
  rw [hstate]
  refine ⟨fun n => ?_, hlater.forwarded, fun e he => hlater.results e (hbefore e he),
    fun n hn => hlater.sockets n ?_, fun n writes hn => ?_⟩
  · refine Nat.le_trans ?_ (hlater.uses n)
    have hreply : ((replyTo t (sends o.trace)).map Prod.fst).count n
        ≤ if (t, message).1 == n then 1 else 0 := by
      rw [replyTo]
      split
      · exact Nat.zero_le _
      · rw [List.map_singleton, List.count_singleton]
    rw [Serving.uses, Serving.uses, hresults]
    show (s.forwarded.map Prod.fst).count n
      + ((before ++ behind).map Prod.fst).count n
      + ((s.replies ++ replyTo t (sends o.trace)).map Prod.fst).count n ≤ _
    rw [List.map_append, List.map_append, List.map_append, List.map_cons,
      List.count_append, List.count_append, List.count_append, List.count_cons]
    omega
  · rcases List.mem_append.mp hn with hold | hnew
    · exact List.mem_append_left _ hold
    · obtain ⟨e, he, heq⟩ := List.mem_map.mp hnew
      rw [← heq]
      exact List.mem_append_right _ (List.mem_map_of_mem (hbefore e he))
  · rcases List.mem_append.mp hn with hold | hnew
    · exact hlater.replies n writes hold
    · rcases hwrites with hnone | ⟨sock, reply, hsock, hreply, hframe⟩
      · rw [replyTo, if_pos hnone] at hnew
        exact absurd hnew List.not_mem_nil
      · rw [replyTo, if_neg (by rw [hframe]; exact List.cons_ne_nil _ _)] at hnew
        cases List.mem_singleton.mp hnew
        exact ⟨q, packet, message, sock, reply, hq,
          ⟨p, left, hround, ⟨x, hx, hid, hargc, hret, hpacket⟩, hsent⟩,
          hlater.sockets t hout q hq sock hsock, hreply, hframe⟩

end Accounted

/-- **ONE STEP** keeps the account, whatever overlaps. -/
theorem Serving.Accounted.step {as : List Action} {s s' : Serving} {a : Action}
    (h : s.requests.length = (questions as).length ∧ s.Accounted as)
    (hstep : ServingStep s a s') :
    s'.requests.length = (questions (as ++ [a])).length ∧ s'.Accounted (as ++ [a]) := by
  obtain ⟨hcount, h⟩ := h
  rw [questions_append, List.length_append]
  cases hstep with
  | request hid hlen _ hrun =>
      refine ⟨?_, h.request hcount hid hlen hrun⟩
      rw [List.length_append, hcount]
      rfl
  | round hids hforwarded _ => exact ⟨hcount, h.round hids _ hforwarded⟩
  | result hresults hrun => exact ⟨hcount, h.result hresults hrun⟩

/-- **CONFINEMENT**: in every run no request is answered twice, and each reply carries
    what a round made of its request, to a client that asked for the same interface,
    then or later. -/
theorem replies_confined {k : Registry} {as : List Action} {s : Serving}
    (hrun : Run ServingStep (Serving.initial k) as s) :
    (s.replies.map Prod.fst).Nodup
      ∧ ∀ t writes, (t, writes) ∈ s.replies → Confined as t writes := by
  have h : s.requests.length = (questions as).length ∧ s.Accounted as :=
    hrun.invariant_labels
      (I := fun as s => s.requests.length = (questions as).length ∧ s.Accounted as)
      ⟨rfl, accounted_initial k⟩ fun _ _ _ _ h hstep => Serving.Accounted.step h hstep
  refine ⟨List.nodup_iff_count_le_one.mpr fun t => ?_, h.2.replies⟩
  have hle := h.2.uses t
  rw [Serving.uses] at hle
  split at hle <;> omega

/-- Two requests that overlap: the reply to the first one goes to the client of the
    second one. -/
theorem replies_confined_overlap :
    ∃ s, Run ServingStep .answering ([.asks 5, .asks 6] ++ Action.answers) s
      ∧ (0, [(6, wordBytes 31), (6, rpcEncoding 1 [[42]] ++ [0, 0] ++ List.replicate 16 1)])
        ∈ s.replies
      ∧ (s.replies.map Prod.fst).Nodup
      ∧ ∀ t writes, (t, writes) ∈ s.replies →
        Confined ([.asks 5, .asks 6] ++ Action.answers) t writes := by
  have hfirst : ServingStep .answering (.asks 5) (Serving.answering.asked 5) :=
    .asks fun _ h => nomatch h
  have hsecond : ServingStep (Serving.answering.asked 5) (.asks 6)
      ((Serving.answering.asked 5).asked 6) := by
    refine .asks fun r hr _ => ?_
    rw [List.mem_singleton.mp hr]
    decide
  obtain ⟨s, hrun, -, hreplies⟩ := @answers_run _ (fun _ _ _ _ h => h)
    ((Serving.answering.asked 5).asked 6)
    [(1, 9, userMessage (rpcEncoding 1 []) 8)] rfl rfl
  have hwritten : sends (handleNetlinkIncome .fine
      (overlay answerMessage fun _ => 1)
      ((Serving.answering.asked 5).asked 6).registry).trace
      = [(6, wordBytes 31),
          (6, rpcEncoding 1 [[42]] ++ [0, 0] ++ List.replicate 16 1)] := by
    decide
  have hall : Run ServingStep .answering ([.asks 5, .asks 6] ++ Action.answers) s :=
    ((Run.nil.snoc hfirst).snoc hsecond).trans hrun
  rw [hwritten] at hreplies
  refine ⟨s, hall, ?_, replies_confined hall⟩
  rw [hreplies]
  exact List.mem_cons_self ..

end DistComm
