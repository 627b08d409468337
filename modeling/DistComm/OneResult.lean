import DistComm.Dispatch

/-! # One result for one request

    The caller of a remote interface waits for its result without a timeout.  A round
    of `handle_rpc` sends one only on its normal path: where the number of arguments
    is not that of the interface, or the callback reports a failure, it goes to the
    cleanup and says nothing; and where a result was not set, or the results are too
    long, it faults.  The requests that get their result are the others
    (`one_result_iff`). -/

namespace DistComm

open RawMemory RawScan PointerArray GrowBuffer TracedProgram

/-- The kernel takes the message for a result of the interface with this id. -/
def CarriesResult (id : UInt32) (message : List UInt8) : Prop :=
  ∀ behind, (netlinkIncome (overlay message behind) 0).val.type = INCOME_RESULT
    ∧ wordAt (overlay message behind) 17 = id

/-- The round on the request sends one message, and this is a result for it. -/
def SendsOneResult (p : Process) (left : Leftovers) (id : UInt32)
    (args : List (List UInt8)) : Prop :=
  ∃ message,
    messages (handleRpc p left (some (userMessage (rpcEncoding id args)
      (UInt32.ofNat (rpcEncoding id args).length))) ()).trace = [message]
    ∧ CarriesResult id message

/-- A callback is given an array of results, and leaves one of the same length. -/
def Managed.KeepsArray (x : Managed) : Prop :=
  ∀ argv preset, (x.callback argv preset).2.length = preset.length

/-- What the callback returns for the arguments, and the results it leaves. -/
def Managed.outcome (x : Managed) (left : Leftovers) (args : List (List UInt8)) :
    Int32 × List AttrValue :=
  x.callback (decodedArgs left.heap args)
    (List.replicate x.retc.toNat ⟨-1, .null⟩)

/-- There are as many arguments as the interface has, its callback succeeds and sets
    all results, and these fit the encoder's buffer and a netlink message. -/
structure Managed.Answerable (x : Managed) (left : Leftovers)
    (args : List (List UInt8)) : Prop where
  argc : x.argc.toNat = args.length
  succeeds : ¬ (x.outcome left args).1 < 0
  set : ∀ v ∈ (x.outcome left args).2, v.Valid
  fit : PiecesFit BUFFER_INC_SIZE.toNat 0
    ((rpcLengths (x.outcome left args).2).map UInt32.toNat)
  short : (rpcEncoding x.id ((x.outcome left args).2.map AttrValue.value)).length
    + 20 < 2 ^ 31

/-! ## The lookup -/

/-- There are not more different ids than words. -/
theorem length_le_of_nodup {ids : List UInt32} (h : ids.Nodup) :
    ids.length ≤ 2 ^ 32 := by
  have hnodup : (ids.map UInt32.toNat).Nodup :=
    h.map fun _ _ => UInt32.toNat_inj.mp
  have hsubset : ids.map UInt32.toNat ⊆ List.range (2 ^ 32) := by
    intro n hn
    obtain ⟨id, -, rfl⟩ := List.mem_map.mp hn
    exact List.mem_range.mpr id.toNat_lt
  have hle := (List.subperm_of_subset hnodup hsubset).length_le
  rwa [List.length_map, List.length_range] at hle

/-- An interface with an id of its own is found by it. -/
theorem Process.findInterface_mem {p : Process} (hids : (p.managed.map Managed.id).Nodup)
    (hcount : p.managed.length < 2 ^ 31) {x : Managed} (hx : x ∈ p.managed) :
    p.findInterface x.id.toInt32 = some (some x) := by
  rw [Process.findInterface_eq hcount]
  cases hfind : p.managed.find? fun y => y.id == x.id.toInt32.toUInt32 with
  | none =>
      exact absurd (beq_self_eq_true x.id) (List.find?_eq_none.mp hfind x hx)
  | some y =>
      have hsat := List.find?_some hfind
      have hid : y.id = x.id := eq_of_beq hsat
      rw [List.inj_on_of_nodup_map hids (List.mem_of_find?_eq_some hfind) hx hid]

/-- With more interfaces than an `int` can count, none is found. -/
theorem Process.findInterface_none {p : Process} (hids : (p.managed.map Managed.id).Nodup)
    (hmany : ¬ p.managed.length < 2 ^ 31) (id : Int32) :
    p.findInterface id = some none := by
  have hle := length_le_of_nodup hids
  rw [List.length_map] at hle
  rcases Nat.lt_or_eq_of_le hle with hlt | heq
  · exact Process.findInterface_many hmany hlt id
  · -- a list of all ids is counted as an empty one
    rw [Process.findInterface, heq]
    rfl

/-! ## The answer -/

theorem Managed.length_outcome {x : Managed} (h : x.KeepsArray) (left : Leftovers)
    (args : List (List UInt8)) :
    x.retc.toNat = (x.outcome left args).2.length := by
  rw [Managed.outcome, h, List.length_replicate]

/-- What is sent back carries the id. -/
theorem carriesResult_of_sent {portid id : UInt32} {values : List (List UInt8)}
    (hlen : (rpcEncoding id values).length < 2 ^ 32) {message : List UInt8}
    (h : Lib.netlinkSendtoKern portid INCOME_RESULT (rpcEncoding id values)
      (UInt32.ofNat (rpcEncoding id values).length) = some message) :
    CarriesResult id message := by
  intro behind
  obtain ⟨-, htype, -, -, -, hm⟩ :=
    netlinkIncome_of_sent (UInt32.toNat_ofNat_of_lt' hlen) h behind
  exact ⟨htype, wordAt_of_holds (holds_append.mp hm).1⟩

/-- The packet that the library makes of results is their encoding. -/
theorem serializeRpcPacket_results {id retc : UInt32} {retv : List AttrValue}
    (hretc : retc.toNat = retv.length) {packet : List UInt8}
    (h : Lib.serializeRpcPacket id.toInt32 retc.toInt32 retv = some packet) :
    packet = rpcEncoding id (retv.map AttrValue.value)
      ∧ (∀ v ∈ retv, v.Valid)
      ∧ PiecesFit BUFFER_INC_SIZE.toNat 0 ((rpcLengths retv).map UInt32.toNat)
      ∧ packet.length < 2 ^ 32 := by
  have hlen := (Lib.serializeRpcPacket_id h).2
  rw [Lib.serializeRpcPacket_eq] at h
  obtain ⟨hpacket, hvalid⟩ := Kernel.serializeRpcPacket_some hretc h
  have hfit := (@Kernel.serializeRpcPacket_iff id _ _ hretc hvalid).mp
    (h.trans (congrArg some hpacket))
  exact ⟨hpacket, hvalid, hfit, hlen⟩

/-- **THE RESULTS** are sent, in one message, exactly if they are set, fit the
    encoder's buffer, and fit a netlink message. -/
theorem sendBack_iff (p : Process) {id retc : UInt32} {retv : List AttrValue}
    (hretc : retc.toNat = retv.length) :
    (∃ message, messages (sendBack p id retc retv ()).trace = [message]
        ∧ CarriesResult id message)
      ↔ (∀ v ∈ retv, v.Valid)
        ∧ PiecesFit BUFFER_INC_SIZE.toNat 0 ((rpcLengths retv).map UInt32.toNat)
        ∧ (rpcEncoding id (retv.map AttrValue.value)).length + 20 < 2 ^ 31 := by
  rcases sendBack_cases p id retc retv
    with ⟨packet, message, hpacket, hmessage, hrun⟩ | ⟨hrun, hnone⟩
  · obtain ⟨rfl, hvalid, hfit, hlen⟩ := serializeRpcPacket_results hretc hpacket
    have hshort : (rpcEncoding id (retv.map AttrValue.value)).length + 20 < 2 ^ 31 := by
      by_contra hlong
      rw [netlinkSendtoKern_spec (UInt32.toNat_ofNat_of_lt' hlen), if_neg hlong]
        at hmessage
      cases hmessage
    rw [hrun]
    exact ⟨fun _ => ⟨hvalid, hfit, hshort⟩,
      fun _ => ⟨_, rfl, carriesResult_of_sent hlen hmessage⟩⟩
  · rw [hrun]
    constructor
    · rintro ⟨message, hsent, -⟩
      cases hsent
    · rintro ⟨hvalid, hfit, hshort⟩
      have hpacket := (@Kernel.serializeRpcPacket_iff id _ _ hretc hvalid).mpr hfit
      have hmessage := hnone _ hpacket
      have hword : (rpcEncoding id (retv.map AttrValue.value)).length < 2 ^ 32 := by omega
      rw [netlinkSendtoKern_spec (UInt32.toNat_ofNat_of_lt' hword), if_pos hshort]
        at hmessage
      cases hmessage

theorem messages_call (x : UInt32) (argv : List AttrValue)
    (o : Outcome Unit RpcEvent Unit) :
    messages (o.after [.call x argv]).trace = messages o.trace := rfl

/-- **THE CALL** gives one result exactly if the callback succeeds with results that
    are sent. -/
theorem callInterface_iff (p : Process) {x : Managed} (hkeeps : x.KeepsArray)
    (left : Leftovers) {args : List (List UInt8)}
    (hargc : x.argc.toNat = args.length) :
    (∃ message, messages (callInterface p x.id x (decodedArgs left.heap args)
        ()).trace = [message] ∧ CarriesResult x.id message)
      ↔ x.Answerable left args := by
  have hretc := Managed.length_outcome hkeeps left args
  have hrun : callInterface p x.id x (decodedArgs left.heap args) ()
      = ((if (x.outcome left args).1 < 0 then pure ()
          else sendBack p x.id x.retc (x.outcome left args).2 :
            Traced Unit RpcEvent Unit) ()).after
              [.call x.id (decodedArgs left.heap args)] := rfl
  simp only [hrun, messages_call]
  by_cases hret : (x.outcome left args).1 < 0
  · rw [if_pos hret]
    constructor
    · rintro ⟨message, hsent, -⟩
      cases hsent
    · exact fun h => absurd hret h.succeeds
  · rw [if_neg hret, sendBack_iff p hretc]
    constructor
    · rintro ⟨hset, hfit, hshort⟩
      exact ⟨hargc, hret, hset, hfit, hshort⟩
    · exact fun h => ⟨h.set, h.fit, h.short⟩

/-- The round on a request for an interface that is found. -/
theorem sendsOneResult_iff {p : Process} {x : Managed}
    (hfound : p.findInterface x.id.toInt32 = some (some x)) (hkeeps : x.KeepsArray)
    (left : Leftovers) {args : List (List UInt8)}
    (hshort : (rpcEncoding x.id args).length ≤ MAX_PAYLOAD.toNat) :
    SendsOneResult p left x.id args ↔ x.Answerable left args := by
  rw [SendsOneResult, handleRpc_found left hfound hshort]
  by_cases hargc : x.argc.toNat = args.length
  · rw [if_pos hargc]
    exact callInterface_iff p hkeeps left hargc
  · rw [if_neg hargc]
    constructor
    · rintro ⟨message, hsent, -⟩
      cases hsent
    · exact fun h => absurd h.argc hargc

/-- **ONE RESULT**: the round on a request for a managed interface sends exactly one
    result exactly if the interfaces can be counted in an `int`, the arguments are as
    many as the interface has, and its callback succeeds, sets all results, and makes
    them no longer than a message. -/
theorem one_result_iff {p : Process} (hids : (p.managed.map Managed.id).Nodup)
    {x : Managed} (hx : x ∈ p.managed) (hkeeps : x.KeepsArray) (left : Leftovers)
    {args : List (List UInt8)}
    (hshort : (rpcEncoding x.id args).length ≤ MAX_PAYLOAD.toNat) :
    SendsOneResult p left x.id args
      ↔ p.managed.length < 2 ^ 31 ∧ x.Answerable left args := by
  by_cases hcount : p.managed.length < 2 ^ 31
  · rw [sendsOneResult_iff (Process.findInterface_mem hids hcount hx) hkeeps left hshort]
    exact ⟨fun h => ⟨hcount, h⟩, fun h => h.2⟩
  · rw [SendsOneResult,
      handleRpc_request left (Process.findInterface_none hids hcount _) hshort]
    constructor
    · rintro ⟨message, hsent, -⟩
      cases hsent
    · exact fun h => absurd h.1 hcount

/-- An interface without arguments and results, and a callback with the given return
    value. -/
def Managed.returning (ret : Int32) : Managed := ⟨1, 0, 0, fun _ preset => (ret, preset)⟩

/-- A process that manages it. -/
def Process.returning (ret : Int32) : Process := ⟨42, [.returning ret]⟩

/-- What a fresh process has in its memory. -/
def Leftovers.zero : Leftovers := ⟨fun _ => .null, fun _ => 0, fun _ => 0⟩

theorem keepsArray_returning (ret : Int32) : (Managed.returning ret).KeepsArray :=
  fun _ _ => rfl

theorem nodup_returning (ret : Int32) :
    ((Process.returning ret).managed.map Managed.id).Nodup := List.nodup_singleton _

theorem found_returning (ret : Int32) :
    (Process.returning ret).findInterface (Managed.returning ret).id.toInt32
      = some (some (.returning ret)) :=
  Process.findInterface_mem (nodup_returning ret)
    (show 1 < 2 ^ 31 by decide) (List.mem_singleton_self _)

theorem answerable_returning : (Managed.returning 0).Answerable .zero [] where
  argc := rfl
  succeeds := by decide
  set _ hv := absurd hv List.not_mem_nil
  fit := (@piecesFit_below_limit [4, 4] (by decide)).mpr (by decide)
  short := by decide

/-- A callback that succeeds. -/
theorem one_result_iff_returning : SendsOneResult (.returning 0) .zero 1 [] :=
  (one_result_iff (nodup_returning 0) (List.mem_singleton_self _)
    (keepsArray_returning 0) .zero (by decide)).mpr
      ⟨by decide, answerable_returning⟩

/-- A callback that fails, and a request with an argument too many: the caller waits
    for a result forever. -/
theorem failed_call_unanswered :
    ¬ SendsOneResult (.returning (-1)) .zero 1 []
      ∧ ¬ SendsOneResult (.returning 0) .zero 1 [[5]] := by
  constructor
  · intro h
    have hcall := (sendsOneResult_iff (found_returning (-1)) (keepsArray_returning _)
      .zero (by decide)).mp h
    exact hcall.succeeds (by decide)
  · intro h
    have hcall := (sendsOneResult_iff (found_returning 0) (keepsArray_returning _)
      .zero (by decide)).mp h
    exact absurd hcall.argc (by decide)

end DistComm
