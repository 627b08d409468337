import DistComm.Service

/-! # Where the handlers read

    Which packets and messages the handlers process without reading a byte
    outside of them, for the requests that arrive from the network and for the
    netlink messages that arrive from processes.  Nothing in the decoders compares
    a cursor with a length, so in each case the answer is a property of the bytes:
    the packet has to be complete.

    `Event.InPacket` is the demand on a single event.  For requests the exact
    condition is `rpc_reads_inside`, for netlink messages
    `netlinkInside_iff`. -/

namespace DistComm

open RawMemory RawScan PointerArray TracedProgram

/-- A string that `%s` prints without running past its block: NULL, or a block
    with a terminator. -/
def Printable : Ptr → Prop
  | .null => True
  | .block bytes => 0 ∈ bytes
  | .stale _ => False

/-- The event reads bytes below `n` of the packet, or bytes that a decoded value
    has. -/
def Event.InPacket (n : Nat) : Event → Prop
  | .read span => span.Within n
  | .load value k => ∃ v, value = some v ∧ (v.addr.read k).isSome
  | .print value => ∃ v, value = some v ∧ Printable v.addr
  | .sendto _ _ _ => True
  | .unicast _ _ _ => True

theorem inPacket_reads {reads : List Span} {n : Nat} :
    (∀ e ∈ reads.map Event.read, e.InPacket n) ↔ InBounds reads n := by
  constructor
  · intro h s hs
    exact h (.read s) (List.mem_map_of_mem hs)
  · intro h e he
    obtain ⟨s, hs, hse⟩ := List.mem_map.mp he
    rw [← hse]
    exact h s hs

/-! ## Decoding RPC packets -/

/-- The bytes begin with a complete packet. -/
def CompleteRpc (b : List UInt8) : Prop :=
  ∃ id vs, Encodable vs ∧ rpcEncoding id vs <+: b

/-- The kernel's decoder reads only inside the packet, whatever lies behind it. -/
def Kernel.UnserializesInside (b : List UInt8) : Prop :=
  ∀ behind, InBounds
    (Kernel.unserializeRpcPacket (UInt32.ofNat b.length) (overlay b behind) 0).reads
    b.length

/-- The library's decoder reads only inside the packet, whatever lies behind
    it. -/
def Lib.UnserializesInside (heap : Nat → Ptr) (b : List UInt8) : Prop :=
  ∀ behind, InBounds
    (Lib.unserializeRpcPacket heap (UInt32.ofNat b.length) (overlay b behind)
      0).reads b.length

/-- Any memory holds a packet at any offset, if one goes far enough. -/
theorem holds_rpcEncoding (m : Mem) (pos : Nat) :
    ∃ vs, Encodable vs ∧ Holds m pos (rpcEncoding (wordAt m pos) vs) := by
  obtain ⟨vs, henc, hbody⟩ := (parses_rpcBody (fun _ => .null)).sound m (pos + 4)
  exact ⟨vs, henc, holds_append.mpr ⟨holds_wordAt m pos, hbody⟩⟩

/-- The kernel's decoder on a stored packet: its values, and reads that stay
    below `n` exactly when the packet ends there. -/
theorem Kernel.unserializeRpcPacket_run {id : UInt32} {vs : List (List UInt8)}
    (henc : Encodable vs) {m : Mem} {pos : Nat}
    (hm : Holds m pos (rpcEncoding id vs)) (len : UInt32) :
    (Kernel.unserializeRpcPacket len m pos).val.2
        = vs.map (decodedValue .null)
      ∧ ∀ n, InBounds (Kernel.unserializeRpcPacket len m pos).reads n
          ↔ pos + (rpcEncoding id vs).length ≤ n := by
  have hbody : Holds m (pos + 4) (rpcBody vs) := (holds_append.mp hm).2
  have hc := (parses_rpcBody (fun _ => .null)).complete vs henc
  have hlen : (rpcEncoding id vs).length = 4 + (rpcBody vs).length := by
    rw [rpcEncoding, List.length_append, length_wordBytes]
  rw [Kernel.run_unserializeRpcPacket]
  refine ⟨?_, fun n => ?_⟩
  · rw [hc.val hbody]
    exact valuesFrom_const (decodedValue .null) 0 vs
  · rw [hlen, ← Nat.add_assoc]
    constructor
    · intro h
      exact ((hc.reads hbody n).mp h).resolve_left (rpcBody_ne_nil vs)
    · intro h
      exact (hc.reads hbody n).mpr (Or.inr h)

theorem Kernel.unserializesInside_iff (b : List UInt8) :
    Kernel.UnserializesInside b ↔ CompleteRpc b := by
  constructor
  · intro h
    obtain ⟨vs, henc, hm⟩ := holds_rpcEncoding (overlay b fun _ => 0) 0
    have hle := ((Kernel.unserializeRpcPacket_run henc hm _).2 _).mp (h _)
    rw [Nat.zero_add] at hle
    exact ⟨_, vs, henc, isPrefix_of_holds hm hle⟩
  · rintro ⟨id, vs, henc, hpre⟩ behind
    refine ((Kernel.unserializeRpcPacket_run henc (holds_overlay_of_isPrefix hpre behind)
      _).2 _).mpr ?_
    rw [Nat.zero_add]
    exact hpre.length_le

theorem Lib.unserializesInside_iff (heap : Nat → Ptr) (b : List UInt8) :
    Lib.UnserializesInside heap b ↔ CompleteRpc b := by
  have hp := Lib.parses_unserializeRpcPacket heap (UInt32.ofNat b.length)
  constructor
  · intro h
    obtain ⟨⟨id, vs⟩, henc, hpre⟩ := (hp.inBounds_iff
      (fun p _ => List.cons_ne_nil _ _) (Nat.zero_le _)).mp (h fun _ => 0)
    rw [Nat.sub_zero, slice_overlay] at hpre
    exact ⟨id, vs, henc, hpre⟩
  · rintro ⟨id, vs, henc, hpre⟩ behind
    refine (hp.inBounds_iff (fun p _ => List.cons_ne_nil _ _)
      (Nat.zero_le _)).mpr ⟨(id, vs), henc, ?_⟩
    rw [Nat.sub_zero, slice_overlay]
    exact hpre

/-! ## Requests -/

/-- `execute_interface`, called with the packet and its length by a connection,
    refuses the packet or reads only inside it, whatever lies behind it and
    whatever the registry holds. -/
def ExecutesInside (b : List UInt8) : Prop :=
  ∀ (behind : Mem) (k : Registry) (env : Env) (sock : SockId), Traversable k →
    let o := executeInterface env (overlay b behind) (UInt32.ofNat b.length)
      (some sock) k
    o.ret = some (-1) ∨ ∀ e ∈ o.trace, e.InPacket b.length

/-- The packet has an id, and if the id is 0, the rest of a packet whose first
    value holds an id as well. -/
def ExecutableRequest (b : List UInt8) : Prop :=
  4 ≤ b.length ∧ (wordBytes 0 <+: b →
    ∃ v vs, Encodable (v :: vs) ∧ rpcEncoding 0 (v :: vs) <+: b ∧ 4 ≤ v.length)

/-- The events of a reply read nothing. -/
theorem replyInterfaceInfo_events (env : Env) (id : UInt32)
    (sock : Option SockId) (found : Option (Nat × Interface)) (k : Registry)
    (n : Nat) :
    ∀ e ∈ (replyInterfaceInfo env id sock found k).trace, e.InPacket n := by
  intro e he
  cases found with
  | none => exact nomatch he
  | some hit =>
      obtain ⟨s, data, ret, hsend⟩ := sendReply_events env sock _ k e he
      rw [hsend]
      trivial

/-- The events of `fetch_interface_info`: the decoder's reads, the read of the id
    in the first value, and then at most a reply. -/
theorem fetchInterfaceInfo_events (env : Env) (m : Mem) (len : UInt32)
    (sock : Option SockId) (k : Registry) :
    ∃ t, (fetchInterfaceInfo env m len sock k).trace
        = (Kernel.unserializeRpcPacket len m 0).reads.map Event.read
          ++ (.load (Kernel.unserializeRpcPacket len m 0).val.2[0]? 4 :: t)
      ∧ ∀ e ∈ t, ∀ n, e.InPacket n := by
  rw [fetchInterfaceInfo, run_readPacket_bind, run_emit_bind]
  generalize (Kernel.unserializeRpcPacket len m 0).val.2[0]? = value
  cases hload : value.bind (fun v => v.addr.read 4) with
  | none =>
      rw [run_orFault_none_bind rfl]
      exact ⟨[], rfl, fun e he => nomatch he⟩
  | some idBytes =>
      rw [run_orFault_some_bind rfl, run_getState_bind]
      cases hfound : k.findInterface
          (wordAt (overlay idBytes fun _ => 0) 0).toInt32 with
      | none =>
          rw [run_orFault_none_bind rfl]
          exact ⟨[], rfl, fun e he => nomatch he⟩
      | some found =>
          rw [run_orFault_some_bind rfl]
          exact ⟨_, rfl, fun e he n =>
            replyInterfaceInfo_events env _ sock found k n e he⟩

/-- The result of `fetch_interface_info` once the lookup is done. -/
theorem fetchInterfaceInfo_ret {env : Env} {m : Mem} {len : UInt32}
    {sock : Option SockId} {k : Registry} {idBytes : List UInt8}
    {found : Option (Nat × Interface)}
    (hload : ((Kernel.unserializeRpcPacket len m 0).val.2[0]?.bind
      fun v => v.addr.read 4) = some idBytes)
    (hfound : k.findInterface (wordAt (overlay idBytes fun _ => 0) 0).toInt32
      = some found) :
    (fetchInterfaceInfo env m len sock k).ret
      = (replyInterfaceInfo env (wordAt (overlay idBytes fun _ => 0) 0) sock found
          k).ret := by
  rw [fetchInterfaceInfo, run_readPacket_bind, run_emit_bind,
    run_orFault_some_bind hload, run_getState_bind, run_orFault_some_bind hfound]
  rfl

/-- Without an id in the first value there is no result. -/
theorem fetchInterfaceInfo_fault {env : Env} {m : Mem} {len : UInt32}
    {sock : Option SockId} {k : Registry}
    (hload : ((Kernel.unserializeRpcPacket len m 0).val.2[0]?.bind
      fun v => v.addr.read 4) = none) :
    (fetchInterfaceInfo env m len sock k).ret = none := by
  rw [fetchInterfaceInfo, run_readPacket_bind, run_emit_bind,
    run_orFault_none_bind hload]
  rfl

/-- A description query is answered when its interface is registered. -/
theorem query_answered {m : Mem} {len : UInt32} {idBytes : List UInt8}
    (hload : ((Kernel.unserializeRpcPacket len m 0).val.2[0]?.bind
      fun v => v.addr.read 4) = some idBytes) (sock : SockId) :
    ∃ k, Traversable k
      ∧ (fetchInterfaceInfo .fine m len (some sock) k).ret = some 0 := by
  refine ⟨.sole (UserInterface.bare.registered
    (wordAt (overlay idBytes fun _ => 0) 0) 7 none), traversable_sole _, ?_⟩
  rw [fetchInterfaceInfo_ret hload (findInterface_sole _)]
  obtain ⟨reply, hmade, hlen⟩ := serializeInterfaceInfo_bare
    (wordAt (overlay idBytes fun _ => 0) 0) .empty .empty rfl rfl
  show (sendReply .fine (some sock) (serializeInterfaceInfo _ 0 0
    ⟨some .empty, some .empty, [], []⟩) _).ret = some 0
  rw [hmade, run_sendReply .fine sock (by rw [hlen]; decide)]
  rfl

/-- The first value holds an id exactly when it has four bytes. -/
theorem load_first {vs : List (List UInt8)} (k : Nat) (hk : 0 < k) :
    (((vs.map (decodedValue .null))[0]?.bind fun v => v.addr.read k).isSome
      ↔ ∃ v vs', vs = v :: vs' ∧ k ≤ v.length) := by
  cases vs with
  | nil =>
      refine ⟨fun h => absurd h Bool.false_ne_true, ?_⟩
      rintro ⟨v, vs', h, -⟩
      cases h
  | cons v vs =>
      show ((decodedValue .null v).addr.read k).isSome ↔ _
      have haddr : (decodedValue .null v).addr
          = if v.length = 0 then .null else .block v := rfl
      rw [haddr]
      by_cases h0 : v.length = 0
      · rw [if_pos h0]
        refine ⟨fun h => absurd h Bool.false_ne_true, ?_⟩
        rintro ⟨w, vs', heq, hle⟩
        cases heq
        omega
      · rw [if_neg h0, Ptr.read]
        by_cases hle : k ≤ v.length
        · rw [if_pos hle]
          exact ⟨fun _ => ⟨v, vs, rfl, hle⟩, fun _ => rfl⟩
        · rw [if_neg hle]
          refine ⟨fun h => absurd h Bool.false_ne_true, ?_⟩
          rintro ⟨w, vs', heq, hle'⟩
          cases heq
          exact absurd hle' hle

/-- A kernel that finds an interface for whatever follows a short packet reads its
    id beyond the end. -/
theorem ExecutesInside.id_inside {b : List UInt8} (h : ExecutesInside b) :
    4 ≤ b.length := by
  by_contra hlt
  -- behind a short packet the fourth byte of the id is 1
  have hlast : overlay b (fun _ => 1) 3 = 1 :=
    overlay_ge (fun _ => 1) (by omega)
  have hid : wordAt (overlay b fun _ => 1) 0 ≠ 0 := by
    intro h0
    have hbytes := holds_wordAt (overlay b fun _ => 1) 0
    rw [h0] at hbytes
    have hzero := congrArg (fun l => l[3]?) hbytes
    have hone : some (overlay b (fun _ => 1) (0 + 3)) = some 0 := hzero
    rw [hlast] at hone
    exact absurd (Option.some.inj hone) (by decide)
  have hrun := executeInterface_found hid (findInterface_sole
    (UserInterface.bare.registered (wordAt (overlay b fun _ => 1) 0) 7 none))
    .fine (UInt32.ofNat b.length) (some 5)
  have hinside := h (fun _ => 1) _ .fine 5 (traversable_sole
    (UserInterface.bare.registered (wordAt (overlay b fun _ => 1) 0) 7 none))
  rw [hrun] at hinside
  rcases hinside with hret | hall
  · exact absurd (Option.some.inj hret) (by decide)
  · rcases hall _ (List.mem_cons_self ..) with h0 | hle
    · exact absurd h0 (by decide)
    · exact hlt hle

/-- An incomplete query is read beyond its end, or faults, in a kernel that does not
    refuse it. -/
theorem ExecutesInside.query_inside {b : List UInt8} (h : ExecutesInside b)
    (hzero : wordBytes 0 <+: b) :
    ∃ v vs, Encodable (v :: vs) ∧ rpcEncoding 0 (v :: vs) <+: b ∧ 4 ≤ v.length := by
  obtain ⟨vs, henc, hm⟩ := holds_rpcEncoding (overlay b fun _ => 0) 0
  have hid : wordAt (overlay b fun _ => 0) 0 = 0 :=
    wordAt_of_holds (holds_overlay_of_isPrefix hzero _)
  rw [hid] at hm
  obtain ⟨hval, hreads⟩ := Kernel.unserializeRpcPacket_run henc hm
    (UInt32.ofNat b.length)
  cases hload : ((Kernel.unserializeRpcPacket (UInt32.ofNat b.length)
      (overlay b fun _ => 0) 0).val.2[0]?.bind fun v => v.addr.read 4) with
  | none =>
      -- no id in the first value: a fault, at a read that is not inside
      obtain ⟨t, htrace, -⟩ := fetchInterfaceInfo_events .fine
        (overlay b fun _ => 0) (UInt32.ofNat b.length) (some 5) Registry.initial
      rcases h (fun _ => 0) Registry.initial .fine 5 traversable_initial
        with hret | hall
      · rw [executeInterface_zero hid, after_ret, fetchInterfaceInfo_fault hload]
          at hret
        exact nomatch hret
      · rw [executeInterface_zero hid, after_trace, htrace] at hall
        obtain ⟨v, hv, hsome⟩ := hall _ (List.mem_append.mpr (Or.inr
          (List.mem_append.mpr (Or.inr (List.mem_cons_self ..)))))
        rw [hv] at hload
        rw [show v.addr.read 4 = none from hload] at hsome
        exact nomatch hsome
  | some idBytes =>
      -- a kernel with this id answers, so it must have read inside
      obtain ⟨k, hk, hret⟩ := query_answered hload 5
      obtain ⟨t, htrace, -⟩ := fetchInterfaceInfo_events .fine
        (overlay b fun _ => 0) (UInt32.ofNat b.length) (some 5) k
      rcases h (fun _ => 0) k .fine 5 hk with href | hall
      · rw [executeInterface_zero hid, after_ret, hret] at href
        exact absurd (Option.some.inj href) (by decide)
      · rw [executeInterface_zero hid, after_trace, htrace] at hall
        have hin := inPacket_reads.mp fun e he => hall e (List.mem_append.mpr
          (Or.inr (List.mem_append.mpr (Or.inl he))))
        have hle := (hreads b.length).mp hin
        rw [Nat.zero_add] at hle
        have hfirst := (load_first 4 (by decide)).mp
          (by rw [← hval, hload]; rfl : ((vs.map (decodedValue .null))[0]?.bind
            fun v => v.addr.read 4).isSome)
        obtain ⟨v, vs', hvs, hfour⟩ := hfirst
        rw [hvs] at henc hm hle
        exact ⟨v, vs', henc, isPrefix_of_holds hm hle, hfour⟩

/-- Forwarding reads the packet by its length. -/
theorem forwardEvents_inPacket (env : Env) (m : Mem) {packetLength : UInt32}
    {n : Nat} (hlen : packetLength.toNat ≤ n) (x : Interface) :
    ∀ e ∈ forwardEvents env m packetLength x, e.InPacket n := by
  intro e he
  rw [forwardEvents] at he
  by_cases halloc : env.skbAlloc = false
  · rw [if_pos halloc] at he
    cases he
  · rw [if_neg halloc] at he
    rcases List.mem_cons.mp he with hread | hsent
    · rw [hread]
      exact Or.inr (Nat.le_trans (Nat.le_of_eq (Nat.zero_add _)) hlen)
    · rw [List.mem_singleton.mp hsent]
      trivial

/-- A complete query is read inside its bounds, whatever is registered. -/
theorem fetchInterfaceInfo_inPacket (env : Env) {b : List UInt8} {v : List UInt8}
    {vs : List (List UInt8)} (henc : Encodable (v :: vs))
    (hpre : rpcEncoding 0 (v :: vs) <+: b) (hfour : 4 ≤ v.length) (behind : Mem)
    (sock : Option SockId) (k : Registry) :
    ∀ e ∈ (fetchInterfaceInfo env (overlay b behind) (UInt32.ofNat b.length) sock
      k).trace, e.InPacket b.length := by
  obtain ⟨hval, hreads⟩ := Kernel.unserializeRpcPacket_run henc
    (holds_overlay_of_isPrefix hpre behind) (UInt32.ofNat b.length)
  obtain ⟨t, htrace, ht⟩ := fetchInterfaceInfo_events env (overlay b behind)
    (UInt32.ofNat b.length) sock k
  rw [htrace]
  intro e he
  rcases List.mem_append.mp he with hdecoder | hrest
  · refine inPacket_reads.mpr ((hreads b.length).mpr ?_) e hdecoder
    rw [Nat.zero_add]
    exact hpre.length_le
  · rcases List.mem_cons.mp hrest with hid | hreply
    · rw [hid, hval]
      have hsome := (load_first 4 (by decide)).mpr ⟨v, vs, rfl, hfour⟩
      exact ⟨_, rfl, hsome⟩
    · exact ht e hreply b.length

/-- An executable request is read inside its bounds in every kernel. -/
theorem inside_of_executableRequest {b : List UInt8} (hlen : b.length < 2 ^ 32)
    (h : ExecutableRequest b) : ExecutesInside b := by
  obtain ⟨hshort, hquery⟩ := h
  intro behind k env sock hk
  refine Or.inr ?_
  have hlen' : (UInt32.ofNat b.length).toNat = b.length :=
    UInt32.toNat_ofNat_of_lt' hlen
  have hidRead : (Event.read ⟨0, 4⟩).InPacket b.length := Or.inr hshort
  by_cases hid : wordAt (overlay b behind) 0 = 0
  · have hword : Holds (overlay b behind) 0 (wordBytes 0) := by
      rw [← hid]
      exact holds_wordAt _ 0
    obtain ⟨v, vs, henc, hpre, hfour⟩ := hquery (isPrefix_of_holds hword hshort)
    rw [executeInterface_zero hid, after_trace]
    intro e he
    rcases List.mem_append.mp he with hfirst | hrest
    · rw [List.mem_singleton.mp hfirst]
      exact hidRead
    · exact fetchInterfaceInfo_inPacket env henc hpre hfour behind _ k e hrest
  · rcases hk.live.findInterface (wordAt (overlay b behind) 0).toInt32
      with hnone | ⟨p, x, hfound, -⟩
    · rw [executeInterface_missing hid hnone]
      intro e he
      rw [List.mem_singleton.mp he]
      exact hidRead
    · rw [executeInterface_found hid hfound]
      intro e he
      rcases List.mem_cons.mp he with hfirst | hrest
      · rw [hfirst]
        exact hidRead
      · exact forwardEvents_inPacket env _ (Nat.le_of_eq hlen') x e hrest

/-- **BOUNDS OF RPC PACKETS**: the decoders stay inside a byte string exactly when
    it begins with a complete packet, and `execute_interface` exactly when it has
    an id, and a complete query if the id is 0. -/
theorem rpc_reads_inside {b : List UInt8} (hlen : b.length < 2 ^ 32)
    (heap : Nat → Ptr) :
    (Kernel.UnserializesInside b ↔ CompleteRpc b)
    ∧ (Lib.UnserializesInside heap b ↔ CompleteRpc b)
    ∧ (ExecutesInside b ↔ ExecutableRequest b) :=
  ⟨Kernel.unserializesInside_iff b, Lib.unserializesInside_iff heap b,
    fun h => ⟨h.id_inside, h.query_inside⟩, inside_of_executableRequest hlen⟩

/-- A packet with one value of one byte. -/
theorem rpc_reads_inside_one : Kernel.UnserializesInside (rpcEncoding 3 [[7]]) := by
  have hlen : (rpcEncoding 3 [[7]]).length < 2 ^ 32 := by decide
  refine (rpc_reads_inside hlen fun _ => .null).1.mpr
    ⟨3, [[7]], ?_, List.prefix_rfl⟩
  exact encodable_of_length hlen

/-- A packet of eight bytes with id 0 that announces one value is read beyond its
    end by both decoders, and `execute_interface` does not refuse it. -/
theorem announced_value_overread :
    ¬ Kernel.UnserializesInside (wordBytes 0 ++ wordBytes 1)
    ∧ ¬ Lib.UnserializesInside (fun _ => .null) (wordBytes 0 ++ wordBytes 1)
    ∧ ¬ ExecutesInside (wordBytes 0 ++ wordBytes 1) := by
  refine ⟨fun h => ?_, fun h => ?_, fun h => ?_⟩
  · have hin := h fun _ => 0
    revert hin
    decide
  · have hin := h fun _ => 0
    revert hin
    decide
  · have hret : (executeInterface .fine
        (overlay (wordBytes 0 ++ wordBytes 1) fun _ => 0) 8 (some 5)
        Registry.initial).ret = none := by decide
    have hread : Event.read ⟨8, 4⟩ ∈ (executeInterface .fine
        (overlay (wordBytes 0 ++ wordBytes 1) fun _ => 0) 8 (some 5)
        Registry.initial).trace := by decide
    rcases h (fun _ => 0) Registry.initial .fine 5 traversable_initial
      with href | hall
    · exact nomatch hret.symm.trans href
    · exact absurd (hall _ hread) (by decide : ¬ (⟨8, 4⟩ : Span).Within 8)

end DistComm
