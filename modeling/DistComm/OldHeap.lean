import DistComm.HandleRpc

/-! # Old heap contents in decoded values

    The two copies of `unserialize_rpc_packet` differ in one call: the kernel's takes
    its array from `kzalloc`, the library's from `malloc`.  Both set the address of a
    value only if the value has bytes, so that in a process an empty argument keeps
    the address that the heap held there.  What the library decodes is determined by
    the packet exactly if no value is empty (`decoded_by_packet_iff`). -/

namespace DistComm

open RawMemory RawScan TracedProgram

/-- The value has the length of `v`, its address is NULL exactly if this is 0, and
    points to a copy of `v` otherwise. -/
structure Settled (v : List UInt8) (a : AttrValue) : Prop where
  length : a.length = UInt32.ofNat v.length
  null : a.addr = .null ↔ a.length = 0
  copy : a.length ≠ 0 → a.addr = .block v

/-- The packet for `id` with the values `vs` is in the memory `m`: whatever the heap
    held, both decoders return the settled values, the same in both, and so are the
    arguments of every callback that `handle_rpc` calls for the packet. -/
structure DecodedByPacket (id : UInt32) (vs : List (List UInt8)) (m : Mem)
    (packetLength : UInt32) : Prop where
  kernel : List.Forall₂ Settled vs
    (Kernel.unserializeRpcPacket packetLength m 0).val.2
  lib : ∀ heap, List.Forall₂ Settled vs
    (Lib.unserializeRpcPacket heap packetLength m 0).val.2.2
  same : ∀ heap, (Lib.unserializeRpcPacket heap packetLength m 0).val.2
    = (Kernel.unserializeRpcPacket packetLength m 0).val
  heaps : ∀ heap heap', (Lib.unserializeRpcPacket heap packetLength m 0).val
    = (Lib.unserializeRpcPacket heap' packetLength m 0).val
  callbacks : (rpcEncoding id vs).length ≤ MAX_PAYLOAD.toNat →
    ∀ (p : Process) (left : Leftovers) (x : UInt32) (argv : List AttrValue),
      .call x argv ∈ (handleRpc p left (some (userMessage (rpcEncoding id vs)
        (UInt32.ofNat (rpcEncoding id vs).length))) ()).trace →
      List.Forall₂ Settled vs argv

/-! ## One value -/

/-- A decoded value is settled unless it is empty and the heap held an address. -/
theorem settled_decodedValue {v : List UInt8} (hlen : v.length < 2 ^ 32)
    (unset : Ptr) : Settled v (decodedValue unset v) ↔ v ≠ [] ∨ unset = .null := by
  have hword : (decodedValue unset v).length = 0 ↔ v = [] := by
    show UInt32.ofNat v.length = 0 ↔ _
    rw [← UInt32.toNat_inj, UInt32.toNat_ofNat_of_lt' hlen]
    exact List.length_eq_zero_iff
  constructor
  · intro h
    by_cases hnil : v = []
    · right
      have haddr := h.null.mpr (hword.mpr hnil)
      rw [decodedValue, hnil] at haddr
      exact haddr
    · exact Or.inl hnil
  · intro h
    refine ⟨rfl, ?_, fun hne => ?_⟩
    · rw [hword]
      show (if v.length = 0 then unset else .block v) = .null ↔ _
      by_cases hnil : v = []
      · rw [if_pos (List.length_eq_zero_iff.mpr hnil)]
        exact ⟨fun _ => hnil, fun _ => h.resolve_left (not_not_intro hnil)⟩
      · rw [if_neg fun h0 => hnil (List.length_eq_zero_iff.mp h0)]
        refine ⟨fun h0 => ?_, fun h0 => absurd h0 hnil⟩
        cases h0
    · have hcons : v ≠ [] := fun hnil => hne (hword.mpr hnil)
      exact if_neg fun h0 => hcons (List.length_eq_zero_iff.mp h0)

theorem forall₂_valuesFrom {α β : Type} {R : α → β → Prop} {F : Nat → α → β}
    {as : List α} (h : ∀ i, ∀ a ∈ as, R a (F i a)) (i : Nat) :
    List.Forall₂ R as (valuesFrom F i as) := by
  induction as generalizing i with
  | nil => exact .nil
  | cons a as ih =>
      exact .cons (h i a (List.mem_cons_self ..))
        (ih (fun j b hb => h j b (List.mem_cons_of_mem a hb)) (i + 1))

/-- A list of values that the heap cannot show in. -/
theorem settled_values {vs : List (List UInt8)} (henc : Encodable vs)
    (hne : ∀ v ∈ vs, v ≠ []) (heap : Nat → Ptr) :
    List.Forall₂ Settled vs (valuesFrom (fun i => decodedValue (heap i)) 0 vs) :=
  forall₂_valuesFrom (fun i v hv =>
    (settled_decodedValue (henc.2 v hv) (heap i)).mpr (Or.inl (hne v hv))) 0

theorem decodedValue_congr {v : List UInt8} (hne : v ≠ []) (unset unset' : Ptr) :
    decodedValue unset v = decodedValue unset' v := by
  have hlen : ¬ v.length = 0 := fun h0 => hne (List.length_eq_zero_iff.mp h0)
  rw [decodedValue, decodedValue, if_neg hlen, if_neg hlen]

theorem valuesFrom_congr {vs : List (List UInt8)} (hne : ∀ v ∈ vs, v ≠ [])
    (heap heap' : Nat → Ptr) (i : Nat) :
    valuesFrom (fun i => decodedValue (heap i)) i vs
      = valuesFrom (fun i => decodedValue (heap' i)) i vs := by
  induction vs generalizing i with
  | nil => rfl
  | cons v vs ih =>
      obtain ⟨hv, hvs⟩ := List.forall_mem_cons.mp hne
      rw [valuesFrom, valuesFrom, decodedValue_congr hv (heap i) (heap' i),
        ih hvs (i + 1)]

/-! ## The arguments of a callback -/

theorem emits_sendBack (p : Process) (id retc : UInt32) (retv : List AttrValue) :
    Emits (fun e => ∃ message, e = .send message) (sendBack p id retc retv) :=
  (emits_orFault _).bind fun _ => (emits_orFault _).bind fun message =>
    emits_emit ⟨message, rfl⟩

/-- A callback is called with what was decoded. -/
theorem callInterface_args {p : Process} {id x : UInt32} {interface : Managed}
    {argv argv' : List AttrValue}
    (h : .call x argv' ∈ (callInterface p id interface argv ()).trace) :
    argv' = argv := by
  rw [callInterface, run_emit_bind, after_trace] at h
  rcases List.mem_append.mp h with hcall | hsend
  · cases List.mem_singleton.mp hcall
    rfl
  · have hemits : Emits (fun e => ∃ message, e = .send message)
        (if (interface.callback argv
            (List.replicate interface.retc.toNat ⟨-1, .null⟩)).1 < 0 then
          pure () else sendBack p id interface.retc (interface.callback argv
            (List.replicate interface.retc.toNat ⟨-1, .null⟩)).2) :=
      (emits_pure ()).ite (emits_sendBack _ _ _ _)
    obtain ⟨message, heq⟩ := hemits () _ hsend
    cases heq

theorem handleRpc_args {p : Process} {left : Leftovers} {id x : UInt32}
    {vs : List (List UInt8)} (hshort : (rpcEncoding id vs).length ≤ MAX_PAYLOAD.toNat)
    {argv : List AttrValue}
    (h : .call x argv ∈ (handleRpc p left (some (userMessage (rpcEncoding id vs)
      (UInt32.ofNat (rpcEncoding id vs).length))) ()).trace) :
    argv = decodedArgs left.heap vs := by
  cases hfind : p.findInterface id.toInt32 with
  | none =>
      rw [handleRpc_lookup p left hshort, run_orFault_none_bind hfind] at h
      exact absurd h List.not_mem_nil
  | some found =>
      cases found with
      | none =>
          rw [handleRpc_request left hfind hshort] at h
          exact absurd h List.not_mem_nil
      | some interface =>
          rw [handleRpc_found left hfind hshort] at h
          by_cases hargc : interface.argc.toNat = vs.length
          · rw [if_pos hargc] at h
            exact callInterface_args h
          · rw [if_neg hargc] at h
            exact absurd h List.not_mem_nil

/-- An empty value keeps the address that the heap held. -/
theorem DecodedByPacket.ne_nil {id : UInt32} {vs : List (List UInt8)}
    (henc : Encodable vs) {m : Mem} (hm : Holds m 0 (rpcEncoding id vs))
    {packetLength : UInt32} (h : DecodedByPacket id vs m packetLength) :
    ∀ v ∈ vs, v ≠ [] := by
  intro v hv hnil
  -- an address of an earlier request in every entry of the array
  have hstale := h.lib fun _ => .stale 1
  rw [Lib.unserializeRpcPacket_val henc hm _ packetLength, valuesFrom_const,
    List.forall₂_map_right_iff, List.forall₂_same] at hstale
  rcases (settled_decodedValue (henc.2 v hv) (.stale 1)).mp (hstale v hv)
    with hne | hnull
  · exact hne hnil
  · cases hnull

/-- **OLD HEAP CONTENTS** do not show in decoded values exactly if no value is
    empty. -/
theorem decoded_by_packet_iff {id : UInt32} {vs : List (List UInt8)}
    (henc : Encodable vs) {m : Mem} (hm : Holds m 0 (rpcEncoding id vs))
    (packetLength : UInt32) :
    DecodedByPacket id vs m packetLength ↔ ∀ v ∈ vs, v ≠ [] := by
  have hlib := fun heap => Lib.unserializeRpcPacket_val henc hm heap packetLength
  have hkernel := Kernel.unserializeRpcPacket_val henc hm packetLength
  constructor
  · exact DecodedByPacket.ne_nil henc hm
  · intro hne
    refine ⟨?_, fun heap => ?_, fun heap => ?_, fun heap heap' => ?_, ?_⟩
    · rw [hkernel]
      exact settled_values henc hne fun _ => .null
    · rw [hlib]
      exact settled_values henc hne heap
    · rw [hlib, hkernel, valuesFrom_congr hne heap fun _ => .null]
    · rw [hlib, hlib, valuesFrom_congr hne heap heap']
    · intro hshort p left x argv hcall
      rw [handleRpc_args hshort hcall]
      exact settled_values henc hne left.heap

/-- Two values with bytes. -/
theorem decoded_by_packet_iff_two :
    DecodedByPacket 7 [[104, 105], [33]]
      (overlay (rpcEncoding 7 [[104, 105], [33]]) fun _ => 255) 19 :=
  (decoded_by_packet_iff ⟨by decide, by decide⟩ (holds_overlay _ _) 19).mpr
    (by decide)

/-- An empty argument: the callback gets the address that the heap held. -/
theorem empty_value_stale :
    ¬ ∀ (id : UInt32) (vs : List (List UInt8)) (m : Mem) (packetLength : UInt32),
      Encodable vs → Holds m 0 (rpcEncoding id vs) →
      DecodedByPacket id vs m packetLength := by
  intro hall
  have henc : Encodable [[]] := ⟨by decide, by decide⟩
  have hm := holds_overlay (rpcEncoding 7 [[]]) fun _ => 0
  have hne := (hall 7 [[]] _ 12 henc hm).ne_nil henc hm
  exact hne [] (List.mem_singleton_self _) rfl

end DistComm
