import DistComm.Dispatch
import DistComm.Routing
import DistComm.Slab
import Mathlib.Tactic.Abel

/-! # The memory of a process

    `handle_rpc` once more, for the blocks that it allocates and frees: the array of
    arguments and their values, the array of results, the results that the callback
    sets, the packet and the message.  The functions of the source have the prefix
    `Blocks` in this view; `malloc`, `realloc` and `free` are the operations of the heap.

    The cleanup at the end of a round frees the arrays, the results and the packet, and
    leaves the values of the arguments.  So whatever a process receives, it frees no
    block twice, and after any number of rounds what is left on its heap is one block for
    each argument with bytes in it that was ever received (`rpc_blocks`). -/

namespace DistComm

open RawMemory RawScan PointerArray GrowBuffer TracedProgram Slab

/-- `sizeof(attr_value_t)`. -/
def SIZEOF_ATTR_VALUE : Nat := 16

/-! ## Packets -/

/-- The loop of `unserialize_rpc_packet`, for the values that it decodes: the blocks of
    those with bytes. -/
def Blocks.unserializeValues (grants : Nat → Nat → Bool) (array : Pointer) :
    List AttrValue → Prog (List Pointer)
  | [] => pure []
  | v :: vs => do
      access array
      if v.length = 0 then Blocks.unserializeValues grants array vs
      else do
        let addr ← kmalloc grants v.length.toNat
        fill addr v.length.toNat
        let addrs ← Blocks.unserializeValues grants array vs
        pure (addr :: addrs)

/-- `unserialize_rpc_packet` of a packet with these values. -/
def Blocks.unserializeRpcPacket (grants : Nat → Nat → Bool) (values : List AttrValue) :
    Prog (Pointer × List Pointer) := do
  let array ← kmalloc grants (values.length * SIZEOF_ATTR_VALUE)
  let addrs ← Blocks.unserializeValues grants array values
  pure (array, addrs)

/-- The `realloc` of `copy_to_buffer`. -/
def Blocks.growBuffer (grants : Nat → Nat → Bool) (buf : Pointer × Buffer)
    (srcLength : UInt32) : Prog Pointer :=
  if buf.2.maxSize < buf.2.length + srcLength then
    krealloc grants buf.1 (buf.2.maxSize + BUFFER_INC_SIZE).toNat
  else pure buf.1

/-- `copy_to_buffer`. -/
def Blocks.copyToBuffer (grants : Nat → Nat → Bool) (buf : Pointer × Buffer)
    (src : List UInt8) : Prog (Pointer × Buffer) := do
  let v ← Blocks.growBuffer grants buf (UInt32.ofNat src.length)
  fill v src.length
  let b ← demand (Lib.copyToBuffer buf.2 src)
  pure (v, b)

/-- `serialize_rpc_packet`. -/
def Blocks.serializeRpcPacket (grants : Nat → Nat → Bool) (id argc : UInt32)
    (values : List AttrValue) : Prog (Pointer × Buffer) := do
  let buf ← kmalloc grants BUFFER_INC_SIZE.toNat
  (rpcPieces id argc values).foldlM (Blocks.copyToBuffer grants)
    (buf, Buffer.ofSize BUFFER_INC_SIZE)

/-- `netlink_sendto_kern` of a message with so many bytes. -/
def Blocks.netlinkSendtoKern (grants : Nat → Nat → Bool) (packetLen : Nat) :
    Prog Unit := do
  let nlh ← kmalloc grants packetLen
  fill nlh packetLen
  kfree nlh

/-! ## Rounds -/

/-- What a callback allocates for a result; it sets the address to nothing else. -/
def Blocks.setResult (grants : Nat → Nat → Bool) (v : AttrValue) : Prog Pointer :=
  match v.addr with
  | .null => pure .null
  | .block bytes => do
      let addr ← kmalloc grants bytes.length
      fill addr bytes.length
      pure addr
  | .stale _ => crash .misuse

/-- The results that a callback sets. -/
def Blocks.setResults (grants : Nat → Nat → Bool) : List AttrValue → Prog (List Pointer)
  | [] => pure []
  | v :: vs => do
      let addr ← Blocks.setResult grants v
      let addrs ← Blocks.setResults grants vs
      pure (addr :: addrs)

/-- `for (i = 0; i < interface->retc; i++) if (retv[i].addr) free(retv[i].addr);`, from
    index `i` for `n` rounds. -/
def Blocks.freeResults (retv : Pointer) (addrs : List Pointer) : Nat → Nat → Prog Unit
  | _, 0 => pure ()
  | i, n + 1 => do
      access retv
      let addr ← demand addrs[i]?
      kfree addr
      Blocks.freeResults retv addrs (i + 1) n

/-- The end of a round that has results; `retBuffer` is NULL where the callback
    failed. -/
def Blocks.cleanup (retv : Pointer) (addrs : List Pointer) (retc : UInt32)
    (argv retBuffer : Pointer) : Prog Unit := do
  Blocks.freeResults retv addrs 0 retc.toNat
  kfree retv
  kfree argv
  kfree retBuffer

/-- The round from the results on. -/
def Blocks.sendBack (grants : Nat → Nat → Bool) (p : Process) (id retc : UInt32)
    (retv : List AttrValue) : Prog (Pointer × List RpcEvent) := do
  let buf ← Blocks.serializeRpcPacket grants id retc retv
  let message ← demand (Lib.netlinkSendtoKern p.portid INCOME_RESULT buf.2.contents
    (UInt32.ofNat buf.2.contents.length))
  Blocks.netlinkSendtoKern grants message.length
  pure (buf.1, [.send message])

/-- The round from the call of the callback on. -/
def Blocks.callInterface (grants : Nat → Nat → Bool) (p : Process) (id : UInt32)
    (interface : Managed) (argv : Pointer) (args : List AttrValue) :
    Prog (List RpcEvent) := do
  let retv ← kmalloc grants (interface.retc.toNat * SIZEOF_ATTR_VALUE)
  fill retv (interface.retc.toNat * SIZEOF_ATTR_VALUE)
  let called := interface.callback args
    (List.replicate interface.retc.toNat ⟨-1, .null⟩)
  let addrs ← Blocks.setResults grants called.2
  if called.1 < 0 then do
    Blocks.cleanup retv addrs interface.retc argv .null
    pure [.call interface.id args]
  else do
    let (retBuffer, t) ← Blocks.sendBack grants p id interface.retc called.2
    Blocks.cleanup retv addrs interface.retc argv retBuffer
    pure (.call interface.id args :: t)

/-- The round from the lookup on. -/
def Blocks.selectInterface (grants : Nat → Nat → Bool) (p : Process) (heap : Nat → Ptr)
    (packet : Mem) (packetLength : UInt32) : Option Managed → Prog (List RpcEvent)
  | none => pure []
  | some interface => do
      let decoded := (Lib.unserializeRpcPacket heap packetLength packet 0).val
      let (argv, _) ← Blocks.unserializeRpcPacket grants decoded.2.2
      if interface.argc ≠ decoded.2.1 then do
        kfree argv
        pure []
      else Blocks.callInterface grants p decoded.1 interface argv decoded.2.2

/-- The round from the receive on. -/
def Blocks.handlePacket (grants : Nat → Nat → Bool) (p : Process) (left : Leftovers)
    (data : Option (List UInt8)) : Prog (List RpcEvent) :=
  if recvLength data = 0 then pure []
  else do
    let packet := receivedPacket left data
    let found ← demand (p.findInterface (interfaceId packet 0).val)
    Blocks.selectInterface grants p left.heap packet (recvLength data) found

/-- One round of `handle_rpc`. -/
def Blocks.handleRpc (grants : Nat → Nat → Bool) (p : Process) (left : Leftovers)
    (received : Option (List UInt8)) : Prog (List RpcEvent) :=
  Blocks.handlePacket grants p left
    (Lib.netlinkRecvfromKern left.stack received MAX_PAYLOAD)

/-- `handle_rpc`, for as many rounds: the events of all of them. -/
def Blocks.handleRpcLoop (grants : Nat → Nat → Bool) (p : Process)
    (rounds : List Round) : Prog (List RpcEvent) :=
  rounds.foldlM (fun t r => do
    let u ← Blocks.handleRpc grants (p.inRound r) r.left r.received
    pure (t ++ u)) []

/-! ## What is left -/

/-- The number of values with bytes. -/
def filled (values : List AttrValue) : Nat := values.countP (·.length ≠ 0)

/-- How many arguments with bytes a round decodes. -/
def Process.decodes (p : Process) (left : Leftovers) (received : Option (List UInt8)) :
    Nat :=
  let data := Lib.netlinkRecvfromKern left.stack received MAX_PAYLOAD
  let packet := receivedPacket left data
  if recvLength data = 0 then 0
  else
    match p.findInterface (interfaceId packet 0).val with
    | some (some _) =>
        filled (Lib.unserializeRpcPacket left.heap (recvLength data) packet 0).val.2.2
    | _ => 0

/-- Of the unset results that it is given, the callback leaves as many, and the address
    of each is then NULL or that of a block that it allocated. -/
def Allocates (callback : Callback) : Prop :=
  ∀ argv retc, (callback argv (List.replicate retc ⟨-1, .null⟩)).2.length = retc
    ∧ ∀ v ∈ (callback argv (List.replicate retc ⟨-1, .null⟩)).2, ∀ a, v.addr ≠ .stale a

section Rules

variable {grants : Nat → Nat → Bool} {own : Multiset Nat}

theorem Blocks.unserializeValues_spec {array : Pointer} {values : List AttrValue}
    (hzero : values ≠ [] → array ≠ .zero) (hnull : array = .null → Denied grants)
    (hown : array.owned ≤ own) :
    Spec grants own (Blocks.unserializeValues grants array values) fun addrs own' =>
      own' = own + ownedAll addrs ∧ (ownedAll addrs).card = filled values := by
  induction values generalizing own with
  | nil => exact Spec.pure ⟨(add_zero own).symm, rfl⟩
  | cons v vs ih =>
      have hne := hzero (List.cons_ne_nil v vs)
      rw [Blocks.unserializeValues, filled, List.countP_cons]
      refine (Spec.access hne hnull hown).bind ?_
      rintro _ own1 ⟨h1, -⟩
      rw [h1]
      by_cases hv : v.length = 0
      · rw [if_pos hv, if_neg (by simp [hv])]
        exact ih (fun _ => hne) hown
      · have hpos : 0 < v.length.toNat :=
          Nat.pos_of_ne_zero fun h0 => hv (UInt32.toNat_inj.mp h0)
        rw [if_neg hv, if_pos (by simp [hv])]
        refine (Spec.kmalloc _).bind ?_
        rintro addr own2 ⟨h2, hz, hd⟩
        refine (Spec.fill hz hd (by rw [h2]; exact le_add_self)).bind ?_
        rintro _ own3 ⟨h3, hn⟩
        have hown3 : array.owned ≤ own3 := by
          rw [h3, h2]
          exact le_add_right hown
        refine (ih (fun _ => hne) hown3).bind ?_
        rintro addrs own4 ⟨h4, hcard⟩
        refine Spec.pure ⟨?_, ?_⟩
        · rw [h4, h3, h2, ownedAll, ownedAll, List.map_cons, List.sum_cons, add_assoc]
        · rw [ownedAll, List.map_cons, List.sum_cons, Multiset.card_add,
            Pointer.card_owned_block (hz hpos) (hn hpos), Nat.add_comm]
          exact congrArg (· + 1) hcard

theorem Blocks.unserializeRpcPacket_spec (values : List AttrValue) :
    Spec grants own (Blocks.unserializeRpcPacket grants values) fun r own' =>
      own' = own + ownedAll r.2 + r.1.owned ∧ (ownedAll r.2).card = filled values := by
  rw [Blocks.unserializeRpcPacket]
  refine (Spec.kmalloc _).bind ?_
  rintro array own1 ⟨h1, hzero, hnull⟩
  have hzero' : values ≠ [] → array ≠ .zero := fun hne =>
    hzero (Nat.mul_pos (List.length_pos_of_ne_nil hne) (by decide))
  have hown : array.owned ≤ own1 := by
    rw [h1]
    exact le_add_self
  refine (Blocks.unserializeValues_spec hzero' hnull hown).bind ?_
  rintro addrs own2 ⟨h2, hcard⟩
  refine Spec.pure ⟨?_, hcard⟩
  rw [h2, h1, add_right_comm]

/-- What makes the buffer grow has bytes, and if it fits then the buffer is not
    empty. -/
theorem growth_pos {b b' : Buffer} {src : List UInt8}
    (hb : Lib.copyToBuffer b src = some b')
    (hgrow : b.maxSize < b.length + UInt32.ofNat src.length) :
    0 < src.length ∧ 0 < (b.maxSize + BUFFER_INC_SIZE).toNat := by
  have hpos : 0 < src.length := by
    refine Nat.pos_of_ne_zero fun h0 => ?_
    rw [h0] at hgrow
    have hlt := UInt32.lt_iff_toNat_lt.mp hgrow
    rw [show UInt32.ofNat 0 = 0 from rfl, UInt32.add_zero, b.toNat_length] at hlt
    exact absurd b.fits (Nat.not_le.mpr hlt)
  have hcontents := append_contents hb
  have hmax : b'.maxSize = b.maxSize + BUFFER_INC_SIZE := by
    rw [Lib.copyToBuffer, append] at hb
    split at hb
    · rw [← Option.some.inj hb]
      exact if_pos hgrow
    · cases hb
  have hfits := b'.fits
  rw [hcontents, List.length_append, hmax] at hfits
  exact ⟨hpos, by omega⟩

/-- The buffer grows for the copy, unless the copy is to follow NULL. -/
theorem Blocks.growBuffer_spec {buf : Pointer × Buffer} {src : List UInt8} {b : Buffer}
    (hb : Lib.copyToBuffer buf.2 src = some b) (hzero : buf.1 ≠ .zero)
    (hnull : buf.1 = .null → Denied grants) :
    Spec grants (own + buf.1.owned)
      (Blocks.growBuffer grants buf (UInt32.ofNat src.length)) fun v own' =>
        v ≠ .zero ∧ (v = .null → Denied grants)
          ∧ (own' = own + v.owned ∨ v = .null ∧ 0 < src.length) := by
  rw [Blocks.growBuffer]
  by_cases hgrow : buf.2.maxSize < buf.2.length + UInt32.ofNat src.length
  · obtain ⟨hsrc, hsize⟩ := growth_pos hb hgrow
    rw [if_pos hgrow]
    generalize (buf.2.maxSize + BUFFER_INC_SIZE).toNat = size at hsize ⊢
    refine (Spec.krealloc buf.1 size).weaken fun v own1 hv => ?_
    rcases hv with ⟨hnone, hdenied⟩ | ⟨h1, hsome, hz⟩
    · refine ⟨?_, fun _ => hdenied, Or.inr ⟨hnone, hsrc⟩⟩
      rw [hnone]
      intro h
      cases h
    · exact ⟨hz hsize, fun h => absurd h hsome, Or.inl h1⟩
  · rw [if_neg hgrow]
    exact Spec.pure ⟨hzero, hnull, Or.inl rfl⟩

/-- A copy that does not fault leaves the block that it copied to. -/
theorem Blocks.copyToBuffer_spec {buf : Pointer × Buffer} {src : List UInt8} {b : Buffer}
    (hb : Lib.copyToBuffer buf.2 src = some b) (hzero : buf.1 ≠ .zero)
    (hnull : buf.1 = .null → Denied grants) :
    Spec grants (own + buf.1.owned) (Blocks.copyToBuffer grants buf src) fun r own' =>
      own' = own + r.1.owned ∧ r.2 = b ∧ r.1 ≠ .zero ∧ (r.1 = .null → Denied grants) := by
  rw [Blocks.copyToBuffer]
  refine (Blocks.growBuffer_spec hb hzero hnull).bind ?_
  rintro v own1 ⟨hz, hd, hv⟩
  have hown : v.owned ≤ own1 := by
    rcases hv with h1 | ⟨hnone, -⟩
    · rw [h1]
      exact le_add_self
    · rw [hnone]
      exact Multiset.zero_le own1
  refine (Spec.fill (fun _ => hz) hd hown).bind ?_
  rintro _ own2 ⟨h2, hfilled⟩
  refine (Spec.demand hb).bind ?_
  rintro b' own3 ⟨hb', h3⟩
  refine Spec.pure ⟨?_, hb', hz, hd⟩
  rcases hv with h1 | ⟨hnone, hsrc⟩
  · rw [h3, h2, h1]
  · exact absurd hnone (hfilled hsrc)

theorem Blocks.copyAll_spec {srcs : List (List UInt8)} {buf : Pointer × Buffer}
    {b : Buffer} (hb : srcs.foldlM Lib.copyToBuffer buf.2 = some b)
    (hzero : buf.1 ≠ .zero) (hnull : buf.1 = .null → Denied grants) :
    Spec grants (own + buf.1.owned) (srcs.foldlM (Blocks.copyToBuffer grants) buf)
      fun r own' => own' = own + r.1.owned ∧ r.2 = b := by
  induction srcs generalizing buf with
  | nil => exact Spec.pure ⟨rfl, Option.some.inj hb⟩
  | cons src srcs ih =>
      rw [List.foldlM_cons] at hb
      obtain ⟨b1, hsrc, hsrcs⟩ := Option.bind_eq_some_iff.mp hb
      rw [List.foldlM_cons]
      refine (Blocks.copyToBuffer_spec hsrc hzero hnull).bind ?_
      rintro buf1 own1 ⟨h1, hb1, hz, hn⟩
      rw [h1]
      rw [← hb1] at hsrcs
      exact ih hsrcs hz hn

/-- **ENCODING** owns the packet that it leaves. -/
theorem Blocks.serializeRpcPacket_spec {id retc : UInt32} {retv : List AttrValue}
    (hretc : retc.toNat = retv.length) {packet : List UInt8}
    (h : Lib.serializeRpcPacket id.toInt32 retc.toInt32 retv = some packet) :
    Spec grants own (Blocks.serializeRpcPacket grants id retc retv) fun r own' =>
      own' = own + r.1.owned ∧ r.2.contents = packet := by
  rw [Lib.serializeRpcPacket_eq] at h
  obtain ⟨-, hvalid⟩ := Kernel.serializeRpcPacket_some hretc h
  replace h : Kernel.serializeRpcPacket id retc retv = some packet := h
  rw [Kernel.serializeRpcPacket_pieces hretc hvalid] at h
  obtain ⟨b, hb, hpacket⟩ := Option.map_eq_some_iff.mp h
  rw [Blocks.serializeRpcPacket]
  refine (Spec.kmalloc _).bind ?_
  rintro buf own1 ⟨h1, hzero, hnull⟩
  rw [h1]
  refine (@Blocks.copyAll_spec grants own _ (buf, Buffer.ofSize BUFFER_INC_SIZE) b hb
    (hzero bufferInc_pos) hnull).weaken ?_
  rintro r own2 ⟨h2, hr⟩
  refine ⟨h2, ?_⟩
  rw [hr]
  exact hpacket

theorem Blocks.netlinkSendtoKern_spec (packetLen : Nat) :
    Spec grants own (Blocks.netlinkSendtoKern grants packetLen)
      fun _ own' => own' = own := by
  rw [Blocks.netlinkSendtoKern]
  refine (Spec.kmalloc _).bind ?_
  rintro nlh own1 ⟨h1, hzero, hnull⟩
  refine (Spec.fill hzero hnull (by rw [h1]; exact le_add_self)).bind ?_
  rintro _ own2 ⟨h2, -⟩
  rw [h2, h1]
  exact Spec.kfree nlh

theorem Blocks.setResults_spec {values : List AttrValue}
    (h : ∀ v ∈ values, ∀ a, v.addr ≠ .stale a) :
    Spec grants own (Blocks.setResults grants values) fun addrs own' =>
      own' = own + ownedAll addrs ∧ addrs.length = values.length := by
  induction values generalizing own with
  | nil => exact Spec.pure ⟨(add_zero own).symm, rfl⟩
  | cons v vs ih =>
      have hset : Spec grants own (Blocks.setResult grants v) fun addr own' =>
          own' = own + addr.owned := by
        have hv := h v List.mem_cons_self
        rw [Blocks.setResult]
        cases haddr : v.addr with
        | null => exact Spec.pure (add_zero own).symm
        | stale a => exact absurd haddr (hv a)
        | block bytes =>
            refine (Spec.kmalloc _).bind ?_
            rintro addr own1 ⟨h1, hzero, hnull⟩
            refine (Spec.fill hzero hnull (by rw [h1]; exact le_add_self)).bind ?_
            rintro _ own2 ⟨h2, -⟩
            exact Spec.pure (h2.trans h1)
      rw [Blocks.setResults]
      refine hset.bind fun addr own1 h1 => ?_
      refine (ih fun u hu => h u (List.mem_cons_of_mem v hu)).bind ?_
      rintro addrs own2 ⟨h2, hlen⟩
      refine Spec.pure ⟨?_, ?_⟩
      · rw [h2, h1, ownedAll, ownedAll, List.map_cons, List.sum_cons, add_assoc]
      · rw [List.length_cons, List.length_cons, hlen]

theorem Blocks.freeResults_spec {retv : Pointer} {addrs : List Pointer} (n i : Nat)
    (hn : i + n = addrs.length) (hretv : 0 < n → retv ≠ .null ∧ retv ≠ .zero) :
    Spec grants (own + retv.owned + ownedAll (addrs.drop i))
      (Blocks.freeResults retv addrs i n) fun _ own' => own' = own + retv.owned := by
  induction n generalizing i with
  | zero =>
      rw [List.drop_eq_nil_of_le (by omega)]
      exact Spec.pure (add_zero _)
  | succ n ih =>
      have hi : i < addrs.length := by omega
      obtain ⟨hnull, hzero⟩ := hretv (Nat.succ_pos n)
      rw [Blocks.freeResults]
      refine (Spec.access hzero (fun h => absurd h hnull)
        (le_add_right le_add_self)).bind ?_
      rintro _ own1 ⟨h1, -⟩
      refine (Spec.demand (List.getElem?_eq_getElem hi)).bind ?_
      rintro addr own2 ⟨haddr, h2⟩
      rw [h2, h1, haddr, List.drop_eq_getElem_cons hi, ownedAll, List.map_cons,
        List.sum_cons, add_comm addrs[i].owned, ← add_assoc]
      refine (Spec.kfree _).bind fun _ own3 h3 => ?_
      rw [h3]
      exact ih (i + 1) (by omega) fun _ => ⟨hnull, hzero⟩

/-- **THE CLEANUP** frees the results, their array, the array of arguments and the
    packet. -/
theorem Blocks.cleanup_spec {retv argv retBuffer : Pointer} {addrs : List Pointer}
    {retc : UInt32} (hretc : retc.toNat = addrs.length)
    (hretv : 0 < retc.toNat → retv ≠ .null ∧ retv ≠ .zero) :
    Spec grants (own + retBuffer.owned + argv.owned + retv.owned + ownedAll addrs)
      (Blocks.cleanup retv addrs retc argv retBuffer) fun _ own' => own' = own := by
  rw [Blocks.cleanup]
  have hfree := @Blocks.freeResults_spec grants (own + retBuffer.owned + argv.owned) retv
    addrs retc.toNat 0 (by rw [Nat.zero_add, hretc]) hretv
  rw [List.drop_zero] at hfree
  refine hfree.bind fun _ own1 h1 => ?_
  rw [h1]
  refine (Spec.kfree retv).bind fun _ own2 h2 => ?_
  rw [h2]
  refine (Spec.kfree argv).bind fun _ own3 h3 => ?_
  rw [h3]
  exact Spec.kfree retBuffer

theorem Blocks.sendBack_spec {p : Process} {id retc : UInt32} {retv : List AttrValue}
    (hretc : retc.toNat = retv.length)
    (h : (DistComm.sendBack p id retc retv ()).ret = some ()) :
    Spec grants own (Blocks.sendBack grants p id retc retv) fun r own' =>
      own' = own + r.1.owned
        ∧ DistComm.sendBack p id retc retv () = ⟨some (), (), r.2⟩ := by
  rcases sendBack_cases p id retc retv with ⟨packet, message, hpacket, hmessage, hrun⟩
    | ⟨hrun, -⟩
  · rw [Blocks.sendBack]
    refine (Blocks.serializeRpcPacket_spec hretc hpacket).bind ?_
    rintro buf own1 ⟨h1, hbuf⟩
    rw [hbuf]
    refine (Spec.demand hmessage).bind ?_
    rintro sent own2 ⟨hsent, h2⟩
    refine (Blocks.netlinkSendtoKern_spec _).bind fun _ own3 h3 => Spec.pure ⟨?_, ?_⟩
    · rw [h3, h2, h1]
    · rw [hrun, hsent]
  · rw [hrun] at h
    cases h

/-- **THE CALL** frees what it allocates, and the array of arguments. -/
theorem Blocks.callInterface_spec {p : Process} {id : UInt32} {x : Managed}
    {args : List AttrValue} (hx : Allocates x.callback)
    (h : (DistComm.callInterface p id x args ()).ret = some ()) (argv : Pointer) :
    Spec grants (own + argv.owned) (Blocks.callInterface grants p id x argv args)
      fun t own' => own' = own
        ∧ DistComm.callInterface p id x args () = ⟨some (), (), t⟩ := by
  obtain ⟨hlen, haddr⟩ := hx args x.retc.toNat
  rw [DistComm.callInterface, run_emit_bind] at h ⊢
  rw [Blocks.callInterface]
  generalize x.callback args (List.replicate x.retc.toNat ⟨-1, .null⟩) = called
    at h hlen haddr ⊢
  dsimp only at h ⊢
  refine (Spec.kmalloc _).bind ?_
  rintro retv own1 ⟨h1, hzero, hnull⟩
  refine (Spec.fill hzero hnull (by rw [h1]; exact le_add_self)).bind ?_
  rintro _ own2 ⟨h2, hfilled⟩
  have hretv : 0 < x.retc.toNat → retv ≠ .null ∧ retv ≠ .zero := fun hpos =>
    have hsize := Nat.mul_pos hpos (by decide : 0 < SIZEOF_ATTR_VALUE)
    ⟨hfilled hsize, hzero hsize⟩
  refine (Blocks.setResults_spec haddr).bind ?_
  rintro addrs own3 ⟨h3, haddrs⟩
  have hretc := hlen.symm.trans haddrs.symm
  by_cases hfailed : called.1 < 0
  · rw [if_pos hfailed, if_pos hfailed, h3, h2, h1]
    have hown : own + argv.owned + retv.owned + ownedAll addrs
        = own + Pointer.owned .null + argv.owned + retv.owned + ownedAll addrs := by
      rw [show Pointer.owned .null = 0 from rfl, add_zero]
    rw [hown]
    exact (Blocks.cleanup_spec hretc hretv).bind fun _ own4 h4 => Spec.pure ⟨h4, rfl⟩
  · rw [if_neg hfailed] at h ⊢
    rw [if_neg hfailed]
    refine (Blocks.sendBack_spec hlen.symm h).bind ?_
    rintro sent own4 ⟨h4, hsent⟩
    have hown : own4 = own + sent.1.owned + argv.owned + retv.owned + ownedAll addrs := by
      rw [h4, h3, h2, h1]
      abel
    rw [hown]
    refine (Blocks.cleanup_spec hretc hretv).bind fun _ own5 h5 => Spec.pure ⟨h5, ?_⟩
    rw [hsent]
    rfl

theorem Blocks.selectInterface_spec {p : Process} {heap : Nat → Ptr} {packet : Mem}
    {packetLength : UInt32} {found : Option Managed}
    (hfound : ∀ x, found = some x → Allocates x.callback)
    (h : (DistComm.selectInterface p heap packet packetLength found ()).ret = some ()) :
    Spec grants own (Blocks.selectInterface grants p heap packet packetLength found)
      fun t own' =>
        DistComm.selectInterface p heap packet packetLength found () = ⟨some (), (), t⟩
          ∧ ∃ left, own' = own + left ∧ left.card = match found with
            | some _ => filled (Lib.unserializeRpcPacket heap packetLength packet 0).val.2.2
            | none => 0 := by
  cases found with
  | none => exact Spec.pure ⟨rfl, 0, (add_zero own).symm, rfl⟩
  | some x =>
      rw [Blocks.selectInterface]
      rw [DistComm.selectInterface] at h ⊢
      generalize (Lib.unserializeRpcPacket heap packetLength packet 0).val = decoded at h ⊢
      dsimp only at h ⊢
      refine (Blocks.unserializeRpcPacket_spec decoded.2.2).bind ?_
      rintro args own1 ⟨h1, hcard⟩
      rw [h1]
      by_cases hargc : x.argc ≠ decoded.2.1
      · rw [if_pos hargc, if_pos hargc]
        exact (Spec.kfree _).bind fun _ own2 h2 =>
          Spec.pure ⟨rfl, ownedAll args.2, h2, hcard⟩
      · rw [if_neg hargc] at h ⊢
        rw [if_neg hargc]
        refine (Blocks.callInterface_spec (hfound x rfl) h args.1).weaken ?_
        rintro t own2 ⟨h2, hrun⟩
        exact ⟨hrun, ownedAll args.2, h2, hcard⟩

/-- **A ROUND** leaves the values of the arguments that it decodes. -/
theorem Blocks.handleRpc_spec {p : Process} (hp : ∀ x ∈ p.managed, Allocates x.callback)
    {left : Leftovers} {received : Option (List UInt8)}
    (h : (DistComm.handleRpc p left received ()).ret = some ()) :
    Spec grants own (Blocks.handleRpc grants p left received) fun t own' =>
      DistComm.handleRpc p left received () = ⟨some (), (), t⟩
        ∧ ∃ values, own' = own + values ∧ values.card = p.decodes left received := by
  rw [Blocks.handleRpc, Blocks.handlePacket, Process.decodes]
  rw [DistComm.handleRpc, DistComm.handlePacket] at h ⊢
  generalize Lib.netlinkRecvfromKern left.stack received MAX_PAYLOAD = data at h ⊢
  by_cases hempty : recvLength data = 0
  · rw [if_pos hempty, if_pos hempty, if_pos hempty]
    exact Spec.pure ⟨rfl, 0, (add_zero own).symm, rfl⟩
  rw [if_neg hempty] at h ⊢
  rw [if_neg hempty, if_neg hempty]
  obtain ⟨found, hfound, hret⟩ := ret_orFault_bind h
  rw [run_orFault_some_bind hfound, hfound]
  refine (Spec.demand hfound).bind ?_
  rintro y own1 ⟨hy, h1⟩
  rw [hy, h1]
  have hx : ∀ x, found = some x → Allocates x.callback := by
    rintro x rfl
    exact hp x (Process.findInterface_id hfound).1
  refine (Blocks.selectInterface_spec hx hret).weaken ?_
  rintro t own2 ⟨hrun, values, h2, hcard⟩
  refine ⟨hrun, values, h2, hcard.trans ?_⟩
  cases found with
  | none => rfl
  | some x => rfl

theorem Blocks.handleRpcLoop_spec {p : Process} {rounds : List Round}
    (hcallbacks : ∀ r ∈ rounds, ∀ id, Allocates (r.callbacks id))
    (h : (DistComm.handleRpcLoop p rounds ()).ret = some ()) (t : List RpcEvent) :
    Spec grants own (rounds.foldlM (fun t r => do
      let u ← Blocks.handleRpc grants (p.inRound r) r.left r.received
      pure (t ++ u)) t) fun u own' =>
        u = t ++ (DistComm.handleRpcLoop p rounds ()).trace
          ∧ ∃ values, own' = own + values ∧ values.card
            = (rounds.map fun r => (p.inRound r).decodes r.left r.received).sum := by
  induction rounds generalizing own t with
  | nil => exact Spec.pure ⟨(List.append_nil t).symm, 0, (add_zero own).symm, rfl⟩
  | cons r rounds ih =>
      have hmanaged : ∀ x ∈ (p.inRound r).managed, Allocates x.callback := by
        intro x hx
        obtain ⟨y, -, rfl⟩ := List.mem_map.mp hx
        exact hcallbacks r List.mem_cons_self y.id
      rw [DistComm.handleRpcLoop] at h ⊢
      obtain ⟨_, _, u, hrun, hrest⟩ := ret_bind_some h
      rw [run_bind_some hrun, List.foldlM_cons]
      have hret : (DistComm.handleRpc (p.inRound r) r.left r.received ()).ret
          = some () := by
        rw [hrun]
      have hround : Spec grants own (do
          let v ← Blocks.handleRpc grants (p.inRound r) r.left r.received
          pure (t ++ v)) fun w own' => w = t ++ u
            ∧ ∃ values, own' = own + values
              ∧ values.card = (p.inRound r).decodes r.left r.received := by
        refine (Blocks.handleRpc_spec hmanaged hret).bind ?_
        rintro v own1 ⟨hv, hleft⟩
        refine Spec.pure ⟨?_, hleft⟩
        have hvu : v = u := congrArg Outcome.trace (hv.symm.trans hrun)
        rw [hvu]
      refine hround.bind ?_
      rintro w own1 ⟨hw, values, h1, hcard⟩
      refine (ih (fun q hq => hcallbacks q (List.mem_cons_of_mem r hq)) hrest w).weaken ?_
      rintro x own2 ⟨hx, more, h2, hmore⟩
      refine ⟨?_, values + more, ?_, ?_⟩
      · rw [hx, hw, List.append_assoc, after_trace]
      · rw [h2, h1, add_assoc]
      · rw [Multiset.card_add, hcard, hmore, List.map_cons, List.sum_cons]

end Rules

theorem filled_decodedArgs (heap : Nat → Ptr) {args : List (List UInt8)}
    (h : Encodable args) :
    filled (decodedArgs heap args) = args.countP (·.length ≠ 0) := by
  have hcount := congrArg (List.countP fun q : Nat × List UInt8 => q.1 ≠ 0)
    (decodedArgs_carries heap h)
  rw [List.countP_map, List.countP_map] at hcount
  refine Eq.trans (List.countP_congr fun v _ => ?_) hcount
  show decide (v.length ≠ 0) = true ↔ decide (v.length.toNat ≠ 0) = true
  rw [decide_eq_true_iff, decide_eq_true_iff, Ne, Ne, ← UInt32.toNat_inj]
  rfl

/-- Of a request that is delivered, these are the arguments with bytes. -/
theorem Process.decodes_request {p : Process} (left : Leftovers) {id : UInt32}
    {args : List (List UInt8)} {x : Managed}
    (hfound : p.findInterface id.toInt32 = some (some x))
    (hshort : (rpcEncoding id args).length ≤ MAX_PAYLOAD.toNat) :
    p.decodes left (some (userMessage (rpcEncoding id args)
        (UInt32.ofNat (rpcEncoding id args).length)))
      = args.countP (·.length ≠ 0) := by
  have hword : (UInt32.ofNat (rpcEncoding id args).length).toNat
      = (rpcEncoding id args).length :=
    UInt32.toNat_ofNat_of_lt' (Nat.lt_of_le_of_lt hshort (by decide))
  have henc : Encodable args := @encodable_of_length id args
    (Nat.lt_of_le_of_lt hshort (by decide))
  have hfits : UInt32.ofNat (rpcEncoding id args).length ≤ MAX_PAYLOAD := by
    rw [UInt32.le_iff_toNat_le, hword]
    exact hshort
  have hne : ¬ recvLength (some (rpcEncoding id args)) = 0 := by
    intro h0
    have hzero := congrArg UInt32.toNat h0
    rw [recvLength, hword, length_rpcEncoding] at hzero
    exact absurd hzero (by rw [UInt32.toNat_zero]; omega)
  have hm : Holds (receivedPacket left (some (rpcEncoding id args))) 0
      (rpcEncoding id args) := holds_store _ _
  rw [Process.decodes, netlinkRecvfromKern_userMessage left.stack hword (by decide),
    if_pos hfits]
  rw [if_neg hne, interfaceId_val hm, hfound, Lib.unserializeRpcPacket_val henc hm]
  exact filled_decodedArgs left.heap henc

/-- **THE MEMORY OF A PROCESS**: where the callbacks keep to their part and no round
    faults, the process goes on as if there were no heap, unless an allocation is denied
    and its NULL followed.  The blocks on its heap are then as many as the arguments with
    bytes that it decoded. -/
theorem rpc_blocks (grants : Nat → Nat → Bool) {p : Process} {rounds : List Round}
    (hcallbacks : ∀ r ∈ rounds, ∀ id, Allocates (r.callbacks id))
    (hret : (handleRpcLoop p rounds ()).ret = some ()) :
    (Blocks.handleRpcLoop grants p rounds Heap.empty = .error .null ∧ Denied grants)
      ∨ ∃ h, Blocks.handleRpcLoop grants p rounds Heap.empty
          = .ok ((handleRpcLoop p rounds ()).trace, h)
        ∧ h.live.card
          = (rounds.map fun r => (p.inRound r).decodes r.left r.received).sum := by
  rcases (Blocks.handleRpcLoop_spec hcallbacks hret []).whole with
    hnull | ⟨t, h, hrun, ht, values, hlive, hcard⟩
  · exact Or.inl hnull
  · rw [List.nil_append] at ht
    rw [zero_add] at hlive
    refine Or.inr ⟨h, ?_, ?_⟩
    · rw [← ht]
      exact hrun
    · rw [← hcard, ← hlive]
      rfl

/-- A process that manages one interface, which has one argument. -/
def Process.unary : Process :=
  ⟨42, [⟨1, 1, 1, fun _ results => (-1, results)⟩]⟩

/-- A request for it, on which the callback fails. -/
def Round.failing : Round where
  callbacks _ := fun _ results => (-1, results)
  left := ⟨fun _ => .null, fun _ => 0, fun _ => 0⟩
  received := some (userMessage (rpcEncoding 1 [[7]])
    (UInt32.ofNat (rpcEncoding 1 [[7]]).length))

theorem rpc_blocks_one : ∃ t h,
    Blocks.handleRpcLoop (fun _ _ => true) .unary [.failing] Heap.empty = .ok (t, h)
      ∧ h.live.card = 1 := by
  have hcallbacks : ∀ r ∈ [Round.failing], ∀ id, Allocates (r.callbacks id) := by
    intro r hr id argv retc
    rw [List.mem_singleton.mp hr]
    refine ⟨List.length_replicate, fun v hv a => ?_⟩
    rw [List.eq_of_mem_replicate hv]
    intro h
    cases h
  have hfound : (Process.unary.inRound .failing).findInterface (1 : UInt32).toInt32
      = some (some ⟨1, 1, 1, fun _ results => (-1, results)⟩) := rfl
  have hshort : (rpcEncoding 1 [[7]]).length ≤ MAX_PAYLOAD.toNat := by decide
  have hround : handleRpc (Process.unary.inRound .failing) Round.failing.left
      Round.failing.received ()
        = ⟨some (), (), [.call 1 (decodedArgs Round.failing.left.heap [[7]])]⟩ :=
    (handleRpc_found Round.failing.left hfound hshort).trans (if_pos rfl)
  have hret : (handleRpcLoop .unary [.failing] ()).ret = some () := by
    rw [handleRpcLoop, run_bind_some hround]
    rfl
  rcases rpc_blocks (fun _ _ => true) hcallbacks hret with ⟨-, hdenied⟩ | ⟨h, hrun, hcard⟩
  · obtain ⟨n, size, hfalse⟩ := hdenied
    exact Bool.noConfusion hfalse
  · refine ⟨_, h, hrun, hcard.trans ?_⟩
    exact congrArg (· + 0) (Process.decodes_request _ hfound hshort)

end DistComm
