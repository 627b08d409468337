import DistComm.Scan
import DistComm.Types

/-! # RPC packets

    `id||argc||arg0.len||arg0.value...`: the two encoders and the two decoders
    of `module/packet.c` and `lib/src/packet.c`.  The encoders append to a
    growing buffer and fail (`none`) when they would read or write outside of an
    allocated block; the decoders are scans of raw memory, since nothing in them
    looks at `packet_length`.

    `rpcEncoding` is the wire format on its own.  Both encoders produce it
    (`Kernel.serializeRpcPacket_iff`), both decoders parse it (`parses_rpcBody`),
    and the format theorem composes the two in both directions. -/

namespace DistComm

open RawMemory RawScan GrowBuffer

/-! ## The format -/

/-- `len||value`. -/
def encodeValue (v : List UInt8) : List UInt8 :=
  wordBytes (UInt32.ofNat v.length) ++ v

/-- `argc||arg0.len||arg0.value...`: what follows the id. -/
def rpcBody (values : List (List UInt8)) : List UInt8 :=
  wordBytes (UInt32.ofNat values.length) ++ values.flatMap encodeValue

/-- `id||argc||arg0.len||arg0.value...`. -/
def rpcEncoding (id : UInt32) (values : List (List UInt8)) : List UInt8 :=
  wordBytes id ++ rpcBody values

/-- The lengths and the count fit in the 32-bit words that carry them. -/
def Encodable (values : List (List UInt8)) : Prop :=
  values.length < 2 ^ 32 ∧ ∀ v ∈ values, v.length < 2 ^ 32

/-! ## Encoders -/

/-- One round of the loop of both encoders: the length word, and the value
    unless it is empty. -/
def serializeValue (copy : Buffer → List UInt8 → Option Buffer)
    (attrv : AttrValue) (b : Buffer) : Option Buffer := do
  let b ← copy b (wordBytes attrv.length)
  if attrv.length ≠ 0 then do
    let bytes ← attrv.addr.read attrv.length.toNat
    copy b bytes
  else pure b

/-- The loop of both encoders, from index `i` for `n` values. -/
def serializeValues (copy : Buffer → List UInt8 → Option Buffer)
    (values : List AttrValue) : Nat → Nat → Buffer → Option Buffer
  | _, 0, b => some b
  | i, n + 1, b => do
      let attrv ← values[i]?
      let b ← serializeValue copy attrv b
      serializeValues copy values (i + 1) n b

/-- `serialize_rpc_packet` of the kernel module. -/
def Kernel.serializeRpcPacket (id argc : UInt32) (values : List AttrValue) :
    Option (List UInt8) := do
  let buf ← Kernel.copyToBuffer (Buffer.ofSize BUFFER_INC_SIZE) (wordBytes id)
  let buf ← Kernel.copyToBuffer buf (wordBytes argc)
  let buf ← serializeValues Kernel.copyToBuffer values 0 argc.toNat buf
  pure buf.contents

/-- `serialize_rpc_packet` of the library: `int id, int argc`, and a `uint32_t`
    loop counter that `argc` is converted to. -/
def Lib.serializeRpcPacket (id argc : Int32) (values : List AttrValue) :
    Option (List UInt8) := do
  let buf ← Lib.copyToBuffer (Buffer.ofSize BUFFER_INC_SIZE)
    (wordBytes id.toUInt32)
  let buf ← Lib.copyToBuffer buf (wordBytes argc.toUInt32)
  let buf ← serializeValues Lib.copyToBuffer values 0 argc.toUInt32.toNat buf
  pure buf.contents

/-! ## Decoders -/

/-- `interface_id`: the `int` at the start of the packet. -/
def interfaceId : Scan Int32 := do
  let id ← word
  pure id.toInt32

/-- One round of a decoder loop; `unset` is what the freshly allocated
    `attrv[i].addr` holds before the loop. -/
def unserializeValue (unset : Ptr) : Scan AttrValue := do
  let length ← word
  if length ≠ 0 then do
    let addr ← bytes length.toNat
    pure ⟨length, .block addr⟩
  else pure ⟨length, unset⟩

/-- `unserialize_rpc_packet` of the kernel module: `attrc` and `attrv`.  The
    array comes from `kzalloc`, and `packet_length` is not looked at. -/
def Kernel.unserializeRpcPacket (_packetLength : UInt32) :
    Scan (UInt32 × List AttrValue) := do
  skip 4
  let attrc ← word
  let attrv ← loop (fun _ => unserializeValue .null) 0 attrc.toNat
  pure (attrc, attrv)

/-- `unserialize_rpc_packet` of the library: `*id_p`, `attrc` and `attrv`.  The
    array comes from `malloc`, with `heap i` in the address field of entry `i`;
    `packet_length` is not looked at. -/
def Lib.unserializeRpcPacket (heap : Nat → Ptr) (_packetLength : UInt32) :
    Scan (UInt32 × UInt32 × List AttrValue) := do
  let id ← word
  let attrc ← word
  let attrv ← loop (fun i => unserializeValue (heap i)) 0 attrc.toNat
  pure (id, attrc, attrv)

/-! ## Sizes of encodings -/

theorem length_encodeValue (v : List UInt8) :
    (encodeValue v).length = 4 + v.length := by
  unfold encodeValue
  rw [List.length_append, length_wordBytes]

/-- Every value takes at least four bytes. -/
theorem length_le_flatMap_encodeValue (values : List (List UInt8)) :
    4 * values.length ≤ (values.flatMap encodeValue).length := by
  induction values with
  | nil => exact Nat.le_refl 0
  | cons v vs ih =>
      rw [List.flatMap_cons, List.length_append, length_encodeValue,
        List.length_cons]
      omega

theorem length_mem_flatMap_encodeValue {values : List (List UInt8)}
    {v : List UInt8} (hv : v ∈ values) :
    4 + v.length ≤ (values.flatMap encodeValue).length := by
  induction values with
  | nil => exact nomatch hv
  | cons w vs ih =>
      rw [List.flatMap_cons, List.length_append, length_encodeValue]
      rcases List.mem_cons.mp hv with heq | hmem
      · rw [heq]
        omega
      · have := ih hmem
        omega

theorem length_rpcBody (values : List (List UInt8)) :
    (rpcBody values).length = 4 + (values.flatMap encodeValue).length := by
  unfold rpcBody
  rw [List.length_append, length_wordBytes]

theorem length_rpcEncoding (id : UInt32) (values : List (List UInt8)) :
    (rpcEncoding id values).length
      = 8 + (values.flatMap encodeValue).length := by
  unfold rpcEncoding
  rw [List.length_append, length_wordBytes, length_rpcBody]
  omega

theorem rpcBody_ne_nil (values : List (List UInt8)) : rpcBody values ≠ [] :=
  List.cons_ne_nil _ _

/-- A packet below `2 ^ 32` bytes has counts and lengths that fit. -/
theorem encodable_of_length {id : UInt32} {values : List (List UInt8)}
    (h : (rpcEncoding id values).length < 2 ^ 32) : Encodable values := by
  rw [length_rpcEncoding] at h
  refine ⟨?_, fun v hv => ?_⟩
  · have := length_le_flatMap_encodeValue values
    omega
  · have := length_mem_flatMap_encodeValue hv
    omega

/-! ## Both encoders produce the format -/

/-- What the callers of an encoder have to provide: blocks that reach as far as
    the lengths say, and values that one growth step can hold. -/
def Sendable (v : AttrValue) : Prop :=
  v.Valid ∧ v.length.toNat ≤ BUFFER_INC_SIZE.toNat

/-- The bytes of one round of the encoder loop. -/
theorem encodeValue_value {v : AttrValue} (hv : v.Valid) :
    encodeValue v.value = wordBytes v.length ++ v.value := by
  unfold encodeValue
  rw [AttrValue.length_value hv, UInt32.ofNat_toNat]

/-- What one round of the loop of both encoders copies. -/
def valuePieces (v : AttrValue) : List (List UInt8) :=
  if v.length ≠ 0 then [wordBytes v.length, v.value] else [wordBytes v.length]

/-- What both encoders copy, one piece after the other. -/
def rpcPieces (id argc : UInt32) (values : List AttrValue) : List (List UInt8) :=
  wordBytes id :: wordBytes argc :: values.flatMap valuePieces

theorem flatten_valuePieces {v : AttrValue} (hv : v.Valid) :
    (valuePieces v).flatten = encodeValue v.value := by
  rw [encodeValue_value hv, valuePieces]
  by_cases h0 : v.length = 0
  · have hnil : v.value = [] := by
      apply List.length_eq_zero_iff.mp
      rw [AttrValue.length_value hv, h0]
      rfl
    rw [if_neg (not_not_intro h0), hnil]
    rfl
  · simp only [ne_eq, h0, not_false_eq_true, if_true, List.flatten_cons,
      List.flatten_nil, List.append_nil]

theorem flatten_rpcPieces {id argc : UInt32} {values : List AttrValue}
    (hargc : argc.toNat = values.length) (hv : ∀ v ∈ values, v.Valid) :
    (rpcPieces id argc values).flatten
      = rpcEncoding id (values.map AttrValue.value) := by
  have hcount : argc = UInt32.ofNat (values.map AttrValue.value).length := by
    rw [List.length_map, ← hargc, UInt32.ofNat_toNat]
  have hvalues : (values.flatMap valuePieces).flatten
      = (values.map AttrValue.value).flatMap encodeValue := by
    rw [flatten_flatMap, List.flatMap_map]
    exact List.flatMap_congr fun v h => flatten_valuePieces (hv v h)
  rw [rpcPieces, List.flatten_cons, List.flatten_cons, hvalues, hcount]
  rfl

/-- A round over a valid value copies its pieces. -/
theorem serializeValue_pieces {inc : UInt32} {v : AttrValue} (hv : v.Valid)
    (b : Buffer) :
    serializeValue (append inc) v b = (valuePieces v).foldlM (append inc) b := by
  rw [serializeValue, valuePieces]
  by_cases h0 : v.length = 0
  · simp only [ne_eq, h0, not_true_eq_false, if_false, List.foldlM_cons,
      List.foldlM_nil]
  · simp only [ne_eq, h0, not_false_eq_true, if_true, AttrValue.read_addr hv h0,
      List.foldlM_cons, List.foldlM_nil, Option.bind_eq_bind, Option.bind_some,
      Option.pure_def, Option.bind_fun_some]

/-- The loop copies the pieces of the values from index `i` on. -/
theorem serializeValues_pieces {inc : UInt32} {values : List AttrValue}
    (hv : ∀ v ∈ values, v.Valid) (n i : Nat) (hn : i + n = values.length)
    (b : Buffer) :
    serializeValues (append inc) values i n b
      = ((values.drop i).flatMap valuePieces).foldlM (append inc) b := by
  induction n generalizing i b with
  | zero =>
      rw [List.drop_eq_nil_of_le (by omega)]
      rfl
  | succ n ih =>
      have hi : i < values.length := by omega
      have hstep := fun b => ih (i + 1) (by omega) b
      rw [List.drop_eq_getElem_cons hi, List.flatMap_cons, List.foldlM_append,
        ← serializeValue_pieces (hv _ (List.getElem_mem hi)), serializeValues,
        List.getElem?_eq_getElem hi]
      simp only [Option.bind_eq_bind, Option.bind_some, hstep]

/-- The library's encoder runs as the kernel's does. -/
theorem Lib.serializeRpcPacket_eq (id argc : Int32) (values : List AttrValue) :
    Lib.serializeRpcPacket id argc values
      = Kernel.serializeRpcPacket id.toUInt32 argc.toUInt32 values := rfl

theorem Kernel.serializeRpcPacket_pieces {id argc : UInt32}
    {values : List AttrValue} (hargc : argc.toNat = values.length)
    (hv : ∀ v ∈ values, v.Valid) :
    Kernel.serializeRpcPacket id argc values
      = ((rpcPieces id argc values).foldlM (append BUFFER_INC_SIZE)
          (Buffer.ofSize BUFFER_INC_SIZE)).map Buffer.contents := by
  have hcopy : Kernel.copyToBuffer = append BUFFER_INC_SIZE := rfl
  simp only [Kernel.serializeRpcPacket, hcopy, rpcPieces,
    List.foldlM_cons, serializeValues_pieces hv argc.toNat 0 (by omega),
    List.drop_zero, Option.bind_eq_bind, Option.map_bind, Option.pure_def,
    Function.comp_def]
  refine Option.bind_congr fun _ _ => Option.bind_congr fun _ _ => ?_
  exact Option.map_eq_bind.symm

/-- The lengths of what is copied, of any values. -/
def rpcLengths (values : List AttrValue) : List UInt32 :=
  4 :: 4 :: values.flatMap fun v => if v.length ≠ 0 then [4, v.length] else [4]

theorem length_rpcPieces {id argc : UInt32} {values : List AttrValue}
    (hv : ∀ v ∈ values, v.Valid) :
    (rpcPieces id argc values).map List.length
      = (rpcLengths values).map UInt32.toNat := by
  have hvalues : (values.flatMap valuePieces).map List.length
      = (values.flatMap fun v =>
          if v.length ≠ 0 then [4, v.length] else [4]).map UInt32.toNat := by
    rw [List.map_flatMap, List.map_flatMap]
    refine List.flatMap_congr fun v hmem => ?_
    rw [valuePieces]
    by_cases h0 : v.length = 0
    · rw [if_neg (not_not_intro h0), if_neg (not_not_intro h0)]
      rfl
    · rw [if_pos h0, if_pos h0, List.map_cons, List.map_cons,
        AttrValue.length_value (hv v hmem)]
      rfl
  rw [rpcPieces, rpcLengths, List.map_cons, List.map_cons, List.map_cons,
    List.map_cons, hvalues]
  rfl

/-- **THE ENCODER** writes the encoding of valid values exactly if their pieces fit
    the growing buffer. -/
theorem Kernel.serializeRpcPacket_iff {id argc : UInt32} {values : List AttrValue}
    (hargc : argc.toNat = values.length) (hv : ∀ v ∈ values, v.Valid) :
    Kernel.serializeRpcPacket id argc values
        = some (rpcEncoding id (values.map AttrValue.value))
      ↔ PiecesFit BUFFER_INC_SIZE.toNat 0
          ((rpcLengths values).map UInt32.toNat) := by
  have hiff := fresh_appends_iff (rpcPieces id argc values)
  rw [length_rpcPieces hv] at hiff
  rw [← hiff, Kernel.serializeRpcPacket_pieces hargc hv]
  constructor
  · intro h
    obtain ⟨b, hb, -⟩ := Option.map_eq_some_iff.mp h
    exact ⟨b, hb⟩
  · rintro ⟨b, hb⟩
    rw [hb, Option.map_some, appends_contents _ hb, flatten_rpcPieces hargc hv]
    rfl

/-- Sendable values fit if their encoding does. -/
theorem Kernel.serializeRpcPacket_ok {id argc : UInt32}
    {values : List AttrValue} (hargc : argc.toNat = values.length)
    (hv : ∀ v ∈ values, Sendable v)
    (hsum : (rpcEncoding id (values.map AttrValue.value)).length
      + BUFFER_INC_SIZE.toNat < 2 ^ 32) :
    Kernel.serializeRpcPacket id argc values
      = some (rpcEncoding id (values.map AttrValue.value)) := by
  have hvalid : ∀ v ∈ values, v.Valid := fun v h => (hv v h).1
  refine (Kernel.serializeRpcPacket_iff hargc hvalid).mpr
    ((piecesFit_below_limit ?_).mpr ?_)
  · intro k hk
    obtain ⟨n, hn, rfl⟩ := List.mem_map.mp hk
    have hfour : (4 : UInt32).toNat ≤ BUFFER_INC_SIZE.toNat := by decide
    rcases List.mem_cons.mp hn with rfl | hn
    · exact hfour
    rcases List.mem_cons.mp hn with rfl | hn
    · exact hfour
    obtain ⟨v, hmem, hn⟩ := List.mem_flatMap.mp hn
    by_cases h0 : v.length = 0
    · rw [if_neg (not_not_intro h0)] at hn
      rw [List.mem_singleton.mp hn]
      exact hfour
    · rw [if_pos h0] at hn
      rcases List.mem_cons.mp hn with rfl | hn
      · exact hfour
      · rw [List.mem_singleton.mp hn]
        exact (hv v hmem).2
  · have hlen := congrArg List.length
      (@flatten_rpcPieces id argc values hargc hvalid)
    rw [List.length_flatten, length_rpcPieces hvalid] at hlen
    rw [hlen]
    omega

theorem Lib.serializeRpcPacket_ok {id argc : Int32}
    {values : List AttrValue} (hargc : argc.toUInt32.toNat = values.length)
    (hv : ∀ v ∈ values, Sendable v)
    (hsum : (rpcEncoding id.toUInt32 (values.map AttrValue.value)).length
      + BUFFER_INC_SIZE.toNat < 2 ^ 32) :
    Lib.serializeRpcPacket id argc values
      = some (rpcEncoding id.toUInt32 (values.map AttrValue.value)) :=
  Kernel.serializeRpcPacket_ok hargc hv hsum

/-- A round that is not stopped read its value. -/
theorem serializeValue_valid {inc : UInt32} {v : AttrValue} {b b' : Buffer}
    (h : serializeValue (append inc) v b = some b') : v.Valid := by
  by_cases h0 : v.length = 0
  · exact Or.inl h0
  · obtain ⟨b1, -, h2⟩ := Option.bind_eq_some_iff.mp h
    rw [if_pos h0] at h2
    obtain ⟨bs, hread, -⟩ := Option.bind_eq_some_iff.mp h2
    exact AttrValue.valid_of_read hread

theorem serializeValues_valid {inc : UInt32} {values : List AttrValue} (n i : Nat)
    (hn : i + n = values.length) {b b' : Buffer}
    (h : serializeValues (append inc) values i n b = some b') :
    ∀ v ∈ values.drop i, v.Valid := by
  induction n generalizing i b with
  | zero =>
      rw [List.drop_eq_nil_of_le (by omega)]
      exact fun v hv => absurd hv List.not_mem_nil
  | succ n ih =>
      have hi : i < values.length := by omega
      rw [serializeValues, List.getElem?_eq_getElem hi, Option.bind_eq_bind,
        Option.bind_some] at h
      obtain ⟨b1, h1, h2⟩ := Option.bind_eq_some_iff.mp h
      intro v hv
      rw [List.drop_eq_getElem_cons hi] at hv
      rcases List.mem_cons.mp hv with rfl | hmem
      · exact serializeValue_valid h1
      · exact ih (i + 1) (by omega) h2 v hmem

/-- **WHAT IS ENCODED**: a packet that an encoder makes of as many values as it is
    told is the encoding of these values, all of them valid. -/
theorem Kernel.serializeRpcPacket_some {id argc : UInt32} {values : List AttrValue}
    (hargc : argc.toNat = values.length) {packet : List UInt8}
    (h : Kernel.serializeRpcPacket id argc values = some packet) :
    packet = rpcEncoding id (values.map AttrValue.value)
      ∧ ∀ v ∈ values, v.Valid := by
  have hvalid : ∀ v ∈ values, v.Valid := by
    rw [Kernel.serializeRpcPacket, Option.bind_eq_bind] at h
    obtain ⟨_, -, h1⟩ := Option.bind_eq_some_iff.mp h
    obtain ⟨_, -, h2⟩ := Option.bind_eq_some_iff.mp h1
    obtain ⟨_, h3, -⟩ := Option.bind_eq_some_iff.mp h2
    exact serializeValues_valid argc.toNat 0 (by omega) h3
  rw [Kernel.serializeRpcPacket_pieces hargc hvalid] at h
  obtain ⟨b, hb, rfl⟩ := Option.map_eq_some_iff.mp h
  rw [appends_contents _ hb, flatten_rpcPieces hargc hvalid]
  exact ⟨rfl, hvalid⟩

/-! ## What any packet of an encoder begins with -/

theorem serializeValue_extends {inc : UInt32} {v : AttrValue} {b b' : Buffer}
    (h : serializeValue (append inc) v b = some b') :
    b.contents <+: b'.contents := by
  obtain ⟨b1, h1, h2⟩ := Option.bind_eq_some_iff.mp h
  have hpre : b.contents <+: b1.contents := by
    rw [append_contents h1]
    exact List.prefix_append _ _
  by_cases h0 : v.length ≠ 0
  · rw [if_pos h0] at h2
    obtain ⟨bs, -, h3⟩ := Option.bind_eq_some_iff.mp h2
    refine hpre.trans ?_
    rw [append_contents h3]
    exact List.prefix_append _ _
  · rw [if_neg h0] at h2
    rw [← Option.some.inj h2]
    exact hpre

theorem serializeValues_extends {inc : UInt32} {values : List AttrValue}
    (n i : Nat) {b b' : Buffer}
    (h : serializeValues (append inc) values i n b = some b') :
    b.contents <+: b'.contents := by
  induction n generalizing i b with
  | zero =>
      cases Option.some.inj h
      exact List.prefix_refl _
  | succ n ih =>
      obtain ⟨v, -, h1⟩ := Option.bind_eq_some_iff.mp h
      obtain ⟨b1, h2, h3⟩ := Option.bind_eq_some_iff.mp h1
      exact (serializeValue_extends h2).trans (ih (i + 1) h3)

/-- Whatever values it is given, the library encodes a packet that begins with the
    id, and whose length a word holds. -/
theorem Lib.serializeRpcPacket_id {id argc : Int32} {values : List AttrValue}
    {packet : List UInt8}
    (h : Lib.serializeRpcPacket id argc values = some packet) :
    wordBytes id.toUInt32 <+: packet ∧ packet.length < 2 ^ 32 := by
  simp only [Lib.serializeRpcPacket, Option.bind_eq_bind,
    Option.bind_eq_some_iff] at h
  obtain ⟨b1, h1, b2, h2, b3, h3, h⟩ := h
  rw [← Option.some.inj h]
  refine ⟨?_, Nat.lt_of_le_of_lt b3.fits b3.maxSize.toNat_lt⟩
  refine List.IsPrefix.trans ?_ (serializeValues_extends _ _ h3)
  rw [append_contents h2, append_contents h1, ofSize_contents, List.nil_append]
  exact List.prefix_append _ _

/-! ## Both decoders parse the format -/

/-- What a decoder builds from a value: a fresh copy of its bytes, or, for an
    empty value, whatever the address field held. -/
def decodedValue (unset : Ptr) (v : List UInt8) : AttrValue :=
  ⟨UInt32.ofNat v.length, if v.length = 0 then unset else .block v⟩

/-- The value part behind a length word. -/
theorem parses_valueOfLength (unset : Ptr) (w : UInt32) :
    Parses (if w ≠ 0 then do
        let addr ← bytes w.toNat
        pure ⟨w, .block addr⟩
      else pure ⟨w, unset⟩ : Scan AttrValue)
      (fun v => v.length = w.toNat) (fun v => v)
      (fun v => ⟨w, if v.length = 0 then unset else .block v⟩) := by
  by_cases h0 : w = 0
  · rw [if_neg (not_not_intro h0), h0]
    -- the length is 0, and nothing is read for the value
    refine ⟨fun v hv => ?_, fun m pos => ⟨[], rfl, holds_nil m pos⟩⟩
    rw [List.length_eq_zero_iff.mp hv]
    exact Consumes.pure _
  · rw [if_pos h0]
    have hp := (parses_bytes w.toNat).map (fun bs => (⟨w, .block bs⟩ : AttrValue))
    refine ⟨fun v hv => ?_, hp.sound⟩
    have hne : v.length ≠ 0 := by
      rw [hv]
      exact fun hz => h0 (UInt32.toNat_inj.mp hz)
    have hc := hp.complete v hv
    rw [if_neg hne]
    exact hc

/-- One round of a decoder loop parses `len||value`. -/
theorem parses_unserializeValue (unset : Ptr) :
    Parses (unserializeValue unset) (fun v => v.length < 2 ^ 32) encodeValue
      (decodedValue unset) := by
  have h := parses_word.bind
    (fun (w : UInt32) _ => parses_valueOfLength unset w)
  refine h.reindex (fun v => v.length < 2 ^ 32)
    (fun v => (UInt32.ofNat v.length, v)) ?_ ?_
  · intro v hv
    exact ⟨trivial, (UInt32.toNat_ofNat_of_lt' hv).symm⟩
  · rintro ⟨w, v⟩ ⟨-, hv⟩
    have hv' : v.length = w.toNat := hv
    refine ⟨v, by rw [hv']; exact w.toNat_lt, ?_⟩
    rw [hv', UInt32.ofNat_toNat]

/-- The count word and the loop, as both decoders run them. -/
theorem parses_rpcBody (unset : Nat → Ptr) :
    Parses (do
        let attrc ← word
        let attrv ← loop (fun i => unserializeValue (unset i)) 0 attrc.toNat
        pure (attrc, attrv))
      Encodable rpcBody
      (fun vs => (UInt32.ofNat vs.length,
        valuesFrom (fun i => decodedValue (unset i)) 0 vs)) := by
  have h := parses_word.bind (fun (w : UInt32) _ =>
    (parses_loop (fun i => parses_unserializeValue (unset i)) w.toNat 0).map
      (fun attrv => (w, attrv)))
  refine h.reindex Encodable (fun vs => (UInt32.ofNat vs.length, vs)) ?_ ?_
  · rintro vs ⟨hlen, hvs⟩
    exact ⟨trivial, (UInt32.toNat_ofNat_of_lt' hlen).symm, hvs⟩
  · rintro ⟨w, vs⟩ ⟨-, hlen, hvs⟩
    have hlen' : vs.length = w.toNat := hlen
    refine ⟨vs, ⟨by rw [hlen']; exact w.toNat_lt, hvs⟩, ?_⟩
    rw [hlen', UInt32.ofNat_toNat]

/-- The library decoder parses the whole packet, the id included. -/
theorem Lib.parses_unserializeRpcPacket (heap : Nat → Ptr) (len : UInt32) :
    Parses (Lib.unserializeRpcPacket heap len)
      (fun p : UInt32 × List (List UInt8) => Encodable p.2)
      (fun p => rpcEncoding p.1 p.2)
      (fun p => (p.1, UInt32.ofNat p.2.length,
        valuesFrom (fun i => decodedValue (heap i)) 0 p.2)) := by
  have h := parses_word.bind
    (fun (id : UInt32) _ => (parses_rpcBody heap).map (fun r => (id, r)))
  -- the decoder is one sequence, the format is nested
  simp only [bind_assoc, pure_bind] at h
  refine ⟨fun p hp => ?_, fun m pos => ?_⟩
  · exact h.complete p ⟨trivial, hp⟩
  · obtain ⟨p, ⟨-, hp⟩, hE⟩ := h.sound m pos
    exact ⟨p, hp, hE⟩

/-- The kernel decoder is the loop four bytes into the packet: it steps over
    the id without reading it. -/
theorem Kernel.run_unserializeRpcPacket (len : UInt32) (m : Mem) (pos : Nat) :
    Kernel.unserializeRpcPacket len m pos
      = (do
          let attrc ← word
          let attrv ← loop (fun _ => unserializeValue .null) 0 attrc.toNat
          pure (attrc, attrv)) m (pos + 4) :=
  run_skip_bind 4 _ m pos

theorem decodedValue_value (unset : Ptr) {v : List UInt8}
    (h : v.length < 2 ^ 32) : (decodedValue unset v).value = v := by
  by_cases h0 : v.length = 0
  · rw [List.length_eq_zero_iff.mp h0]
    cases unset <;> rfl
  · rw [show decodedValue unset v = AttrValue.ofBytes v from by
      rw [decodedValue, if_neg h0]; rfl]
    exact AttrValue.value_ofBytes h

theorem decodedValue_valid (unset : Ptr) (v : List UInt8) :
    (decodedValue unset v).Valid := by
  by_cases h0 : v.length = 0
  · refine Or.inl ?_
    show UInt32.ofNat v.length = 0
    rw [h0]
    rfl
  · rw [show decodedValue unset v = AttrValue.ofBytes v from by
      rw [decodedValue, if_neg h0]; rfl]
    exact AttrValue.valid_ofBytes v

theorem map_value_valuesFrom (unset : Nat → Ptr) {vs : List (List UInt8)}
    (h : Encodable vs) :
    (valuesFrom (fun i => decodedValue (unset i)) 0 vs).map AttrValue.value
      = vs := by
  have hmap := map_valuesFrom (fun i => decodedValue (unset i)) AttrValue.value
    (fun v => v) vs (fun i v hv => decodedValue_value (unset i) (h.2 v hv)) 0
  rw [hmap, List.map_id']

theorem valid_valuesFrom (unset : Nat → Ptr) (vs : List (List UInt8)) (i : Nat) :
    ∀ v ∈ valuesFrom (fun i => decodedValue (unset i)) i vs, v.Valid := by
  induction vs generalizing i with
  | nil => intro v hv; exact nomatch hv
  | cons w vs ih =>
      intro v hv
      rcases List.mem_cons.mp hv with heq | hmem
      · rw [heq]
        exact decodedValue_valid (unset i) w
      · exact ih (i + 1) v hmem

/-! ## The wire format of RPC packets -/

/-- Decoding what an encoder wrote, whatever follows it. -/
theorem Kernel.unserializeRpcPacket_val {id : UInt32} {vs : List (List UInt8)}
    (h : Encodable vs) {m : Mem} {pos : Nat}
    (hm : Holds m pos (rpcEncoding id vs)) (len : UInt32) :
    (Kernel.unserializeRpcPacket len m pos).val
      = (UInt32.ofNat vs.length,
          valuesFrom (fun _ => decodedValue .null) 0 vs) := by
  rw [Kernel.run_unserializeRpcPacket]
  exact (parses_rpcBody (fun _ => .null)).roundTrip h (holds_append.mp hm).2

theorem interfaceId_val {id : UInt32} {vs : List (List UInt8)} {m : Mem}
    {pos : Nat} (hm : Holds m pos (rpcEncoding id vs)) :
    (interfaceId m pos).val = id.toInt32 := by
  show (wordAt m pos).toInt32 = id.toInt32
  rw [wordAt_of_holds (holds_append.mp hm).1]

theorem Lib.unserializeRpcPacket_val {id : UInt32} {vs : List (List UInt8)}
    (h : Encodable vs) {m : Mem} {pos : Nat}
    (hm : Holds m pos (rpcEncoding id vs)) (heap : Nat → Ptr) (len : UInt32) :
    (Lib.unserializeRpcPacket heap len m pos).val
      = (id, UInt32.ofNat vs.length,
          valuesFrom (fun i => decodedValue (heap i)) 0 vs) :=
  (Lib.parses_unserializeRpcPacket heap len).roundTrip
    (a := (id, vs)) h hm

/-- Encoding decoded values gives back the bytes they were decoded from. -/
theorem serialize_decoded {id : UInt32} {vs : List (List UInt8)} {m : Mem}
    (unset : Nat → Ptr) (h : Encodable vs) (hm : Holds m 0 (rpcEncoding id vs))
    (hlen : (rpcEncoding id vs).length < 2 ^ 31)
    (hle : ∀ v ∈ valuesFrom (fun i => decodedValue (unset i)) 0 vs,
      v.length.toNat ≤ BUFFER_INC_SIZE.toNat) :
    let argc := UInt32.ofNat vs.length
    let attrv := valuesFrom (fun i => decodedValue (unset i)) 0 vs
    let consumed := some (slice m 0 (rpcEncoding id vs).length)
    Kernel.serializeRpcPacket id argc attrv = consumed
      ∧ Lib.serializeRpcPacket id.toInt32 argc.toInt32 attrv = consumed := by
  have hargc : (UInt32.ofNat vs.length).toNat
      = (valuesFrom (fun i => decodedValue (unset i)) 0 vs).length := by
    rw [length_valuesFrom, UInt32.toNat_ofNat_of_lt' h.1]
  have hsend : ∀ v ∈ valuesFrom (fun i => decodedValue (unset i)) 0 vs,
      Sendable v :=
    fun v hv => ⟨valid_valuesFrom unset vs 0 v hv, hle v hv⟩
  have hsum : (rpcEncoding id ((valuesFrom (fun i => decodedValue (unset i))
      0 vs).map AttrValue.value)).length + BUFFER_INC_SIZE.toNat < 2 ^ 32 := by
    rw [map_value_valuesFrom unset h]
    have : BUFFER_INC_SIZE.toNat = 65536 := rfl
    omega
  have hkernel := Kernel.serializeRpcPacket_ok hargc hsend hsum
  have hlib : Lib.serializeRpcPacket id.toInt32
      (UInt32.ofNat vs.length).toInt32
      (valuesFrom (fun i => decodedValue (unset i)) 0 vs) = some _ :=
    Lib.serializeRpcPacket_ok hargc hsend hsum
  rw [map_value_valuesFrom unset h] at hkernel hlib
  show Kernel.serializeRpcPacket _ _ _ = some (slice m 0 _)
    ∧ Lib.serializeRpcPacket _ _ _ = some (slice m 0 _)
  -- the consumed prefix is the encoding that the memory holds
  rw [hm]
  exact ⟨hkernel, hlib⟩

/-- If the kernel decoder's reads stay inside the packet and its values fit one
    growth step, then encoding what it returned, with the id of `interface_id`,
    gives back the prefix it consumed. -/
def Kernel.Reencodes (m : Mem) (packetLength : UInt32) : Prop :=
  let r := Kernel.unserializeRpcPacket packetLength m 0
  let id := (interfaceId m 0).val
  let consumed := some (slice m 0 r.next)
  InBounds r.reads packetLength.toNat →
  (∀ v ∈ r.val.2, v.length.toNat ≤ BUFFER_INC_SIZE.toNat) →
    Kernel.serializeRpcPacket id.toUInt32 r.val.1 r.val.2 = consumed
    ∧ Lib.serializeRpcPacket id r.val.1.toInt32 r.val.2 = consumed

/-- The same for the library decoder, which returns the id itself. -/
def Lib.Reencodes (heap : Nat → Ptr) (m : Mem) (packetLength : UInt32) : Prop :=
  let r := Lib.unserializeRpcPacket heap packetLength m 0
  let consumed := some (slice m 0 r.next)
  InBounds r.reads packetLength.toNat →
  (∀ v ∈ r.val.2.2, v.length.toNat ≤ BUFFER_INC_SIZE.toNat) →
    Kernel.serializeRpcPacket r.val.1 r.val.2.1 r.val.2.2 = consumed
    ∧ Lib.serializeRpcPacket r.val.1.toInt32 r.val.2.1.toInt32 r.val.2.2
      = consumed

theorem Kernel.reencodes {m : Mem} {packetLength : UInt32}
    (hlen : packetLength.toNat < 2 ^ 31) :
    Kernel.Reencodes m packetLength := by
  intro hin hle
  rw [Kernel.run_unserializeRpcPacket] at hin hle ⊢
  obtain ⟨vs, henc, hbody, hend, hval, hnext⟩ :=
    (parses_rpcBody (fun _ => .null)).consumed
      (fun vs _ => rpcBody_ne_nil vs) hin
  -- the id is not read by the decoder, but `interface_id` reads it
  have hm : Holds m 0 (rpcEncoding (wordAt m 0) vs) :=
    holds_append.mpr ⟨holds_wordAt m 0, hbody⟩
  have hsize : (rpcEncoding (wordAt m 0) vs).length
      = 0 + 4 + (rpcBody vs).length := by
    rw [rpcEncoding, List.length_append, length_wordBytes]
  have hlen' : (rpcEncoding (wordAt m 0) vs).length < 2 ^ 31 := by omega
  rw [hval] at hle ⊢
  rw [hnext, ← hsize]
  exact serialize_decoded (fun _ => .null) henc hm hlen' hle

theorem Lib.reencodes {heap : Nat → Ptr} {m : Mem} {packetLength : UInt32}
    (hlen : packetLength.toNat < 2 ^ 31) :
    Lib.Reencodes heap m packetLength := by
  intro hin hle
  obtain ⟨⟨id, vs⟩, henc, hm, hend, hval, hnext⟩ :=
    (Lib.parses_unserializeRpcPacket heap packetLength).consumed
      (fun p _ => List.cons_ne_nil _ _) hin
  rw [Nat.zero_add] at hend hnext
  have hlen' : (rpcEncoding id vs).length < 2 ^ 31 :=
    Nat.lt_of_le_of_lt hend hlen
  rw [hval] at hle ⊢
  rw [hnext]
  exact serialize_decoded heap henc hm hlen' hle

/-- **RPC WIRE FORMAT**.  The two encoders write the same packet; both decoders,
    on this packet followed by anything, return the count and the values in
    order, with `interface_id` and `*id_p` the id.  Conversely, when a decoder's
    reads stay inside a byte string below `2 ^ 31` bytes and its values are at
    most `BUFFER_INC_SIZE` long, encoding what it returned gives back the prefix
    it consumed. -/
theorem rpc_wire_format :
    (∀ (id : UInt32) (values : List AttrValue) (trailing : List UInt8)
        (behind : Mem) (packetLength : UInt32) (heap : Nat → Ptr),
      (∀ v ∈ values, Sendable v) →
      (rpcEncoding id (values.map AttrValue.value)).length < 2 ^ 31 →
      ∃ packet,
        Kernel.serializeRpcPacket id (UInt32.ofNat values.length) values
          = some packet
        ∧ Lib.serializeRpcPacket id.toInt32
            (UInt32.ofNat values.length).toInt32 values = some packet
        ∧ let m := overlay (packet ++ trailing) behind
          let kernel := (Kernel.unserializeRpcPacket packetLength m 0).val
          let lib := (Lib.unserializeRpcPacket heap packetLength m 0).val
          kernel.1.toNat = values.length
          ∧ kernel.2.map AttrValue.value = values.map AttrValue.value
          ∧ (interfaceId m 0).val.toUInt32 = id
          ∧ lib.1 = id
          ∧ lib.2.1.toNat = values.length
          ∧ lib.2.2.map AttrValue.value = values.map AttrValue.value)
    ∧ (∀ (m : Mem) (packetLength : UInt32) (heap : Nat → Ptr),
      packetLength.toNat < 2 ^ 31 →
      Kernel.Reencodes m packetLength ∧ Lib.Reencodes heap m packetLength) := by
  refine ⟨?_, ?_⟩
  · intro id values trailing behind packetLength heap hsend hlen
    have henc : Encodable (values.map AttrValue.value) :=
      encodable_of_length (Nat.lt_trans hlen (by decide))
    have hcount : values.length < 2 ^ 32 := by
      have h := henc.1
      rwa [List.length_map] at h
    have hargc := UInt32.toNat_ofNat_of_lt' hcount
    have hsum : (rpcEncoding id (values.map AttrValue.value)).length
        + BUFFER_INC_SIZE.toNat < 2 ^ 32 := by
      have : BUFFER_INC_SIZE.toNat = 65536 := rfl
      omega
    refine ⟨rpcEncoding id (values.map AttrValue.value),
      Kernel.serializeRpcPacket_ok hargc hsend hsum,
      Lib.serializeRpcPacket_ok hargc hsend hsum, ?_⟩
    have hm := (holds_overlay_append
      (rpcEncoding id (values.map AttrValue.value)) trailing behind).1
    intro m kernel lib
    have hkernel : kernel = _ :=
      Kernel.unserializeRpcPacket_val henc hm packetLength
    have hlib : lib = _ :=
      Lib.unserializeRpcPacket_val henc hm heap packetLength
    have hid : (interfaceId m 0).val = id.toInt32 := interfaceId_val hm
    rw [hkernel, hlib, hid]
    refine ⟨?_, map_value_valuesFrom _ henc, rfl, rfl, ?_,
      map_value_valuesFrom _ henc⟩
    · rw [List.length_map]
      exact hargc
    · rw [List.length_map]
      exact hargc
  · intro m packetLength heap hlen
    exact ⟨Kernel.reencodes hlen, Lib.reencodes hlen⟩

/-- Two values, one of them empty, and a trailing byte. -/
theorem rpc_wire_format_two :
    ∃ packet,
      Kernel.serializeRpcPacket 7 2
        [AttrValue.ofBytes [104, 105], ⟨0, .null⟩] = some packet
      ∧ (Lib.unserializeRpcPacket (fun i => .stale i) 19
          (overlay (packet ++ [255]) (fun _ => 0)) 0).val.1 = 7 := by
  obtain ⟨packet, hkernel, -, -, -, -, hid, -⟩ := rpc_wire_format.1 7
    [AttrValue.ofBytes [104, 105], ⟨0, .null⟩] [255] (fun _ => 0) 19
    (fun i => .stale i)
    (by
      intro v hv
      rcases List.mem_cons.mp hv with heq | hmem
      · rw [heq]
        exact ⟨AttrValue.valid_ofBytes _, by decide⟩
      · rw [List.mem_singleton.mp hmem]
        exact ⟨Or.inl rfl, by decide⟩)
    (by decide)
  exact ⟨packet, hkernel, hid⟩

end DistComm
