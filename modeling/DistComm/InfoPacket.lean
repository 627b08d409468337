import DistComm.Interface

/-! # Interface description packets

    `id||name||desc||argc||arg0desc...||retc||ret0desc...`: the encoder and the
    decoder of `module/packet.c`.  The encoder has two ways to stop early: a NULL
    string makes it return -1, and an access outside of an array or of the buffer
    is a fault.

    The encoder's second loop runs over the descriptions of the results with the
    number of arguments, so that a description travels only where the two are the
    same (`info_travels_iff`). -/

namespace DistComm

open RawMemory RawScan GrowBuffer

/-- Why an encoder stopped. -/
inductive Stop where
  | fault
  | error (code : Int32)
  deriving DecidableEq, Repr

/-- `copy_to_buffer`, for an encoder that can return an error. -/
def copyOrFault (buf : Buffer) (src : List UInt8) : Except Stop Buffer :=
  match Kernel.copyToBuffer buf src with
  | some buf => .ok buf
  | none => .error .fault

/-- A string with its terminator; NULL is refused. -/
def serializeString (string : Option CString) (buf : Buffer) :
    Except Stop Buffer :=
  match string with
  | none => .error (.error (-1))
  | some s => copyOrFault buf (s.bytes ++ [0])

/-- Both loops of `serialize_interface_info`, from index `i` for `n` entries. -/
def serializeAttrInfos (info : List AttrInfo) :
    Nat → Nat → Buffer → Except Stop Buffer
  | _, 0, buf => .ok buf
  | i, n + 1, buf =>
      match info[i]? with
      | none => .error .fault
      | some attr => do
          let buf ← serializeString attr.name buf
          let buf ← serializeString attr.description buf
          serializeAttrInfos info (i + 1) n buf

/-- `serialize_interface_info`.  Its second loop runs over `ret_info` with the
    bound of the first one, `argc`. -/
def serializeInterfaceInfo (id argc retc : UInt32) (info : Info) :
    Except Stop (List UInt8) := do
  let buf ← copyOrFault (Buffer.ofSize BUFFER_INC_SIZE) (wordBytes id)
  let buf ← serializeString info.name buf
  let buf ← serializeString info.description buf
  let buf ← copyOrFault buf (wordBytes argc)
  let buf ← serializeAttrInfos info.argInfo 0 argc.toNat buf
  let buf ← copyOrFault buf (wordBytes retc)
  let buf ← serializeAttrInfos info.retInfo 0 argc.toNat buf
  pure buf.contents

/-- A string that `dup_str` copies and counts in a `uint32_t`. -/
def dupStr : Scan CString := fun m pos =>
  let string := strAt m (2 ^ 32 - 1) pos
  ⟨⟨string, nulFree_strAt m (2 ^ 32 - 1) pos⟩, pos + (string.length + 1),
    [⟨pos, string.length + 1⟩]⟩

/-- One round of both loops of `unserialize_interface_info`. -/
def unserializeAttrInfo : Scan AttrInfo := do
  let name ← dupStr
  let description ← dupStr
  pure ⟨some name, some description⟩

/-- `unserialize_interface_info` behind the id. -/
def unserializeInfo : Scan Info := do
  let name ← dupStr
  let description ← dupStr
  let argc ← word
  let argInfo ← loop (fun _ => unserializeAttrInfo) 0 argc.toNat
  let retc ← word
  let retInfo ← loop (fun _ => unserializeAttrInfo) 0 retc.toNat
  pure ⟨some name, some description, argInfo, retInfo⟩

/-- `unserialize_interface_info`, which looks neither at the id nor at the length
    of the packet. -/
def unserializeInterfaceInfo (_packetLength : UInt32) : Scan Info := do
  skip 4
  unserializeInfo

/-! ## The format -/

/-- A description without missing strings. -/
structure Description where
  name : CString
  description : CString
  args : List UserAttr
  rets : List UserAttr
  deriving DecidableEq

/-- The `info_t` with these strings. -/
def Description.info (d : Description) : Info :=
  ⟨some d.name, some d.description, d.args.map UserAttr.copied,
    d.rets.map UserAttr.copied⟩

def encodeString (s : CString) : List UInt8 := s.bytes ++ [0]

/-- What is copied for an argument or a result. -/
def UserAttr.pieces (a : UserAttr) : List (List UInt8) :=
  [encodeString a.name, encodeString a.description]

/-- What is copied for a description, with the given counts and results. -/
def Description.pieces (d : Description) (id argc retc : UInt32)
    (rets : List UserAttr) : List (List UInt8) :=
  wordBytes id :: encodeString d.name :: encodeString d.description
    :: wordBytes argc :: (d.args.flatMap UserAttr.pieces
      ++ wordBytes retc :: rets.flatMap UserAttr.pieces)

/-- `id||name||desc||argc||arg0desc...||retc||ret0desc...`. -/
def infoEncoding (id : UInt32) (d : Description) : List UInt8 :=
  (d.pieces id (UInt32.ofNat d.args.length) (UInt32.ofNat d.rets.length)
    d.rets).flatten

/-! ## The encoder -/

/-- Copying in an encoder that can return an error. -/
theorem foldlM_copyOrFault {srcs : List (List UInt8)} {buf buf' : Buffer} :
    srcs.foldlM copyOrFault buf = .ok buf'
      ↔ srcs.foldlM (append BUFFER_INC_SIZE) buf = some buf' := by
  induction srcs generalizing buf with
  | nil =>
      constructor
      · intro h
        cases h
        rfl
      · intro h
        cases h
        rfl
  | cons src srcs ih =>
      rw [List.foldlM_cons, List.foldlM_cons]
      cases h : append BUFFER_INC_SIZE buf src with
      | none =>
          have hcopy : copyOrFault buf src = .error .fault := by
            rw [copyOrFault, Kernel.copyToBuffer, h]
          rw [hcopy]
          exact ⟨(fun h => nomatch h), fun h => nomatch h⟩
      | some buf1 =>
          have hcopy : copyOrFault buf src = .ok buf1 := by
            rw [copyOrFault, Kernel.copyToBuffer, h]
          rw [hcopy]
          exact ih

/-- A loop over entries that are there copies their pieces. -/
theorem serializeAttrInfos_pieces {as : List UserAttr} (n i : Nat)
    (hn : i + n ≤ as.length) (buf : Buffer) :
    serializeAttrInfos (as.map UserAttr.copied) i n buf
      = (((as.drop i).take n).flatMap UserAttr.pieces).foldlM copyOrFault
          buf := by
  induction n generalizing i buf with
  | zero =>
      rw [List.take_zero]
      rfl
  | succ n ih =>
      have hi : i < as.length := by omega
      rw [List.drop_eq_getElem_cons hi, List.take_succ_cons, List.flatMap_cons,
        List.foldlM_append, serializeAttrInfos, List.getElem?_map,
        List.getElem?_eq_getElem hi]
      have hrest := fun b => ih (i + 1) (by omega) b
      show (copyOrFault buf (encodeString as[i].name) >>= fun b =>
          copyOrFault b (encodeString as[i].description) >>= fun b =>
            serializeAttrInfos _ (i + 1) n b) = _
      simp only [hrest, UserAttr.pieces, List.foldlM_cons, List.foldlM_nil,
        bind_assoc, bind_pure]

/-- What fails in the end fails. -/
theorem bind_ne_ok {α β : Type} {p : Except Stop α} {q : α → Except Stop β}
    {b : β} (h : ∀ a, q a ≠ .ok b) : (p >>= q) ≠ .ok b := by
  cases p with
  | error stop => exact fun h => nomatch h
  | ok a => exact h a

/-- A loop that runs past the last entry does not end well. -/
theorem serializeAttrInfos_past {info : List AttrInfo} (n i : Nat)
    (hi : i ≤ info.length) (hn : info.length < i + n) (buf buf' : Buffer) :
    serializeAttrInfos info i n buf ≠ .ok buf' := by
  induction n generalizing i buf with
  | zero => omega
  | succ n ih =>
      rw [serializeAttrInfos]
      rcases Nat.eq_or_lt_of_le hi with heq | hlt
      · rw [List.getElem?_eq_none (by omega)]
        exact fun h => nomatch h
      · rw [List.getElem?_eq_getElem hlt]
        exact bind_ne_ok fun b1 => bind_ne_ok fun b2 =>
          ih (i + 1) hlt (by omega) b2

/-- With enough results, the encoder copies as many of them as there are
    arguments. -/
theorem serializeInterfaceInfo_pieces {argc : UInt32} {d : Description}
    (hargc : argc.toNat = d.args.length) (hle : argc.toNat ≤ d.rets.length)
    (id retc : UInt32) :
    serializeInterfaceInfo id argc retc d.info
      = Buffer.contents <$> (d.pieces id argc retc
          (d.rets.take argc.toNat)).foldlM copyOrFault
            (Buffer.ofSize BUFFER_INC_SIZE) := by
  have hargs := fun b => serializeAttrInfos_pieces argc.toNat 0
    (by rw [Nat.zero_add]; exact Nat.le_of_eq hargc) b
  have hrets := fun b => serializeAttrInfos_pieces argc.toNat 0
    (by rw [Nat.zero_add]; exact hle) b
  rw [List.drop_zero] at hargs hrets
  have hall : d.args.take argc.toNat = d.args := by
    rw [hargc, List.take_length]
  rw [hall] at hargs
  simp only [serializeInterfaceInfo, Description.info, hargs, hrets,
    Description.pieces, List.foldlM_cons, List.foldlM_append, bind_assoc,
    serializeString, encodeString, map_eq_pure_bind]

/-- With too few results, the encoder leaves the array. -/
theorem serializeInterfaceInfo_past {argc : UInt32} {d : Description}
    (hlt : d.rets.length < argc.toNat) (id retc : UInt32) (packet : List UInt8) :
    serializeInterfaceInfo id argc retc d.info ≠ .ok packet := by
  refine bind_ne_ok fun b1 => bind_ne_ok fun b2 => bind_ne_ok fun b3 =>
    bind_ne_ok fun b4 => bind_ne_ok fun b5 => bind_ne_ok fun b6 => ?_
  show (serializeAttrInfos (d.rets.map UserAttr.copied) 0 argc.toNat b6
    >>= fun b => pure b.contents) ≠ .ok packet
  cases h : serializeAttrInfos (d.rets.map UserAttr.copied) 0 argc.toNat b6 with
  | error stop => exact fun h => nomatch h
  | ok b7 =>
      refine absurd h (serializeAttrInfos_past _ 0 (Nat.zero_le _) ?_ b6 b7)
      rw [List.length_map, Nat.zero_add]
      exact hlt

/-! ## The decoder -/

theorem consumes_dupStr {s : CString} (hs : s.bytes.length < 2 ^ 32 - 1) :
    Consumes dupStr (encodeString s) s where
  val h := by
    have hstr := strAt_of_holds s.nulFree hs h
    cases s with
    | mk bytes nulFree => exact CString.mk.injEq .. ▸ hstr
  next h := by
    show _ + ((strAt _ (2 ^ 32 - 1) _).length + 1) = _
    rw [strAt_of_holds s.nulFree hs h, encodeString, List.length_append]
    rfl
  reads h n := by
    have hlen : (encodeString s).length = s.bytes.length + 1 :=
      List.length_append
    show InBounds [⟨_, (strAt _ (2 ^ 32 - 1) _).length + 1⟩] n ↔ _
    rw [strAt_of_holds s.nulFree hs h, inBounds_singleton, hlen]
    constructor
    · rintro (h0 | hle)
      · exact absurd h0 (Nat.succ_ne_zero _)
      · exact Or.inr hle
    · rintro (h0 | hle)
      · rw [h0] at hlen
        exact nomatch hlen
      · exact Or.inr hle

/-- Strings of a description of an argument or a result that can be counted. -/
def UserAttr.Counted (a : UserAttr) : Prop :=
  a.name.bytes.length < 2 ^ 32 - 1 ∧ a.description.bytes.length < 2 ^ 32 - 1

theorem consumes_unserializeAttrInfo {a : UserAttr} (ha : a.Counted) :
    Consumes unserializeAttrInfo a.pieces.flatten a.copied := by
  have h := (consumes_dupStr ha.1).bind (q := fun name => do
      let description ← dupStr
      pure (⟨some name, some description⟩ : AttrInfo))
    ((consumes_dupStr ha.2).map fun description =>
      (⟨some a.name, some description⟩ : AttrInfo))
  rw [UserAttr.pieces, List.flatten_cons, List.flatten_cons, List.flatten_nil,
    List.append_nil]
  exact h

/-- A loop that finds the strings of `as` returns them. -/
theorem consumes_attrInfos {as : List UserAttr} (has : ∀ a ∈ as, a.Counted)
    (i : Nat) :
    Consumes (loop (fun _ => unserializeAttrInfo) i as.length)
      (as.flatMap UserAttr.pieces).flatten (as.map UserAttr.copied) := by
  have h := @consumes_loop _ _ _ (fun a : UserAttr => a.pieces.flatten)
    (fun _ => UserAttr.copied) as
    (fun _ a ha => consumes_unserializeAttrInfo (has a ha)) i
  rw [valuesFrom_const] at h
  rw [flatten_flatMap]
  exact h

/-- Every string of the description can be counted. -/
def Description.Counted (d : Description) : Prop :=
  d.name.bytes.length < 2 ^ 32 - 1 ∧ d.description.bytes.length < 2 ^ 32 - 1
    ∧ ∀ a ∈ d.args, a.Counted

/-- Up to the results the decoder returns the description that it finds; then it
    reads as many results as are announced. -/
theorem unserializeInterfaceInfo_val {d : Description} (hd : d.Counted)
    {id argc retc : UInt32} (hargc : argc.toNat = d.args.length)
    {rets : List UserAttr} {m : Mem}
    (hm : Holds m 0 (d.pieces id argc retc rets).flatten)
    (packetLength : UInt32) :
    ∃ pos, pos + (rets.flatMap UserAttr.pieces).flatten.length
        = (d.pieces id argc retc rets).flatten.length
      ∧ Holds m pos (rets.flatMap UserAttr.pieces).flatten
      ∧ (unserializeInterfaceInfo packetLength m 0).val
        = ⟨some d.name, some d.description, d.args.map UserAttr.copied,
            (loop (fun _ => unserializeAttrInfo) 0 retc.toNat m pos).val⟩ := by
  obtain ⟨hname, hdescription, hargs⟩ := hd
  have hfour : ∀ w, (wordBytes w).length = 4 := length_wordBytes
  simp only [Description.pieces, List.flatten_cons, List.flatten_append] at hm ⊢
  obtain ⟨-, hm⟩ := holds_append.mp hm
  obtain ⟨h1, hm⟩ := holds_append.mp hm
  obtain ⟨h2, hm⟩ := holds_append.mp hm
  obtain ⟨h3, hm⟩ := holds_append.mp hm
  obtain ⟨h4, hm⟩ := holds_append.mp hm
  obtain ⟨h5, h6⟩ := holds_append.mp hm
  rw [hfour, Nat.zero_add] at h1 h2 h3 h4 h5 h6
  have hloop := consumes_attrInfos hargs 0
  rw [← hargc] at hloop
  refine ⟨_, ?_, h6, ?_⟩
  · simp only [List.length_append, hfour]
    omega
  · have hdup1 := consumes_dupStr hname
    have hdup2 := consumes_dupStr hdescription
    rw [hfour] at h4 h5
    show (unserializeInfo m 4).val = _
    simp only [unserializeInfo, run_bind, run_pure, run_word, hdup1.val h1,
      hdup1.next h1, hdup2.val h2, hdup2.next h2, wordAt_of_holds h3,
      hloop.val h4, hloop.next h4, wordAt_of_holds h5, hfour]

/-! ## What travels -/

/-- Both strings and their terminators fit one growth step of the encoder. -/
def UserAttr.Short (a : UserAttr) : Prop :=
  a.name.bytes.length < BUFFER_INC_SIZE.toNat
    ∧ a.description.bytes.length < BUFFER_INC_SIZE.toNat

/-- All strings and their terminators fit one growth step of the encoder. -/
structure Description.Short (d : Description) : Prop where
  name : d.name.bytes.length < BUFFER_INC_SIZE.toNat
  description : d.description.bytes.length < BUFFER_INC_SIZE.toNat
  args : ∀ a ∈ d.args, a.Short
  rets : ∀ a ∈ d.rets, a.Short

theorem UserAttr.Short.counted {a : UserAttr} (h : a.Short) : a.Counted :=
  ⟨Nat.lt_trans h.1 (by decide), Nat.lt_trans h.2 (by decide)⟩

theorem Description.Short.counted {d : Description} (h : d.Short) : d.Counted :=
  ⟨Nat.lt_trans h.name (by decide), Nat.lt_trans h.description (by decide),
    fun a ha => (h.args a ha).counted⟩

/-- No piece of a short description is longer than a growth step. -/
theorem length_piece_le {d : Description} (h : d.Short) {rets : List UserAttr}
    (hrets : ∀ a ∈ rets, a.Short) (id argc retc : UInt32) :
    ∀ k ∈ (d.pieces id argc retc rets).map List.length,
      k ≤ BUFFER_INC_SIZE.toNat := by
  have hstring : ∀ s : CString, s.bytes.length < BUFFER_INC_SIZE.toNat →
      (encodeString s).length ≤ BUFFER_INC_SIZE.toNat := by
    intro s hs
    rw [encodeString, List.length_append]
    exact hs
  have hword : ∀ w, (wordBytes w).length ≤ BUFFER_INC_SIZE.toNat := by
    intro w
    rw [length_wordBytes]
    decide
  have hattrs : ∀ as : List UserAttr, (∀ a ∈ as, a.Short) →
      ∀ src ∈ as.flatMap UserAttr.pieces,
        src.length ≤ BUFFER_INC_SIZE.toNat := by
    intro as has src hsrc
    obtain ⟨a, ha, hmem⟩ := List.mem_flatMap.mp hsrc
    rcases List.mem_cons.mp hmem with h1 | h1
    · rw [h1]
      exact hstring _ (has a ha).1
    · rw [List.mem_singleton.mp h1]
      exact hstring _ (has a ha).2
  intro k hk
  obtain ⟨src, hsrc, hlen⟩ := List.mem_map.mp hk
  rw [← hlen]
  simp only [Description.pieces, List.mem_cons, List.mem_append] at hsrc
  rcases hsrc with h1 | h1 | h1 | h1 | h1 | h1 | h1
  · rw [h1]
    exact hword id
  · rw [h1]
    exact hstring _ h.name
  · rw [h1]
    exact hstring _ h.description
  · rw [h1]
    exact hword argc
  · exact hattrs _ h.args src h1
  · rw [h1]
    exact hword retc
  · exact hattrs _ hrets src h1

/-- **THE ENCODER**, with results for all arguments: it writes the pieces, exactly
    if they fit. -/
theorem serializeInterfaceInfo_fits {argc : UInt32} {d : Description}
    (hargc : argc.toNat = d.args.length) (hle : argc.toNat ≤ d.rets.length)
    (id retc : UInt32) (packet : List UInt8) :
    serializeInterfaceInfo id argc retc d.info = .ok packet
      ↔ packet = (d.pieces id argc retc (d.rets.take argc.toNat)).flatten
        ∧ PiecesFit BUFFER_INC_SIZE.toNat 0
          ((d.pieces id argc retc (d.rets.take argc.toNat)).map List.length) := by
  rw [serializeInterfaceInfo_pieces hargc hle]
  generalize d.pieces id argc retc (d.rets.take argc.toNat) = srcs
  rw [← fresh_appends_iff]
  constructor
  · intro hok
    cases hcopy : srcs.foldlM copyOrFault (Buffer.ofSize BUFFER_INC_SIZE) with
    | error stop =>
        rw [hcopy] at hok
        exact nomatch hok
    | ok buf =>
        rw [hcopy] at hok
        have happend := foldlM_copyOrFault.mp hcopy
        refine ⟨?_, buf, happend⟩
        rw [← Except.ok.inj hok]
        exact appends_contents _ happend
  · rintro ⟨hpacket, buf, happend⟩
    rw [foldlM_copyOrFault.mpr happend, hpacket]
    exact congrArg Except.ok (appends_contents _ happend)

/-- Short pieces fit if their sum stays clear of the 32-bit limit. -/
theorem serializeInterfaceInfo_iff {argc : UInt32} {d : Description}
    (h : d.Short) (hargc : argc.toNat = d.args.length)
    (hle : argc.toNat ≤ d.rets.length) (id retc : UInt32) (packet : List UInt8) :
    serializeInterfaceInfo id argc retc d.info = .ok packet
      ↔ packet = (d.pieces id argc retc (d.rets.take argc.toNat)).flatten
        ∧ packet.length ≤ 2 ^ 32 - BUFFER_INC_SIZE.toNat := by
  have hshort : ∀ a ∈ d.rets.take argc.toNat, a.Short :=
    fun a ha => h.rets a (List.mem_of_mem_take ha)
  rw [serializeInterfaceInfo_fits hargc hle,
    piecesFit_below_limit (length_piece_le h hshort id argc retc), ← List.length_flatten]
  refine and_congr_right fun hpacket => ?_
  rw [hpacket]

/-! ### Strings of a packet -/

/-- A piece of a packet that is not too long can be counted. -/
theorem counted_of_mem {srcs : List (List UInt8)} (hlen : srcs.flatten.length < 2 ^ 32)
    {s : CString} (hs : encodeString s ∈ srcs) : s.bytes.length < 2 ^ 32 - 1 := by
  have hle := (List.sublist_flatten_of_mem hs).length_le
  rw [encodeString, List.length_append] at hle
  exact Nat.lt_sub_of_add_lt (Nat.lt_of_le_of_lt hle hlen)

theorem counted_attrs {srcs : List (List UInt8)} (hlen : srcs.flatten.length < 2 ^ 32)
    {as : List UserAttr} (has : ∀ src ∈ as.flatMap UserAttr.pieces, src ∈ srcs) :
    ∀ a ∈ as, a.Counted := by
  intro a ha
  have hpiece : ∀ src ∈ a.pieces, src ∈ as.flatMap UserAttr.pieces :=
    fun src hsrc => List.mem_flatMap.mpr ⟨a, ha, hsrc⟩
  refine ⟨counted_of_mem hlen (has _ (hpiece _ ?_)),
    counted_of_mem hlen (has _ (hpiece _ ?_))⟩
  · rw [UserAttr.pieces]
    exact List.mem_cons_self ..
  · rw [UserAttr.pieces]
    exact List.mem_cons_of_mem _ (List.mem_singleton_self _)

/-- What fits a packet can be counted. -/
theorem counted_pieces {d : Description} {id argc retc : UInt32} {rets : List UserAttr}
    (hlen : (d.pieces id argc retc rets).flatten.length < 2 ^ 32) :
    d.Counted ∧ ∀ a ∈ rets, a.Counted := by
  refine ⟨⟨counted_of_mem hlen ?_, counted_of_mem hlen ?_, counted_attrs hlen ?_⟩,
    counted_attrs hlen ?_⟩
  · rw [Description.pieces]
    simp
  · rw [Description.pieces]
    simp
  · intro src hsrc
    simp only [Description.pieces, List.mem_cons, List.mem_append]
    tauto
  · intro src hsrc
    simp only [Description.pieces, List.mem_cons, List.mem_append]
    tauto

/-! ### Round trips -/

/-- The encoder reads and writes inside its arrays and makes a packet, and the
    decoder makes the description of it again, whatever lies behind. -/
def InfoTravels (id argc retc : UInt32) (info : Info) : Prop :=
  ∃ packet, serializeInterfaceInfo id argc retc info = .ok packet
    ∧ ∀ behind, (unserializeInterfaceInfo (UInt32.ofNat packet.length)
        (overlay packet behind) 0).val = info

/-- Where fewer results are described than announced, the decoder takes the next
    one from the memory behind the packet. -/
theorem short_of_results {d : Description} (h : d.Counted) {id argc retc : UInt32}
    (hargc : argc.toNat = d.args.length) (hretc : retc.toNat = d.rets.length)
    (hlt : argc.toNat < retc.toNat)
    (hcounted : ∀ a ∈ d.rets.take argc.toNat, a.Counted) (packetLength : UInt32)
    (behind : Mem)
    (hval : (unserializeInterfaceInfo packetLength (overlay
      (d.pieces id argc retc (d.rets.take argc.toNat)).flatten behind) 0).val
        = d.info) :
    ∃ a, d.rets[argc.toNat]? = some a
      ∧ strAt behind (2 ^ 32 - 1) 0 = a.name.bytes := by
  have hlen : (d.rets.take argc.toNat).length = argc.toNat := by
    rw [List.length_take, ← hretc]
    exact Nat.min_eq_left (Nat.le_of_lt hlt)
  have hi : argc.toNat < d.rets.length := by
    rw [← hretc]
    exact hlt
  obtain ⟨pos, hpos, hrets, hval'⟩ := unserializeInterfaceInfo_val h
    hargc (holds_overlay _ behind) packetLength
  rw [hval'] at hval
  have hloop := consumes_attrInfos hcounted 0
  rw [hlen] at hloop
  obtain ⟨k, hk⟩ : ∃ k, retc.toNat = argc.toNat + (k + 1) :=
    ⟨retc.toNat - argc.toNat - 1, by omega⟩
  -- the announced results are those in the packet and at least one more
  have hinfo := (Info.mk.inj hval).2.2.2
  rw [hk, loop_add, hloop.val hrets, hloop.next hrets, hpos] at hinfo
  have hnext := congrArg (fun infos => infos[argc.toNat]?) hinfo
  refine ⟨d.rets[argc.toNat], List.getElem?_eq_getElem hi, ?_⟩
  simp only [List.getElem?_map, List.getElem?_eq_getElem hi] at hnext
  rw [List.getElem?_append_right (by rw [List.length_map, hlen]),
    List.length_map, hlen, Nat.sub_self] at hnext
  have hname := congrArg AttrInfo.name (Option.some.inj hnext)
  have hbytes := congrArg CString.bytes (Option.some.inj hname)
  rw [← show _ = d.rets[argc.toNat].name.bytes from hbytes]
  refine (strAt_congr (fun i => ?_) _).symm
  rw [overlay_ge behind (Nat.le_add_right _ i), Nat.add_sub_cancel_left,
    Nat.zero_add]

/-- **ANY DESCRIPTION** travels exactly if there are as many results as arguments, and
    its pieces fit the encoder's buffer. -/
theorem infoTravels_iff_fits {argc retc : UInt32} {d : Description}
    (hargc : argc.toNat = d.args.length) (hretc : retc.toNat = d.rets.length)
    (id : UInt32) :
    InfoTravels id argc retc d.info
      ↔ argc = retc ∧ PiecesFit BUFFER_INC_SIZE.toNat 0
        ((d.pieces id argc retc d.rets).map List.length) := by
  constructor
  · rintro ⟨packet, hmade, hdecoded⟩
    have hle : argc.toNat ≤ d.rets.length := by
      by_contra hgt
      exact serializeInterfaceInfo_past (Nat.lt_of_not_le hgt) id retc packet
        hmade
    obtain ⟨hpacket, hfit⟩ :=
      (serializeInterfaceInfo_fits hargc hle id retc packet).mp hmade
    have heq : argc = retc := by
      by_contra hne
      have hlt : argc.toNat < retc.toNat := by
        rw [← hretc] at hle
        exact Nat.lt_of_le_of_ne hle fun h0 => hne (UInt32.toNat_inj.mp h0)
      obtain ⟨hd, hrets⟩ := counted_pieces (length_of_piecesFit hfit)
      rw [hpacket] at hdecoded
      -- zeros behind the packet and ones behind it give different names
      obtain ⟨a, ha, hzeros⟩ := short_of_results hd hargc hretc hlt hrets _
        (fun _ => 0) (hdecoded _)
      obtain ⟨a', ha', hones⟩ := short_of_results hd hargc hretc hlt hrets _
        (fun _ => 1) (hdecoded _)
      rw [ha] at ha'
      rw [← Option.some.inj ha', ← hzeros] at hones
      exact nomatch hones
    refine ⟨heq, ?_⟩
    rw [heq, hretc, List.take_length] at hfit
    rw [heq]
    exact hfit
  · rintro ⟨heq, hfit⟩
    have hle : argc.toNat ≤ d.rets.length := by rw [heq, hretc]
    have hall : d.rets.take argc.toNat = d.rets := by
      rw [heq, hretc, List.take_length]
    obtain ⟨hd, hcounted⟩ := counted_pieces (length_of_piecesFit hfit)
    refine ⟨_, (serializeInterfaceInfo_fits hargc hle id retc _).mpr
      ⟨by rw [hall], by rw [hall]; exact hfit⟩, fun behind => ?_⟩
    obtain ⟨pos, -, hrets, hval⟩ := unserializeInterfaceInfo_val hd hargc
      (holds_overlay (d.pieces id argc retc d.rets).flatten behind)
      (UInt32.ofNat (d.pieces id argc retc d.rets).flatten.length)
    have hloop := consumes_attrInfos hcounted 0
    rw [hval, hretc, hloop.val hrets]
    rfl

/-- **DESCRIPTIONS** of short strings travel exactly if there are as many results as
    arguments, and the encoder's buffer stays clear of the 32-bit limit. -/
theorem info_travels_iff {argc retc : UInt32} {d : Description} (h : d.Short)
    (hargc : argc.toNat = d.args.length) (hretc : retc.toNat = d.rets.length)
    (id : UInt32) :
    InfoTravels id argc retc d.info
      ↔ argc = retc
        ∧ (infoEncoding id d).length ≤ 2 ^ 32 - BUFFER_INC_SIZE.toNat := by
  have hargc' : UInt32.ofNat d.args.length = argc := by
    rw [← hargc, UInt32.ofNat_toNat]
  have hretc' : UInt32.ofNat d.rets.length = retc := by
    rw [← hretc, UInt32.ofNat_toNat]
  rw [infoTravels_iff_fits hargc hretc, infoEncoding, hargc', hretc',
    piecesFit_below_limit (length_piece_le h h.rets id argc retc), List.length_flatten]

/-- An interface with one argument and one result. -/
def Description.oneEach : Description :=
  ⟨⟨[102], by decide⟩, .empty, [⟨⟨[97], by decide⟩, .empty⟩],
    [⟨⟨[114], by decide⟩, .empty⟩]⟩

theorem short_oneEach : Description.oneEach.Short where
  name := by decide
  description := by decide
  args a ha := by
    rw [List.mem_singleton.mp ha]
    exact ⟨by decide, by decide⟩
  rets a ha := by
    rw [List.mem_singleton.mp ha]
    exact ⟨by decide, by decide⟩

/-- One argument and one result travel. -/
theorem info_travels_iff_one_each : InfoTravels 3 1 1 Description.oneEach.info :=
  (info_travels_iff short_oneEach rfl rfl 3).mpr ⟨rfl, by decide⟩

/-- A result without an argument does not travel: the decoder takes it from the
    memory behind the packet.  For an argument without a result the encoder leaves
    `ret_info`. -/
theorem uneven_description_lost :
    ¬ InfoTravels 3 0 1 { Description.oneEach with args := [] }.info
      ∧ serializeInterfaceInfo 3 1 0
          { Description.oneEach with rets := [] }.info = .error .fault := by
  have hshort : Description.Short { Description.oneEach with args := [] } :=
    ⟨short_oneEach.name, short_oneEach.description,
      fun _ h => (List.not_mem_nil h).elim, short_oneEach.rets⟩
  constructor
  · rintro ⟨packet, hmade, hdecoded⟩
    have hpacket :=
      ((serializeInterfaceInfo_iff hshort rfl (by decide) 3 1 packet).mp hmade).1
    rw [hpacket] at hdecoded
    -- with zeros behind the packet, the result has no name
    obtain ⟨a, ha, hname⟩ := short_of_results hshort.counted rfl rfl (by decide)
      (fun _ h => (List.not_mem_nil h).elim) _ (fun _ => 0) (hdecoded _)
    cases Option.some.inj ha
    exact nomatch hname
  · decide

/-- The description of an interface without arguments, results and text. -/
theorem serializeInterfaceInfo_bare (id : UInt32) (name description : CString)
    (hname : name.bytes = []) (hdescription : description.bytes = []) :
    ∃ reply, serializeInterfaceInfo id 0 0
        ⟨some name, some description, [], []⟩ = .ok reply
      ∧ reply.length = 14 := by
  have hshort : Description.Short ⟨name, description, [], []⟩ :=
    ⟨by rw [hname]; decide, by rw [hdescription]; decide,
      fun _ h => (List.not_mem_nil h).elim, fun _ h => (List.not_mem_nil h).elim⟩
  have hlen : (Description.pieces ⟨name, description, [], []⟩ id 0 0
      []).flatten.length = 14 := by
    rw [Description.pieces, encodeString, encodeString, hname, hdescription]
    rfl
  refine ⟨_, (@serializeInterfaceInfo_iff 0 _ hshort rfl (Nat.le_refl 0) id 0
    _).mpr ⟨rfl, ?_⟩, hlen⟩
  show (Description.pieces _ id 0 0 []).flatten.length ≤ _
  rw [hlen]
  decide

end DistComm
