import DistComm.Announcements
import DistComm.Slots

/-! # Reading an entry of `/proc/dist_comm`

    `proc_read` of `module/proc.c` formats the interfaces whose `proc_entry` is the
    one that is read, each with `format_interface`, which prints every line into an
    array of 0x500 bytes first.

    `Registry.interfaces` is the list that the slots below `INTERFACE_COUNT` show.
    In terms of it `proc_read` returns the texts of the selected interfaces, in
    order, if each line fits the array and all of it the buffer (`procRead_text`). -/

namespace DistComm

open RawMemory PointerArray GrowBuffer RawScan

/-! ## The registered interfaces as a list -/

/-- The interfaces in the slots below `INTERFACE_COUNT`. -/
def Registry.interfaces (k : Registry) : List Interface :=
  ((readFrom k.interfaceList.deref 0 k.interfaceCount.toNat).getD []).map Prod.snd

theorem Registry.Live.interfaces {k : Registry} (h : k.Live) :
    k.interfaces.length = k.interfaceCount.toNat
      ∧ ∀ i p x, k.At i p x → k.interfaces[i]? = some x := by
  have hread : Readable k.interfaceList.deref k.interfaceCount.toNat := h
  obtain ⟨bs, hbs, hlen, hget⟩ := hread.readFrom
  rw [Registry.interfaces, hbs, Option.getD_some, List.length_map]
  refine ⟨hlen, fun i p x hx => ?_⟩
  rw [List.getElem?_map, hget i hx.1, hx.2]
  rfl

/-- What stands in the list stands in a slot. -/
theorem Registry.Live.at {k : Registry} (h : k.Live) {i : Nat} {x : Interface}
    (hx : k.interfaces[i]? = some x) : ∃ p, k.At i p x := by
  obtain ⟨hlen, hget⟩ := h.interfaces
  have hi : i < k.interfaceCount.toNat := by
    rw [← hlen]
    exact (List.getElem?_eq_some_iff.mp hx).1
  obtain ⟨⟨p, y⟩, hy⟩ := h i hi
  have hat : k.At i p y := ⟨hi, hy⟩
  cases (hget i p y hat).symm.trans hx
  exact ⟨p, hat⟩

theorem Registry.Live.mem {k : Registry} (h : k.Live) {x : Interface} :
    x ∈ k.interfaces ↔ ∃ i p, k.At i p x := by
  constructor
  · intro hx
    obtain ⟨i, hi⟩ := List.getElem?_of_mem hx
    obtain ⟨p, hat⟩ := h.at hi
    exact ⟨i, p, hat⟩
  · rintro ⟨i, p, hat⟩
    exact List.mem_of_getElem? (h.interfaces.2 i p x hat)

/-- A registration appends to the list. -/
theorem Added.interfaces {k k' : Registry} {x : Interface} (h : Added k k' x)
    (hlive : k.Live) (hlive' : k'.Live) :
    k'.interfaces = k.interfaces ++ [x] := by
  obtain ⟨hlen, hget⟩ := hlive.interfaces
  obtain ⟨hlen', hget'⟩ := hlive'.interfaces
  apply List.ext_getElem?
  intro i
  rcases Nat.lt_trichotomy i k.interfaceCount.toNat with hlt | rfl | hgt
  · obtain ⟨⟨p, y⟩, hy⟩ := hlive i hlt
    rw [List.getElem?_append_left (by omega), hget i p y ⟨hlt, hy⟩,
      hget' i p y (h.kept i p y ⟨hlt, hy⟩)]
  · rw [← hlen, List.getElem?_concat_length, hlen]
    exact hget' _ _ _ h.last
  · rw [List.getElem?_eq_none (by rw [hlen', h.count]; omega),
      List.getElem?_eq_none (by rw [List.length_append, hlen]; exact hgt)]

/-- A removal from the last slot takes the last one of the list. -/
theorem Dropped.interfaces {k k' : Registry} {i p : Nat} {x : Interface}
    (h : Dropped k k' i p x) (hlive : k.Live) (hlive' : k'.Live)
    (hlast : i + 1 = k.interfaceCount.toNat) :
    k.interfaces = k'.interfaces ++ [x] := by
  obtain ⟨hlen, hget⟩ := hlive.interfaces
  obtain ⟨hlen', hget'⟩ := hlive'.interfaces
  have hcount := h.count
  apply List.ext_getElem?
  intro j
  rcases Nat.lt_trichotomy j i with hlt | rfl | hgt
  · obtain ⟨⟨q, y⟩, hy⟩ := hlive j (by omega)
    have hat : k.At j q y := ⟨by omega, hy⟩
    rw [List.getElem?_append_left (by omega), hget j q y hat,
      hget' j q y (h.kept j q y hlt hat)]
  · have hj : j = k'.interfaces.length := by omega
    rw [hget j p x h.found, hj, List.getElem?_concat_length]
  · rw [List.getElem?_eq_none (by omega),
      List.getElem?_eq_none (by rw [List.length_append, List.length_singleton]; omega)]

/-! ## `format_interface` and `proc_read` -/

/-- `sizeof(tmp)` in `format_interface`. -/
def TMP_SIZE : Nat := 0x500

/-- `EFAULT`. -/
def EFAULT : Int := 14

/-- The bytes of a formatted text. -/
def bytesOf (text : List Char) : List UInt8 := text.map fun c => UInt8.ofNat c.toNat

/-- The first `sprintf` of `format_interface`. -/
def headerLine (x : Interface) : List Char :=
  "interface:\n\tid: ".toList ++ formatInt x.id.toInt32 ++ "\n\tname: ".toList
    ++ formatString x.info.name ++ "\n\tdescription: ".toList
    ++ formatString x.info.description ++ "\n".toList

/-- The `sprintf` of both loops; `label` is "arg" or "ret". -/
def attrLine (label : String) (i : Nat) (flag : UInt8) (attr : AttrInfo) :
    List Char :=
  "\t\t".toList ++ label.toList ++ formatInt (Int32.ofNat i)
    ++ ":\n\t\t\tflag: ".toList ++ formatInt (Int32.ofNat flag.toNat)
    ++ "\n\t\t\tname: ".toList ++ formatString attr.name
    ++ " \n\t\t\tdescription: ".toList ++ formatString attr.description
    ++ "\n".toList

/-- Print into `tmp`, where the text and its terminator must fit, and append to
    `dest`. -/
def formatTmp (dest : Buffer) (text : List Char) : Option Buffer :=
  if text.length < TMP_SIZE then Kernel.copyToBuffer dest (bytesOf text) else none

/-- `flags[i]`, inside the array. -/
def Ptr.flag (i : Nat) : Ptr → Option UInt8
  | .block bs => bs[i]?
  | .null => none
  | .stale _ => none

/-- Both loops of `format_interface`, from index `i` for `n` rounds. -/
def formatAttrs (label : String) (flags : Ptr) (info : List AttrInfo) :
    Nat → Nat → Buffer → Option Buffer
  | _, 0, dest => some dest
  | i, n + 1, dest => do
      let attr ← info[i]?
      let flag ← flags.flag i
      let dest ← formatTmp dest (attrLine label i flag attr)
      formatAttrs label flags info (i + 1) n dest

/-- `format_interface`. -/
def formatInterface (x : Interface) (dest : Buffer) : Option Buffer := do
  let dest ← formatTmp dest (headerLine x)
  let dest ← Kernel.copyToBuffer dest (bytesOf "\targuments:\n".toList)
  let dest ← formatAttrs "arg" x.argFlags x.info.argInfo 0 x.argc.toNat dest
  let dest ← Kernel.copyToBuffer dest (bytesOf "\treturn_values:\n".toList)
  formatAttrs "ret" x.retFlags x.info.retInfo 0 x.retc.toNat dest

/-- The loop of `proc_read`, from index `i` for `n` rounds. -/
def readEntries (k : Registry) (entry : ProcEntry) :
    Nat → Nat → Buffer → Option Buffer
  | _, 0, dest => some dest
  | i, n + 1, dest => do
      let x ← k.interfaceList.deref i
      let dest ← if x.2.ctrl.procEntry = some entry then formatInterface x.2 dest
        else some dest
      readEntries k entry (i + 1) n dest

/-- `proc_read` of an entry into a user buffer of `count` bytes, with the result of
    `copy_to_user`: the return value, what was copied, and the new `*ppos`. -/
def procRead (k : Registry) (entry : ProcEntry) (count ppos copyToUser : Nat) :
    Option (Int × List UInt8 × Nat) :=
  if 0 < ppos then some (0, [], ppos)
  else do
    let dest ← readEntries k entry 0 k.interfaceCount.toNat
      (Buffer.ofSize BUFFER_INC_SIZE)
    if count < dest.contents.length then some (-1, [], ppos)
    else if copyToUser ≠ 0 then some (-EFAULT, [], ppos)
    else some (dest.contents.length, dest.contents, dest.contents.length)

/-! ## What is read -/

/-- The bytes of an array; none behind NULL. -/
def Ptr.bytes : Ptr → List UInt8
  | .block bs => bs
  | .null => []
  | .stale _ => []

/-- The lines on the arguments, or on the results. -/
def attrLines (label : String) (flags : Ptr) (info : List AttrInfo) :
    List (List Char) :=
  valuesFrom (fun i (a : UInt8 × AttrInfo) => attrLine label i a.1 a.2) 0
    (flags.bytes.zip info)

/-- The lines of an interface. -/
def Interface.lines (x : Interface) : List (List Char) :=
  headerLine x :: "\targuments:\n".toList
    :: (attrLines "arg" x.argFlags x.info.argInfo
      ++ "\treturn_values:\n".toList
        :: attrLines "ret" x.retFlags x.info.retInfo)

/-- What `proc_read` should return for these interfaces. -/
def procText (xs : List Interface) : List UInt8 :=
  (xs.flatMap Interface.lines).flatMap bytesOf

/-- All arrays of the interface are as long as its counts. -/
structure Interface.Shaped (x : Interface) : Prop where
  complete : x.toAdvert.Complete
  argInfo : x.info.argInfo.length = x.argc.toNat
  retInfo : x.info.retInfo.length = x.retc.toNat

theorem UserInterface.registered_shaped (u : UserInterface) (id : UInt32)
    (pid : Int32) (procEntry : Option ProcEntry) :
    (u.registered id pid procEntry).Shaped where
  complete := ⟨_, _, rfl, List.length_replicate, rfl, List.length_replicate⟩
  argInfo := (List.length_map _).trans u.argInfo_length
  retInfo := (List.length_map _).trans u.retInfo_length

/-- A loop of `format_interface` prints one line for each description. -/
theorem formatAttrs_lines (label : String) {bs : List UInt8} {info : List AttrInfo}
    (hbs : bs.length = info.length) (n i : Nat) (hn : i + n = info.length)
    (dest : Buffer) :
    formatAttrs label (.block bs) info i n dest
      = (valuesFrom (fun i (a : UInt8 × AttrInfo) => attrLine label i a.1 a.2) i
          ((bs.zip info).drop i)).foldlM formatTmp dest := by
  have hzip : (bs.zip info).length = info.length := by
    rw [List.length_zip, hbs, Nat.min_self]
  induction n generalizing i dest with
  | zero =>
      rw [List.drop_eq_nil_of_le (by omega)]
      rfl
  | succ n ih =>
      have hi : i < info.length := by omega
      rw [List.drop_eq_getElem_cons (by omega), List.getElem_zip, valuesFrom,
        List.foldlM_cons, formatAttrs, List.getElem?_eq_getElem hi, Ptr.flag,
        List.getElem?_eq_getElem (by omega)]
      simp only [Option.bind_eq_bind, Option.bind_some]
      exact Option.bind_congr fun dest _ => ih (i + 1) (by omega) dest

theorem formatAttrs_all (label : String) {flags : Ptr} {info : List AttrInfo}
    {count : UInt32} {bs : List UInt8} (hflags : flags = .block bs)
    (hbs : bs.length = count.toNat) (hinfo : info.length = count.toNat)
    (dest : Buffer) :
    formatAttrs label flags info 0 count.toNat dest
      = (attrLines label flags info).foldlM formatTmp dest := by
  subst hflags
  rw [formatAttrs_lines label (hbs.trans hinfo.symm) _ 0
    ((Nat.zero_add _).trans hinfo.symm), List.drop_zero]
  rfl

theorem formatInterface_lines {x : Interface} (hx : x.Shaped) (dest : Buffer) :
    formatInterface x dest = x.lines.foldlM formatTmp dest := by
  obtain ⟨⟨argFlags, retFlags, hargs, hargc, hrets, hretc⟩, hargInfo, hretInfo⟩ := hx
  have hargv := fun dest => formatAttrs_all "arg" hargs hargc hargInfo dest
  have hretv := fun dest => formatAttrs_all "ret" hrets hretc hretInfo dest
  -- the two headings are no longer than `tmp`
  have hheading : ∀ text : List Char, text.length < TMP_SIZE → ∀ dest,
      Kernel.copyToBuffer dest (bytesOf text) = formatTmp dest text :=
    fun text h dest => (if_pos h).symm
  simp only [formatInterface, hargv, hretv,
    hheading "\targuments:\n".toList (by decide),
    hheading "\treturn_values:\n".toList (by decide), Interface.lines,
    List.foldlM_cons, List.foldlM_append]

/-- The loop of `proc_read` prints the lines of the interfaces of the entry. -/
theorem readEntries_lines {k : Registry} (hlive : k.Live)
    (hshaped : ∀ x ∈ k.interfaces, x.Shaped) (entry : ProcEntry) (n i : Nat)
    (hn : i + n = k.interfaces.length) (dest : Buffer) :
    readEntries k entry i n dest
      = (((k.interfaces.drop i).filter fun x =>
            x.ctrl.procEntry = some entry).flatMap Interface.lines).foldlM
          formatTmp dest := by
  induction n generalizing i dest with
  | zero =>
      rw [List.drop_eq_nil_of_le (by omega)]
      rfl
  | succ n ih =>
      have hi : i < k.interfaces.length := by omega
      have hget := List.getElem?_eq_getElem hi
      obtain ⟨p, hat⟩ := hlive.at hget
      have hrest := fun dest => ih (i + 1) (by omega) dest
      rw [readEntries, hat.2, List.drop_eq_getElem_cons hi]
      simp only [Option.bind_eq_bind, Option.bind_some, hrest]
      by_cases hentry : k.interfaces[i].ctrl.procEntry = some entry
      · rw [if_pos hentry, List.filter_cons_of_pos (by simpa using hentry),
          List.flatMap_cons, List.foldlM_append,
          formatInterface_lines (hshaped _ (List.getElem_mem hi))]
        rfl
      · rw [if_neg hentry, List.filter_cons_of_neg (by simpa using hentry)]

theorem foldlM_formatTmp {lines : List (List Char)}
    (h : ∀ line ∈ lines, line.length < TMP_SIZE) (dest : Buffer) :
    lines.foldlM formatTmp dest
      = (lines.map bytesOf).foldlM (append BUFFER_INC_SIZE) dest := by
  induction lines generalizing dest with
  | nil => rfl
  | cons line lines ih =>
      have hline : formatTmp dest line = append BUFFER_INC_SIZE dest (bytesOf line) :=
        if_pos (h line (List.mem_cons_self ..))
      rw [List.map_cons, List.foldlM_cons, List.foldlM_cons, hline]
      exact Option.bind_congr fun dest _ =>
        ih (fun l hl => h l (List.mem_cons_of_mem _ hl)) dest

/-- **READING AN ENTRY** returns the texts of its interfaces, in order. -/
theorem procRead_text {k : Registry} (hlive : k.Live)
    (hshaped : ∀ x ∈ k.interfaces, x.Shaped) {entry : ProcEntry}
    {xs : List Interface}
    (hxs : (k.interfaces.filter fun x => x.ctrl.procEntry = some entry) = xs)
    (hlines : ∀ x ∈ xs, ∀ line ∈ x.lines, line.length < TMP_SIZE)
    (htext : (procText xs).length ≤ 2 ^ 32 - BUFFER_INC_SIZE.toNat) {count : Nat}
    (hcount : (procText xs).length ≤ count) :
    procRead k entry count 0 0
      = some (((procText xs).length : Int), procText xs, (procText xs).length) := by
  have hlength := hlive.interfaces.1
  have hflat : ((xs.flatMap Interface.lines).map bytesOf).flatten = procText xs := rfl
  have hshort : ∀ line ∈ xs.flatMap Interface.lines, line.length < TMP_SIZE := by
    intro line hline
    obtain ⟨x, hx, hmem⟩ := List.mem_flatMap.mp hline
    exact hlines x hx line hmem
  have hpieces : ∀ n ∈ ((xs.flatMap Interface.lines).map bytesOf).map List.length,
      n ≤ BUFFER_INC_SIZE.toNat := by
    intro n hn
    obtain ⟨bs, hbs, rfl⟩ := List.mem_map.mp hn
    obtain ⟨line, hline, rfl⟩ := List.mem_map.mp hbs
    have hlt := hshort line hline
    have htmp : TMP_SIZE ≤ BUFFER_INC_SIZE.toNat := by decide
    rw [bytesOf, List.length_map]
    omega
  obtain ⟨dest, hdest⟩ :=
    (fresh_appends_iff _).mpr ((piecesFit_below_limit hpieces).mpr (by
      rw [← List.length_flatten, hflat]
      exact htext))
  have hcontents := appends_contents _ hdest
  rw [ofSize_contents, List.nil_append, hflat] at hcontents
  have hread := readEntries_lines hlive hshaped entry k.interfaceCount.toNat 0
    (by rw [hlength, Nat.zero_add]) (Buffer.ofSize BUFFER_INC_SIZE)
  rw [List.drop_zero, hxs, foldlM_formatTmp hshort, hdest] at hread
  rw [procRead, if_neg (Nat.lt_irrefl 0), hread]
  simp only [Option.bind_eq_bind, Option.bind_some, hcontents,
    if_neg (Nat.not_lt.mpr hcount), ne_eq, not_true_eq_false, if_false]

end DistComm
