import DistComm.PeerRead
import DistComm.ProcRead
import Mathlib.Data.Nat.Log

/-! # Sizes of formatted listings

    `peer_read` formats the list of a peer into 0x1000 bytes, and `format_interface`
    each of its lines into 0x500, both with `sprintf`.  How long the texts get depends
    on another host, or on the process that registers an interface, and is not
    checked anywhere: a list of 256 interfaces is too long for the first buffer, a
    long description for the second.  The texts that fit are those whose numbers and
    strings together are narrow enough (`listings_fit_iff`). -/

namespace DistComm

open RawMemory RawScan Transition

/-! ## Widths -/

/-- The number of characters of `%d`. -/
def decimalWidth (i : Int32) : Nat :=
  Nat.log 10 i.toInt.natAbs + if i.toInt < 0 then 2 else 1

/-- The number of characters of `%s`. -/
def stringWidth : Option CString → Nat
  | none => 6
  | some s => s.bytes.length

/-- The number of characters of `%pI4`. -/
def addrWidth (addr : UInt32) : Nat :=
  ((wordBytes addr).map fun b => Nat.log 10 b.toNat + 1).sum + 3

/-- The number of characters of the first `sprintf` of `peer_read`. -/
def Peer.headerWidth (p : Peer) : Nat :=
  81 + decimalWidth (Int32.ofNat p.id) + addrWidth p.addr + stringWidth p.name
    + decimalWidth p.interfaceCount

/-- The number of characters that an interface takes in the list of a peer. -/
def Advert.entryWidth (x : Advert) : Nat :=
  24 + decimalWidth x.id.toInt32 + decimalWidth x.argc.toInt32
    + decimalWidth x.retc.toInt32

/-- The number of characters for a peer and as many interfaces as are counted. -/
def Peer.textWidth (p : Peer) : Nat :=
  p.headerWidth
    + ((p.entries.take p.interfaceCount.toInt.toNat).map Advert.entryWidth).sum

/-- The numbers of characters of the lines on arguments or results. -/
def attrWidths (flags : Ptr) (info : List AttrInfo) : List Nat :=
  valuesFrom (fun i (a : UInt8 × AttrInfo) =>
    45 + decimalWidth (Int32.ofNat i) + decimalWidth (Int32.ofNat a.1.toNat)
      + stringWidth a.2.name + stringWidth a.2.description) 0 (flags.bytes.zip info)

/-- The numbers of characters of the lines that `format_interface` formats. -/
def Interface.lineWidths (x : Interface) : List Nat :=
  (40 + decimalWidth x.id.toInt32 + stringWidth x.info.name
    + stringWidth x.info.description)
    :: (attrWidths x.argFlags x.info.argInfo ++ attrWidths x.retFlags x.info.retInfo)

/-- All lines of the interface fit `tmp`, with their terminators. -/
def Interface.LinesFit (x : Interface) : Prop :=
  ∀ line ∈ x.lines, line.length < TMP_SIZE

/-! ## Lengths -/

/-- The digits of a number are one more than its logarithm. -/
theorem length_toDigits (n : Nat) :
    (Nat.toDigits 10 n).length = Nat.log 10 n + 1 := by
  have hpos : 0 < (Nat.toDigits 10 n).length := Nat.length_toDigits_pos
  refine Nat.le_antisymm ?_ ?_
  · rw [Nat.length_toDigits_le_iff (by decide) (Nat.succ_pos _)]
    exact Nat.lt_pow_succ_log_self (by decide) n
  · by_contra hlt
    have hle : (Nat.toDigits 10 n).length ≤ Nat.log 10 n := by omega
    rw [Nat.length_toDigits_le_iff (by decide) (by omega)] at hle
    have hn : n ≠ 0 := by
      rintro rfl
      rw [Nat.log_zero_right] at hlt
      omega
    exact absurd (Nat.pow_log_le_self 10 hn) (Nat.not_le.mpr hle)

theorem length_natText (n : Nat) : (toString n).toList.length = Nat.log 10 n + 1 := by
  have hrepr : (toString n).toList = Nat.toDigits 10 n := Nat.toList_repr
  rw [hrepr, length_toDigits]

theorem length_formatInt (i : Int32) : (formatInt i).length = decimalWidth i := by
  rw [formatInt, decimalWidth]
  cases i.toInt with
  | ofNat n =>
      have hpos : ¬ Int.ofNat n < 0 := Int.not_lt.mpr (Int.natCast_nonneg n)
      rw [if_neg hpos]
      exact length_natText n
  | negSucc n =>
      have hsign : "-".toList.length = 1 := rfl
      have htext : (toString (Int.negSucc n)).toList
          = "-".toList ++ (toString (n + 1)).toList := String.toList_append
      rw [if_pos (Int.negSucc_lt_zero n), htext, List.length_append, hsign,
        length_natText, Int.natAbs_negSucc, Nat.add_comm]

theorem length_formatString (s : Option CString) :
    (formatString s).length = stringWidth s := by
  cases s with
  | none => rfl
  | some s => exact List.length_map _

theorem length_formatAddr (addr : UInt32) :
    (formatAddr addr).length = addrWidth addr := by
  have hdot : ".".toList.length = 1 := rfl
  rw [formatAddr, addrWidth, wordBytes]
  simp only [List.map_cons, List.map_nil, List.intercalate, List.intersperse,
    List.flatten_cons, List.flatten_nil, List.length_append, List.length_nil,
    length_natText, hdot, List.sum_cons, List.sum_nil]
  omega

theorem length_formatHeader (p : Peer) : (formatHeader p).length = p.headerWidth := by
  have h1 : "Peer ID: ".toList.length = 9 := rfl
  have h2 : "\nPeer Address: ".toList.length = 15 := rfl
  have h3 : "\nPeer Name: ".toList.length = 12 := rfl
  have h4 : "\nPeer Interface Count: ".toList.length = 23 := rfl
  have h5 : "\nPeer Interface List:\n".toList.length = 22 := rfl
  delta formatHeader
  rw [Peer.headerWidth]
  simp only [List.length_append, length_formatInt, length_formatAddr,
    length_formatString, h1, h2, h3, h4, h5]
  omega

theorem length_formatEntry (x : Advert) : (formatEntry x).length = x.entryWidth := by
  have h1 : "Interface ".toList.length = 10 := rfl
  have h2 : ", ".toList.length = 2 := rfl
  have h3 : " args ".toList.length = 6 := rfl
  have h4 : " rets\n".toList.length = 6 := rfl
  delta formatEntry
  rw [Advert.entryWidth]
  simp only [List.length_append, length_formatInt, h1, h2, h3, h4]
  omega

/-- **THE LOOP** of `peer_read` prints the widths of its entries. -/
theorem length_formatEntries {p : Peer} (n i : Nat) {text : List Char}
    (h : formatEntries p i n = some text) :
    text.length = (((p.entries.drop i).take n).map Advert.entryWidth).sum := by
  induction n generalizing i text with
  | zero =>
      cases Option.some.inj h
      rw [List.take_zero]
      rfl
  | succ n ih =>
      obtain ⟨x, hx, h⟩ := Option.bind_eq_some_iff.mp h
      obtain ⟨rest, hrest, h⟩ := Option.bind_eq_some_iff.mp h
      rw [p.entry_eq] at hx
      obtain ⟨hi, hget⟩ := List.getElem?_eq_some_iff.mp hx
      rw [← Option.some.inj h, List.drop_eq_getElem_cons hi, List.take_succ_cons,
        List.map_cons, List.sum_cons, List.length_append, length_formatEntry, hget,
        ih (i + 1) hrest]

/-- **THE TEXT** of a peer is as long as its width says. -/
theorem length_peerText {id : Nat} {t : PeerTable} {p : Peer} {text : List Char}
    (hslot : t.slot id = some p) (htext : peerText id t = some text) :
    text.length = p.textWidth := by
  rw [peerText, hslot, Option.bind_eq_bind, Option.bind_some] at htext
  obtain ⟨entries, hentries, htext⟩ := Option.bind_eq_some_iff.mp htext
  rw [← Option.some.inj htext, List.length_append, length_formatHeader,
    length_formatEntries _ 0 hentries, List.drop_zero, Peer.textWidth]

theorem length_headerLine (x : Interface) :
    (headerLine x).length = 40 + decimalWidth x.id.toInt32 + stringWidth x.info.name
      + stringWidth x.info.description := by
  have h1 : "interface:\n\tid: ".toList.length = 16 := rfl
  have h2 : "\n\tname: ".toList.length = 8 := rfl
  have h3 : "\n\tdescription: ".toList.length = 15 := rfl
  have h4 : "\n".toList.length = 1 := rfl
  delta headerLine
  simp only [List.length_append, length_formatInt, length_formatString, h1, h2, h3, h4]
  omega

theorem length_attrLine {label : String} (hlabel : label.toList.length = 3) (i : Nat)
    (flag : UInt8) (attr : AttrInfo) :
    (attrLine label i flag attr).length
      = 45 + decimalWidth (Int32.ofNat i) + decimalWidth (Int32.ofNat flag.toNat)
        + stringWidth attr.name + stringWidth attr.description := by
  have h1 : "\t\t".toList.length = 2 := rfl
  have h2 : ":\n\t\t\tflag: ".toList.length = 11 := rfl
  have h3 : "\n\t\t\tname: ".toList.length = 10 := rfl
  have h4 : " \n\t\t\tdescription: ".toList.length = 18 := rfl
  have h5 : "\n".toList.length = 1 := rfl
  delta attrLine
  simp only [List.length_append, length_formatInt, length_formatString, hlabel, h1, h2,
    h3, h4, h5]
  omega

theorem length_attrLines {label : String} (hlabel : label.toList.length = 3)
    (flags : Ptr) (info : List AttrInfo) :
    (attrLines label flags info).map List.length = attrWidths flags info := by
  rw [attrLines, attrWidths]
  refine map_valuesFrom_index (fun i a => ?_) _ 0
  exact length_attrLine hlabel i a.1 a.2

/-- The headings are short, the other lines as long as their widths say. -/
theorem Interface.linesFit_iff (x : Interface) :
    x.LinesFit ↔ ∀ w ∈ x.lineWidths, w < TMP_SIZE := by
  have hargs := @length_attrLines "arg" rfl x.argFlags x.info.argInfo
  have hrets := @length_attrLines "ret" rfl x.retFlags x.info.retInfo
  have h1 : "\targuments:\n".toList.length < TMP_SIZE := by decide
  have h2 : "\treturn_values:\n".toList.length < TMP_SIZE := by decide
  rw [Interface.LinesFit, Interface.lines, Interface.lineWidths, ← hargs, ← hrets,
    ← List.map_append, ← length_headerLine]
  simp only [List.forall_mem_cons, List.forall_mem_append, List.forall_mem_map, h1, h2,
    true_and]

/-- **LISTINGS FIT** their buffers exactly if their widths do. -/
theorem listings_fit_iff {id : Nat} {t : PeerTable} {p : Peer} {text : List Char}
    (hslot : t.slot id = some p) (htext : peerText id t = some text) (x : Interface) :
    (text.length < PEER_READ_SIZE ↔ p.textWidth < PEER_READ_SIZE)
      ∧ (x.LinesFit ↔ ∀ w ∈ x.lineWidths, w < TMP_SIZE) := by
  rw [length_peerText hslot htext]
  exact ⟨Iff.rfl, x.linesFit_iff⟩

/-- A peer that serves nothing, and an interface without strings. -/
theorem listings_fit_iff_silent :
    silentText.length < PEER_READ_SIZE
      ∧ (UserInterface.bare.registered 1 7 none).LinesFit := by
  have hslot : PeerTable.silent.slot 0 = some ⟨0, none, 0x0100007f, some [], 0⟩ := rfl
  have hfit := listings_fit_iff hslot peerText_silent
    (UserInterface.bare.registered 1 7 none)
  exact ⟨hfit.1.mpr (by decide), hfit.2.mpr (by decide)⟩

/-! ## How many interfaces fit -/

/-- An `int` takes at most eleven characters. -/
theorem decimalWidth_le (i : Int32) : decimalWidth i ≤ 11 := by
  have hlow : -2 ^ 31 ≤ i.toInt := i.le_toInt
  have hhigh : i.toInt < 2 ^ 31 := i.toInt_lt
  have hlog : Nat.log 10 i.toInt.natAbs < 10 :=
    Nat.log_lt_of_lt_pow' (by decide) (by omega)
  rw [decimalWidth]
  split
  · omega
  · omega

theorem decimalWidth_pos (i : Int32) : 1 ≤ decimalWidth i := by
  rw [decimalWidth]
  split
  · omega
  · omega

theorem sum_entryWidth_le (xs : List Advert) :
    (xs.map Advert.entryWidth).sum ≤ 57 * xs.length := by
  induction xs with
  | nil => exact Nat.zero_le _
  | cons x xs ih =>
      have hid := decimalWidth_le x.id.toInt32
      have hargc := decimalWidth_le x.argc.toInt32
      have hretc := decimalWidth_le x.retc.toInt32
      rw [List.map_cons, List.sum_cons, List.length_cons, Advert.entryWidth]
      omega

theorem le_sum_entryWidth (xs : List Advert) :
    27 * xs.length ≤ (xs.map Advert.entryWidth).sum := by
  induction xs with
  | nil => exact Nat.zero_le _
  | cons x xs ih =>
      have hid := decimalWidth_pos x.id.toInt32
      have hargc := decimalWidth_pos x.argc.toInt32
      have hretc := decimalWidth_pos x.retc.toInt32
      rw [List.map_cons, List.sum_cons, List.length_cons, Advert.entryWidth]
      omega

theorem addrWidth_le (addr : UInt32) : 7 ≤ addrWidth addr ∧ addrWidth addr ≤ 15 := by
  have hbyte : ∀ b : UInt8, Nat.log 10 b.toNat < 3 := fun b =>
    Nat.log_lt_of_lt_pow' (by decide) (Nat.lt_trans b.toNat_lt (by decide))
  have h1 := hbyte (UInt8.ofNat addr.toNat)
  have h2 := hbyte (UInt8.ofNat (addr.toNat / 2 ^ 8))
  have h3 := hbyte (UInt8.ofNat (addr.toNat / 2 ^ 16))
  have h4 := hbyte (UInt8.ofNat (addr.toNat / 2 ^ 24))
  rw [addrWidth, wordBytes]
  simp only [List.map_cons, List.map_nil, List.sum_cons, List.sum_nil]
  omega

/-- **FEW INTERFACES**: 69 of them fit, whatever their numbers are. -/
theorem textWidth_few {p : Peer} (hname : p.name = none)
    (hfew : p.interfaceCount.toInt ≤ 69) : p.textWidth < PEER_READ_SIZE := by
  have hid := decimalWidth_le (Int32.ofNat p.id)
  have haddr := (addrWidth_le p.addr).2
  have hcount := decimalWidth_le p.interfaceCount
  have hsum := sum_entryWidth_le (p.entries.take p.interfaceCount.toInt.toNat)
  have hlen := List.length_take_le p.interfaceCount.toInt.toNat p.entries
  have hsize : PEER_READ_SIZE = 4096 := rfl
  have hnull : stringWidth p.name = 6 := by
    rw [hname]
    rfl
  rw [Peer.textWidth, Peer.headerWidth, hnull]
  omega

/-- **MANY INTERFACES**: 149 of them do not fit, whatever their numbers are. -/
theorem textWidth_many {p : Peer} (hmany : 149 ≤ p.interfaceCount.toInt)
    (hentries : p.interfaceCount.toInt = p.entries.length) :
    ¬ p.textWidth < PEER_READ_SIZE := by
  have haddr := (addrWidth_le p.addr).1
  have hsum := le_sum_entryWidth (p.entries.take p.interfaceCount.toInt.toNat)
  have hsize : PEER_READ_SIZE = 4096 := rfl
  rw [List.length_take, Nat.min_eq_left (by omega)] at hsum
  rw [Peer.textWidth, Peer.headerWidth]
  omega

/-! ## Listings that do not fit -/

/-- An interface without arguments and results, as it travels in a list. -/
def Listing.bare : Listing := ⟨1, [], []⟩

theorem length_listEncoding_bare (n : Nat) :
    (listEncoding (List.replicate n .bare)).length = 4 + 12 * n := by
  rw [listEncoding, List.length_append, length_wordBytes, List.length_flatMap,
    List.map_replicate, List.sum_replicate_nat]
  show 4 + n * 12 = _
  omega

/-- A host with as many interfaces as a list may have. -/
def Announcement.crowded : Announcement where
  sender := 1
  listings := List.replicate 256 .bare
  packet := listEncoding (List.replicate 256 .bare)
  count_le := by
    rw [List.length_replicate]
    decide
  fits l hl := by
    rw [List.eq_of_mem_replicate hl]
    decide
  serialized := by
    refine (serializeInterfacesPacket_iff ⟨?_, fun l hl => ?_⟩).mpr
      (piecesFit_of_small ?_ ?_)
    · rw [List.length_replicate]
      decide
    · rw [List.eq_of_mem_replicate hl]
      decide
    · rw [List.map_replicate]
      intro x hx
      rw [List.eq_of_mem_replicate hx]
      exact ⟨by decide, by decide⟩
    · rw [List.length_map, List.length_replicate]
      decide
  received := by
    rw [length_listEncoding_bare]
    decide

/-- Once it was heard twice, its peer has all of them. -/
theorem crowded_peer :
    ∃ s, runAll discoveryServerLoop Discovery.initial
        ([.crowded, .crowded].map Announcement.reception) = some s
      ∧ ∃ id p text, s.table.slot id = some p ∧ peerText id s.table = some text
        ∧ p.interfaceCount.toInt = 256 ∧ p.entries.length = 256 := by
  obtain ⟨s, hrun, hwell, htracks⟩ := discovery_tracks [.crowded, .crowded] (by decide)
  obtain ⟨p, hp, haddr⟩ := List.mem_map.mp
    ((htracks.senders 1).mpr (List.mem_cons_self ..))
  have hheard : heard [.crowded, .crowded] p.addr = [.crowded] ++ [.crowded] := by
    rw [haddr]
    rfl
  obtain ⟨hcount, hentries⟩ := (htracks.recorded p hp).of_heard hheard
  rw [if_neg (List.cons_ne_nil _ _)] at hentries
  have hlength : Announcement.crowded.adverts.length = 256 := by
    rw [Announcement.adverts, List.length_map]
    exact List.length_replicate
  rw [hlength] at hcount
  obtain ⟨id, hid⟩ := List.mem_iff_getElem?.mp hp
  have hslot : s.table.slot id = some p := by
    rw [s.table.slot_eq_live (hwell.lt_count hid), hid]
  have hlen : p.interfaceCount.toInt = p.entries.length := by
    rw [hcount, hentries, hlength]
  obtain ⟨text, htext⟩ := Option.isSome_iff_exists.mp (readers_ok hslot hlen).1
  exact ⟨s, hrun, id, p, text, hslot, htext, hcount, by rw [hentries, hlength]⟩

theorem nulFree_replicate {b : UInt8} (hb : b ≠ 0) (n : Nat) :
    0 ∉ List.replicate n b := fun h => hb (List.eq_of_mem_replicate h).symm

theorem letter_ne_zero : (97 : UInt8) ≠ 0 := by decide

/-- An interface with a description of 0x500 bytes. -/
def UserInterface.verbose : UserInterface :=
  { UserInterface.bare with
    description := ⟨List.replicate 0x500 97, nulFree_replicate letter_ne_zero 0x500⟩ }

/-- Too many interfaces for the buffer of `peer_read`, and too long a description for
    that of `format_interface`. -/
theorem listings_overflow :
    (¬ ∀ (rs : List Reception) (s : Discovery) (id : Nat) (text : List Char),
      runAll discoveryServerLoop Discovery.initial rs = some s →
      peerText id s.table = some text → text.length < PEER_READ_SIZE)
    ∧ ¬ ∀ (u : UserInterface) (id : UInt32) (pid : Int32) (entry : Option ProcEntry),
      (u.registered id pid entry).LinesFit := by
  constructor
  · intro hall
    obtain ⟨s, hrun, id, p, text, hslot, htext, hcount, hentries⟩ := crowded_peer
    have hlt := hall _ s id text hrun htext
    rw [length_peerText hslot htext] at hlt
    refine textWidth_many ?_ ?_ hlt
    · rw [hcount]
      decide
    · rw [hcount, hentries]
      rfl
  · intro hall
    have hfit := (Interface.linesFit_iff _).mp (hall .verbose 1 7 none)
    have hheader := hfit _ (List.mem_cons_self ..)
    have hlong : stringWidth (some UserInterface.verbose.description) = 0x500 :=
      List.length_replicate
    have hdescription : (UserInterface.verbose.registered 1 7 none).info.description
        = some UserInterface.verbose.description := rfl
    have htmp : TMP_SIZE = 0x500 := rfl
    rw [hdescription, hlong] at hheader
    omega

end DistComm
