import DistComm.Announcements

/-! # Reading a peer device in pieces

    A program reads a device with one `read` after the other until one of them
    returns 0.  `peer_read` of `module/device/peer.c` first formats the whole text, and
    writes past the end of its buffer if the text does not fit (`peerRead_eq`).  Then
    it copies from the start of the text whatever the offset, and moves the offset by
    the whole length of the text, so that the second `read` returns 0: what does not
    fit the first one is lost (`reads_whole_iff`). -/

namespace DistComm

/-- `read` with the given sizes, from the offset `off`, until it returns 0: all that
    was read.  Nothing if this takes more reads. -/
def readDevice (id : Nat) (t : PeerTable) : List Nat → Nat → Option (List Char)
  | [], _ => none
  | userLen :: sizes, off => do
      let read ← peerRead id userLen off t
      if read.1 = [] then some []
      else (readDevice id t sizes read.2).map fun rest => read.1 ++ rest

/-- The reads come to an end, and together they return the text. -/
def ReadsWhole (id : Nat) (t : PeerTable) (sizes : Nat → Nat) (text : List Char) :
    Prop :=
  ∃ n, readDevice id t ((List.range n).map sizes) 0 = some text

section Read

variable {id : Nat} {t : PeerTable} {text : List Char}

/-- The text starts with its header. -/
theorem peerText_ne_nil (h : peerText id t = some text) : text ≠ [] := by
  obtain ⟨p, -, h⟩ := Option.bind_eq_some_iff.mp h
  obtain ⟨entries, -, h⟩ := Option.bind_eq_some_iff.mp h
  have hlabel : "Peer ID: ".toList ≠ [] := by decide
  have hheader : formatHeader p ≠ [] := by
    delta formatHeader
    generalize "Peer ID: ".toList = label at hlabel
    simp only [List.append_assoc]
    exact List.append_ne_nil_of_left_ne_nil hlabel _
  rw [← Option.some.inj h]
  exact List.append_ne_nil_of_left_ne_nil hheader _

/-- The loop prints its entries if all of them fit behind what was printed. -/
theorem printEntries_eq {p : Peer} (n i : Nat) {printed rest : List Char}
    (h : formatEntries p i n = some rest) (hfits : printed.length < PEER_READ_SIZE) :
    printEntries p i n printed
      = if (printed ++ rest).length < PEER_READ_SIZE then some (printed ++ rest)
        else none := by
  induction n generalizing i printed rest with
  | zero =>
      cases Option.some.inj h
      rw [printEntries, List.append_nil, if_pos hfits]
  | succ n ih =>
      obtain ⟨x, hx, h⟩ := Option.bind_eq_some_iff.mp h
      obtain ⟨rest', hrest, h⟩ := Option.bind_eq_some_iff.mp h
      cases Option.some.inj h
      rw [printEntries, hx, Option.bind_eq_bind, Option.bind_some, sprintfPeer,
        ← List.append_assoc]
      by_cases hentry : printed.length + (formatEntry x).length < PEER_READ_SIZE
      · rw [if_pos hentry]
        exact ih (i + 1) hrest (by rw [List.length_append]; exact hentry)
      · have hno : ¬ (printed ++ formatEntry x ++ rest').length < PEER_READ_SIZE := by
          rw [List.length_append, List.length_append]
          omega
        rw [if_neg hentry, if_neg hno]
        rfl

/-- **ONE READ** formats the whole text, if that fits the buffer. -/
theorem peerRead_eq (h : peerText id t = some text) (userLen off : Nat) :
    peerRead id userLen off t
      = if text.length < PEER_READ_SIZE then
          some (if text.length ≤ off then ([], off)
            else (text.take (min userLen (text.length - off)), off + text.length))
        else none := by
  obtain ⟨p, hslot, h⟩ := Option.bind_eq_some_iff.mp h
  obtain ⟨entries, hentries, h⟩ := Option.bind_eq_some_iff.mp h
  cases Option.some.inj h
  rw [peerRead, hslot, Option.bind_eq_bind, Option.bind_some, sprintfPeer,
    List.length_nil, Nat.zero_add, List.nil_append]
  by_cases hheader : (formatHeader p).length < PEER_READ_SIZE
  · rw [if_pos hheader, Option.bind_eq_bind, Option.bind_some,
      printEntries_eq _ 0 hentries hheader]
    by_cases hfits : (formatHeader p ++ entries).length < PEER_READ_SIZE
    · rw [if_pos hfits, if_pos hfits]
      exact (apply_ite some _ _ _).symm
    · rw [if_neg hfits, if_neg hfits]
      rfl
  · have hno : ¬ (formatHeader p ++ entries).length < PEER_READ_SIZE := by
      rw [List.length_append]
      omega
    rw [if_neg hheader, if_neg hno]
    rfl

/-- The first read returns as much as it may, and passes the rest. -/
theorem peerRead_start (h : peerText id t = some text)
    (hfits : text.length < PEER_READ_SIZE) (userLen : Nat) :
    peerRead id userLen 0 t = some (text.take userLen, text.length) := by
  have hpos : ¬ text.length ≤ 0 := fun hle =>
    peerText_ne_nil h (List.length_eq_zero_iff.mp (Nat.le_zero.mp hle))
  rw [peerRead_eq h, if_pos hfits, if_neg hpos, Nat.sub_zero, Nat.zero_add,
    ← List.take_take, List.take_length]

/-- The next one returns 0. -/
theorem peerRead_end (h : peerText id t = some text)
    (hfits : text.length < PEER_READ_SIZE) (userLen : Nat) :
    peerRead id userLen text.length t = some ([], text.length) := by
  rw [peerRead_eq h, if_pos hfits, if_pos (Nat.le_refl _)]

theorem take_ne_nil (h : peerText id t = some text) {userLen : Nat}
    (hpos : 1 ≤ userLen) : text.take userLen ≠ [] := by
  intro hnil
  rcases List.take_eq_nil_iff.mp hnil with hzero | hnil
  · omega
  · exact peerText_ne_nil h hnil

theorem readDevice_more {userLen off off' : Nat} {data : List Char}
    (h : peerRead id userLen off t = some (data, off')) (hne : data ≠ [])
    (sizes : List Nat) :
    readDevice id t (userLen :: sizes) off
      = (readDevice id t sizes off').map fun rest => data ++ rest := by
  rw [readDevice, h, Option.bind_eq_bind, Option.bind_some]
  exact if_neg hne

/-- **TWO READS** get what fits the first of them. -/
theorem readDevice_two (h : peerText id t = some text)
    (hfits : text.length < PEER_READ_SIZE) {userLen : Nat} (hpos : 1 ≤ userLen)
    (userLen' : Nat) (sizes : List Nat) :
    readDevice id t (userLen :: userLen' :: sizes) 0
      = some (text.take userLen) := by
  have hend : readDevice id t (userLen' :: sizes) text.length = some [] := by
    rw [readDevice, peerRead_end h hfits, Option.bind_eq_bind, Option.bind_some]
    exact if_pos rfl
  rw [readDevice_more (peerRead_start h hfits userLen) (take_ne_nil h hpos), hend,
    Option.map_some, List.append_nil]

/-- One read does not come to the end. -/
theorem readDevice_one (h : peerText id t = some text)
    (hfits : text.length < PEER_READ_SIZE) {userLen : Nat} (hpos : 1 ≤ userLen) :
    readDevice id t [userLen] 0 = none := by
  rw [readDevice_more (peerRead_start h hfits userLen) (take_ne_nil h hpos), readDevice,
    Option.map_none]

/-- A text that does not fit the buffer is not read. -/
theorem readDevice_overrun (h : peerText id t = some text)
    (hlong : ¬ text.length < PEER_READ_SIZE) (sizes : List Nat) (off : Nat) :
    readDevice id t sizes off = none := by
  cases sizes with
  | nil => rfl
  | cons userLen sizes =>
      rw [readDevice, peerRead_eq h, if_neg hlong]
      rfl

/-- What is read in the end is what fits the first read. -/
theorem readDevice_start (h : peerText id t = some text)
    (hfits : text.length < PEER_READ_SIZE) {sizes : List Nat}
    (hsizes : ∀ n ∈ sizes, 1 ≤ n) {data : List Char}
    (hread : readDevice id t sizes 0 = some data) :
    ∃ userLen, sizes.head? = some userLen ∧ data = text.take userLen := by
  cases sizes with
  | nil => cases hread
  | cons userLen sizes =>
      have hpos := hsizes userLen (List.mem_cons_self ..)
      cases sizes with
      | nil => cases (readDevice_one h hfits hpos).symm.trans hread
      | cons userLen' sizes =>
          have htwo := readDevice_two h hfits hpos userLen' sizes
          exact ⟨userLen, rfl, Option.some.inj (hread.symm.trans htwo)⟩

/-- What is read at all fits the buffer. -/
theorem ReadsWhole.fits (h : peerText id t = some text) {sizes : Nat → Nat}
    (hwhole : ReadsWhole id t sizes text) : text.length < PEER_READ_SIZE := by
  obtain ⟨n, hn⟩ := hwhole
  by_contra hlong
  cases (readDevice_overrun h hlong _ 0).symm.trans hn

/-- What is read whole is read at once. -/
theorem ReadsWhole.length_le (h : peerText id t = some text) {sizes : Nat → Nat}
    (hsizes : ∀ i, 1 ≤ sizes i) (hwhole : ReadsWhole id t sizes text) :
    text.length ≤ sizes 0 := by
  have hfits := hwhole.fits h
  obtain ⟨n, hn⟩ := hwhole
  obtain ⟨userLen, hhead, htake⟩ := readDevice_start h hfits (fun m hm => by
    obtain ⟨i, -, rfl⟩ := List.mem_map.mp hm
    exact hsizes i) hn
  cases n with
  | zero => cases hhead
  | succ n =>
      have hfirst : userLen = sizes 0 := by
        rw [List.head?_map, List.head?_range] at hhead
        exact (Option.some.inj hhead).symm
      rw [hfirst] at htake
      exact List.take_eq_self_iff text |>.mp htake.symm

/-- **READING IN PIECES** gives the whole text exactly if the text fits the buffer and
    the first piece is as long as the text. -/
theorem reads_whole_iff (h : peerText id t = some text) {sizes : Nat → Nat}
    (hsizes : ∀ i, 1 ≤ sizes i) :
    ReadsWhole id t sizes text
      ↔ text.length < PEER_READ_SIZE ∧ text.length ≤ sizes 0 := by
  constructor
  · intro hwhole
    exact ⟨hwhole.fits h, hwhole.length_le h hsizes⟩
  · rintro ⟨hfits, hle⟩
    refine ⟨2, ?_⟩
    have htwo := readDevice_two h hfits (hsizes 0) (sizes 1) []
    rw [List.take_of_length_le hle] at htwo
    exact htwo

end Read

/-- A table with a peer that serves nothing. -/
def PeerTable.silent : PeerTable :=
  ⟨some [⟨0, none, 0x0100007f, some [], 0⟩], 1, [0]⟩

/-- The text of its device. -/
def silentText : List Char := formatHeader ⟨0, none, 0x0100007f, some [], 0⟩

theorem peerText_silent : peerText 0 .silent = some silentText :=
  congrArg some (List.append_nil _)

/-- A buffer of 0x1000 bytes, as the one that the text is formatted in. -/
theorem reads_whole_iff_silent :
    ReadsWhole 0 .silent (fun _ => 0x1000) silentText :=
  (reads_whole_iff peerText_silent fun _ => by decide).mpr ⟨by decide, by decide⟩

/-- Reading byte by byte returns the first byte. -/
theorem pieces_lost :
    ¬ ∀ (id : Nat) (t : PeerTable) (text : List Char) (sizes : Nat → Nat),
      peerText id t = some text → (∀ i, 1 ≤ sizes i) →
      ReadsWhole id t sizes text := by
  intro hall
  have hwhole := hall 0 .silent silentText (fun _ => 1) peerText_silent
    fun _ => Nat.le_refl 1
  have hle := hwhole.length_le peerText_silent fun _ => Nat.le_refl 1
  exact absurd hle (by decide)

end DistComm
