import DistComm.Scan
import DistComm.Types

/-! # Interface list packets

    `count||id||argc||arg_flags...||retc||ret_flags...`: the packet a host
    broadcasts, with the encoder and the decoder of `module/packet.c`.

    `listEncoding` is the format on its own.  A successful encoder writes it for
    entries with both flag arrays (`serializeInterfacesPacket_eq`), the decoder's
    loop parses it (`parses_interfaceList`), and the decoder's two checks decide
    whether the loop is entered (`run_unserializeInterfacesPacket`).  The loop
    checks nothing, so the decoder stays inside an accepted datagram exactly when
    the datagram begins with a complete list (`decodesInside_iff`). -/

namespace DistComm

open RawMemory RawScan GrowBuffer

/-- `EINVALIDPACKETLENGTH`. -/
def EINVALIDPACKETLENGTH : Int := 20001

/-- `EINVALIDINTERFACECOUNT`. -/
def EINVALIDINTERFACECOUNT : Int := 20002

/-- The fields of `interface_t` that travel in a list packet. -/
structure Advert where
  id : UInt32
  argc : UInt32
  retc : UInt32
  argFlags : Ptr
  retFlags : Ptr
  deriving DecidableEq, Repr

/-! ## Encoder and decoder -/

/-- One round of the loop of `serialize_interfaces_packet`.  The round ends
    early at a NULL entry or at a missing array, with what precedes it already
    written. -/
def serializeInterface (entry : Option Advert) (buf : Buffer) :
    Option Buffer :=
  match entry with
  | none => some buf
  | some interface => do
      let buf ← Kernel.copyToBuffer buf (wordBytes interface.id)
      if interface.argFlags = .null then pure buf
      else do
        let buf ← Kernel.copyToBuffer buf (wordBytes interface.argc)
        let argFlags ← interface.argFlags.read interface.argc.toNat
        let buf ← Kernel.copyToBuffer buf argFlags
        if interface.retFlags = .null then pure buf
        else do
          let buf ← Kernel.copyToBuffer buf (wordBytes interface.retc)
          let retFlags ← interface.retFlags.read interface.retc.toNat
          Kernel.copyToBuffer buf retFlags

/-- The loop of `serialize_interfaces_packet`, from index `i` for `n` entries. -/
def serializeInterfaces (interfaceList : List (Option Advert)) :
    Nat → Nat → Buffer → Option Buffer
  | _, 0, buf => some buf
  | i, n + 1, buf => do
      let entry ← interfaceList[i]?
      let buf ← serializeInterface entry buf
      serializeInterfaces interfaceList (i + 1) n buf

/-- `serialize_interfaces_packet`; the entries of the list may be NULL. -/
def serializeInterfacesPacket (interfaceList : List (Option Advert))
    (count : UInt32) : Option (List UInt8) := do
  let buf ← Kernel.copyToBuffer (Buffer.ofSize BUFFER_INC_SIZE) (wordBytes count)
  let buf ← serializeInterfaces interfaceList 0 count.toNat buf
  pure buf.contents

/-- One round of the loop of `unserialize_interfaces_packet`. -/
def unserializeInterface : Scan Advert := do
  let id ← word
  let argc ← word
  let argFlags ← bytes argc.toNat
  let retc ← word
  let retFlags ← bytes retc.toNat
  pure ⟨id, argc, retc, .block argFlags, .block retFlags⟩

/-- `unserialize_interfaces_packet`: the interfaces, or a negative error. -/
def unserializeInterfacesPacket (packetLength : UInt32) :
    Scan (Except Int (List Advert)) :=
  if packetLength < 4 then pure (.error (-EINVALIDPACKETLENGTH))
  else do
    let count ← word
    if count > MAX_INTERFACES then pure (.error (-EINVALIDINTERFACECOUNT))
    else do
      let interfaces ← loop (fun _ => unserializeInterface) 0 count.toNat
      pure (.ok interfaces)

/-! ## The format -/

/-- What a packet says about one interface. -/
structure Listing where
  id : UInt32
  argFlags : List UInt8
  retFlags : List UInt8
  deriving DecidableEq, Repr

/-- Both arrays can be counted by a word. -/
def Listing.Fits (l : Listing) : Prop :=
  l.argFlags.length < 2 ^ 32 ∧ l.retFlags.length < 2 ^ 32

instance (l : Listing) : Decidable l.Fits :=
  inferInstanceAs (Decidable (_ ∧ _))

/-- The interface a listing describes. -/
def Listing.advert (l : Listing) : Advert :=
  ⟨l.id, UInt32.ofNat l.argFlags.length, UInt32.ofNat l.retFlags.length,
    .block l.argFlags, .block l.retFlags⟩

/-- `id||argc||arg_flags...||retc||ret_flags...`. -/
def encodeListing (l : Listing) : List UInt8 :=
  wordBytes l.id ++ (wordBytes (UInt32.ofNat l.argFlags.length)
    ++ (l.argFlags ++ (wordBytes (UInt32.ofNat l.retFlags.length)
      ++ l.retFlags)))

/-- `count||interfaces...`. -/
def listEncoding (ls : List Listing) : List UInt8 :=
  wordBytes (UInt32.ofNat ls.length) ++ ls.flatMap encodeListing

/-- The listings a packet can carry. -/
def Listable (ls : List Listing) : Prop :=
  ls.length < 2 ^ 32 ∧ ∀ l ∈ ls, l.Fits

theorem listEncoding_ne_nil (ls : List Listing) : listEncoding ls ≠ [] :=
  List.cons_ne_nil _ _

/-! ## The encoder writes the format -/

/-- What the encoder copies for one interface, one piece after the other. -/
def Listing.pieces (l : Listing) : List (List UInt8) :=
  [wordBytes l.id, wordBytes (UInt32.ofNat l.argFlags.length), l.argFlags,
    wordBytes (UInt32.ofNat l.retFlags.length), l.retFlags]

theorem flatten_pieces (ls : List Listing) :
    (ls.flatMap Listing.pieces).flatten = ls.flatMap encodeListing := by
  rw [flatten_flatMap]
  refine congrArg (fun f => ls.flatMap f) (funext fun l => ?_)
  simp only [Listing.pieces, encodeListing, List.flatten_cons, List.flatten_nil,
    List.append_nil]

/-- A round over a complete entry copies its pieces. -/
theorem serializeInterface_pieces {l : Listing} (hl : l.Fits) (buf : Buffer) :
    serializeInterface (some l.advert) buf
      = l.pieces.foldlM (append BUFFER_INC_SIZE) buf := by
  have hread : ∀ {n : Nat} {bs : List UInt8}, n = bs.length →
      (Ptr.block bs).read n = some bs := by
    intro n bs hn
    show (if n ≤ bs.length then some (bs.take n) else none) = some bs
    rw [if_pos (by omega), hn, List.take_length]
  have hargs : (l.advert.argFlags).read l.advert.argc.toNat
      = some l.argFlags := hread (UInt32.toNat_ofNat_of_lt' hl.1)
  have hrets : (l.advert.retFlags).read l.advert.retc.toNat
      = some l.retFlags := hread (UInt32.toNat_ofNat_of_lt' hl.2)
  have hargs0 : ¬ l.advert.argFlags = .null := fun h0 => nomatch h0
  have hrets0 : ¬ l.advert.retFlags = .null := fun h0 => nomatch h0
  -- the five copies of the source, one after the other
  simp only [serializeInterface, if_neg hargs0, if_neg hrets0, hargs, hrets,
    Option.bind_eq_bind, Option.bind_some, Listing.pieces, List.foldlM_cons,
    List.foldlM_nil, Option.pure_def, Option.bind_fun_some]
  rfl

/-- The loop copies the pieces of the entries from index `i` on. -/
theorem serializeInterfaces_pieces {ls : List Listing}
    (hls : ∀ l ∈ ls, l.Fits) (n i : Nat) (hn : i + n = ls.length)
    (buf : Buffer) :
    serializeInterfaces (ls.map fun l => some l.advert) i n buf
      = ((ls.drop i).flatMap Listing.pieces).foldlM (append BUFFER_INC_SIZE)
          buf := by
  -- the entry in front of the rest is the one the next round copies
  induction n generalizing i buf with
  | zero =>
      rw [List.drop_eq_nil_of_le (by omega)]
      rfl
  | succ n ih =>
      have hi : i < ls.length := by omega
      have hstep := fun b => ih (i + 1) (by omega) b
      rw [List.drop_eq_getElem_cons hi, List.flatMap_cons, List.foldlM_append,
        ← serializeInterface_pieces (hls _ (List.getElem_mem hi)),
        serializeInterfaces, List.getElem?_map, List.getElem?_eq_getElem hi]
      simp only [Option.map_some, Option.bind_eq_bind, Option.bind_some, hstep]

/-- The encoder copies the count and the pieces of all entries. -/
theorem serializeInterfacesPacket_pieces {ls : List Listing}
    (hls : Listable ls) :
    serializeInterfacesPacket (ls.map fun l => some l.advert)
        (UInt32.ofNat ls.length)
      = ((wordBytes (UInt32.ofNat ls.length)
          :: ls.flatMap Listing.pieces).foldlM (append BUFFER_INC_SIZE)
            (Buffer.ofSize BUFFER_INC_SIZE)).map Buffer.contents := by
  have hcount := UInt32.toNat_ofNat_of_lt' hls.1
  rw [serializeInterfacesPacket, List.foldlM_cons, hcount]
  simp only [serializeInterfaces_pieces hls.2 ls.length 0 (Nat.zero_add _),
    List.drop_zero, Option.bind_eq_bind, Option.map_bind, Option.pure_def]
  exact Option.bind_congr fun _ _ => Option.map_eq_bind.symm

/-- A packet that the encoder builds for complete entries is the encoding of
    what they list. -/
theorem serializeInterfacesPacket_eq {ls : List Listing} (hls : Listable ls)
    {packet : List UInt8}
    (h : serializeInterfacesPacket (ls.map fun l => some l.advert)
      (UInt32.ofNat ls.length) = some packet) :
    packet = listEncoding ls := by
  rw [serializeInterfacesPacket_pieces hls] at h
  obtain ⟨buf, hbuf, hpacket⟩ := Option.map_eq_some_iff.mp h
  rw [← hpacket, appends_contents _ hbuf, List.flatten_cons, flatten_pieces]
  rfl

/-- A word holds the length of a packet: the buffer size is one. -/
theorem length_serializeInterfacesPacket {entries : List (Option Advert)}
    {count : UInt32} {packet : List UInt8}
    (h : serializeInterfacesPacket entries count = some packet) :
    packet.length < 2 ^ 32 := by
  simp only [serializeInterfacesPacket, Option.bind_eq_bind,
    Option.bind_eq_some_iff] at h
  obtain ⟨b1, -, b2, -, h2⟩ := h
  rw [← Option.some.inj h2]
  exact Nat.lt_of_le_of_lt b2.fits b2.maxSize.toNat_lt

/-- Both arrays are there, and as long as their counts. -/
def Advert.Complete (x : Advert) : Prop :=
  ∃ argFlags retFlags, x.argFlags = .block argFlags
    ∧ argFlags.length = x.argc.toNat ∧ x.retFlags = .block retFlags
    ∧ retFlags.length = x.retc.toNat

/-- The lengths of the pieces that the encoder copies for an interface. -/
def Advert.pieceLengths (x : Advert) : List Nat :=
  [4, 4, x.argc.toNat, 4, x.retc.toNat]

theorem Advert.Complete.listing {x : Advert} (h : x.Complete) :
    ∃ l : Listing, l.Fits ∧ l.advert = x := by
  obtain ⟨argFlags, retFlags, hargs, hargc, hrets, hretc⟩ := h
  refine ⟨⟨x.id, argFlags, retFlags⟩, ⟨?_, ?_⟩, ?_⟩
  · show argFlags.length < 2 ^ 32
    rw [hargc]
    exact x.argc.toNat_lt
  · show retFlags.length < 2 ^ 32
    rw [hretc]
    exact x.retc.toNat_lt
  · cases x with
    | mk id argc retc a r =>
        show (⟨id, UInt32.ofNat argFlags.length, UInt32.ofNat retFlags.length,
          .block argFlags, .block retFlags⟩ : Advert) = _
        rw [hargc, hretc, UInt32.ofNat_toNat, UInt32.ofNat_toNat, ← hargs,
          ← hrets]

/-- Complete interfaces are what some listings describe. -/
theorem exists_listings {xs : List Advert} (h : ∀ x ∈ xs, x.Complete) :
    ∃ ls : List Listing, (∀ l ∈ ls, l.Fits) ∧ ls.map Listing.advert = xs := by
  induction xs with
  | nil => exact ⟨[], (fun _ h => nomatch h), rfl⟩
  | cons x xs ih =>
      obtain ⟨l, hl, hx⟩ := (h x (List.mem_cons_self ..)).listing
      obtain ⟨ls, hls, hxs⟩ := ih fun y hy => h y (List.mem_cons_of_mem _ hy)
      refine ⟨l :: ls, fun l' hl' => ?_, by rw [List.map_cons, hx, hxs]⟩
      rcases List.mem_cons.mp hl' with heq | hmem
      · rw [heq]
        exact hl
      · exact hls l' hmem

theorem length_pieces {l : Listing} (hl : l.Fits) :
    l.pieces.map List.length = l.advert.pieceLengths := by
  show [(wordBytes _).length, (wordBytes _).length, l.argFlags.length,
    (wordBytes _).length, l.retFlags.length] = [4, 4,
      (UInt32.ofNat l.argFlags.length).toNat, 4,
      (UInt32.ofNat l.retFlags.length).toNat]
  rw [length_wordBytes, length_wordBytes, length_wordBytes,
    UInt32.toNat_ofNat_of_lt' hl.1, UInt32.toNat_ofNat_of_lt' hl.2]

theorem length_flatMap_pieces {ls : List Listing} (hls : ∀ l ∈ ls, l.Fits) :
    (ls.flatMap Listing.pieces).map List.length
      = (ls.map Listing.advert).flatMap Advert.pieceLengths := by
  induction ls with
  | nil => rfl
  | cons l ls ih =>
      rw [List.flatMap_cons, List.map_append,
        length_pieces (hls l (List.mem_cons_self ..)),
        ih fun l' h => hls l' (List.mem_cons_of_mem _ h), List.map_cons,
        List.flatMap_cons]

/-- **THE ENCODER**: for complete interfaces it stays inside its buffer exactly if
    the count and the pieces of the interfaces fit. -/
theorem serializeInterfacesPacket_iff {ls : List Listing} (hls : Listable ls) :
    serializeInterfacesPacket (ls.map fun l => some l.advert)
        (UInt32.ofNat ls.length) = some (listEncoding ls)
      ↔ PiecesFit BUFFER_INC_SIZE.toNat 0
          (4 :: (ls.map Listing.advert).flatMap Advert.pieceLengths) := by
  have hiff := fresh_appends_iff
    (wordBytes (UInt32.ofNat ls.length) :: ls.flatMap Listing.pieces)
  rw [List.map_cons, length_wordBytes, length_flatMap_pieces hls.2] at hiff
  rw [← hiff]
  constructor
  · intro h
    rw [serializeInterfacesPacket_pieces hls] at h
    obtain ⟨buf, hbuf, -⟩ := Option.map_eq_some_iff.mp h
    exact ⟨buf, hbuf⟩
  · rintro ⟨buf, hbuf⟩
    have hsome : serializeInterfacesPacket (ls.map fun l => some l.advert)
        (UInt32.ofNat ls.length) = some buf.contents := by
      rw [serializeInterfacesPacket_pieces hls, hbuf]
      rfl
    rw [hsome, serializeInterfacesPacket_eq hls hsome]

/-! ## The decoder parses the format -/

/-- One round of the decoder's loop parses one listing. -/
theorem parses_unserializeInterface :
    Parses unserializeInterface Listing.Fits encodeListing Listing.advert := by
  have h := parses_word.bind (fun (id : UInt32) _ =>
    parses_word.bind (fun (argc : UInt32) _ =>
      (parses_bytes argc.toNat).bind (fun (argFlags : List UInt8) _ =>
        parses_word.bind (fun (retc : UInt32) _ =>
          (parses_bytes retc.toNat).map (fun retFlags =>
            (⟨id, argc, retc, .block argFlags, .block retFlags⟩ : Advert))))))
  refine h.reindex Listing.Fits (fun l =>
    (l.id, UInt32.ofNat l.argFlags.length, l.argFlags,
      UInt32.ofNat l.retFlags.length, l.retFlags)) ?_ ?_
  · intro l hl
    exact ⟨trivial, trivial, (UInt32.toNat_ofNat_of_lt' hl.1).symm, trivial,
      (UInt32.toNat_ofNat_of_lt' hl.2).symm⟩
  · rintro ⟨id, argc, argFlags, retc, retFlags⟩ ⟨-, -, ha, -, hr⟩
    have ha' : argFlags.length = argc.toNat := ha
    have hr' : retFlags.length = retc.toNat := hr
    refine ⟨⟨id, argFlags, retFlags⟩, ⟨?_, ?_⟩, ?_⟩
    · show argFlags.length < 2 ^ 32
      rw [ha']
      exact argc.toNat_lt
    · show retFlags.length < 2 ^ 32
      rw [hr']
      exact retc.toNat_lt
    · show (id, UInt32.ofNat argFlags.length, argFlags,
        UInt32.ofNat retFlags.length, retFlags)
          = (id, argc, argFlags, retc, retFlags)
      rw [ha', hr', UInt32.ofNat_toNat, UInt32.ofNat_toNat]

/-- The count word and the loop, as the decoder runs them once the checks are
    passed. -/
def interfaceList : Scan (List Advert) := do
  let count ← word
  loop (fun _ => unserializeInterface) 0 count.toNat

theorem parses_interfaceList :
    Parses interfaceList Listable listEncoding
      (fun ls => ls.map Listing.advert) := by
  have h := parses_word.bind (fun (w : UInt32) _ =>
    parses_loop (fun _ => parses_unserializeInterface) w.toNat 0)
  simp only [valuesFrom_const] at h
  refine h.reindex Listable (fun ls => (UInt32.ofNat ls.length, ls)) ?_ ?_
  · rintro ls ⟨hlen, hls⟩
    exact ⟨trivial, (UInt32.toNat_ofNat_of_lt' hlen).symm, hls⟩
  · rintro ⟨w, ls⟩ ⟨-, hlen, hls⟩
    have hlen' : ls.length = w.toNat := hlen
    refine ⟨ls, ⟨by rw [hlen']; exact w.toNat_lt, hls⟩, ?_⟩
    show (UInt32.ofNat ls.length, ls) = (w, ls)
    rw [hlen', UInt32.ofNat_toNat]

/-! ## Where the decoder reads -/

/-- The answer is a negative error. -/
def Rejected : Except Int (List Advert) → Prop
  | .error err => err < 0
  | .ok _ => False

instance (r : Except Int (List Advert)) : Decidable (Rejected r) :=
  match r with
  | .error err => inferInstanceAs (Decidable (err < 0))
  | .ok _ => inferInstanceAs (Decidable False)

/-- A datagram of less than four bytes is refused unread. -/
theorem unserializeInterfacesPacket_short {packetLength : UInt32}
    (h : packetLength < 4) (m : Mem) (pos : Nat) :
    unserializeInterfacesPacket packetLength m pos
      = ⟨.error (-EINVALIDPACKETLENGTH), pos, []⟩ := by
  rw [unserializeInterfacesPacket, if_pos h, run_pure]

/-- A count above `MAX_INTERFACES` is refused after the count word. -/
theorem unserializeInterfacesPacket_crowded {packetLength : UInt32}
    (h : ¬ packetLength < 4) {m : Mem} {pos : Nat}
    (hcount : MAX_INTERFACES < wordAt m pos) :
    unserializeInterfacesPacket packetLength m pos
      = ⟨.error (-EINVALIDINTERFACECOUNT), pos + 4, [⟨pos, 4⟩]⟩ := by
  rw [unserializeInterfacesPacket, if_neg h, run_bind, run_word, if_pos hcount,
    run_pure, List.append_nil]

/-- Past both checks the decoder is its loop. -/
theorem run_unserializeInterfacesPacket {packetLength : UInt32}
    (h : ¬ packetLength < 4) {m : Mem} {pos : Nat}
    (hcount : ¬ MAX_INTERFACES < wordAt m pos) :
    unserializeInterfacesPacket packetLength m pos
      = ⟨.ok (interfaceList m pos).val, (interfaceList m pos).next,
          (interfaceList m pos).reads⟩ := by
  rw [unserializeInterfacesPacket, if_neg h, run_bind, run_word,
    if_neg hcount, run_bind, run_pure, List.append_nil, interfaceList, run_bind,
    run_word]

/-- With a list packet in it, a packet is not too short for the count. -/
theorem listEncoding_not_short {ls : List Listing} {packetLength : UInt32}
    (h : (listEncoding ls).length ≤ packetLength.toNat) : ¬ packetLength < 4 := by
  rw [listEncoding, List.length_append, length_wordBytes] at h
  rw [UInt32.lt_iff_toNat_lt]
  show ¬ packetLength.toNat < 4
  omega

/-- **ROUND TRIP**: a packet of at most `MAX_INTERFACES` listings is decoded to the
    interfaces they describe, whatever the memory holds behind it. -/
theorem unserializeInterfacesPacket_listEncoding {ls : List Listing}
    (hls : Listable ls) (hcount : ls.length ≤ MAX_INTERFACES.toNat) {m : Mem}
    (hm : Holds m 0 (listEncoding ls)) {packetLength : UInt32}
    (hlen : ¬ packetLength < 4) :
    (unserializeInterfacesPacket packetLength m 0).val
      = .ok (ls.map Listing.advert) := by
  have hword : wordAt m 0 = UInt32.ofNat ls.length :=
    wordAt_of_holds (holds_append.mp hm).1
  have hfew : ¬ MAX_INTERFACES < wordAt m 0 := by
    rw [hword, UInt32.lt_iff_toNat_lt, UInt32.toNat_ofNat_of_lt' hls.1]
    exact Nat.not_lt.mpr hcount
  rw [run_unserializeInterfacesPacket hlen hfew]
  exact congrArg Except.ok (parses_interfaceList.roundTrip hls hm)

/-- Both arrays fit one growth step of the encoder. -/
def Advert.Small (x : Advert) : Prop :=
  x.argc ≤ BUFFER_INC_SIZE ∧ x.retc ≤ BUFFER_INC_SIZE

theorem sum_pieceLengths_le {xs : List Advert} (h : ∀ x ∈ xs, x.Small) :
    (xs.flatMap Advert.pieceLengths).sum
      ≤ xs.length * (12 + 2 * BUFFER_INC_SIZE.toNat) := by
  induction xs with
  | nil => exact Nat.zero_le _
  | cons x xs ih =>
      obtain ⟨hargc, hretc⟩ := h x (List.mem_cons_self ..)
      have hargc' := UInt32.le_iff_toNat_le.mp hargc
      have hretc' := UInt32.le_iff_toNat_le.mp hretc
      have hx : x.pieceLengths.sum = 12 + x.argc.toNat + x.retc.toNat := by
        simp only [Advert.pieceLengths, List.sum_cons, List.sum_nil]
        omega
      have hxs := ih fun y hy => h y (List.mem_cons_of_mem _ hy)
      rw [List.flatMap_cons, List.sum_append, List.length_cons, Nat.succ_mul, hx]
      omega

/-- Small interfaces, not more than a receiver accepts, are encoded. -/
theorem piecesFit_of_small {xs : List Advert} (h : ∀ x ∈ xs, x.Small)
    (hcount : xs.length ≤ MAX_INTERFACES.toNat) :
    PiecesFit BUFFER_INC_SIZE.toNat 0 (4 :: xs.flatMap Advert.pieceLengths) := by
  have hinc : BUFFER_INC_SIZE.toNat = 65536 := rfl
  have hmax : MAX_INTERFACES.toNat = 256 := rfl
  have hsum := sum_pieceLengths_le h
  have hpieces : ∀ k ∈ 4 :: xs.flatMap Advert.pieceLengths,
      k ≤ BUFFER_INC_SIZE.toNat := by
    intro k hk
    rcases List.mem_cons.mp hk with heq | hmem
    · omega
    · obtain ⟨x, hx, hkx⟩ := List.mem_flatMap.mp hmem
      have hargc := UInt32.le_iff_toNat_le.mp (h x hx).1
      have hretc := UInt32.le_iff_toNat_le.mp (h x hx).2
      simp only [Advert.pieceLengths, List.mem_cons, List.not_mem_nil,
        or_false] at hkx
      omega
  -- 256 interfaces take two growth steps each and a little more
  have hmul := Nat.mul_le_mul_right (12 + 2 * BUFFER_INC_SIZE.toNat) hcount
  rw [piecesFit_below_limit hpieces, List.sum_cons]
  rw [hinc] at hsum hmul ⊢
  rw [hmax] at hmul
  omega

/-- **LIST PACKETS**: what `serialize_interfaces_packet` makes of a list that a
    receiver accepts, `unserialize_interfaces_packet` turns into the same list,
    whatever bytes follow in the packet or in the memory behind it. -/
theorem interface_list_round_trip {xs : List Advert}
    (hcount : xs.length ≤ MAX_INTERFACES.toNat)
    (hcomplete : ∀ x ∈ xs, x.Complete) (hsmall : ∀ x ∈ xs, x.Small) :
    ∃ packet, serializeInterfacesPacket (xs.map some) (UInt32.ofNat xs.length)
        = some packet
      ∧ ∀ (trailing : List UInt8) (behind : Mem) (packetLength : UInt32),
        packetLength.toNat = (packet ++ trailing).length →
        (unserializeInterfacesPacket packetLength
          (overlay (packet ++ trailing) behind) 0).val = .ok xs := by
  obtain ⟨ls, hls, rfl⟩ := exists_listings hcomplete
  have hmax : MAX_INTERFACES.toNat = 256 := rfl
  rw [List.length_map] at hcount ⊢
  have hlist : Listable ls := ⟨by omega, hls⟩
  refine ⟨listEncoding ls, ?_, fun trailing behind packetLength hlen => ?_⟩
  · rw [List.map_map]
    exact (serializeInterfacesPacket_iff hlist).mpr
      (piecesFit_of_small hsmall (by rw [List.length_map]; exact hcount))
  · rw [List.length_append] at hlen
    have hfour : ¬ packetLength < 4 := listEncoding_not_short (by
      rw [hlen]
      exact Nat.le_add_right _ _)
    have hm := (holds_append.mp (holds_overlay (listEncoding ls ++ trailing)
      behind)).1
    exact unserializeInterfacesPacket_listEncoding hlist hcount hm hfour

/-- Two interfaces, one of them without arguments and results. -/
theorem interface_list_round_trip_two :
    ∃ packet, serializeInterfacesPacket
        [some ⟨7, 0, 0, .block [], .block []⟩,
          some ⟨9, 2, 1, .block [0, 1], .block [1]⟩] 2 = some packet
      ∧ ∀ (trailing : List UInt8) (behind : Mem) (packetLength : UInt32),
        packetLength.toNat = (packet ++ trailing).length →
        (unserializeInterfacesPacket packetLength
          (overlay (packet ++ trailing) behind) 0).val
            = .ok [⟨7, 0, 0, .block [], .block []⟩,
                ⟨9, 2, 1, .block [0, 1], .block [1]⟩] := by
  refine @interface_list_round_trip [⟨7, 0, 0, .block [], .block []⟩,
    ⟨9, 2, 1, .block [0, 1], .block [1]⟩] (by decide) ?_ ?_
  · intro x hx
    rcases List.mem_cons.mp hx with h | h
    · rw [h]
      exact ⟨[], [], rfl, rfl, rfl, rfl⟩
    · rw [List.mem_singleton.mp h]
      exact ⟨[0, 1], [1], rfl, rfl, rfl, rfl⟩
  · intro x hx
    rcases List.mem_cons.mp hx with h | h
    · rw [h]
      exact ⟨by decide, by decide⟩
    · rw [List.mem_singleton.mp h]
      exact ⟨by decide, by decide⟩

/-- The decoder refuses the datagram or reads only inside it, whatever the
    receive buffer holds behind the datagram, and its answer is the same over
    all these leftovers. -/
def DecodesInside (m : Mem) (packetLength : UInt32) : Prop :=
  (∀ m', AgreeBelow packetLength.toNat m m' →
    Rejected (unserializeInterfacesPacket packetLength m' 0).val
    ∨ InBounds (unserializeInterfacesPacket packetLength m' 0).reads
        packetLength.toNat)
  ∧ ∀ m', AgreeBelow packetLength.toNat m m' →
    (unserializeInterfacesPacket packetLength m' 0).val
      = (unserializeInterfacesPacket packetLength m 0).val

/-- The datagram is too short for a count, counts more than `MAX_INTERFACES`, or
    begins with a count and that many complete interfaces. -/
def RefusedOrComplete (m : Mem) (packetLength : UInt32) : Prop :=
  packetLength < 4 ∨ MAX_INTERFACES < wordAt m 0
    ∨ ∃ ls, Listable ls ∧ listEncoding ls <+: slice m 0 packetLength.toNat

theorem wordAt_agree {n : Nat} {m m' : Mem} (h : AgreeBelow n m m') {pos : Nat}
    (hpos : pos + 4 ≤ n) : wordAt m' pos = wordAt m pos := by
  refine wordAt_of_holds ((holds_wordAt m pos).congr fun i _ hi => ?_)
  rw [length_wordBytes] at hi
  exact h i (by omega)

theorem four_le_toNat {w : UInt32} (h : ¬ w < 4) : 4 ≤ w.toNat :=
  UInt32.le_iff_toNat_le.mp (UInt32.not_lt.mp h)

/-- **BOUNDS OF THE DISCOVERY DECODER**: reads inside the datagram, and an answer
    that depends on the datagram alone, are exactly what a refused or complete
    datagram gets. -/
theorem decodesInside_iff (m : Mem) (packetLength : UInt32) :
    DecodesInside m packetLength ↔ RefusedOrComplete m packetLength := by
  constructor
  · rintro ⟨hbounds, -⟩
    by_cases hshort : packetLength < 4
    · exact Or.inl hshort
    · by_cases hcount : MAX_INTERFACES < wordAt m 0
      · exact Or.inr (Or.inl hcount)
      · refine Or.inr (Or.inr ?_)
        -- over the memory itself, the loop stays inside the datagram
        have h := hbounds m (AgreeBelow.refl _ m)
        rw [run_unserializeInterfacesPacket hshort hcount] at h
        rcases h with hrej | hin
        · exact absurd hrej id
        · exact (parses_interfaceList.inBounds_iff
            (fun ls _ => listEncoding_ne_nil ls) (Nat.zero_le _)).mp hin
  · intro hcomplete
    by_cases hshort : packetLength < 4
    · refine ⟨fun m' _ => Or.inl ?_, fun m' _ => ?_⟩
      · rw [unserializeInterfacesPacket_short hshort]
        show -EINVALIDPACKETLENGTH < 0
        decide
      · rw [unserializeInterfacesPacket_short hshort,
          unserializeInterfacesPacket_short hshort]
    have hlen := four_le_toNat hshort
    by_cases hcount : MAX_INTERFACES < wordAt m 0
    · have hcount' : ∀ m', AgreeBelow packetLength.toNat m m' →
          MAX_INTERFACES < wordAt m' 0 := by
        intro m' hagree
        rw [wordAt_agree hagree hlen]
        exact hcount
      refine ⟨fun m' hagree => Or.inl ?_, fun m' hagree => ?_⟩
      · rw [unserializeInterfacesPacket_crowded hshort (hcount' m' hagree)]
        show -EINVALIDINTERFACECOUNT < 0
        decide
      · rw [unserializeInterfacesPacket_crowded hshort (hcount' m' hagree),
          unserializeInterfacesPacket_crowded hshort hcount]
    · -- neither check fires, so the datagram has to carry the whole list
      have hlist : ∃ ls, Listable ls
          ∧ listEncoding ls <+: slice m 0 (packetLength.toNat - 0) := by
        rcases hcomplete with h | h | h
        · exact absurd h hshort
        · exact absurd h hcount
        · exact h
      have hin := (parses_interfaceList.inBounds_iff
        (fun ls _ => listEncoding_ne_nil ls) (Nat.zero_le _)).mpr hlist
      have hrun' : ∀ m', AgreeBelow packetLength.toNat m m' →
          ¬ MAX_INTERFACES < wordAt m' 0
          ∧ (interfaceList m' 0).val = (interfaceList m 0).val
          ∧ InBounds (interfaceList m' 0).reads packetLength.toNat := by
        intro m' hagree
        rw [wordAt_agree hagree hlen]
        exact ⟨hcount, parses_interfaceList.local
          (fun ls _ => listEncoding_ne_nil ls) hin hagree⟩
      refine ⟨fun m' hagree => Or.inr ?_, fun m' hagree => ?_⟩
      · obtain ⟨hc, -, hin'⟩ := hrun' m' hagree
        rw [run_unserializeInterfacesPacket hshort hc]
        exact hin'
      · obtain ⟨hc, hval, -⟩ := hrun' m' hagree
        rw [run_unserializeInterfacesPacket hshort hc,
          run_unserializeInterfacesPacket hshort hcount, hval]

/-- A datagram of four bytes that announces one interface is read past its
    end. -/
theorem count_only_datagram_overread :
    ¬ DecodesInside (overlay (wordBytes 1) fun _ => 0) 4 := by
  rintro ⟨hbounds, -⟩
  have h := hbounds _ (AgreeBelow.refl _ _)
  revert h
  decide

end DistComm
