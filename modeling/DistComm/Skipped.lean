import DistComm.InterfacesPacket
import Mathlib.Data.List.ReduceOption

/-! # List packets with skipped entries

    `serialize_interfaces_packet` announces as many interfaces as the list has
    entries, and then skips an entry that is NULL or has no flags, after the id or
    the arguments of it may have been written.  The receiver takes the announced
    number for granted.  So a list with a skipped entry is never received as the
    list of the others, and a list without one is, if it fits the encoder's buffer
    (`skipped_entries_iff`). -/

namespace DistComm

open RawMemory RawScan GrowBuffer

/-- `serialize_interfaces_packet` prints "Invalid interface list entry, skipped". -/
def Skipped : Option Advert → Prop
  | none => True
  | some interface => interface.argFlags = .null ∨ interface.retFlags = .null

instance : DecidablePred Skipped := fun entry =>
  match entry with
  | none => inferInstanceAs (Decidable True)
  | some _ => inferInstanceAs (Decidable (_ ∨ _))

/-- The flags are missing, or there are as many as announced. -/
def FlagsOf (count : UInt32) (flags : Ptr) : Prop :=
  flags = .null ∨ ∃ bs, flags = .block bs ∧ bs.length = count.toNat

/-- The entries that are not skipped, in their order. -/
def validEntries (entries : List (Option Advert)) : List Advert :=
  (entries.filter fun entry => ¬ Skipped entry).reduceOption

/-- The encoder's packet is decoded to the valid entries, and nothing outside of it
    is read, whatever lies behind. -/
def DecodesToValid (entries : List (Option Advert)) : Prop :=
  ∃ packet,
    serializeInterfacesPacket entries (UInt32.ofNat entries.length) = some packet
    ∧ ∀ behind,
      (unserializeInterfacesPacket (UInt32.ofNat packet.length)
          (overlay packet behind) 0).val = .ok (validEntries entries)
      ∧ InBounds (unserializeInterfacesPacket (UInt32.ofNat packet.length)
          (overlay packet behind) 0).reads packet.length

/-! ## What any list packet begins with -/

theorem serializeInterface_extends {entry : Option Advert} {b b' : Buffer}
    (h : serializeInterface entry b = some b') : b.contents <+: b'.contents := by
  have hcopy : ∀ {b b' : Buffer} {src : List UInt8},
      Kernel.copyToBuffer b src = some b' → b.contents <+: b'.contents := by
    intro b b' src h
    rw [append_contents h]
    exact List.prefix_append _ _
  cases entry with
  | none =>
      cases Option.some.inj h
      exact List.prefix_refl _
  | some interface =>
      simp only [serializeInterface, Option.bind_eq_bind,
        Option.bind_eq_some_iff] at h
      obtain ⟨b1, h1, h⟩ := h
      refine (hcopy h1).trans ?_
      by_cases hargs : interface.argFlags = .null
      · rw [if_pos hargs] at h
        cases Option.some.inj h
        exact List.prefix_refl _
      rw [if_neg hargs] at h
      simp only [Option.bind_eq_some_iff] at h
      obtain ⟨b2, h2, argFlags, -, b3, h3, h⟩ := h
      refine ((hcopy h2).trans (hcopy h3)).trans ?_
      by_cases hrets : interface.retFlags = .null
      · rw [if_pos hrets] at h
        cases Option.some.inj h
        exact List.prefix_refl _
      rw [if_neg hrets] at h
      simp only [Option.bind_eq_some_iff] at h
      obtain ⟨b4, h4, retFlags, -, h5⟩ := h
      exact (hcopy h4).trans (hcopy h5)

theorem serializeInterfaces_extends {entries : List (Option Advert)} (n i : Nat)
    {b b' : Buffer} (h : serializeInterfaces entries i n b = some b') :
    b.contents <+: b'.contents := by
  induction n generalizing i b with
  | zero =>
      cases Option.some.inj h
      exact List.prefix_refl _
  | succ n ih =>
      obtain ⟨entry, -, h1⟩ := Option.bind_eq_some_iff.mp h
      obtain ⟨b1, h2, h3⟩ := Option.bind_eq_some_iff.mp h1
      exact (serializeInterface_extends h2).trans (ih (i + 1) h3)

/-- The count comes first, whatever becomes of the entries. -/
theorem serializeInterfacesPacket_count {entries : List (Option Advert)}
    {count : UInt32} {packet : List UInt8}
    (h : serializeInterfacesPacket entries count = some packet) :
    wordBytes count <+: packet := by
  simp only [serializeInterfacesPacket, Option.bind_eq_bind,
    Option.bind_eq_some_iff] at h
  obtain ⟨b1, h1, b2, h2, h⟩ := h
  rw [← Option.some.inj h]
  refine List.IsPrefix.trans ?_ (serializeInterfaces_extends _ _ h2)
  rw [append_contents h1, ofSize_contents, List.nil_append]

/-! ## The valid entries -/

theorem validEntries_cons (entry : Option Advert)
    (entries : List (Option Advert)) :
    validEntries (entry :: entries)
      = if Skipped entry then validEntries entries
        else entry.toList ++ validEntries entries := by
  rw [validEntries]
  by_cases hskip : Skipped entry
  · rw [if_pos hskip, List.filter_cons_of_neg (by simpa using hskip)]
    rfl
  · rw [if_neg hskip, List.filter_cons_of_pos (by simpa using hskip)]
    cases entry with
    | none => exact absurd trivial hskip
    | some interface => exact List.reduceOption_cons_of_some interface _

theorem length_validEntries_le (entries : List (Option Advert)) :
    (validEntries entries).length ≤ entries.length :=
  Nat.le_trans (List.reduceOption_length_le _) (List.length_filter_le _ _)

/-- As many valid entries as entries: nothing was skipped. -/
theorem validEntries_all {entries : List (Option Advert)}
    (h : (validEntries entries).length = entries.length) :
    ∀ entry ∈ entries, ¬ Skipped entry := by
  induction entries with
  | nil => exact fun entry hmem => absurd hmem List.not_mem_nil
  | cons entry entries ih =>
      have hle := length_validEntries_le entries
      rw [validEntries_cons, List.length_cons] at h
      by_cases hskip : Skipped entry
      · rw [if_pos hskip] at h
        omega
      · rw [if_neg hskip] at h
        cases entry with
        | none => exact absurd trivial hskip
        | some interface =>
            intro e he
            rcases List.mem_cons.mp he with rfl | hmem
            · exact hskip
            · exact ih (Nat.succ.inj h) e hmem

/-- Without skipped entries the list is the one of the valid entries. -/
theorem map_validEntries {entries : List (Option Advert)}
    (h : ∀ entry ∈ entries, ¬ Skipped entry) :
    (validEntries entries).map some = entries := by
  induction entries with
  | nil => rfl
  | cons entry entries ih =>
      have hhead := h entry (List.mem_cons_self ..)
      rw [validEntries_cons, if_neg hhead]
      cases entry with
      | none => exact absurd trivial hhead
      | some interface =>
          show some interface :: (validEntries entries).map some = _
          rw [ih fun e he => h e (List.mem_cons_of_mem _ he)]

theorem Advert.complete_of_flags {x : Advert} (hskip : ¬ Skipped (some x))
    (hargs : FlagsOf x.argc x.argFlags) (hrets : FlagsOf x.retc x.retFlags) :
    x.Complete := by
  obtain ⟨hargs0, hrets0⟩ := not_or.mp hskip
  obtain ⟨argFlags, hargs, hargc⟩ := hargs.resolve_left hargs0
  obtain ⟨retFlags, hrets, hretc⟩ := hrets.resolve_left hrets0
  exact ⟨argFlags, retFlags, hargs, hargc, hrets, hretc⟩

/-! ## What is received -/

/-- A receiver that accepts a list packet gets as many interfaces as were
    announced. -/
theorem unserializeInterfacesPacket_length {packetLength : UInt32} {m : Mem}
    {xs : List Advert}
    (h : (unserializeInterfacesPacket packetLength m 0).val = .ok xs) :
    xs.length = (wordAt m 0).toNat := by
  by_cases hshort : packetLength < 4
  · rw [unserializeInterfacesPacket_short hshort] at h
    cases h
  by_cases hcount : MAX_INTERFACES < wordAt m 0
  · rw [unserializeInterfacesPacket_crowded hshort hcount] at h
    cases h
  rw [run_unserializeInterfacesPacket hshort hcount] at h
  obtain ⟨ls, hls, hm, hval, -⟩ := parses_interfaceList.run m 0
  cases hval.symm.trans (Except.ok.inj h)
  rw [wordAt_of_holds (holds_append.mp hm).1, List.length_map,
    UInt32.toNat_ofNat_of_lt' hls.1]

/-- A list without skipped entries is the one that some listings describe. -/
theorem exists_listings_of_entries {entries : List (Option Advert)}
    (hlen : entries.length < 2 ^ 32)
    (hflags : ∀ x, some x ∈ entries →
      FlagsOf x.argc x.argFlags ∧ FlagsOf x.retc x.retFlags)
    (hnone : ∀ entry ∈ entries, ¬ Skipped entry) :
    ∃ ls, Listable ls ∧ ls.map Listing.advert = validEntries entries
      ∧ (ls.map fun l => some l.advert) = entries ∧ ls.length = entries.length := by
  have hmap := map_validEntries hnone
  have hcomplete : ∀ x ∈ validEntries entries, x.Complete := by
    intro x hx
    have hmem : some x ∈ entries := by
      rw [← hmap]
      exact List.mem_map_of_mem hx
    obtain ⟨hargs, hrets⟩ := hflags x hmem
    exact Advert.complete_of_flags (hnone _ hmem) hargs hrets
  obtain ⟨ls, hfits, hls⟩ := exists_listings hcomplete
  have hentries : (ls.map fun l => some l.advert) = entries := by
    rw [← hmap, ← hls, List.map_map]
    rfl
  have hcount : ls.length = entries.length := by rw [← hentries, List.length_map]
  exact ⟨ls, ⟨by rw [hcount]; exact hlen, hfits⟩, hls, hentries, hcount⟩

/-- The packet of listings that a receiver accepts is decoded to what they describe,
    from bytes inside it. -/
theorem listEncoding_decodes {ls : List Listing} (hls : Listable ls)
    (hcount : ls.length ≤ MAX_INTERFACES.toNat)
    (hsize : (listEncoding ls).length < 2 ^ 32) (behind : Mem) :
    (unserializeInterfacesPacket (UInt32.ofNat (listEncoding ls).length)
        (overlay (listEncoding ls) behind) 0).val = .ok (ls.map Listing.advert)
      ∧ InBounds (unserializeInterfacesPacket (UInt32.ofNat (listEncoding ls).length)
          (overlay (listEncoding ls) behind) 0).reads (listEncoding ls).length := by
  have hm := holds_overlay (listEncoding ls) behind
  have hfour : ¬ UInt32.ofNat (listEncoding ls).length < 4 :=
    listEncoding_not_short (Nat.le_of_eq (UInt32.toNat_ofNat_of_lt' hsize).symm)
  refine ⟨unserializeInterfacesPacket_listEncoding hls hcount hm hfour, ?_⟩
  have hfew : ¬ MAX_INTERFACES < wordAt (overlay (listEncoding ls) behind) 0 := by
    rw [wordAt_of_holds (holds_append.mp hm).1, UInt32.lt_iff_toNat_lt,
      UInt32.toNat_ofNat_of_lt' hls.1]
    exact Nat.not_lt.mpr hcount
  rw [run_unserializeInterfacesPacket hfour hfew]
  refine ((parses_interfaceList.complete ls hls).reads hm _).mpr (Or.inr ?_)
  rw [Nat.zero_add]

/-- **SKIPPED ENTRIES**.  The packet of a list is received as its valid entries
    exactly if none of its entries is skipped and they fit the buffer that the
    encoder enlarges by one increment at a time. -/
theorem skipped_entries_iff {entries : List (Option Advert)}
    (hlen : entries.length < 2 ^ 32)
    (hflags : ∀ x, some x ∈ entries →
      FlagsOf x.argc x.argFlags ∧ FlagsOf x.retc x.retFlags)
    (hfew : (validEntries entries).length ≤ MAX_INTERFACES.toNat) :
    DecodesToValid entries
      ↔ (∀ entry ∈ entries, ¬ Skipped entry)
        ∧ PiecesFit BUFFER_INC_SIZE.toNat 0
            (4 :: (validEntries entries).flatMap Advert.pieceLengths) := by
  have hlistings := exists_listings_of_entries hlen hflags
  constructor
  · rintro ⟨packet, hpacket, hdecodes⟩
    have hm := holds_overlay_of_isPrefix (serializeInterfacesPacket_count hpacket)
      fun _ => 0
    have hcount := unserializeInterfacesPacket_length (hdecodes fun _ => 0).1
    rw [wordAt_of_holds hm, UInt32.toNat_ofNat_of_lt' hlen] at hcount
    have hnone := validEntries_all hcount
    obtain ⟨ls, hls, hvalid, hentries, hlength⟩ := hlistings hnone
    refine ⟨hnone, ?_⟩
    rw [← hentries, List.length_map] at hpacket
    rw [← hvalid, ← serializeInterfacesPacket_iff hls, hpacket,
      serializeInterfacesPacket_eq hls hpacket]
  · rintro ⟨hnone, hfit⟩
    obtain ⟨ls, hls, hvalid, hentries, hlength⟩ := hlistings hnone
    rw [← hvalid] at hfit hfew
    rw [List.length_map] at hfew
    have hpacket := (serializeInterfacesPacket_iff hls).mpr hfit
    have hsize := length_serializeInterfacesPacket hpacket
    rw [hentries, hlength] at hpacket
    refine ⟨listEncoding ls, hpacket, fun behind => ?_⟩
    rw [← hvalid]
    exact listEncoding_decodes hls hfew hsize behind

/-- Two interfaces, one of them without arguments and results. -/
theorem skipped_entries_none :
    DecodesToValid [some ⟨7, 0, 0, .block [], .block []⟩,
      some ⟨9, 2, 1, .block [0, 1], .block [1]⟩] := by
  refine (skipped_entries_iff (by decide) ?_ (by decide)).mpr ⟨by decide, ?_⟩
  · intro x hx
    rcases List.mem_cons.mp hx with h | h
    · cases h
      exact ⟨Or.inr ⟨[], rfl, rfl⟩, Or.inr ⟨[], rfl, rfl⟩⟩
    · cases List.mem_singleton.mp h
      exact ⟨Or.inr ⟨[0, 1], rfl, rfl⟩, Or.inr ⟨[1], rfl, rfl⟩⟩
  · have hsmall : ∀ x ∈ [(⟨7, 0, 0, .block [], .block []⟩ : Advert),
        ⟨9, 2, 1, .block [0, 1], .block [1]⟩], x.Small := by
      unfold Advert.Small
      decide
    exact piecesFit_of_small hsmall (by decide)

/-- A list whose only entry is NULL: one interface is announced, none is there, and
    the receiver reads behind the packet. -/
theorem skipped_entry_overread : ¬ DecodesToValid [none] := by
  rintro ⟨packet, hpacket, hdecodes⟩
  have hcount : serializeInterfacesPacket [none] 1 = some (wordBytes 1) := by decide
  cases hcount.symm.trans hpacket
  have hreads := (hdecodes fun _ => 0).2
  revert hreads
  decide

end DistComm
