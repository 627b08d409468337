import DistComm.InfoPacket
import DistComm.ScanBelow

/-! # Where the description decoder reads

    `unserialize_interface_info` walks through the reply of another host with
    nothing to stop it: it takes the strings up to their terminators and as many of
    them as the counts say, does not look at `packet_length`, and has no error to
    return.  It stays inside exactly those replies that begin with a complete
    description (`unserializesInfoInside_iff`). -/

namespace DistComm

open RawMemory RawScan GrowBuffer

/-- The decoder reads only inside the packet, whatever lies behind it. -/
def UnserializesInfoInside (b : List UInt8) : Prop :=
  ∀ behind, InBounds
    (unserializeInterfaceInfo (UInt32.ofNat b.length) (overlay b behind) 0).reads
    b.length

/-- The packet begins with an id, both strings, and both counts with as many pairs
    of strings behind them. -/
def CompleteInfo (b : List UInt8) : Prop :=
  ∃ id d, d.args.length < 2 ^ 32 ∧ d.rets.length < 2 ^ 32 ∧ infoEncoding id d <+: b

/-- What follows the id. -/
def Description.body (d : Description) : List UInt8 :=
  encodeString d.name ++ (encodeString d.description
    ++ (wordBytes (UInt32.ofNat d.args.length)
      ++ ((d.args.flatMap UserAttr.pieces).flatten
        ++ (wordBytes (UInt32.ofNat d.rets.length)
          ++ (d.rets.flatMap UserAttr.pieces).flatten))))

theorem infoEncoding_eq (id : UInt32) (d : Description) :
    infoEncoding id d = wordBytes id ++ d.body := by
  rw [infoEncoding, Description.pieces, Description.body]
  simp only [List.flatten_cons, List.flatten_append]

/-- All strings of the description can be counted, and so can its arguments and
    results. -/
structure Description.AllCounted (d : Description) : Prop where
  strings : d.Counted
  results : ∀ a ∈ d.rets, a.Counted
  argc : d.args.length < 2 ^ 32
  retc : d.rets.length < 2 ^ 32

/-! ## The decoder below a bound -/

theorem parsesBelow_dupStr {n : Nat} (hn : n < 2 ^ 32) :
    ParsesBelow n dupStr (fun s : CString => s.bytes.length < 2 ^ 32 - 1)
      encodeString (fun s => s) where
  complete _ hs := consumes_dupStr hs
  sound m pos h := by
    have hread : Span.Within ⟨pos, (strAt m (2 ^ 32 - 1) pos).length + 1⟩ n :=
      inBounds_singleton.mp h
    rcases hread with hzero | hle
    · exact absurd hzero (Nat.succ_ne_zero _)
    · -- the terminator was read below `n`, so the counter did not stop the string
      replace hle : pos + ((strAt m (2 ^ 32 - 1) pos).length + 1) ≤ n := hle
      have hshort : (strAt m (2 ^ 32 - 1) pos).length < 2 ^ 32 - 1 := by omega
      exact ⟨⟨_, nulFree_strAt m _ pos⟩, hshort, strAt_terminated hshort⟩

theorem parsesBelow_attrInfo {n : Nat} (hn : n < 2 ^ 32) :
    ParsesBelow n unserializeAttrInfo UserAttr.Counted
      (fun a => a.pieces.flatten) UserAttr.copied := by
  have h := (parsesBelow_dupStr hn).bind fun name _ =>
    (parsesBelow_dupStr hn).map fun description =>
      (⟨some name, some description⟩ : AttrInfo)
  refine ⟨fun a ha => consumes_unserializeAttrInfo ha, fun m pos hreads => ?_⟩
  obtain ⟨⟨name, description⟩, hcounted, hE⟩ := h.sound m pos hreads
  refine ⟨⟨name, description⟩, hcounted, ?_⟩
  rw [UserAttr.pieces, List.flatten_cons, List.flatten_cons, List.flatten_nil,
    List.append_nil]
  exact hE

/-- A count and as many pairs of strings. -/
theorem parsesBelow_attrInfos {n : Nat} (hn : n < 2 ^ 32) :
    ParsesBelow n (do
        let count ← word
        loop (fun _ => unserializeAttrInfo) 0 count.toNat)
      (fun as : List UserAttr => as.length < 2 ^ 32 ∧ ∀ a ∈ as, a.Counted)
      (fun as => wordBytes (UInt32.ofNat as.length)
        ++ (as.flatMap UserAttr.pieces).flatten)
      (fun as => as.map UserAttr.copied) := by
  have h := (parses_word.below n).bind fun (w : UInt32) _ =>
    parsesBelow_loop (fun _ => parsesBelow_attrInfo hn) w.toNat 0
  have hcount := h.reindex
    (fun as : List UserAttr => as.length < 2 ^ 32 ∧ ∀ a ∈ as, a.Counted)
    (fun as => (UInt32.ofNat as.length, as)) ?_ ?_
  · simp only [valuesFrom_const] at hcount
    refine ⟨fun as has => ?_, fun m pos hreads => ?_⟩
    · rw [flatten_flatMap]
      exact hcount.complete as has
    · obtain ⟨as, has, hE⟩ := hcount.sound m pos hreads
      refine ⟨as, has, ?_⟩
      rw [flatten_flatMap]
      exact hE
  · rintro as ⟨hlen, has⟩
    exact ⟨trivial, (UInt32.toNat_ofNat_of_lt' hlen).symm, has⟩
  · rintro ⟨w, as⟩ ⟨-, hlen, has⟩
    replace hlen : as.length = w.toNat := hlen
    refine ⟨as, ⟨by rw [hlen]; exact w.toNat_lt, has⟩, ?_⟩
    rw [hlen, UInt32.ofNat_toNat]

/-- **THE DECODER** parses descriptions below any bound that it can count to. -/
theorem parsesBelow_unserializeInfo {n : Nat} (hn : n < 2 ^ 32) :
    ParsesBelow n unserializeInfo Description.AllCounted Description.body
      Description.info := by
  have hrets := fun name description argInfo =>
    (parsesBelow_attrInfos hn).map fun retInfo =>
      (⟨some name, some description, argInfo, retInfo⟩ : Info)
  have hargs := fun name description =>
    (parsesBelow_attrInfos hn).bind (q := fun argInfo => do
        let retInfo ← do
          let retc ← word
          loop (fun _ => unserializeAttrInfo) 0 retc.toNat
        pure (⟨some name, some description, argInfo, retInfo⟩ : Info))
      fun args _ => hrets name description (args.map UserAttr.copied)
  have h := (parsesBelow_dupStr hn).bind fun name _ =>
    (parsesBelow_dupStr hn).bind fun description _ => hargs name description
  -- the decoder is one sequence, the format is nested
  simp only [bind_assoc] at h
  refine (h.reindex Description.AllCounted
    (fun d => (d.name, d.description, d.args, d.rets)) ?_ ?_)
  · intro d hd
    exact ⟨hd.strings.1, hd.strings.2.1, ⟨hd.argc, hd.strings.2.2⟩, hd.retc,
      hd.results⟩
  · rintro ⟨name, description, args, rets⟩ ⟨h1, h2, h3, h4⟩
    exact ⟨⟨name, description, args, rets⟩, ⟨⟨h1, h2, h3.2⟩, h4.2, h3.1, h4.1⟩, rfl⟩

/-- The decoder starts behind the id, which it does not read. -/
theorem run_unserializeInterfaceInfo (packetLength : UInt32) (m : Mem) (pos : Nat) :
    unserializeInterfaceInfo packetLength m pos = unserializeInfo m (pos + 4) :=
  run_skip_bind 4 _ m pos

theorem Description.body_ne_nil (d : Description) : d.body ≠ [] := by
  rw [Description.body, encodeString, List.append_assoc]
  exact List.append_ne_nil_of_right_ne_nil _ (List.cons_ne_nil _ _)

/-- What fits a packet can be counted. -/
theorem allCounted_of_length {id : UInt32} {d : Description}
    (hargc : d.args.length < 2 ^ 32) (hretc : d.rets.length < 2 ^ 32)
    (hlen : (infoEncoding id d).length < 2 ^ 32) : d.AllCounted where
  strings := (counted_pieces hlen).1
  results := (counted_pieces hlen).2
  argc := hargc
  retc := hretc

/-! ## The packets it stays inside -/

/-- A decoder that stayed inside its packet has read a description there. -/
theorem UnserializesInfoInside.complete {b : List UInt8} (hlen : b.length < 2 ^ 32)
    (h : UnserializesInfoInside b) : CompleteInfo b := by
  have hreads := h fun _ => 0
  rw [run_unserializeInterfaceInfo, Nat.zero_add] at hreads
  obtain ⟨d, hd, hbody, hle⟩ :=
    (parsesBelow_unserializeInfo hlen).consumed (fun d _ => d.body_ne_nil) hreads
  have hm : Holds (overlay b fun _ => 0) 0
      (infoEncoding (wordAt (overlay b fun _ => 0) 0) d) := by
    rw [infoEncoding_eq]
    exact holds_append.mpr ⟨holds_wordAt _ 0, hbody⟩
  refine ⟨_, d, hd.argc, hd.retc, isPrefix_of_holds hm ?_⟩
  rw [infoEncoding_eq, List.length_append, length_wordBytes]
  exact hle

/-- **DESCRIPTION BOUNDS**: the decoder stays inside its packet exactly if the packet
    begins with a complete description. -/
theorem unserializesInfoInside_iff {b : List UInt8} (hlen : b.length < 2 ^ 32) :
    UnserializesInfoInside b ↔ CompleteInfo b := by
  have hp := parsesBelow_unserializeInfo hlen
  constructor
  · exact UnserializesInfoInside.complete hlen
  · rintro ⟨id, d, hargc, hretc, hpre⟩ behind
    have hd := allCounted_of_length hargc hretc
      (Nat.lt_of_le_of_lt hpre.length_le hlen)
    have hm := holds_overlay_of_isPrefix hpre behind
    have hle := hpre.length_le
    rw [infoEncoding_eq] at hm hle
    rw [List.length_append, length_wordBytes] at hle
    rw [run_unserializeInterfaceInfo, Nat.zero_add]
    exact ((hp.complete d hd).reads (holds_append.mp hm).2 b.length).mpr
      (Or.inr hle)

/-- The reply for an interface with one argument and one result. -/
theorem unserializesInfoInside_iff_one_each :
    UnserializesInfoInside (infoEncoding 3 .oneEach) :=
  (unserializesInfoInside_iff (by decide)).mpr
    ⟨3, .oneEach, by decide, by decide, List.prefix_refl _⟩

/-- An empty reply, as after a failed receive: the decoder reads on behind it. -/
theorem empty_reply_overread : ¬ ∀ b : List UInt8, UnserializesInfoInside b := by
  intro hall
  obtain ⟨id, d, -, -, hpre⟩ := UnserializesInfoInside.complete (by decide) (hall [])
  have hnil := List.prefix_nil.mp hpre
  rw [infoEncoding_eq] at hnil
  exact wordBytes_ne_nil id (List.append_eq_nil_iff.mp hnil).1

end DistComm
