import DistComm.InfoPacket
import DistComm.Registry

/-! # What a process declares, and what is advertised for it

    A process fills in the flags of the arguments and results of its interface, the
    kernel keeps flags for every registered interface and puts them into the list
    packet, but `register_interface` copies everything except the flags: those of
    the entry are the zeros that `alloc_interface` starts with.  The description of the
    entry is the declared one, but its packet has as many results as there are arguments.
    So an interface is advertised as it was declared exactly if all its flags are zero,
    it has as many results as arguments, and its packets can be made
    (`registered_as_declared_iff`). -/

namespace DistComm

open RawMemory RawScan PointerArray GrowBuffer

/-- The `interface_t` of a process, with the flags, which `register_interface` does
    not look at. -/
structure DeclaredInterface extends UserInterface where
  argFlags : List UInt8
  retFlags : List UInt8
  argFlags_length : argFlags.length = argc.toNat
  retFlags_length : retFlags.length = retc.toNat

/-- What a list packet should say on the interface. -/
def DeclaredInterface.advert (d : DeclaredInterface) (id : UInt32) : Advert :=
  ⟨id, d.argc, d.retc, .block d.argFlags, .block d.retFlags⟩

/-- The declared description. -/
def DeclaredInterface.info (d : DeclaredInterface) : Info :=
  ⟨some d.name, some d.description, d.argInfo.map UserAttr.copied,
    d.retInfo.map UserAttr.copied⟩

/-- A list packet can be made of the entry, and wherever the entry stands in a list
    packet that a receiver accepts, it is received as `advert`. -/
structure ListedAs (x : Interface) (advert : Advert) : Prop where
  made : ∃ packet, serializeInterfacesPacket [some x.toAdvert] 1 = some packet
  received : ∀ (front back : List Advert) (packet : List UInt8) (behind : Mem),
    (∀ y ∈ front ++ back, y.Complete) →
    (front ++ x.toAdvert :: back).length ≤ MAX_INTERFACES.toNat →
    serializeInterfacesPacket ((front ++ x.toAdvert :: back).map some)
      (UInt32.ofNat (front ++ x.toAdvert :: back).length) = some packet →
    ∃ xs, (unserializeInterfacesPacket (UInt32.ofNat packet.length)
        (overlay packet behind) 0).val = .ok xs
      ∧ xs[front.length]? = some advert

/-- A description packet can be made of the entry, and it is received as `info`. -/
def DescribedAs (x : Interface) (info : Info) : Prop :=
  ∃ packet, serializeInterfaceInfo x.id x.argc x.retc x.info = .ok packet
    ∧ ∀ behind, (unserializeInterfaceInfo (UInt32.ofNat packet.length)
        (overlay packet behind) 0).val = info

/-- The entry says what the process declared, and so does what receivers make of its
    packets. -/
structure DeclaredInterface.Preserved (d : DeclaredInterface) (x : Interface) :
    Prop where
  argc : x.argc = d.argc
  retc : x.retc = d.retc
  argFlags : x.argFlags = .block d.argFlags
  retFlags : x.retFlags = .block d.retFlags
  name : x.info.name = some d.name
  description : x.info.description = some d.description
  argInfo : x.info.argInfo = d.argInfo.map UserAttr.copied
  retInfo : x.info.retInfo = d.retInfo.map UserAttr.copied
  listed : ListedAs x (d.advert x.id)
  described : DescribedAs x d.info

/-- All declared flags are zero. -/
structure DeclaredInterface.Immediate (d : DeclaredInterface) : Prop where
  args : ∀ f ∈ d.argFlags, f = 0
  rets : ∀ f ∈ d.retFlags, f = 0

/-- The lengths of both strings of each argument, or of each result, with their
    terminators. -/
def attrLengths (infos : List UserAttr) : List Nat :=
  infos.flatMap fun a => [a.name.bytes.length + 1, a.description.bytes.length + 1]

/-- What is copied for the list packet of the interface alone, and what is copied for
    its description packet, fit the buffers of the encoders. -/
structure DeclaredInterface.PacketsFit (d : DeclaredInterface) : Prop where
  list : PiecesFit BUFFER_INC_SIZE.toNat 0 [4, 4, 4, d.argc.toNat, 4, d.retc.toNat]
  info : PiecesFit BUFFER_INC_SIZE.toNat 0
    (4 :: (d.name.bytes.length + 1) :: (d.description.bytes.length + 1)
      :: 4 :: (attrLengths d.argInfo ++ 4 :: attrLengths d.retInfo))

/-- The entry that a registration left in the last slot. -/
def RegisteredAs (k k' : Registry) (id : UInt32) (P : Interface → Prop) : Prop :=
  ∃ p x, k'.interfaceList.deref k.interfaceCount.toNat = some (p, x)
    ∧ x.id = id ∧ P x

/-- Growing moves no count and no fresh address. -/
theorem grow_frame (k : Registry) :
    k.grow.interfaceCount = k.interfaceCount
      ∧ k.grow.interfaceList.next = k.interfaceList.next := by
  rw [Registry.grow]
  by_cases hfull : k.interfaceCapacity < k.interfaceCount + 1
  · rw [if_pos hfull]
    exact ⟨rfl, rfl⟩
  · rw [if_neg hfull]
    exact ⟨rfl, rfl⟩

/-- **THE NEW ENTRY** of any registration that returns. -/
theorem registerInterface_entry {k k' : Registry} {pid : Int32}
    {procCreate : Option ProcEntry} {u : UserInterface} {id : UInt32}
    (hrun : registerInterface pid procCreate u k = some (id, k')) :
    ∃ procEntry, k'.interfaceList.deref k.interfaceCount.toNat
      = some (k.interfaceList.next, u.registered id pid procEntry) := by
  simp only [registerInterface, Option.bind_eq_bind, Option.bind_eq_some_iff,
    Option.some.injEq, Prod.mk.injEq] at hrun
  obtain ⟨procEntry, -, list, hwrite, rfl, rfl⟩ := hrun
  obtain ⟨hcount, hnext⟩ := grow_frame { k with allocatedId := k.allocatedId + 1 }
  rw [hcount, hnext] at hwrite
  obtain ⟨hheap, -, hself, -⟩ := write_spec hwrite
  refine ⟨procEntry, deref_eq_some.mpr ⟨hself, ?_⟩⟩
  rw [hheap, Table.alloc, hnext]
  exact Function.update_self ..

/-- An entry is received as what it says. -/
theorem received_self {x : Interface} (hx : x.toAdvert.Complete)
    {front back : List Advert} {packet : List UInt8} (behind : Mem)
    (hothers : ∀ y ∈ front ++ back, y.Complete)
    (hfew : (front ++ x.toAdvert :: back).length ≤ MAX_INTERFACES.toNat)
    (hpacket : serializeInterfacesPacket ((front ++ x.toAdvert :: back).map some)
      (UInt32.ofNat (front ++ x.toAdvert :: back).length) = some packet) :
    ∃ xs, (unserializeInterfacesPacket (UInt32.ofNat packet.length)
        (overlay packet behind) 0).val = .ok xs
      ∧ xs[front.length]? = some x.toAdvert := by
  have hcomplete : ∀ y ∈ front ++ x.toAdvert :: back, y.Complete := by
    intro y hy
    rcases List.mem_append.mp hy with h | h
    · exact hothers y (List.mem_append_left _ h)
    rcases List.mem_cons.mp h with rfl | h
    · exact hx
    · exact hothers y (List.mem_append_right _ h)
  have hmax : MAX_INTERFACES.toNat = 256 := rfl
  obtain ⟨ls, hfits, hls⟩ := exists_listings hcomplete
  rw [← hls, List.length_map] at hfew
  have hlist : Listable ls := ⟨by omega, hfits⟩
  rw [← hls, List.map_map, List.length_map] at hpacket
  have hlen := UInt32.toNat_ofNat_of_lt' (length_serializeInterfacesPacket hpacket)
  cases serializeInterfacesPacket_eq hlist hpacket
  have hfour : ¬ UInt32.ofNat (listEncoding ls).length < 4 :=
    listEncoding_not_short (Nat.le_of_eq hlen.symm)
  refine ⟨_, unserializeInterfacesPacket_listEncoding hlist hfew
    (holds_overlay _ behind) hfour, ?_⟩
  rw [hls, List.getElem?_append_right (Nat.le_refl _), Nat.sub_self]
  rfl

/-- A list packet can be made of a complete entry exactly if what is copied for it
    fits. -/
theorem made_iff {x : Interface} (hx : x.toAdvert.Complete) :
    (∃ packet, serializeInterfacesPacket [some x.toAdvert] 1 = some packet)
      ↔ PiecesFit BUFFER_INC_SIZE.toNat 0 [4, 4, 4, x.argc.toNat, 4, x.retc.toNat] := by
  obtain ⟨l, hfits, hl⟩ := hx.listing
  have hlist : Listable [l] :=
    ⟨Nat.one_lt_two_pow (by decide), List.forall_mem_singleton.mpr hfits⟩
  have hiff := serializeInterfacesPacket_iff hlist
  rw [List.map_singleton, List.map_singleton, hl] at hiff
  refine Iff.trans ⟨?_, fun h => ⟨_, h⟩⟩ hiff
  rintro ⟨packet, hpacket⟩
  have heq := @serializeInterfacesPacket_eq _ hlist packet
  rw [List.map_singleton, hl] at heq
  rw [← heq hpacket]
  exact hpacket

/-- The lengths of the pieces of a description. -/
theorem length_infoPieces (d : Description) (id argc retc : UInt32) :
    (d.pieces id argc retc d.rets).map List.length
      = 4 :: (d.name.bytes.length + 1) :: (d.description.bytes.length + 1)
        :: 4 :: (attrLengths d.args ++ 4 :: attrLengths d.rets) := by
  have hattrs : ∀ as : List UserAttr,
      (as.flatMap UserAttr.pieces).map List.length = attrLengths as := by
    intro as
    rw [List.map_flatMap, attrLengths]
    refine congrArg (fun f => as.flatMap f) (funext fun a => ?_)
    simp [UserAttr.pieces, encodeString]
  rw [Description.pieces]
  simp only [List.map_cons, List.map_append, hattrs, length_wordBytes, encodeString,
    List.length_append, List.length_singleton]

/-- An entry with the declared strings is received as declared exactly if there are as
    many results as arguments, and what is copied for it fits. -/
theorem describedAs_iff {d : DeclaredInterface} {x : Interface} (hargc : x.argc = d.argc)
    (hretc : x.retc = d.retc) (hinfo : x.info = d.info) :
    DescribedAs x d.info ↔ d.argc = d.retc ∧ PiecesFit BUFFER_INC_SIZE.toNat 0
      (4 :: (d.name.bytes.length + 1) :: (d.description.bytes.length + 1)
        :: 4 :: (attrLengths d.argInfo ++ 4 :: attrLengths d.retInfo)) := by
  have h := @infoTravels_iff_fits d.argc d.retc
    ⟨d.name, d.description, d.argInfo, d.retInfo⟩ d.argInfo_length.symm
    d.retInfo_length.symm x.id
  rw [length_infoPieces] at h
  rw [DescribedAs, hargc, hretc, hinfo]
  exact h

/-- Flags that are all zero. -/
theorem replicate_eq_iff {flags : List UInt8} {n : Nat} (hn : flags.length = n) :
    Ptr.block (List.replicate n 0) = .block flags ↔ ∀ f ∈ flags, f = 0 := by
  rw [Ptr.block.injEq, eq_comm, List.eq_replicate_iff]
  exact and_iff_right hn

/-- **REGISTRATION OF A DECLARED INTERFACE** leaves an entry that says, and makes
    receivers hear, what was declared exactly if all declared flags are zero, there are
    as many results as arguments, and both packets fit the buffers. -/
theorem registered_as_declared_iff {k k' : Registry} {pid : Int32}
    {procCreate : Option ProcEntry} {d : DeclaredInterface} {id : UInt32}
    (hrun : registerInterface pid procCreate d.toUserInterface k = some (id, k')) :
    RegisteredAs k k' id d.Preserved
      ↔ d.Immediate ∧ d.argc = d.retc ∧ d.PacketsFit := by
  obtain ⟨procEntry, hentry⟩ := registerInterface_entry hrun
  have hcomplete : (d.toUserInterface.registered id pid procEntry).toAdvert.Complete :=
    ⟨_, _, rfl, List.length_replicate, rfl, List.length_replicate⟩
  constructor
  · rintro ⟨p, x, hderef, -, hx⟩
    cases hentry.symm.trans hderef
    obtain ⟨heq, hinfo⟩ := (describedAs_iff rfl rfl rfl).mp hx.described
    exact ⟨⟨(replicate_eq_iff d.argFlags_length).mp hx.argFlags,
      (replicate_eq_iff d.retFlags_length).mp hx.retFlags⟩, heq,
      (made_iff hcomplete).mp hx.listed.made, hinfo⟩
  · rintro ⟨⟨hargs, hrets⟩, heq, hlist, hinfo⟩
    replace hargs := (replicate_eq_iff d.argFlags_length).mpr hargs
    replace hrets := (replicate_eq_iff d.retFlags_length).mpr hrets
    have hadvert : (d.toUserInterface.registered id pid procEntry).toAdvert
        = d.advert id := by
      show (⟨id, d.argc, d.retc, .block _, .block _⟩ : Advert) = _
      rw [hargs, hrets]
      rfl
    refine ⟨_, _, hentry, rfl, rfl, rfl, hargs, hrets, rfl, rfl, rfl, rfl,
      ⟨(made_iff hcomplete).mpr hlist, ?_⟩, (describedAs_iff rfl rfl rfl).mpr ⟨heq, hinfo⟩⟩
    intro front back packet behind hothers hfew hpacket
    obtain ⟨xs, hxs, hget⟩ := received_self hcomplete behind hothers hfew hpacket
    refine ⟨xs, hxs, ?_⟩
    rw [hget, hadvert]
    rfl

/-- The description of one argument, or of one result. -/
theorem length_emptyAttr :
    ([⟨.empty, .empty⟩] : List UserAttr).length = (1 : UInt32).toNat := rfl

/-- One argument and one result, with the given flags. -/
def DeclaredInterface.flagged (argFlag retFlag : UInt8) : DeclaredInterface :=
  { argc := 1, retc := 1, name := .empty, description := .empty
    argInfo := [⟨.empty, .empty⟩], retInfo := [⟨.empty, .empty⟩]
    argInfo_length := length_emptyAttr, retInfo_length := length_emptyAttr
    argFlags := [argFlag], retFlags := [retFlag]
    argFlags_length := rfl, retFlags_length := rfl }

/-- `IMMDIETE` is 0. -/
theorem registered_as_declared_immediate :
    ∃ k', registerInterface 7 (some 1)
        (DeclaredInterface.flagged 0 0).toUserInterface .initial = some (1, k')
      ∧ RegisteredAs .initial k' 1 (DeclaredInterface.flagged 0 0).Preserved := by
  refine ⟨_, rfl, (registered_as_declared_iff rfl).mpr ⟨⟨?_, ?_⟩, rfl, ?_, ?_⟩⟩
  · intro flag hflag
    exact List.mem_singleton.mp hflag
  · intro flag hflag
    exact List.mem_singleton.mp hflag
  · exact (piecesFit_below_limit (by decide)).mpr (by decide)
  · exact (piecesFit_below_limit (by decide)).mpr (by decide)

/-- An argument that is declared as a pointer, `PTR` being 1, is advertised as an
    immediate value. -/
theorem pointer_flag_lost :
    ∃ k', registerInterface 7 (some 1)
        (DeclaredInterface.flagged 1 0).toUserInterface .initial = some (1, k')
      ∧ ¬ RegisteredAs .initial k' 1 (DeclaredInterface.flagged 1 0).Preserved := by
  refine ⟨_, rfl, ?_⟩
  rintro ⟨p, x, hderef, -, hx⟩
  have hflags : (Ptr.block [0]) = .block [1] := by
    cases hderef
    exact hx.argFlags
  cases hflags

end DistComm
