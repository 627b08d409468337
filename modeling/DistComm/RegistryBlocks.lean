import DistComm.PeerBlocks
import DistComm.RegistryFaults
import Mathlib.Algebra.BigOperators.Group.Finset.Basic
import Mathlib.Tactic.Abel

/-! # The memory of the registry

    `register_interface`, `remove_interface` and `handle_activate_interface` once more,
    for the blocks that they allocate, use and free.  The functions of the source have
    the prefix `Blocks` in this view.  The values in the registry are those of a
    registration whose calls succeed: what a failed one makes different are flags and
    strings, which none of these functions reads.

    `remove_interface` frees an interface but not its description, and its compaction
    loop loses interfaces and repeats others.  Still every slot in use points to an
    interface that is there, whichever calls come in whichever order: the module follows
    the NULL of a failed allocation, or it goes out of the array for the first of several
    interfaces, or it frees nothing twice, uses nothing that is gone, and holds the array,
    every interface that was not removed, also the lost ones, and the description of
    every interface (`registry_blocks`). -/

namespace DistComm

open RawMemory RawScan PointerArray TracedProgram Transition Slab

/-- `sizeof(ctrl_t)`. -/
def SIZEOF_CTRL : Nat := 40

/-- `sizeof(info_t)`. -/
def SIZEOF_INFO : Nat := 32

/-- `sizeof(attr_info_t)`. -/
def SIZEOF_ATTR_INFO : Nat := 16

/-- The blocks of a registered interface; `strings` are all those of its
    description. -/
structure EntryBlocks where
  interface : Pointer
  ctrl : Pointer
  argFlags : Pointer
  retFlags : Pointer
  info : Pointer
  argInfo : Pointer
  retInfo : Pointer
  strings : List Pointer

/-- The registry, the pointer in `INTERFACE_LIST`, and the blocks of every interface
    that was ever registered, by its address. -/
structure HeldRegistry where
  registry : Registry
  array : Pointer
  held : Nat → EntryBlocks

/-- The globals as the module is loaded. -/
def HeldRegistry.initial : HeldRegistry :=
  ⟨.initial, .null, fun _ => ⟨.null, .null, .null, .null, .null, .null, .null, []⟩⟩

/-! ## Traversals -/

/-- A loop over `INTERFACE_LIST` that stops at the first interface for which `P` holds,
    from index `i` for `n` rounds; `read` is what a round reads of the interface. -/
def Blocks.search (s : HeldRegistry) (read : EntryBlocks → Prog Unit)
    (P : Nat × Interface → Bool) : Nat → Nat → Prog (Option (Hit (Nat × Interface)))
  | _, 0 => pure none
  | i, n + 1 => do
      access s.array
      let x ← demand (s.registry.interfaceList.deref i)
      read (s.held x.1)
      if P x then pure (some ⟨i, x⟩) else Blocks.search s read P (i + 1) n

/-- `interface->id`. -/
def EntryBlocks.readId (e : EntryBlocks) : Prog Unit := access e.interface

/-- `interface->ctrl->bind_pid`. -/
def EntryBlocks.readPid (e : EntryBlocks) : Prog Unit := do
  access e.interface
  access e.ctrl

/-! ## Registration -/

/-- `alloc_interface(argc, retc, TRUE, FALSE, FALSE)`. -/
def Blocks.allocInterface (grants : Nat → Nat → Bool) (argc retc : UInt32) :
    Prog EntryBlocks := do
  let interface ← kmalloc grants SIZEOF_INTERFACE
  access interface
  let ctrl ← kmalloc grants SIZEOF_CTRL
  let argFlags ← kmalloc grants argc.toNat
  let retFlags ← kmalloc grants retc.toNat
  let info ← kmalloc grants SIZEOF_INFO
  let argInfo ← kmalloc grants (argc.toNat * SIZEOF_ATTR_INFO)
  access info
  let retInfo ← kmalloc grants (retc.toNat * SIZEOF_ATTR_INFO)
  access info
  pure ⟨interface, ctrl, argFlags, retFlags, info, argInfo, retInfo, []⟩

/-- `strndup_user`; an error pointer points to no block. -/
def Blocks.strndupUser (grants : Nat → Nat → Bool) (readable : Bool)
    (string : CString) : Prog Pointer :=
  if readable then kmalloc grants (string.bytes.length + 1) else pure .null

/-- The loops that fill `arg_info` and `ret_info`, from the `n`-th `strndup_user` on. -/
def Blocks.copyAttrs (grants : Nat → Nat → Bool) (readable : Nat → Bool)
    (array : Pointer) : Nat → List UserAttr → Prog (List Pointer)
  | _, [] => pure []
  | n, a :: as => do
      let name ← Blocks.strndupUser grants (readable n) a.name
      access array
      let description ← Blocks.strndupUser grants (readable (n + 1)) a.description
      access array
      let rest ← Blocks.copyAttrs grants readable array (n + 2) as
      pure (name :: description :: rest)

/-- The descriptions that `register_interface` copies. -/
def Blocks.copyInfo (grants : Nat → Nat → Bool) (readable : Nat → Bool)
    (u : UserInterface) (e : EntryBlocks) : Prog EntryBlocks := do
  let name ← Blocks.strndupUser grants (readable 0) u.name
  access e.info
  let description ← Blocks.strndupUser grants (readable 1) u.description
  access e.info
  let args ← Blocks.copyAttrs grants readable e.argInfo 2 u.argInfo
  let rets ← Blocks.copyAttrs grants readable e.retInfo (2 + 2 * u.argc.toNat) u.retInfo
  pure { e with strings := name :: description :: args ++ rets }

/-- The growth step of `register_interface`. -/
def Blocks.grow (grants : Nat → Nat → Bool) (s : HeldRegistry) : Prog Pointer :=
  if s.registry.interfaceCapacity < s.registry.interfaceCount + 1 then
    krealloc grants s.array (8 * (s.registry.interfaceCapacity + GRADIENT).toNat)
  else pure s.array

/-- `register_interface` by process `pid`. -/
def Blocks.registerInterface (grants : Nat → Nat → Bool) (readable : Nat → Bool)
    (pid : Int32) (procCreate : Option ProcEntry) (u : UserInterface)
    (s : HeldRegistry) : Prog HeldRegistry := do
  let allocated ← Blocks.allocInterface grants u.argc u.retc
  access allocated.ctrl
  -- `add_interface_to_proc`
  let _ ← Blocks.search s EntryBlocks.readPid (fun x => x.2.ctrl.bindPid == pid) 0
    (min s.registry.interfaceCount.toNat (2 ^ 31))
  let entry ← Blocks.copyInfo grants readable u allocated
  let array ← Blocks.grow grants s
  access array
  let (_, registry) ← demand (DistComm.registerInterface pid procCreate u s.registry)
  pure ⟨registry, array,
    Function.update s.held s.registry.interfaceList.next entry⟩

/-! ## Removal and activation -/

/-- `free_interface` of a registered interface. -/
def Blocks.freeEntry (e : EntryBlocks) : Prog Unit := do
  access e.interface
  kfree e.argFlags
  kfree e.retFlags
  kfree e.ctrl
  kfree e.interface

/-- `remove_interface`. -/
def Blocks.removeInterface (id : UInt32) (s : HeldRegistry) : Prog HeldRegistry := do
  let k := s.registry
  let found ← Blocks.search s EntryBlocks.readId (fun x => x.2.id == id) 0
    k.interfaceCount.toNat
  match found with
  | none => pure s
  | some hit => do
      let n := (k.interfaceCount - 1).toNat - hit.index
      fill s.array n
      let list ← demand (moveSlots k.interfaceList hit.index n)
      Blocks.freeEntry (s.held hit.val.1)
      let list ← demand (list.free hit.val.1)
      pure { s with registry :=
        { k with interfaceCount := k.interfaceCount - 1, interfaceList := list } }

/-- The loops of `handle_activate_interface` for these ids. -/
def Blocks.activate (s : HeldRegistry) : List UInt32 → Prog Unit
  | [] => pure ()
  | id :: ids => do
      let found ← Blocks.search s EntryBlocks.readId (fun x => x.2.id == id) 0
        s.registry.interfaceCount.toNat
      match found with
      | none => Blocks.activate s ids
      | some hit => do
          access (s.held hit.val.1).ctrl
          Blocks.activate s ids

/-- A call, and which strings of the user can be read. -/
structure RegistryRequest where
  call : RegistryCall
  readable : Nat → Bool

/-- One call. -/
def Blocks.step (grants : Nat → Nat → Bool) (s : HeldRegistry) (r : RegistryRequest) :
    Prog HeldRegistry :=
  match r.call with
  | .register pid procCreate u =>
      Blocks.registerInterface grants r.readable pid procCreate u s
  | .remove id => Blocks.removeInterface id s
  | .activate packet packetLength portid => do
      Blocks.activate s (requestedIds packet 0 packetLength)
      let registry ← demand (s.registry.step (.activate packet packetLength portid))
      pure { s with registry }

/-! ## What is held -/

/-- What `free_interface` frees. -/
def EntryBlocks.freed (e : EntryBlocks) : Multiset Nat :=
  e.interface.owned + e.ctrl.owned + e.argFlags.owned + e.retFlags.owned

/-- The description, which it does not free. -/
def EntryBlocks.described (e : EntryBlocks) : Multiset Nat :=
  e.info.owned + e.argInfo.owned + e.retInfo.owned + ownedAll e.strings

/-- Of the interface at address `p`: all its blocks, or its description if it was
    removed. -/
def HeldRegistry.blocksAt (s : HeldRegistry) (p : Nat) : Multiset Nat :=
  (if (s.registry.interfaceList.heap p).isSome then (s.held p).freed else 0)
    + (s.held p).described

/-- The blocks of the array and of every interface that was ever registered. -/
def HeldRegistry.blocks (s : HeldRegistry) : Multiset Nat :=
  s.array.owned
    + ∑ p ∈ Finset.range s.registry.interfaceList.next, s.blocksAt p

/-- What the module reads and writes of an interface is there. -/
structure EntryBlocks.Usable (e : EntryBlocks) (x : Interface) : Prop where
  interface : e.interface.IsBlock
  ctrl : e.ctrl.IsBlock
  info : e.info.IsBlock
  argInfo : x.argc ≠ 0 → e.argInfo.IsBlock
  retInfo : x.retc ≠ 0 → e.retInfo.IsBlock

/-- The registry is sound, its array is there unless it was never needed, and every
    interface that was not removed is usable. -/
structure HeldRegistry.Sound (s : HeldRegistry) : Prop where
  registry : DistComm.Sound s.registry
  array : s.array.IsBlock ∨ s.registry.interfaceCapacity = 0
  array_zero : s.array ≠ .zero
  usable : ∀ p x, s.registry.interfaceList.heap p = some x → (s.held p).Usable x

theorem HeldRegistry.sound_initial : HeldRegistry.initial.Sound where
  registry := DistComm.sound_initial
  array := Or.inr rfl
  array_zero h := nomatch h
  usable _ _ h := nomatch h

section Ownership

variable {s : HeldRegistry}

theorem EntryBlocks.interface_le (e : EntryBlocks) : e.interface.owned ≤ e.freed :=
  le_add_right (le_add_right (le_add_right le_rfl))

theorem EntryBlocks.ctrl_le (e : EntryBlocks) : e.ctrl.owned ≤ e.freed :=
  le_add_right (le_add_right le_add_self)

theorem HeldRegistry.array_le (s : HeldRegistry) : s.array.owned ≤ s.blocks :=
  le_self_add

/-- The blocks of one interface, and all others. -/
theorem HeldRegistry.blocks_at (s : HeldRegistry) {p : Nat}
    (hp : p < s.registry.interfaceList.next) :
    s.blocks = s.array.owned + (s.blocksAt p
      + ∑ q ∈ (Finset.range s.registry.interfaceList.next).erase p, s.blocksAt q) := by
  rw [Finset.add_sum_erase _ _ (Finset.mem_range.mpr hp)]
  rfl

/-- An interface that was not removed still has what a removal would free. -/
theorem HeldRegistry.Sound.freed_le (h : s.Sound) {p : Nat} {x : Interface}
    (hp : s.registry.interfaceList.heap p = some x) : (s.held p).freed ≤ s.blocks := by
  rw [s.blocks_at (h.registry.fresh p x hp), HeldRegistry.blocksAt, hp]
  exact le_add_left (le_add_right (le_add_right le_rfl))

/-- Where there is an interface in the array, there is the array. -/
theorem HeldRegistry.Sound.array_block (h : s.Sound)
    (hpos : 0 < s.registry.interfaceCount.toNat) : s.array.IsBlock := by
  rcases h.array with hblock | hzero
  · exact hblock
  · have hle := h.registry.globals.count_le
    replace hle : s.registry.interfaceCount.toNat ≤ s.registry.interfaceCapacity.toNat :=
      hle
    rw [hzero] at hle
    exact absurd hpos (Nat.not_lt.mpr hle)

end Ownership

/-! ## Triples -/

section Rules

variable {grants : Nat → Nat → Bool} {own : Multiset Nat} {s : HeldRegistry}

theorem EntryBlocks.readId_spec (h : s.Sound) {p : Nat} {x : Interface}
    (hp : s.registry.interfaceList.heap p = some x) (hown : s.blocks ≤ own) :
    Spec grants own (s.held p).readId fun _ own' => own' = own :=
  Spec.access_block (h.usable p x hp).interface
    ((EntryBlocks.interface_le _).trans ((h.freed_le hp).trans hown))

theorem EntryBlocks.readPid_spec (h : s.Sound) {p : Nat} {x : Interface}
    (hp : s.registry.interfaceList.heap p = some x) (hown : s.blocks ≤ own) :
    Spec grants own (s.held p).readPid fun _ own' => own' = own := by
  have hle := (h.freed_le hp).trans hown
  refine (Spec.access_block (h.usable p x hp).interface
    ((EntryBlocks.interface_le _).trans hle)).bind ?_
  rintro _ _ rfl
  exact Spec.access_block (h.usable p x hp).ctrl ((EntryBlocks.ctrl_le _).trans hle)

/-- **TRAVERSAL**: below the count a loop uses nothing that is gone, and finds what it
    would find without a heap. -/
theorem Blocks.search_spec (h : s.Sound) {read : EntryBlocks → Prog Unit}
    (hread : ∀ p x, s.registry.interfaceList.heap p = some x →
      Spec grants own (read (s.held p)) fun _ own' => own' = own)
    (hown : s.blocks ≤ own) (P : Nat × Interface → Bool) (n i : Nat)
    (hn : i + n ≤ s.registry.interfaceCount.toNat) :
    Spec grants own (Blocks.search s read P i n) fun r own' =>
      own' = own ∧ PointerArray.search s.registry.interfaceList.deref P i n = some r := by
  induction n generalizing i with
  | zero => exact Spec.pure ⟨rfl, rfl⟩
  | succ n ih =>
      obtain ⟨⟨p, x⟩, hx⟩ := h.registry.live i (by omega)
      rw [Blocks.search, search_succ, hx, Option.bind_some]
      refine (Spec.access_block (h.array_block (by omega))
        (s.array_le.trans hown)).bind ?_
      rintro _ _ rfl
      refine (Spec.demand rfl).bind ?_
      rintro _ _ ⟨rfl, rfl⟩
      refine (hread p x (deref_eq_some.mp hx).2).bind ?_
      rintro _ _ rfl
      by_cases hP : P (p, x) = true
      · rw [if_pos hP, if_pos hP]
        exact Spec.pure ⟨rfl, rfl⟩
      · rw [if_neg hP, if_neg hP]
        exact ih (i + 1) (by omega)

/-! ### Registration -/

/-- What `alloc_interface` returns, but for the zeroes in it. -/
structure EntryBlocks.Fresh (grants : Nat → Nat → Bool) (argc retc : UInt32)
    (e : EntryBlocks) : Prop where
  interface : e.interface.IsBlock
  ctrl : Obtained grants SIZEOF_CTRL e.ctrl
  info : e.info.IsBlock
  argInfo : Obtained grants (argc.toNat * SIZEOF_ATTR_INFO) e.argInfo
  retInfo : Obtained grants (retc.toNat * SIZEOF_ATTR_INFO) e.retInfo
  strings : e.strings = []

theorem Blocks.allocInterface_spec (argc retc : UInt32) :
    Spec grants own (Blocks.allocInterface grants argc retc) fun e own' =>
      own' = own + (e.freed + e.described) ∧ e.Fresh grants argc retc := by
  rw [Blocks.allocInterface]
  refine (Spec.kmalloc _).bind ?_
  rintro interface own1 ⟨rfl, hz1, hd1⟩
  refine ((Obtained.mk hz1 hd1).access (by decide) le_add_self).bind ?_
  rintro _ _ ⟨rfl, hinterface⟩
  refine (Spec.kmalloc _).bind ?_
  rintro ctrl _ ⟨rfl, hz2, hd2⟩
  refine (Spec.kmalloc _).bind ?_
  rintro argFlags _ ⟨rfl, -, -⟩
  refine (Spec.kmalloc _).bind ?_
  rintro retFlags _ ⟨rfl, -, -⟩
  refine (Spec.kmalloc _).bind ?_
  rintro info _ ⟨rfl, hz3, hd3⟩
  refine (Spec.kmalloc _).bind ?_
  rintro argInfo _ ⟨rfl, hz4, hd4⟩
  refine ((Obtained.mk hz3 hd3).access (by decide) (le_add_right le_add_self)).bind ?_
  rintro _ _ ⟨rfl, hinfo⟩
  refine (Spec.kmalloc _).bind ?_
  rintro retInfo _ ⟨rfl, hz5, hd5⟩
  refine (Spec.access_block hinfo (le_add_right (le_add_right le_add_self))).bind ?_
  rintro _ _ rfl
  refine Spec.pure ⟨?_, hinterface, ⟨hz2, hd2⟩, hinfo, ⟨hz4, hd4⟩, ⟨hz5, hd5⟩, rfl⟩
  rw [EntryBlocks.freed, EntryBlocks.described, ownedAll, List.map_nil, List.sum_nil]
  abel

theorem Blocks.strndupUser_spec (readable : Bool) (string : CString) :
    Spec grants own (Blocks.strndupUser grants readable string) fun p own' =>
      own' = own + p.owned := by
  rw [Blocks.strndupUser]
  cases readable with
  | false => exact Spec.pure (add_zero own).symm
  | true =>
      rw [if_pos rfl]
      exact (Spec.kmalloc _).weaken fun _ _ h => h.1

theorem Blocks.copyAttrs_spec {array : Pointer} {size : Nat} (readable : Nat → Bool)
    (harray : Obtained grants size array) (attrs : List UserAttr)
    (hsize : attrs ≠ [] → 0 < size) (hown : array.owned ≤ own) (n : Nat) :
    Spec grants own (Blocks.copyAttrs grants readable array n attrs) fun strings own' =>
      own' = own + ownedAll strings ∧ (attrs ≠ [] → array.IsBlock) := by
  induction attrs generalizing own n with
  | nil => exact Spec.pure ⟨(add_zero own).symm, fun h => absurd rfl h⟩
  | cons a as ih =>
      have hpos := hsize (List.cons_ne_nil a as)
      rw [Blocks.copyAttrs]
      refine (Blocks.strndupUser_spec _ _).bind ?_
      rintro name _ rfl
      refine (harray.access hpos (le_add_right hown)).bind ?_
      rintro _ _ ⟨rfl, hblock⟩
      refine (Blocks.strndupUser_spec _ _).bind ?_
      rintro description _ rfl
      refine (Spec.access_block hblock (le_add_right (le_add_right hown))).bind ?_
      rintro _ _ rfl
      refine (ih (fun _ => hpos) (le_add_right (le_add_right hown)) (n + 2)).bind ?_
      rintro strings _ ⟨rfl, -⟩
      refine Spec.pure ⟨?_, fun _ => hblock⟩
      rw [ownedAll, ownedAll, List.map_cons, List.map_cons, List.sum_cons, List.sum_cons,
        ← add_assoc, ← add_assoc]

/-- Descriptions are copied next to what was allocated, or the copy follows NULL. -/
theorem Blocks.copyInfo_spec {u : UserInterface} {e : EntryBlocks}
    (he : e.Fresh grants u.argc u.retc) (readable : Nat → Bool) :
    Spec grants (own + (e.freed + e.described)) (Blocks.copyInfo grants readable u e)
      fun e' own' => own' = own + (e'.freed + e'.described)
        ∧ e'.interface = e.interface ∧ e'.ctrl = e.ctrl ∧ e'.info.IsBlock
        ∧ (u.argc ≠ 0 → e'.argInfo.IsBlock) ∧ (u.retc ≠ 0 → e'.retInfo.IsBlock) := by
  have hne : ∀ {c : UInt32} {attrs : List UserAttr}, attrs.length = c.toNat →
      (attrs ≠ [] → 0 < c.toNat * SIZEOF_ATTR_INFO) ∧ (c ≠ 0 → attrs ≠ []) := by
    intro c attrs hlen
    refine ⟨fun h => ?_, fun hc h => hc (UInt32.toNat_inj.mp ?_)⟩
    · rw [← hlen]
      exact Nat.mul_pos (List.length_pos_of_ne_nil h) (by decide)
    · rw [← hlen, h]
      rfl
  have hinfo : e.info.owned ≤ own + (e.freed + e.described) :=
    le_add_left (le_add_left (le_add_right (le_add_right le_self_add)))
  have hargs : e.argInfo.owned ≤ own + (e.freed + e.described) :=
    le_add_left (le_add_left (le_add_right (le_add_right le_add_self)))
  have hrets : e.retInfo.owned ≤ own + (e.freed + e.described) :=
    le_add_left (le_add_left (le_add_right le_add_self))
  rw [Blocks.copyInfo]
  refine (Blocks.strndupUser_spec _ _).bind ?_
  rintro name _ rfl
  refine (Spec.access_block he.info (le_add_right hinfo)).bind ?_
  rintro _ _ rfl
  refine (Blocks.strndupUser_spec _ _).bind ?_
  rintro description _ rfl
  refine (Spec.access_block he.info (le_add_right (le_add_right hinfo))).bind ?_
  rintro _ _ rfl
  refine (Blocks.copyAttrs_spec readable he.argInfo u.argInfo (hne u.argInfo_length).1
    (le_add_right (le_add_right hargs)) 2).bind ?_
  rintro args _ ⟨rfl, hargInfo⟩
  refine (Blocks.copyAttrs_spec readable he.retInfo u.retInfo (hne u.retInfo_length).1
    (le_add_right (le_add_right (le_add_right hrets))) _).bind ?_
  rintro rets _ ⟨rfl, hretInfo⟩
  refine Spec.pure ⟨?_, rfl, rfl, he.info,
    fun h => hargInfo ((hne u.argInfo_length).2 h),
    fun h => hretInfo ((hne u.retInfo_length).2 h)⟩
  have hstrings : ownedAll (name :: description :: args ++ rets)
      = name.owned + description.owned + ownedAll args + ownedAll rets := by
    rw [ownedAll, List.map_append, List.sum_append, List.map_cons, List.map_cons,
      List.sum_cons, List.sum_cons, ← add_assoc]
    rfl
  rw [EntryBlocks.freed, EntryBlocks.freed, EntryBlocks.described, EntryBlocks.described,
    he.strings, hstrings, ownedAll, List.map_nil, List.sum_nil]
  abel

/-- The array grows when it is full. -/
theorem Blocks.grow_spec (h : s.Sound) (hsmall : s.registry.interfaceCount.toNat < 2 ^ 31) :
    Spec grants (own + s.array.owned) (Blocks.grow grants s) fun q own' =>
      (q = .null ∧ Denied grants) ∨ (own' = own + q.owned ∧ q.IsBlock) := by
  have hgrows : s.registry.interfaceCapacity < s.registry.interfaceCount + 1
      ↔ s.registry.interfaceCount = s.registry.interfaceCapacity
        ∧ s.registry.interfaceCount.toNat + 1 < 2 ^ 32 := h.registry.globals.grows_iff
  rw [Blocks.grow]
  by_cases hgrow : s.registry.interfaceCapacity < s.registry.interfaceCount + 1
  · have hfull := (hgrows.mp hgrow).1
    have hsize : 0 < 8 * (s.registry.interfaceCapacity + GRADIENT).toNat := by
      have hten : GRADIENT.toNat = 10 := rfl
      rw [← hfull, UInt32.toNat_add]
      omega
    rw [if_pos hgrow]
    refine (Spec.krealloc s.array _).weaken ?_
    rintro q own' (hnull | ⟨hown, hnull, hzero⟩)
    · exact Or.inl hnull
    · exact Or.inr ⟨hown, hnull, hzero hsize⟩
  · rw [if_neg hgrow]
    refine Spec.pure (Or.inr ⟨rfl, h.array.resolve_right fun hzero => hgrow ?_⟩)
    have hle := h.registry.globals.count_le
    replace hle : s.registry.interfaceCount.toNat ≤ s.registry.interfaceCapacity.toNat :=
      hle
    refine hgrows.mpr ⟨?_, by omega⟩
    rw [hzero] at hle ⊢
    exact UInt32.toNat_inj.mp (Nat.le_zero.mp hle)

/-- The blocks of the other interfaces, once another one is registered. -/
theorem HeldRegistry.blocks_registered {k' : Registry} {x : Interface}
    (hreg : Registered s.registry k' x) (array : Pointer) (e : EntryBlocks) :
    HeldRegistry.blocks ⟨k', array, Function.update s.held s.registry.interfaceList.next e⟩
      = array.owned + (∑ p ∈ Finset.range s.registry.interfaceList.next, s.blocksAt p
        + (e.freed + e.described)) := by
  rw [HeldRegistry.blocks, hreg.next, Finset.sum_range_succ]
  congr 2
  · refine Finset.sum_congr rfl fun p hp => ?_
    have hne : p ≠ s.registry.interfaceList.next :=
      Nat.ne_of_lt (Finset.mem_range.mp hp)
    simp only [HeldRegistry.blocksAt, hreg.heap, Function.update_of_ne hne]
  · simp only [HeldRegistry.blocksAt, hreg.heap, Function.update_self]
    rfl

/-- **REGISTRATION** adds the blocks of the interface, or follows NULL. -/
theorem Blocks.registerInterface_spec (h : s.Sound)
    (hsmall : s.registry.interfaceCount.toNat < 2 ^ 31) {pid : Int32}
    {procCreate : Option ProcEntry} {u : UserInterface} {id : UInt32} {k' : Registry}
    (hrun : DistComm.registerInterface pid procCreate u s.registry = some (id, k'))
    (readable : Nat → Bool) :
    Spec grants s.blocks (Blocks.registerInterface grants readable pid procCreate u s)
      fun s' own' => s'.registry = k' ∧ s'.Sound ∧ own' = s'.blocks := by
  obtain ⟨procEntry, -, -, hreg⟩ := h.registry.toTraversable.registerInterface hrun
  obtain ⟨hsound, -⟩ := h.registry.added hreg
  rw [Blocks.registerInterface]
  refine (Blocks.allocInterface_spec u.argc u.retc).bind ?_
  rintro e _ ⟨rfl, he⟩
  have hctrl : e.ctrl.owned ≤ s.blocks + (e.freed + e.described) :=
    le_add_left (le_add_right e.ctrl_le)
  refine (he.ctrl.access (by decide) hctrl).bind ?_
  rintro _ _ ⟨rfl, hctrl⟩
  refine (Blocks.search_spec h (fun p x hp => EntryBlocks.readPid_spec h hp le_self_add)
    le_self_add _ _ 0 (by omega)).bind ?_
  rintro _ _ ⟨rfl, -⟩
  refine (Blocks.copyInfo_spec he readable).bind ?_
  rintro entry _ ⟨rfl, hinterface', hctrl', hinfo, hargInfo, hretInfo⟩
  have hsplit : s.blocks + (entry.freed + entry.described)
      = ∑ p ∈ Finset.range s.registry.interfaceList.next, s.blocksAt p
        + (entry.freed + entry.described) + s.array.owned := by
    rw [HeldRegistry.blocks]
    abel
  rw [hsplit]
  refine (Blocks.grow_spec h hsmall).bind ?_
  rintro array own1 (⟨rfl, hdenied⟩ | ⟨rfl, harray⟩)
  · -- the new interface is stored through NULL
    have hzero : Pointer.null ≠ .zero := Pointer.noConfusion
    refine (Spec.access hzero (fun _ => hdenied) (Multiset.zero_le own1)).bind ?_
    rintro _ _ ⟨-, hne⟩
    exact absurd rfl hne
  · refine (Spec.access_block harray le_add_self).bind ?_
    rintro _ _ rfl
    refine (Spec.demand hrun).bind ?_
    rintro _ _ ⟨rfl, rfl⟩
    refine Spec.pure ⟨rfl, ⟨hsound, Or.inl harray, harray.2, fun p x hp => ?_⟩, ?_⟩
    · replace hp : k'.interfaceList.heap p = some x := hp
      rw [hreg.heap] at hp
      show (Function.update s.held s.registry.interfaceList.next entry p).Usable x
      by_cases hnew : p = s.registry.interfaceList.next
      · rw [hnew, Function.update_self] at hp ⊢
        rw [← Option.some.inj hp]
        exact ⟨by rw [hinterface']; exact he.interface, by rw [hctrl']; exact hctrl,
          hinfo, hargInfo, hretInfo⟩
      · rw [Function.update_of_ne hnew] at hp ⊢
        exact h.usable p x hp
    · rw [HeldRegistry.blocks_registered hreg]
      abel

/-! ### Removal -/

theorem Blocks.freeEntry_spec {e : EntryBlocks} (he : e.interface.IsBlock) :
    Spec grants (own + e.freed) (Blocks.freeEntry e) fun _ own' => own' = own := by
  have hfreed : own + e.freed = own + e.interface.owned + e.ctrl.owned
      + e.retFlags.owned + e.argFlags.owned := by
    rw [EntryBlocks.freed]
    abel
  rw [Blocks.freeEntry]
  refine (Spec.access_block he (e.interface_le.trans le_add_self)).bind ?_
  rintro _ _ rfl
  rw [hfreed]
  refine (Spec.kfree e.argFlags).bind ?_
  rintro _ _ rfl
  refine (Spec.kfree e.retFlags).bind ?_
  rintro _ _ rfl
  refine (Spec.kfree e.ctrl).bind ?_
  rintro _ _ rfl
  exact Spec.kfree e.interface

/-- The description of a removed interface stays. -/
theorem HeldRegistry.Sound.blocks_removed (h : s.Sound) {p : Nat} {x : Interface}
    (hp : s.registry.interfaceList.heap p = some x) {k' : Registry}
    (hheap : k'.interfaceList.heap
      = Function.update s.registry.interfaceList.heap p none)
    (hnext : k'.interfaceList.next = s.registry.interfaceList.next) :
    s.blocks = HeldRegistry.blocks { s with registry := k' } + (s.held p).freed := by
  have hlt := h.registry.fresh p x hp
  have hat : s.blocksAt p = (s.held p).freed
      + HeldRegistry.blocksAt { s with registry := k' } p := by
    simp only [HeldRegistry.blocksAt, hheap, Function.update_self, hp]
    exact congrArg _ (zero_add _).symm
  have hrest : ∀ q ∈ (Finset.range s.registry.interfaceList.next).erase p,
      s.blocksAt q = HeldRegistry.blocksAt { s with registry := k' } q := by
    intro q hq
    simp only [HeldRegistry.blocksAt, hheap,
      Function.update_of_ne (Finset.ne_of_mem_erase hq)]
  have hafter := HeldRegistry.blocks_at { s with registry := k' } (p := p)
    (by rw [hnext]; exact hlt)
  rw [hafter, s.blocks_at hlt, hat, Finset.sum_congr rfl hrest, hnext]
  abel

/-- The lookup of a removal. -/
theorem Blocks.lookup_spec (h : s.Sound) (id : UInt32) :
    Spec grants s.blocks (Blocks.search s EntryBlocks.readId (fun x => x.2.id == id) 0
      s.registry.interfaceCount.toNat) fun r own' => own' = s.blocks
        ∧ PointerArray.search s.registry.interfaceList.deref (fun x => x.2.id == id) 0
          s.registry.interfaceCount.toNat = some r :=
  Blocks.search_spec h (fun _ _ hp => EntryBlocks.readId_spec h hp le_rfl) le_rfl _ _ 0
    (Nat.le_of_eq (Nat.zero_add _))

/-- **REMOVAL** frees the interface and leaves its description. -/
theorem Blocks.removeInterface_spec (h : s.Sound) {id r : UInt32} {k' : Registry}
    (hrun : DistComm.removeInterface id s.registry = some (r, k')) :
    Spec grants s.blocks (Blocks.removeInterface id s) fun s' own' =>
      s'.registry = k' ∧ s'.Sound ∧ own' = s'.blocks := by
  have hstep : s.registry.step (.remove id) = some k' := by
    rw [Registry.step, hrun]
    rfl
  have hsound := (h.registry.step hstep).1
  rw [Blocks.removeInterface]
  refine (Blocks.lookup_spec h id).bind ?_
  rintro found _ ⟨rfl, hfound⟩
  rw [DistComm.removeInterface, hfound] at hrun
  cases found with
  | none =>
      cases Option.some.inj hrun
      exact Spec.pure ⟨rfl, h, rfl⟩
  | some hit =>
      obtain ⟨hlt, hderef⟩ := h.registry.hit hfound
      have hp := (deref_eq_some.mp hderef).2
      have harray := h.array_block (Nat.zero_lt_of_lt hlt)
      replace hrun : (moveSlots s.registry.interfaceList hit.index
        ((s.registry.interfaceCount - 1).toNat - hit.index)).bind _ = some (r, k') := hrun
      obtain ⟨list, hmove, hrest⟩ := Option.bind_eq_some_iff.mp hrun
      obtain ⟨list', hfree, hk'⟩ := Option.bind_eq_some_iff.mp hrest
      have hlist : list.heap = s.registry.interfaceList.heap
          ∧ list.next = s.registry.interfaceList.next := by
        rcases h.registry.moveSlots_cases hlt with ⟨-, -, hnone⟩ | ⟨list1, hsome, h1, h2, -⟩
        · rw [hmove] at hnone
          cases hnone
        · rw [Option.some.inj (hmove.symm.trans hsome)]
          exact ⟨h1, h2⟩
      refine (Spec.fill (fun _ => harray.2) (fun h0 => absurd h0 harray.1)
        s.array_le).bind ?_
      rintro _ _ ⟨rfl, -⟩
      refine (Spec.demand hmove).bind ?_
      rintro _ _ ⟨rfl, rfl⟩
      cases Option.some.inj hk'
      have hheap : list'.heap
          = Function.update s.registry.interfaceList.heap hit.val.1 none
            ∧ list'.next = s.registry.interfaceList.next := by
        rw [Table.free, hlist.1, hp] at hfree
        rw [← Option.some.inj hfree]
        exact ⟨rfl, hlist.2⟩
      have hblocks : s.blocks = HeldRegistry.blocks { s with registry :=
          { s.registry with
            interfaceCount := s.registry.interfaceCount - 1
            interfaceList := list' } } + (s.held hit.val.1).freed :=
        h.blocks_removed hp hheap.1 hheap.2
      rw [hblocks]
      refine (Blocks.freeEntry_spec (h.usable _ _ hp).interface).bind ?_
      rintro _ _ rfl
      refine (Spec.demand hfree).bind ?_
      rintro list' _ ⟨rfl, rfl⟩
      refine Spec.pure ⟨rfl, ⟨hsound, h.array, h.array_zero, fun q y hq => ?_⟩, rfl⟩
      replace hq : list'.heap q = some y := hq
      rw [hheap.1] at hq
      by_cases hqp : q = hit.val.1
      · rw [hqp, Function.update_self] at hq
        cases hq
      · rw [Function.update_of_ne hqp] at hq
        exact h.usable q y hq

theorem Blocks.removeInterface_fails (h : s.Sound) {id : UInt32}
    (hfirst : s.registry.FirstOfSeveral id) :
    Fails grants s.blocks (Blocks.removeInterface id s) := by
  obtain ⟨hseveral, p, x, hx, hid⟩ := hfirst
  rw [Blocks.removeInterface]
  refine (Blocks.lookup_spec h id).fails ?_
  rintro found _ ⟨rfl, hfound⟩
  rcases h.registry.live.search (fun x => x.2.id == id)
    with ⟨hnone, hno⟩ | ⟨hit, hsome, hfirst, hlt⟩
  · exact absurd hid (hno.ne (by omega) hx)
  rw [Option.some.inj (hfound.symm.trans hsome)]
  rcases h.registry.moveSlots_cases hlt with ⟨-, -, hmove⟩ | ⟨-, -, -, -, hone⟩
  · have harray := h.array_block (Nat.zero_lt_of_lt hlt)
    refine (Spec.fill (fun _ => harray.2) (fun h0 => absurd h0 harray.1)
      s.array_le).fails ?_
    rintro _ _ ⟨rfl, -⟩
    exact (Fails.demand hmove).bind _
  · have hpos : 0 < hit.index := Nat.pos_of_ne_zero fun h0 => by
      have := hone h0
      omega
    exact absurd hid (hfirst.ne hpos hx)

/-! ### Activation -/

theorem Blocks.activate_spec (h : s.Sound) (ids : List UInt32) :
    Spec grants s.blocks (Blocks.activate s ids) fun _ own' => own' = s.blocks := by
  induction ids with
  | nil => exact Spec.pure rfl
  | cons id ids ih =>
      rw [Blocks.activate]
      refine (Blocks.lookup_spec h id).bind ?_
      rintro found _ ⟨rfl, hfound⟩
      cases found with
      | none => exact ih
      | some hit =>
          have hp := (deref_eq_some.mp (h.registry.hit hfound).2).2
          refine (Spec.access_block (h.usable _ _ hp).ctrl
            ((EntryBlocks.ctrl_le _).trans (h.freed_le hp))).bind ?_
          rintro _ _ rfl
          exact ih

/-- What is registered elsewhere with the same layout has the same blocks. -/
theorem HeldRegistry.Sound.relabel (h : s.Sound) {k' : Registry} (hk : DistComm.Sound k')
    (hl : SameLayout s.registry k') :
    HeldRegistry.Sound { s with registry := k' }
      ∧ HeldRegistry.blocks { s with registry := k' } = s.blocks := by
  refine ⟨⟨hk, ?_, h.array_zero, fun p y hy => ?_⟩, ?_⟩
  · show s.array.IsBlock ∨ k'.interfaceCapacity = 0
    rw [hl.capacity]
    exact h.array
  · have hsame := hl.heap p
    rw [show k'.interfaceList.heap p = some y from hy, Option.map_some] at hsame
    obtain ⟨x, hx, hxy⟩ := Option.map_eq_some_iff.mp hsame.symm
    have husable := h.usable p x hx
    have hargc : x.argc = y.argc := congrArg Advert.argc hxy
    have hretc : x.retc = y.retc := congrArg Advert.retc hxy
    exact ⟨husable.interface, husable.ctrl, husable.info,
      fun hne => husable.argInfo (by rw [hargc]; exact hne),
      fun hne => husable.retInfo (by rw [hretc]; exact hne)⟩
  · have hat : ∀ p, HeldRegistry.blocksAt { s with registry := k' } p = s.blocksAt p := by
      intro p
      have hsame := congrArg Option.isSome (hl.heap p)
      rw [Option.isSome_map, Option.isSome_map] at hsame
      simp only [HeldRegistry.blocksAt, hsame]
    rw [HeldRegistry.blocks, HeldRegistry.blocks, hl.next]
    exact congrArg _ (Finset.sum_congr rfl fun p _ => hat p)

/-! ### Runs -/

/-- **ONE CALL**: the heap holds what the registry says. -/
theorem Blocks.step_spec (h : s.Sound) (hsmall : s.registry.interfaceCount.toNat < 2 ^ 31)
    {r : RegistryRequest} {k' : Registry} (hstep : s.registry.step r.call = some k') :
    Spec grants s.blocks (Blocks.step grants s r) fun s' own' =>
      s'.registry = k' ∧ s'.Sound ∧ own' = s'.blocks := by
  obtain ⟨call, readable⟩ := r
  cases call with
  | register pid procCreate u =>
      obtain ⟨⟨id, k1⟩, hrun, rfl⟩ := Option.map_eq_some_iff.mp hstep
      exact Blocks.registerInterface_spec h hsmall hrun readable
  | remove id =>
      obtain ⟨⟨r, k1⟩, hrun, rfl⟩ := Option.map_eq_some_iff.mp hstep
      exact Blocks.removeInterface_spec h hrun
  | activate m packetLength portid =>
      obtain ⟨k1, hstep1, hk1, hl⟩ := h.registry.activates m packetLength portid
      obtain ⟨hsound, hblocks⟩ := h.relabel hk1 hl
      rw [← Option.some.inj (hstep1.symm.trans hstep)]
      refine (Blocks.activate_spec h _).bind ?_
      rintro _ _ rfl
      refine (Spec.demand hstep1).bind ?_
      rintro _ _ ⟨rfl, rfl⟩
      exact Spec.pure ⟨rfl, hsound, hblocks.symm⟩

/-- A call that faults in the registry faults here. -/
theorem Blocks.step_fails (h : s.Sound) {r : RegistryRequest}
    (hout : s.registry.OutOfArray r.call) :
    Fails grants s.blocks (Blocks.step grants s r) := by
  obtain ⟨call, readable⟩ := r
  cases call with
  | register pid procCreate u => exact hout.elim
  | remove id => exact Blocks.removeInterface_fails h hout
  | activate m packetLength portid => exact hout.elim

/-- How calls that start with this state and this heap may end. -/
def HeldRegistry.Ends (grants : Nat → Nat → Bool) (s : HeldRegistry) (heap : Heap)
    (rs : List RegistryRequest) : Prop :=
  (rs.foldlM (Blocks.step grants) s heap = .error .null ∧ Denied grants)
    ∨ (rs.foldlM (Blocks.step grants) s heap = .error .misuse
      ∧ ∃ past r rest k, rs = past ++ r :: rest
        ∧ runAll Registry.step s.registry (past.map RegistryRequest.call) = some k
        ∧ k.OutOfArray r.call)
    ∨ ∃ s' heap', rs.foldlM (Blocks.step grants) s heap = .ok (s', heap')
      ∧ runAll Registry.step s.registry (rs.map RegistryRequest.call) = some s'.registry
      ∧ s'.Sound ∧ heap'.live.val = s'.blocks

/-- **ANY CALLS**, from a sound state that owns its heap. -/
theorem HeldRegistry.Sound.ends (rs : List RegistryRequest) (h : s.Sound) {heap : Heap}
    (hlive : heap.live.val = s.blocks)
    (hfew : s.registry.interfaceCount.toNat
      + (rs.map RegistryRequest.call).countP RegistryCall.isRegister < 2 ^ 31) :
    s.Ends grants heap rs := by
  induction rs generalizing s heap with
  | nil => exact Or.inr (Or.inr ⟨s, heap, rfl, rfl, h, hlive⟩)
  | cons r rs ih =>
      have hsmall : s.registry.interfaceCount.toNat < 2 ^ 31 :=
        Nat.lt_of_le_of_lt (Nat.le_add_right _ _) hfew
      rw [← add_zero s.blocks] at hlive
      rw [HeldRegistry.Ends, List.foldlM_cons, List.map_cons]
      cases hstep : s.registry.step r.call with
      | none =>
          have hout := h.registry.step_none hsmall hstep
          have hfails : Fails grants s.blocks (Blocks.step grants s r >>= fun s' =>
              rs.foldlM (Blocks.step grants) s') := (Blocks.step_fails h hout).bind _
          rcases hfails heap 0 hlive with hmisuse | hnull
          · exact Or.inr (Or.inl ⟨hmisuse, [], r, rs, s.registry, rfl, rfl, hout⟩)
          · exact Or.inl hnull
      | some k' =>
          have hspec : Spec grants s.blocks (Blocks.step grants s r) _ :=
            Blocks.step_spec h hsmall hstep
          have hleaves := hspec heap 0 hlive
          cases hrun : Blocks.step grants s r heap with
          | error c =>
              rw [hrun] at hleaves
              rw [run_bind_error hrun, hleaves.1]
              exact Or.inl ⟨rfl, hleaves.2⟩
          | ok result =>
              obtain ⟨s1, heap1⟩ := result
              rw [hrun] at hleaves
              obtain ⟨own1, ⟨rfl, h1, rfl⟩, hlive1⟩ := hleaves
              rw [add_zero] at hlive1
              have hcount := h.registry.count_step hstep (rs.map RegistryRequest.call)
              rw [run_bind_ok hrun, runAll_cons hstep]
              rcases ih h1 hlive1 (Nat.lt_of_le_of_lt hcount hfew) with hnull
                | ⟨hmisuse, past, q, rest, k, hrs, hpast, hout⟩ | hok
              · exact Or.inl hnull
              · refine Or.inr (Or.inl ⟨hmisuse, r :: past, q, rest, k, ?_, ?_, hout⟩)
                · rw [hrs]
                  rfl
                · rw [List.map_cons, runAll_cons hstep]
                  exact hpast
              · exact Or.inr (Or.inr hok)

end Rules

/-- **THE MEMORY OF THE REGISTRY**: whichever calls come, the module follows the NULL of
    an allocation that was denied, or it goes out of the array for the first of several
    interfaces, or it frees nothing twice, uses nothing that is gone, and goes on as if
    there were no heap; it then holds the array, every interface that was not removed,
    also those that the array has lost, and the description of every removed one. -/
theorem registry_blocks (grants : Nat → Nat → Bool) (rs : List RegistryRequest)
    (hfew : (rs.map RegistryRequest.call).countP RegistryCall.isRegister < 2 ^ 31) :
    (rs.foldlM (Blocks.step grants) HeldRegistry.initial Heap.empty = .error .null
        ∧ Denied grants)
      ∨ (rs.foldlM (Blocks.step grants) HeldRegistry.initial Heap.empty = .error .misuse
        ∧ ∃ past r rest k, rs = past ++ r :: rest
          ∧ runAll Registry.step Registry.initial (past.map RegistryRequest.call) = some k
          ∧ k.OutOfArray r.call)
      ∨ ∃ s h, rs.foldlM (Blocks.step grants) HeldRegistry.initial Heap.empty = .ok (s, h)
        ∧ runAll Registry.step Registry.initial (rs.map RegistryRequest.call)
          = some s.registry
        ∧ s.Sound ∧ h.live.val = s.blocks :=
  HeldRegistry.sound_initial.ends rs rfl (by
    rw [show HeldRegistry.initial.registry.interfaceCount.toNat = 0 from rfl, Nat.zero_add]
    exact hfew)

/-- One process registers an interface, another one registers one and removes it. -/
def RegistryRequest.removed : List RegistryRequest :=
  [⟨.register 7 (some 1) .bare, fun _ => true⟩, ⟨.register 8 (some 2) .bare, fun _ => true⟩,
    ⟨.remove 2, fun _ => true⟩]

set_option maxRecDepth 4000 in
/-- The array, the five blocks of the first interface, and the description of the
    second one. -/
theorem registry_blocks_removed : ∃ s h,
    RegistryRequest.removed.foldlM (Blocks.step fun _ _ => true) .initial Heap.empty
        = .ok (s, h)
      ∧ s.Sound ∧ h.live.val = s.blocks ∧ h.live.card = 9 := by
  obtain ⟨s, h, hrun, hcard⟩ : ∃ s h, RegistryRequest.removed.foldlM
      (Blocks.step fun _ _ => true) .initial Heap.empty = .ok (s, h)
        ∧ h.live.card = 9 := ⟨_, _, rfl, rfl⟩
  have hfew : (RegistryRequest.removed.map RegistryRequest.call).countP
      RegistryCall.isRegister < 2 ^ 31 := by decide
  rcases registry_blocks (fun _ _ => true) _ hfew with ⟨hnull, -⟩ | ⟨hmisuse, -⟩
    | ⟨s', h', hrun', -, hsound, hlive⟩
  · cases hrun.symm.trans hnull
  · cases hrun.symm.trans hmisuse
  · cases hrun.symm.trans hrun'
    exact ⟨s, h, hrun, hsound, hlive, hcard⟩

end DistComm
