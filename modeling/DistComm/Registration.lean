import DistComm.Slots

/-! # Registration with failing calls

    `register_interface` with `alloc_interface` and `add_interface_to_proc`, where
    each of the calls they make may fail: every `kzalloc` of `alloc_interface`,
    every `strndup_user`, `proc_create` and `krealloc`.  A failed `kzalloc` returns
    NULL and a failed `strndup_user` an error pointer, and what the code does with
    them is what it does with any pointer: it writes through the one, which is a
    fault, and stores the other.

    Where no call fails this is the `registerInterface` of the registry
    (`register_fine`).  Nothing is undone after a failure, so that a registration is
    all or nothing exactly if no call fails whose result it needs
    (`registration_iff`). -/

namespace DistComm

open PointerArray

/-- A string pointer of a description: NULL as `kzalloc` leaves it, a copy, or the
    error pointer of a failed `strndup_user`. -/
inductive StrPtr where
  | null
  | copy (string : CString)
  | error (err : Int32)
  deriving DecidableEq

/-- `attr_info_t`, whatever its pointers are. -/
structure AttrPtrs where
  name : StrPtr
  description : StrPtr
  deriving DecidableEq

/-- `info_t`, whatever its pointers are; both arrays may be NULL. -/
structure InfoPtrs where
  name : StrPtr
  description : StrPtr
  argInfo : Option (List AttrPtrs)
  retInfo : Option (List AttrPtrs)
  deriving DecidableEq

/-- A registered `interface_t`, whatever the calls for it returned. -/
structure Entry extends Advert where
  ctrl : Ctrl
  info : InfoPtrs
  deriving DecidableEq

/-- The globals of `module/interface.c` over such entries. -/
structure Globals where
  allocatedId : UInt32
  interfaceCount : UInt32
  interfaceCapacity : UInt32
  interfaceList : Table Entry

/-- What the calls of one registration return: whether each `kzalloc` succeeds, the
    error of the `n`-th `strndup_user`, if any, the result of `proc_create`, and
    whether `krealloc` succeeds. -/
structure Calls where
  interface : Bool
  ctrl : Bool
  argFlags : Bool
  retFlags : Bool
  info : Bool
  argInfo : Bool
  retInfo : Bool
  strndupUser : Nat → Option Int32
  procCreate : Option ProcEntry
  krealloc : Bool

/-- No call fails but perhaps `proc_create`. -/
def Calls.fine (procCreate : Option ProcEntry) : Calls :=
  ⟨true, true, true, true, true, true, true, fun _ => none, procCreate, true⟩

/-! ## `register_interface` -/

/-- What `alloc_interface(argc, retc, TRUE, FALSE, FALSE)` has allocated. -/
structure Allocated where
  argFlags : Ptr
  retFlags : Ptr
  ctrl : Option Ctrl
  info : InfoPtrs

/-- `kzalloc` of an array of flags. -/
def kzallocFlags (ok : Bool) (n : UInt32) : Ptr :=
  if ok then .block (List.replicate n.toNat 0) else .null

/-- `kzalloc` of an array of descriptions. -/
def kzallocAttrs (ok : Bool) (n : UInt32) : Option (List AttrPtrs) :=
  if ok then some (List.replicate n.toNat ⟨.null, .null⟩) else none

/-- `alloc_interface(argc, retc, TRUE, FALSE, FALSE)`.  It writes through `interface`
    and `interface->info` without looking at them. -/
def allocInterface (c : Calls) (argc retc : UInt32) : Option Allocated :=
  if c.interface then
    if c.info then
      some ⟨kzallocFlags c.argFlags argc, kzallocFlags c.retFlags retc,
        if c.ctrl then some ⟨0, 0, none, 0, none⟩ else none,
        ⟨.null, .null, kzallocAttrs c.argInfo argc, kzallocAttrs c.retInfo retc⟩⟩
    else none
  else none

/-- `add_interface_to_proc`: the `proc_entry` the interface gets. -/
def Globals.addInterfaceToProc (k : Globals) (bindPid : Int32)
    (procCreate : Option ProcEntry) : Option (Option ProcEntry) := do
  let found ← search k.interfaceList.deref (fun x => x.2.ctrl.bindPid == bindPid)
    0 (min k.interfaceCount.toNat (2 ^ 31))
  match found with
  | some hit => some hit.val.2.ctrl.procEntry
  | none => if k.interfaceCount.toNat ≤ 2 ^ 31 then some procCreate else none

/-- `strndup_user` of a string of the user, the `n`-th call. -/
def Calls.copy (c : Calls) (n : Nat) (string : CString) : StrPtr :=
  match c.strndupUser n with
  | none => .copy string
  | some err => .error err

/-- What the calls from the `n`-th on copy. -/
def Calls.copies (c : Calls) : Nat → List UserAttr → List AttrPtrs
  | _, [] => []
  | n, a :: as =>
      ⟨c.copy n a.name, c.copy (n + 1) a.description⟩ :: c.copies (n + 2) as

/-- The loops that fill `arg_info` and `ret_info`: the first round already writes
    through the array. -/
def Calls.fill (c : Calls) (n : Nat) (attrs : List UserAttr) :
    Option (List AttrPtrs) → Option (Option (List AttrPtrs))
  | some _ => some (some (c.copies n attrs))
  | none => if attrs = [] then some none else none

/-- The growth step.  After a failed `krealloc` the list is NULL and the old array
    is lost; that is only printed. -/
def Globals.grow (k : Globals) (krealloc : Bool) : Globals :=
  if k.interfaceCapacity < k.interfaceCount + 1 then
    { k with
      interfaceCapacity := k.interfaceCapacity + GRADIENT
      interfaceList :=
        if krealloc then
          k.interfaceList.resize (k.interfaceCapacity + GRADIENT).toNat
        else { k.interfaceList with slots := [] } }
  else k

/-- The end of `register_interface`: the id is given out, and the interface stored
    in the next slot. -/
def Globals.save (krealloc : Bool) (entry : Entry) (k : Globals) :
    Option (UInt32 × Globals) := do
  let k := { k with allocatedId := k.allocatedId + 1 }.grow krealloc
  let list ← (k.interfaceList.alloc entry).write k.interfaceCount.toNat
    k.interfaceList.next
  some (entry.id,
    { k with interfaceCount := k.interfaceCount + 1, interfaceList := list })

/-- `register_interface` by process `pid`.  The check of `alloc_interface`'s result
    comes when it can no longer be NULL. -/
def Globals.register (pid : Int32) (c : Calls) (u : UserInterface)
    (k : Globals) : Option (UInt32 × Globals) := do
  let interface ← allocInterface c u.argc u.retc
  let ctrl ← interface.ctrl
  let procEntry ← k.addInterfaceToProc pid c.procCreate
  let argInfo ← c.fill 2 u.argInfo interface.info.argInfo
  let retInfo ← c.fill (2 + 2 * u.argc.toNat) u.retInfo interface.info.retInfo
  k.save c.krealloc {
    id := k.allocatedId
    argc := u.argc
    retc := u.retc
    argFlags := interface.argFlags
    retFlags := interface.retFlags
    ctrl := { ctrl with bindPid := pid, procEntry }
    info := ⟨c.copy 0 u.name, c.copy 1 u.description, argInfo, retInfo⟩ }

/-! ## Without failures -/

/-- A pointer that is no error pointer. -/
def StrPtr.ofString : Option CString → StrPtr
  | none => .null
  | some string => .copy string

def AttrInfo.ptrs (a : AttrInfo) : AttrPtrs :=
  ⟨.ofString a.name, .ofString a.description⟩

def Info.ptrs (info : Info) : InfoPtrs :=
  ⟨.ofString info.name, .ofString info.description,
    some (info.argInfo.map AttrInfo.ptrs), some (info.retInfo.map AttrInfo.ptrs)⟩

/-- An interface of the registry as an entry. -/
def Interface.entry (x : Interface) : Entry :=
  { x.toAdvert with ctrl := x.ctrl, info := x.info.ptrs }

def Registry.globals (k : Registry) : Globals :=
  ⟨k.allocatedId, k.interfaceCount, k.interfaceCapacity,
    k.interfaceList.map Interface.entry⟩

/-- A description whose strings were copied. -/
def UserAttr.ptrs (a : UserAttr) : AttrPtrs :=
  ⟨.copy a.name, .copy a.description⟩

theorem copy_iff {c : Calls} {n : Nat} {string : CString} :
    c.copy n string = .copy string ↔ c.strndupUser n = none := by
  rw [Calls.copy]
  cases c.strndupUser n with
  | none => exact ⟨fun _ => rfl, fun _ => rfl⟩
  | some err => exact ⟨(fun h => nomatch h), fun h => nomatch h⟩

/-- All strings are copied exactly if none of the calls for them fails. -/
theorem copies_iff {c : Calls} {attrs : List UserAttr} {n : Nat} :
    c.copies n attrs = attrs.map UserAttr.ptrs
      ↔ ∀ i, n ≤ i → i < n + 2 * attrs.length → c.strndupUser i = none := by
  induction attrs generalizing n with
  | nil => exact ⟨fun _ i h1 h2 => absurd h2 (Nat.not_lt.mpr h1), fun _ => rfl⟩
  | cons a as ih =>
      rw [Calls.copies, List.map_cons, List.cons.injEq, ih, List.length_cons,
        UserAttr.ptrs, AttrPtrs.mk.injEq, copy_iff, copy_iff]
      constructor
      · rintro ⟨⟨h0, h1⟩, hrest⟩ i hi hlt
        -- calls `n` and `n + 1` are for the head
        rcases Nat.eq_or_lt_of_le hi with heq | hi
        · rw [← heq]
          exact h0
        · rcases Nat.eq_or_lt_of_le hi with heq | hi
          · rw [← heq]
            exact h1
          · exact hrest i hi (by omega)
      · intro h
        exact ⟨⟨h n (Nat.le_refl n) (by omega), h (n + 1) (by omega) (by omega)⟩,
          fun i hi hlt => h i (by omega) (by omega)⟩

theorem addInterfaceToProc_globals (k : Registry) (pid : Int32)
    (procCreate : Option ProcEntry) :
    k.globals.addInterfaceToProc pid procCreate
      = addInterfaceToProc k pid procCreate := by
  have hsearch := @search_map _ _ _ _
    (fun x : Nat × Interface => x.2.ctrl.bindPid == pid)
    (fun x : Nat × Entry => x.2.ctrl.bindPid == pid) _
    (deref_map Interface.entry k.interfaceList) (fun _ _ _ => rfl)
    (min k.interfaceCount.toNat (2 ^ 31)) 0
  rw [Globals.addInterfaceToProc, addInterfaceToProc]
  show (search (k.interfaceList.map Interface.entry).deref _ 0
    (min k.interfaceCount.toNat _)).bind _ = (search k.interfaceList.deref _ 0 _).bind _
  rw [hsearch]
  cases search k.interfaceList.deref (fun x => x.2.ctrl.bindPid == pid) 0
      (min k.interfaceCount.toNat (2 ^ 31)) with
  | none => rfl
  | some found =>
      cases found with
      | none => rfl
      | some hit => rfl

theorem grow_globals (k : Registry) :
    k.globals.grow true = k.grow.globals := by
  rw [Globals.grow, Registry.grow]
  show (if k.interfaceCapacity < k.interfaceCount + 1 then _ else _) = _
  by_cases hgrow : k.interfaceCapacity < k.interfaceCount + 1
  · rw [if_pos hgrow, if_pos hgrow]
    rfl
  · rw [if_neg hgrow, if_neg hgrow]

/-- Storing the entry of an interface. -/
theorem save_globals (x : Interface) (k : Registry) :
    k.globals.save true x.entry
      = (do
          let k := { k with allocatedId := k.allocatedId + 1 }.grow
          let list ← (k.interfaceList.alloc x).write k.interfaceCount.toNat
            k.interfaceList.next
          some (x.id, Registry.globals { k with
            interfaceCount := k.interfaceCount + 1
            interfaceList := list })) := by
  have hgrow : ({ k.globals with
      allocatedId := k.globals.allocatedId + 1 } : Globals).grow true
        = ({ k with allocatedId := k.allocatedId + 1 } : Registry).grow.globals :=
    grow_globals { k with allocatedId := k.allocatedId + 1 }
  simp only [Globals.save, hgrow]
  generalize ({ k with allocatedId := k.allocatedId + 1 } : Registry).grow = k1
  show (((k1.interfaceList.map Interface.entry).alloc x.entry).write
    k1.interfaceCount.toNat k1.interfaceList.next).bind _
      = ((k1.interfaceList.alloc x).write k1.interfaceCount.toNat
          k1.interfaceList.next).bind _
  rw [map_alloc, map_write]
  cases (k1.interfaceList.alloc x).write k1.interfaceCount.toNat
      k1.interfaceList.next with
  | none => rfl
  | some list => rfl

/-- **WITHOUT FAILURES** this is the `register_interface` of the registry. -/
theorem register_fine (pid : Int32) (procCreate : Option ProcEntry)
    (u : UserInterface) (k : Registry) :
    k.globals.register pid (.fine procCreate) u
      = (registerInterface pid procCreate u k).map fun r =>
          (r.1, r.2.globals) := by
  have hcopies : ∀ n attrs, (Calls.fine procCreate).copies n attrs
      = (attrs.map UserAttr.copied).map AttrInfo.ptrs := by
    intro n attrs
    rw [copies_iff.mpr fun _ _ _ => rfl, List.map_map]
    rfl
  show (k.globals.addInterfaceToProc pid procCreate).bind _ = Option.map _
    ((addInterfaceToProc k pid procCreate).bind _)
  rw [addInterfaceToProc_globals]
  cases addInterfaceToProc k pid procCreate with
  | none => rfl
  | some procEntry =>
      rw [Option.bind_some, Option.bind_some]
      have hsave := save_globals (u.registered k.allocatedId pid procEntry) k
      show k.globals.save true ⟨_, _, ⟨_, _, some _, some _⟩⟩ = _
      rw [hcopies, hcopies]
      refine hsave.trans ?_
      show Option.bind _ _ = Option.map _ (Option.bind _ _)
      rw [Option.map_bind]
      rfl

/-! ## Saving an entry -/

/-- The entries below the count are there, the capacity is that of the array, and
    new addresses are new. -/
structure Globals.Sound (k : Globals) : Prop where
  live : PointerArray.Live k.interfaceList k.interfaceCount.toNat
  capacity : k.interfaceList.slots.length = k.interfaceCapacity.toNat
  fresh : ∀ p x, k.interfaceList.heap p = some x → p < k.interfaceList.next

theorem Sound.globals {k : Registry} (h : Sound k) : k.globals.Sound where
  live i hi := by
    obtain ⟨x, hx⟩ := h.live i hi
    exact ⟨(x.1, x.2.entry), by
      rw [Registry.globals, deref_map, hx, Option.map_some]⟩
  capacity := h.capacity
  fresh p x hx := by
    obtain ⟨y, hy, -⟩ := Option.map_eq_some_iff.mp hx
    exact h.fresh p y hy

/-- There is a free slot, or the list can grow. -/
def Globals.Room (k : Globals) (krealloc : Bool) : Prop :=
  k.interfaceCount.toNat + 1 < 2 ^ 32
    ∧ (k.interfaceCount = k.interfaceCapacity → krealloc = true
        ∧ k.interfaceCapacity.toNat + GRADIENT.toNat < 2 ^ 32)

theorem Globals.Sound.count_le {k : Globals} (h : k.Sound) :
    k.interfaceCount.toNat ≤ k.interfaceCapacity.toNat := by
  rw [← h.capacity]
  by_contra hgt
  -- the slot behind the array would hold an entry
  obtain ⟨⟨p, x⟩, hx⟩ := h.live _ (Nat.lt_of_not_le hgt)
  exact Nat.lt_irrefl _ (slot_lt (deref_eq_some.mp hx).1)

/-- The growth step leaves count and entries alone. -/
theorem grow_same (k : Globals) (krealloc : Bool) :
    (k.grow krealloc).interfaceCount = k.interfaceCount
      ∧ (k.grow krealloc).interfaceList.heap = k.interfaceList.heap
      ∧ (k.grow krealloc).interfaceList.next = k.interfaceList.next := by
  rw [Globals.grow]
  by_cases hgrow : k.interfaceCapacity < k.interfaceCount + 1
  · rw [if_pos hgrow]
    cases krealloc with
    | false => exact ⟨rfl, rfl, rfl⟩
    | true => exact ⟨rfl, rfl, rfl⟩
  · rw [if_neg hgrow]
    exact ⟨rfl, rfl, rfl⟩

/-- The list is grown when it is full, unless the count is about to wrap. -/
theorem Globals.Sound.grows_iff {k : Globals} (h : k.Sound) :
    k.interfaceCapacity < k.interfaceCount + 1
      ↔ k.interfaceCount = k.interfaceCapacity
        ∧ k.interfaceCount.toNat + 1 < 2 ^ 32 := by
  have hle := h.count_le
  have hlt := k.interfaceCapacity.toNat_lt
  have hone : (1 : UInt32).toNat = 1 := rfl
  have hnext := UInt32.toNat_add k.interfaceCount 1
  rw [UInt32.lt_iff_toNat_lt, ← UInt32.toNat_inj]
  omega

/-- It provides a slot exactly if there is room. -/
theorem Globals.Sound.grow_room {k : Globals} (h : k.Sound) (krealloc : Bool) :
    k.interfaceCount.toNat < (k.grow krealloc).interfaceList.slots.length
      ↔ k.Room krealloc := by
  have hle := h.count_le
  have hcap := h.capacity
  have hlt := k.interfaceCapacity.toNat_lt
  have hgradient : GRADIENT.toNat = 10 := rfl
  have hsum := UInt32.toNat_add k.interfaceCapacity GRADIENT
  have hinj : k.interfaceCount = k.interfaceCapacity
      ↔ k.interfaceCount.toNat = k.interfaceCapacity.toNat :=
    UInt32.toNat_inj.symm
  have hgrows := h.grows_iff
  rw [hinj] at hgrows
  rw [Globals.grow, Globals.Room, hinj]
  by_cases hgrow : k.interfaceCapacity < k.interfaceCount + 1
  · obtain ⟨heq, hsmall⟩ := hgrows.mp hgrow
    rw [if_pos hgrow]
    cases krealloc with
    | false =>
        -- the old array is lost
        refine ⟨fun h0 => absurd h0 (Nat.not_lt_zero _), fun hroom => ?_⟩
        exact absurd (hroom.2 heq).1 Bool.false_ne_true
    | true =>
        show _ < (k.interfaceList.resize
          (k.interfaceCapacity + GRADIENT).toNat).slots.length ↔ _
        rw [length_resize]
        constructor
        · intro hroom
          exact ⟨hsmall, fun _ => ⟨rfl, by omega⟩⟩
        · rintro ⟨-, hroom⟩
          have := (hroom heq).2
          omega
  · rw [if_neg hgrow]
    have hfree := fun heq hsmall => hgrow (hgrows.mpr ⟨heq, hsmall⟩)
    constructor
    · intro hroom
      exact ⟨by omega, fun heq => by omega⟩
    · rintro ⟨hsmall, -⟩
      have hne : ¬ k.interfaceCount.toNat = k.interfaceCapacity.toNat :=
        fun heq => hfree heq hsmall
      omega

/-- Where there is room, the capacity stays that of the array, and the slots in use
    stay what they are. -/
theorem Globals.Sound.grow_kept {k : Globals} (h : k.Sound) {krealloc : Bool}
    (hroom : k.Room krealloc) :
    (k.grow krealloc).interfaceList.slots.length
        = (k.grow krealloc).interfaceCapacity.toNat
      ∧ ∀ i, i < k.interfaceCount.toNat →
          (k.grow krealloc).interfaceList.slot i = k.interfaceList.slot i := by
  have hlarge := (h.grow_room krealloc).mpr hroom
  rw [Globals.grow] at hlarge ⊢
  by_cases hgrow : k.interfaceCapacity < k.interfaceCount + 1
  · have htrue := (hroom.2 (h.grows_iff.mp hgrow).1).1
    rw [if_pos hgrow, htrue] at hlarge
    rw [if_pos hgrow, htrue]
    refine ⟨length_resize _ _, fun i hi => ?_⟩
    obtain ⟨⟨p, x⟩, hx⟩ := h.live i hi
    have hslot := (deref_eq_some.mp hx).1
    rw [hslot]
    refine resize_slot _ ?_ hslot
    rw [← length_resize k.interfaceList (k.interfaceCapacity + GRADIENT).toNat]
    exact Nat.lt_trans hi hlarge
  · rw [if_neg hgrow]
    exact ⟨h.capacity, fun _ _ => rfl⟩

/-- The next state holds the entry behind the others. -/
structure Saved (k k' : Globals) (x : Entry) : Prop where
  count : k'.interfaceCount.toNat = k.interfaceCount.toNat + 1
  kept : ∀ i, i < k.interfaceCount.toNat →
    k'.interfaceList.deref i = k.interfaceList.deref i
  last : k'.interfaceList.deref k.interfaceCount.toNat
    = some (k.interfaceList.next, x)
  sound : k'.Sound

/-- **SAVING** succeeds exactly if there is room, and then it saves. -/
theorem Globals.Sound.save {k : Globals} (h : k.Sound) (krealloc : Bool)
    (x : Entry) :
    (k.Room krealloc → ∃ k', k.save krealloc x = some (x.id, k') ∧ Saved k k' x)
      ∧ (¬ k.Room krealloc → k.save krealloc x = none) := by
  have h0 : Globals.Sound { k with allocatedId := k.allocatedId + 1 } :=
    ⟨h.live, h.capacity, h.fresh⟩
  obtain ⟨hcount, hheap, hnext⟩ :=
    grow_same { k with allocatedId := k.allocatedId + 1 } krealloc
  have hroom : _ ↔ k.Room krealloc := h0.grow_room krealloc
  have hkeep := fun hr : k.Room krealloc => h0.grow_kept hr
  simp only [Globals.save]
  generalize ({ k with allocatedId := k.allocatedId + 1 } : Globals).grow
    krealloc = k1 at hcount hheap hnext hroom hkeep ⊢
  replace hcount : k1.interfaceCount = k.interfaceCount := hcount
  replace hheap : k1.interfaceList.heap = k.interfaceList.heap := hheap
  replace hnext : k1.interfaceList.next = k.interfaceList.next := hnext
  rw [hcount]
  constructor
  · intro hr
    obtain ⟨hcap, hslots⟩ := hkeep hr
    obtain ⟨list, hwrite⟩ : ∃ list, (k1.interfaceList.alloc x).write
        k.interfaceCount.toNat k1.interfaceList.next = some list :=
      ⟨_, if_pos (hroom.mpr hr)⟩
    -- growing moves no object
    have hold : ∀ i, i < k.interfaceCount.toNat →
        k1.interfaceList.deref i = k.interfaceList.deref i := by
      intro i hi
      rw [Table.deref, Table.deref, hheap,
        show k1.interfaceList.slot i = k.interfaceList.slot i from hslots i hi]
    have hlive : PointerArray.Live k1.interfaceList k.interfaceCount.toNat := by
      intro i hi
      rw [hold i hi]
      exact h.live i hi
    have hfresh : ∀ p y, k1.interfaceList.heap p = some y →
        p < k1.interfaceList.next := by
      rw [hheap, hnext]
      exact h.fresh
    obtain ⟨hlive', hlast, hkept, hfresh'⟩ := hlive.push hfresh hwrite
    have hinc := toNat_succ hr.1
    rw [hwrite]
    refine ⟨_, rfl, hinc, fun i hi => (hkept i hi).trans (hold i hi), ?_, ⟨?_,
      (write_spec hwrite).2.1.trans hcap, hfresh'⟩⟩
    · rw [← hnext]
      exact hlast
    · show PointerArray.Live list (k.interfaceCount + 1).toNat
      rw [hinc]
      exact hlive'
  · intro hr
    have hnone : (k1.interfaceList.alloc x).write k.interfaceCount.toNat
        k1.interfaceList.next = none := if_neg fun hlt => hr (hroom.mp hlt)
    rw [hnone]
    rfl

/-- A registration that does not have to grow the array past the 32-bit range, nor
    to look for a pid too far, returns. -/
theorem Sound.registers {k : Registry} (h : Sound k) {pid : Int32}
    {procCreate : Option ProcEntry} {u : UserInterface}
    (hok : Handled k (.register pid procCreate u)) :
    ∃ result, registerInterface pid procCreate u k = some result := by
  obtain ⟨procEntry, hproc⟩ := addInterfaceToProc_ok h.live hok.2 procCreate
  have h0 : Sound { k with allocatedId := k.allocatedId + 1 } :=
    ⟨⟨h.live, h.capacity⟩, h.fresh⟩
  have hroom : Globals.Room
      ({ k with allocatedId := k.allocatedId + 1 } : Registry).globals true := by
    have hle := h.globals.count_le
    replace hle : k.interfaceCount.toNat ≤ k.interfaceCapacity.toNat := hle
    have hlt := k.interfaceCapacity.toNat_lt
    refine ⟨?_, fun heq => ⟨rfl, hok.1 heq⟩⟩
    show k.interfaceCount.toNat + 1 < 2 ^ 32
    rcases Nat.eq_or_lt_of_le hle with heq | hbelow
    · have hgrown := hok.1 (UInt32.toNat_inj.mp heq)
      have hten : GRADIENT.toNat = 10 := rfl
      omega
    · omega
  have hslot := (h0.globals.grow_room true).mpr hroom
  rw [grow_globals] at hslot
  have hcount := (h0.toTraversable.grow).2.2.1
  simp only [registerInterface, hproc, Option.bind_eq_bind, Option.bind_some]
  generalize ({ k with allocatedId := k.allocatedId + 1 } : Registry).grow = k1
    at hslot hcount ⊢
  obtain ⟨list, hwrite⟩ : ∃ list, (k1.interfaceList.alloc
      (u.registered k.allocatedId pid procEntry)).write k1.interfaceCount.toNat
        k1.interfaceList.next = some list :=
    ⟨_, if_pos (by rw [hcount]; exact hslot)⟩
  rw [hwrite]
  exact ⟨_, rfl⟩

/-! ## All or nothing -/

/-- Both flag arrays were allocated, and all strings of the user copied. -/
structure Entry.CompleteFor (x : Entry) (u : UserInterface) : Prop where
  argc : x.argc = u.argc
  retc : x.retc = u.retc
  argFlags : x.argFlags = .block (List.replicate u.argc.toNat 0)
  retFlags : x.retFlags = .block (List.replicate u.retc.toNat 0)
  name : x.info.name = .copy u.name
  description : x.info.description = .copy u.description
  argInfo : x.info.argInfo.getD [] = u.argInfo.map UserAttr.ptrs
  retInfo : x.info.retInfo.getD [] = u.retInfo.map UserAttr.ptrs

/-- The id is new, and its complete entry stands behind the others. -/
structure Completed (u : UserInterface) (k k' : Globals) (ret : UInt32) : Prop where
  fresh : ∀ i p x, i < k.interfaceCount.toNat →
    k.interfaceList.deref i = some (p, x) → x.id ≠ ret
  count : k'.interfaceCount.toNat = k.interfaceCount.toNat + 1
  kept : ∀ i, i < k.interfaceCount.toNat →
    k'.interfaceList.deref i = k.interfaceList.deref i
  entry : ∃ p x, k'.interfaceList.deref k.interfaceCount.toNat = some (p, x)
    ∧ x.id = ret ∧ x.CompleteFor u

/-- An error is returned, and the list is as it was. -/
structure Refused (k k' : Globals) (ret : UInt32) : Prop where
  error : ret.toInt32 < 0
  count : k'.interfaceCount = k.interfaceCount
  capacity : k'.interfaceCapacity = k.interfaceCapacity
  slots : k'.interfaceList.slots = k.interfaceList.slots
  entries : ∀ i, k'.interfaceList.deref i = k.interfaceList.deref i

/-- The registration does not fault, and completes or refuses. -/
def AllOrNothing (pid : Int32) (c : Calls) (u : UserInterface) (k : Globals) :
    Prop :=
  ∃ ret k', k.register pid c u = some (ret, k')
    ∧ (Completed u k k' ret ∨ Refused k k' ret)

/-- No call fails whose result is needed: an array of descriptions is not needed
    for no descriptions, and `proc_create` not at all. -/
structure Calls.Succeed (c : Calls) (u : UserInterface) : Prop where
  interface : c.interface = true
  ctrl : c.ctrl = true
  argFlags : c.argFlags = true
  retFlags : c.retFlags = true
  info : c.info = true
  argInfo : u.argc ≠ 0 → c.argInfo = true
  retInfo : u.retc ≠ 0 → c.retInfo = true
  strings : ∀ i, i < 2 + 2 * u.argc.toNat + 2 * u.retc.toNat →
    c.strndupUser i = none

/-- The id counter does not collide, `add_interface_to_proc` stays below the end of
    its `int` index, and there is room. -/
structure Globals.Ready (k : Globals) (pid : Int32) (krealloc : Bool) : Prop where
  fresh : ∀ i p x, i < k.interfaceCount.toNat →
    k.interfaceList.deref i = some (p, x) → x.id ≠ k.allocatedId
  searched : k.interfaceCount.toNat ≤ 2 ^ 31
    ∨ ∃ i x, i < 2 ^ 31 ∧ k.interfaceList.deref i = some x
        ∧ x.2.ctrl.bindPid = pid
  room : k.Room krealloc

/-- When the search for the process comes to an end. -/
theorem Globals.Sound.addInterfaceToProc_iff {k : Globals} (h : k.Sound)
    (pid : Int32) (procCreate : Option ProcEntry) :
    (∃ procEntry, k.addInterfaceToProc pid procCreate = some procEntry)
      ↔ k.interfaceCount.toNat ≤ 2 ^ 31
        ∨ ∃ i x, i < 2 ^ 31 ∧ k.interfaceList.deref i = some x
            ∧ x.2.ctrl.bindPid = pid := by
  have hread := PointerArray.Live.below h.live
    (Nat.min_le_left k.interfaceCount.toNat (2 ^ 31))
  rw [Globals.addInterfaceToProc]
  rcases hread.search (fun x => x.2.ctrl.bindPid == pid)
    with ⟨hnone, hno⟩ | ⟨hit, hsome, hfirst, hlt⟩
  · rw [hnone]
    show (∃ procEntry, (if k.interfaceCount.toNat ≤ 2 ^ 31 then some procCreate
      else none) = some procEntry) ↔ _
    by_cases hcount : k.interfaceCount.toNat ≤ 2 ^ 31
    · rw [if_pos hcount]
      exact ⟨fun _ => Or.inl hcount, fun _ => ⟨procCreate, rfl⟩⟩
    · rw [if_neg hcount]
      refine ⟨(fun ⟨_, h0⟩ => nomatch h0), ?_⟩
      rintro (h0 | ⟨i, x, hi, hx, hpid⟩)
      · exact absurd h0 hcount
      · -- it would have been found
        exact absurd hpid (hno.ne (by omega) hx)
  · rw [hsome]
    refine ⟨fun _ => Or.inr ⟨hit.index, hit.val, ?_, hfirst.get_index,
      eq_of_beq hfirst.sat⟩, fun _ => ⟨_, rfl⟩⟩
    exact Nat.lt_of_lt_of_le hlt (Nat.min_le_right _ _)

/-- An array is filled if it was allocated or nothing is written to it. -/
theorem fill_iff {c : Calls} {ok : Bool} {n : Nat} {count : UInt32}
    {attrs : List UserAttr} (hlen : attrs.length = count.toNat) :
    (∃ array, c.fill n attrs (kzallocAttrs ok count) = some array)
      ↔ (count ≠ 0 → ok = true) := by
  have hnil : attrs = [] ↔ count = 0 := by
    rw [← List.length_eq_zero_iff, hlen]
    exact ⟨fun h0 => UInt32.toNat_inj.mp h0, fun h0 => by rw [h0]; rfl⟩
  cases ok with
  | true => exact ⟨fun _ _ => rfl, fun _ => ⟨_, rfl⟩⟩
  | false =>
      show (∃ array, (if attrs = [] then some none else none) = some array) ↔ _
      -- the first round writes through the NULL
      by_cases hempty : attrs = []
      · rw [if_pos hempty]
        exact ⟨fun _ hne => absurd (hnil.mp hempty) hne, fun _ => ⟨_, rfl⟩⟩
      · rw [if_neg hempty]
        exact ⟨(fun ⟨_, h0⟩ => nomatch h0),
          fun h0 => nomatch h0 fun heq => hempty (hnil.mpr heq)⟩

/-- What is in a filled array. -/
theorem fill_getD {c : Calls} {n : Nat} {attrs : List UserAttr}
    {allocated array : Option (List AttrPtrs)}
    (h : c.fill n attrs allocated = some array) :
    array.getD [] = c.copies n attrs := by
  cases allocated with
  | some old =>
      cases Option.some.inj h
      rfl
  | none =>
      rw [Calls.fill] at h
      by_cases hempty : attrs = []
      · rw [if_pos hempty] at h
        cases Option.some.inj h
        rw [hempty]
        rfl
      · rw [if_neg hempty] at h
        exact nomatch h

/-- What a registration comes to, call by call. -/
theorem register_eq_some {pid : Int32} {c : Calls} {u : UserInterface}
    {k k' : Globals} {ret : UInt32} :
    k.register pid c u = some (ret, k')
      ↔ c.interface = true ∧ c.info = true ∧ c.ctrl = true
        ∧ ∃ procEntry, k.addInterfaceToProc pid c.procCreate = some procEntry
        ∧ ∃ argInfo, c.fill 2 u.argInfo (kzallocAttrs c.argInfo u.argc)
            = some argInfo
        ∧ ∃ retInfo, c.fill (2 + 2 * u.argc.toNat) u.retInfo
            (kzallocAttrs c.retInfo u.retc) = some retInfo
        ∧ k.save c.krealloc {
            id := k.allocatedId
            argc := u.argc
            retc := u.retc
            argFlags := kzallocFlags c.argFlags u.argc
            retFlags := kzallocFlags c.retFlags u.retc
            ctrl := ⟨0, 0, none, pid, procEntry⟩
            info := ⟨c.copy 0 u.name, c.copy 1 u.description, argInfo,
              retInfo⟩ } = some (ret, k') := by
  rw [Globals.register, allocInterface]
  -- a NULL among the first three is written through
  cases hinterface : c.interface with
  | false => exact ⟨(fun h => nomatch h), fun h => nomatch h.1⟩
  | true =>
      cases hinfo : c.info with
      | false => exact ⟨(fun h => nomatch h), fun h => nomatch h.2.1⟩
      | true =>
          cases hctrl : c.ctrl with
          | false => exact ⟨(fun h => nomatch h), fun h => nomatch h.2.2.1⟩
          | true =>
              simp only [Option.bind_eq_bind, Option.bind_eq_some_iff, if_true,
                Option.some.injEq, true_and, exists_eq_left']

/-- Whatever calls fail, a registration that does not fault leaves sound globals. -/
theorem Globals.Sound.register {k k' : Globals} (h : k.Sound) {pid : Int32}
    {c : Calls} {u : UserInterface} {ret : UInt32}
    (hrun : k.register pid c u = some (ret, k')) : k'.Sound := by
  obtain ⟨-, -, -, procEntry, -, argInfo, -, retInfo, -, hsave⟩ :=
    register_eq_some.mp hrun
  obtain ⟨hroomy, hfull⟩ := h.save c.krealloc _
  by_cases hroom : k.Room c.krealloc
  · obtain ⟨k1, hsave', hsaved⟩ := hroomy hroom
    rw [hsave] at hsave'
    cases Option.some.inj hsave'
    exact hsaved.sound
  · rw [hfull hroom] at hsave
    exact nomatch hsave

theorem kzallocFlags_iff {ok : Bool} {n : UInt32} :
    kzallocFlags ok n = .block (List.replicate n.toNat 0) ↔ ok = true := by
  cases ok with
  | true => exact ⟨fun _ => rfl, fun _ => rfl⟩
  | false => exact ⟨(fun h => nomatch h), fun h => nomatch h⟩

/-- The strings of a registration are the name, the description, and those of the
    arguments and of the results. -/
theorem strings_iff {c : Calls} {u : UserInterface} :
    (∀ i, i < 2 + 2 * u.argc.toNat + 2 * u.retc.toNat → c.strndupUser i = none)
      ↔ c.copy 0 u.name = .copy u.name
        ∧ c.copy 1 u.description = .copy u.description
        ∧ c.copies 2 u.argInfo = u.argInfo.map UserAttr.ptrs
        ∧ c.copies (2 + 2 * u.argc.toNat) u.retInfo
            = u.retInfo.map UserAttr.ptrs := by
  rw [copy_iff, copy_iff, copies_iff, copies_iff, u.argInfo_length,
    u.retInfo_length]
  constructor
  · intro h
    exact ⟨h 0 (by omega), h 1 (by omega), fun i _ hlt => h i (by omega),
      fun i _ hlt => h i (by omega)⟩
  · rintro ⟨h0, h1, hargs, hrets⟩ i hi
    -- calls 0 and 1 are for the name and the description
    match i with
    | 0 => exact h0
    | 1 => exact h1
    | i + 2 =>
        rcases Nat.lt_or_ge (i + 2) (2 + 2 * u.argc.toNat) with hlt | hge
        · exact hargs (i + 2) (Nat.le_add_left 2 i) hlt
        · exact hrets (i + 2) hge hi

/-- A registration that is all or nothing had its calls succeed. -/
theorem AllOrNothing.succeeded {pid : Int32} {c : Calls} {u : UserInterface}
    {k : Globals} (hall : AllOrNothing pid c u k) (h : k.Sound) :
    c.Succeed u ∧ k.Ready pid c.krealloc := by
  obtain ⟨ret, k', hrun, hend⟩ := hall
  obtain ⟨hinterface, hinfo, hctrl, procEntry, hproc, argInfo, hargs, retInfo,
    hrets, hsave⟩ := register_eq_some.mp hrun
  generalize hx : (⟨_, _, _⟩ : Entry) = x at hsave
  obtain ⟨hroomy, hfull⟩ := h.save c.krealloc x
  have hroom : k.Room c.krealloc := by
    by_contra hno
    rw [hfull hno] at hsave
    exact nomatch hsave
  obtain ⟨k1, hsave', hsaved⟩ := hroomy hroom
  rw [hsave] at hsave'
  cases Option.some.inj hsave'
  -- an entry was stored, so the registration was not refused
  have hcompleted : Completed u k k' x.id := by
    refine hend.resolve_right fun hrefused => ?_
    have hcount := hsaved.count
    rw [hrefused.count] at hcount
    exact absurd hcount (Nat.succ_ne_self _).symm
  obtain ⟨p, y, hlast, -, hcomplete⟩ := hcompleted.entry
  rw [hsaved.last] at hlast
  cases Option.some.inj hlast
  have hid : x.id = k.allocatedId := by rw [← hx]
  refine ⟨⟨hinterface, hctrl, ?_, ?_, hinfo, (fill_iff u.argInfo_length).mp
    ⟨_, hargs⟩, (fill_iff u.retInfo_length).mp ⟨_, hrets⟩, ?_⟩, ?_,
    (h.addInterfaceToProc_iff pid c.procCreate).mp ⟨procEntry, hproc⟩, hroom⟩
  · refine kzallocFlags_iff.mp (Eq.trans ?_ hcomplete.argFlags)
    rw [← hx]
  · refine kzallocFlags_iff.mp (Eq.trans ?_ hcomplete.retFlags)
    rw [← hx]
  · rw [strings_iff]
    refine ⟨Eq.trans ?_ hcomplete.name, Eq.trans ?_ hcomplete.description,
      Eq.trans ?_ hcomplete.argInfo, Eq.trans ?_ hcomplete.retInfo⟩
    · rw [← hx]
    · rw [← hx]
    · rw [← hx]
      exact (fill_getD hargs).symm
    · rw [← hx]
      exact (fill_getD hrets).symm
  · rw [← hid]
    exact hcompleted.fresh

/-- **REGISTRATION** is all or nothing exactly if no call fails whose result it
    needs, and the counters have not come to their ends. -/
theorem registration_iff (pid : Int32) (c : Calls) (u : UserInterface)
    {k : Globals} (h : k.Sound) :
    AllOrNothing pid c u k ↔ c.Succeed u ∧ k.Ready pid c.krealloc := by
  refine ⟨fun hall => hall.succeeded h, ?_⟩
  rintro ⟨hc, hready⟩
  obtain ⟨procEntry, hproc⟩ :=
    (h.addInterfaceToProc_iff pid c.procCreate).mpr hready.searched
  obtain ⟨argInfo, hargs⟩ :=
    (fill_iff (c := c) (n := 2) u.argInfo_length).mpr hc.argInfo
  obtain ⟨retInfo, hrets⟩ := (fill_iff (c := c)
    (n := 2 + 2 * u.argc.toNat) u.retInfo_length).mpr hc.retInfo
  obtain ⟨hname, hdescription, hargCopies, hretCopies⟩ :=
    strings_iff.mp hc.strings
  obtain ⟨k', hsave, hsaved⟩ := (h.save c.krealloc {
    id := k.allocatedId
    argc := u.argc
    retc := u.retc
    argFlags := kzallocFlags c.argFlags u.argc
    retFlags := kzallocFlags c.retFlags u.retc
    ctrl := ⟨0, 0, none, pid, procEntry⟩
    info := ⟨c.copy 0 u.name, c.copy 1 u.description, argInfo, retInfo⟩ }).1
      hready.room
  refine ⟨k.allocatedId, k', register_eq_some.mpr ⟨hc.interface, hc.info,
    hc.ctrl, procEntry, hproc, argInfo, hargs, retInfo, hrets, hsave⟩,
    Or.inl ⟨hready.fresh, hsaved.count, hsaved.kept, _, _, hsaved.last, rfl, rfl,
      rfl, kzallocFlags_iff.mpr hc.argFlags, kzallocFlags_iff.mpr hc.retFlags,
      hname, hdescription, (fill_getD hargs).trans hargCopies,
      (fill_getD hrets).trans hretCopies⟩⟩

/-- The first registration, without failures. -/
theorem registration_iff_first :
    AllOrNothing 7 (.fine none) .bare Registry.initial.globals :=
  (registration_iff 7 (.fine none) .bare sound_initial.globals).mpr
    ⟨⟨rfl, rfl, rfl, rfl, rfl, fun _ => rfl, fun _ => rfl, fun _ _ => rfl⟩,
      fun _ _ _ hi => absurd hi (Nat.not_lt_zero _), Or.inl (by decide),
      by decide, fun _ => ⟨rfl, by decide⟩⟩

/-- An interface whose name could not be copied is registered with an error pointer
    for a name. -/
theorem failed_copy_registered :
    ¬ AllOrNothing 7 { Calls.fine none with strndupUser := fun _ => some (-14) }
      .bare Registry.initial.globals := by
  intro hall
  have hcopied := (hall.succeeded sound_initial.globals).1.strings 0 (by decide)
  exact nomatch hcopied

end DistComm
