import DistComm.Interface
import DistComm.Transition

/-! # The interface registry

    `register_interface`, `remove_interface` and `handle_activate_interface` of
    `module/interface.c`, with `add_interface_to_proc` of `module/proc.c`, over
    the globals.  An operation is `none` where the code would use an index
    outside of `INTERFACE_LIST`, a slot that was never written, or an interface
    that was freed.

    `Directory` is what the registry is for: the registered interfaces in
    registration order and the ids given out so far.  `Refines` relates the
    two, every operation that meets `Handled` preserves it (`step_refines`), and
    so does every run (`registry_refines`). -/

namespace DistComm

open RawMemory RawScan PointerArray TracedProgram Transition

/-! ## Operations -/

/-- `add_interface_to_proc`: the `proc_entry` the interface gets.  The index is an
    `int`, which does not reach slot `2 ^ 31`. -/
def addInterfaceToProc (k : Registry) (bindPid : Int32)
    (procCreate : Option ProcEntry) : Option (Option ProcEntry) := do
  let found ← search k.interfaceList.deref (fun x => x.2.ctrl.bindPid == bindPid)
    0 (min k.interfaceCount.toNat (2 ^ 31))
  match found with
  | some hit => some hit.val.2.ctrl.procEntry
  | none =>
      -- `proc_create` may fail; its result is stored either way
      if k.interfaceCount.toNat ≤ 2 ^ 31 then some procCreate else none

/-- The interface that `register_interface` builds: flag arrays from `kzalloc`,
    copied strings, and a zeroed `ctrl` but for the pid and the proc entry. -/
def UserInterface.registered (u : UserInterface) (id : UInt32) (pid : Int32)
    (procEntry : Option ProcEntry) : Interface where
  id := id
  argc := u.argc
  retc := u.retc
  argFlags := .block (List.replicate u.argc.toNat 0)
  retFlags := .block (List.replicate u.retc.toNat 0)
  ctrl := ⟨0, 0, none, pid, procEntry⟩
  info := ⟨some u.name, some u.description, u.argInfo.map UserAttr.copied,
    u.retInfo.map UserAttr.copied⟩

/-- The growth step of `register_interface`. -/
def Registry.grow (k : Registry) : Registry :=
  if k.interfaceCapacity < k.interfaceCount + 1 then
    { k with
      interfaceCapacity := k.interfaceCapacity + GRADIENT
      interfaceList :=
        k.interfaceList.resize (k.interfaceCapacity + GRADIENT).toNat }
  else k

/-- `register_interface` by process `pid`, all allocations succeeding. -/
def registerInterface (pid : Int32) (procCreate : Option ProcEntry)
    (u : UserInterface) (k : Registry) : Option (UInt32 × Registry) := do
  let procEntry ← addInterfaceToProc k pid procCreate
  let interface := u.registered k.allocatedId pid procEntry
  let k := { k with allocatedId := k.allocatedId + 1 }.grow
  let list ← (k.interfaceList.alloc interface).write k.interfaceCount.toNat
    k.interfaceList.next
  some (interface.id,
    { k with interfaceCount := k.interfaceCount + 1, interfaceList := list })

/-- The loop `INTERFACE_LIST[i] = INTERFACE_LIST[i - 1]`, from index `i` for `n`
    rounds; `i - 1` is computed in `uint32_t`. -/
def moveSlots (list : Table Interface) : Nat → Nat → Option (Table Interface)
  | _, 0 => some list
  | i, n + 1 => do
      let p ← list.slot (UInt32.ofNat i - 1).toNat
      let list ← list.write i p
      moveSlots list (i + 1) n

/-- `remove_interface`. -/
def removeInterface (id : UInt32) (k : Registry) :
    Option (UInt32 × Registry) := do
  let found ← search k.interfaceList.deref (fun x => x.2.id == id) 0
    k.interfaceCount.toNat
  match found with
  | none => some (-1, k)
  | some hit => do
      let list ← moveSlots k.interfaceList hit.index
        ((k.interfaceCount - 1).toNat - hit.index)
      let list ← list.free hit.val.1
      some (id,
        { k with interfaceCount := k.interfaceCount - 1, interfaceList := list })

/-- What activation assigns. -/
def Interface.activate (portid : UInt32) (x : Interface) : Interface :=
  { x with ctrl := { x.ctrl with activated := 1, clientPortid := portid } }

/-- The inner loop of `handle_activate_interface`, from index `j` for `n` rounds;
    `ids[i]` lies at offset `pos`. -/
def activateOne (m : Mem) (pos : Nat) (portid : UInt32) :
    Nat → Nat → Traced Registry Event Unit
  | _, 0 => pure ()
  | j, n + 1 => do
      let k ← getState
      let entry ← orFault (k.interfaceList.deref j)
      let id ← readPacket word m pos
      if entry.2.id = id then
        putState (k.assign entry.1 (entry.2.activate portid))
      else activateOne m pos portid (j + 1) n

/-- The outer loop, from index `i` for `n` rounds; `ids` is the offset of the
    array. -/
def activateAll (m : Mem) (ids : Nat) (portid : UInt32) :
    Nat → Nat → Traced Registry Event Unit
  | _, 0 => pure ()
  | i, n + 1 => do
      let k ← getState
      activateOne m (ids + 4 * i) portid 0 k.interfaceCount.toNat
      activateAll m ids portid (i + 1) n

/-- `handle_activate_interface` on the packet at offset `packet`; `count + 1` is
    computed in `uint32_t`, its product with `sizeof(uint32_t)` in `size_t`. -/
def handleActivateInterface (m : Mem) (packet : Nat)
    (packetLength portid : UInt32) : Traced Registry Event Unit :=
  if packetLength < 4 then pure ()
  else do
    let count ← readPacket word m packet
    if packetLength.toNat < 4 * (count + 1).toNat then pure ()
    else activateAll m (packet + 4) portid 0 count.toNat

/-- The calls that change the registry. -/
inductive RegistryCall where
  | register (pid : Int32) (procCreate : Option ProcEntry) (u : UserInterface)
  | remove (id : UInt32)
  | activate (packet : Mem) (packetLength portid : UInt32)

def RegistryCall.isRegister : RegistryCall → Bool
  | .register .. => true
  | .remove _ => false
  | .activate .. => false

/-- One call. -/
def Registry.step (k : Registry) : RegistryCall → Option Registry
  | .register pid procCreate u =>
      (registerInterface pid procCreate u k).map Prod.snd
  | .remove id => (removeInterface id k).map Prod.snd
  | .activate packet packetLength portid =>
      let o := handleActivateInterface packet 0 packetLength portid k
      o.ret.map fun _ => o.state

/-! ## The directory -/

/-- The registered interfaces in registration order, and every id that was ever
    given out. -/
structure Directory where
  entries : List Interface
  issued : List UInt32

def Directory.empty : Directory := ⟨[], []⟩

/-- The ids a handshake packet asks for; none if the packet is refused. -/
def requestedIds (m : Mem) (packet : Nat) (packetLength : UInt32) :
    List UInt32 :=
  if packetLength < 4 ∨ packetLength.toNat < 4 * (wordAt m packet + 1).toNat then
    []
  else wordsAt m (packet + 4) (wordAt m packet).toNat

/-- Activation of the interfaces with the given ids. -/
def activateIds (ids : List UInt32) (portid : UInt32) (x : Interface) :
    Interface :=
  if x.id ∈ ids then x.activate portid else x

/-- What each call does to the directory: a registration appends one entry under
    a fresh id that is not 0, a removal deletes the entry with the id and leaves
    the others as they are, an activation touches no entry but those asked for. -/
inductive DirectoryStep : Directory → RegistryCall → Directory → Prop where
  | register {d : Directory} {pid : Int32} {procCreate : Option ProcEntry}
      {u : UserInterface} (id : UInt32) (procEntry : Option ProcEntry) :
      id ≠ 0 → id ∉ d.issued →
      DirectoryStep d (.register pid procCreate u)
        ⟨d.entries ++ [u.registered id pid procEntry], id :: d.issued⟩
  | remove {d : Directory} {id : UInt32} :
      DirectoryStep d (.remove id)
        ⟨d.entries.filter fun x => x.id ≠ id, d.issued⟩
  | activate {d : Directory} {m : Mem} {packetLength portid : UInt32} :
      DirectoryStep d (.activate m packetLength portid)
        ⟨d.entries.map (activateIds (requestedIds m 0 packetLength) portid),
          d.issued⟩

/-- The slots below `INTERFACE_COUNT` hold pairwise different pointers to the
    directory's entries, none of them freed, and the entries have pairwise
    different ids that were given out. -/
structure Refines (k : Registry) (d : Directory) : Prop where
  lists : ∃ ps, Lists k.interfaceList ps d.entries
  count : k.interfaceCount.toNat = d.entries.length
  capacity : k.interfaceList.slots.length = k.interfaceCapacity.toNat
  ids : (d.entries.map fun x => x.id).Nodup
  known : ∀ x ∈ d.entries, x.id ∈ d.issued
  nextId : 0 < k.allocatedId.toNat
  issued : ∀ id ∈ d.issued, 0 < id.toNat ∧ id.toNat < k.allocatedId.toNat

/-- When a call does to the registry what it should: a registration does not
    have to grow the array past the 32-bit range, nor to look for a pid beyond
    slot `2 ^ 31`; and a removal does not find its id before the last slot. -/
def Handled (k : Registry) : RegistryCall → Prop
  | .register pid _ _ =>
      (k.interfaceCount = k.interfaceCapacity →
        k.interfaceCapacity.toNat + GRADIENT.toNat < 2 ^ 32)
      ∧ (k.interfaceCount.toNat ≤ 2 ^ 31
        ∨ ∃ i x, i < 2 ^ 31 ∧ k.interfaceList.deref i = some x
            ∧ x.2.ctrl.bindPid = pid)
  | .remove id =>
      ∀ i x, i + 1 < k.interfaceCount.toNat →
        k.interfaceList.deref i = some x → x.2.id ≠ id
  | .activate .. => True

/-! ## Registration -/

theorem Refines.live {k : Registry} {d : Directory} (h : Refines k d) :
    k.Live := by
  obtain ⟨ps, hps⟩ := h.lists
  rw [Registry.Live, h.count, ← hps.length_eq]
  exact hps.live

theorem Refines.count_le {k : Registry} {d : Directory} (h : Refines k d) :
    k.interfaceCount ≤ k.interfaceCapacity := by
  obtain ⟨ps, hps⟩ := h.lists
  rw [UInt32.le_iff_toNat_le, h.count, ← hps.length_eq, ← h.capacity]
  exact hps.length_le

/-- The pid is looked up, or found to be new, without leaving the array. -/
theorem addInterfaceToProc_ok {k : Registry} (hlive : k.Live) {pid : Int32}
    (hpid : k.interfaceCount.toNat ≤ 2 ^ 31
      ∨ ∃ i x, i < 2 ^ 31 ∧ k.interfaceList.deref i = some x
          ∧ x.2.ctrl.bindPid = pid)
    (procCreate : Option ProcEntry) :
    ∃ procEntry, addInterfaceToProc k pid procCreate = some procEntry := by
  have hread := PointerArray.Live.below hlive
    (Nat.min_le_left k.interfaceCount.toNat (2 ^ 31))
  rcases hread.search (fun x => x.2.ctrl.bindPid == pid)
    with ⟨hnone, hno⟩ | ⟨hit, hsome, -, -⟩
  · rw [addInterfaceToProc, hnone]
    by_cases hcount : k.interfaceCount.toNat ≤ 2 ^ 31
    · exact ⟨procCreate, if_pos hcount⟩
    · obtain ⟨i, x, hi, hderef, hx⟩ := hpid.resolve_left hcount
      exact absurd hx (hno.ne (by omega) hderef)
  · rw [addInterfaceToProc, hsome]
    exact ⟨hit.val.2.ctrl.procEntry, rfl⟩

/-- Growing makes room for one more slot and changes nothing else. -/
theorem Refines.grow {k : Registry} {d : Directory} (h : Refines k d)
    (hroom : k.interfaceCount = k.interfaceCapacity →
      k.interfaceCapacity.toNat + GRADIENT.toNat < 2 ^ 32) :
    Refines k.grow d ∧ k.grow.interfaceCount = k.interfaceCount
      ∧ k.grow.allocatedId = k.allocatedId
      ∧ k.grow.interfaceCount.toNat < k.grow.interfaceList.slots.length := by
  obtain ⟨ps, hps⟩ := h.lists
  have hle : k.interfaceCount.toNat ≤ k.interfaceCapacity.toNat :=
    UInt32.le_iff_toNat_le.mp h.count_le
  have hcap := k.interfaceCapacity.toNat_lt
  rcases Nat.eq_or_lt_of_le hle with heq | hlt
  · -- the array is full
    have hsum := hroom (UInt32.toNat_inj.mp heq)
    have hten : GRADIENT.toNat = 10 := rfl
    have hinc := toNat_succ (w := k.interfaceCount) (by omega)
    have hnew : (k.interfaceCapacity + GRADIENT).toNat
        = k.interfaceCapacity.toNat + GRADIENT.toNat := by
      rw [UInt32.toNat_add]
      exact Nat.mod_eq_of_lt hsum
    have hgrow : k.interfaceCapacity < k.interfaceCount + 1 := by
      rw [UInt32.lt_iff_toNat_lt, hinc]
      omega
    rw [Registry.grow, if_pos hgrow]
    refine ⟨⟨⟨ps, hps.resize ?_⟩, h.count, length_resize _ _, h.ids, h.known,
      h.nextId, h.issued⟩, rfl, rfl, ?_⟩
    · rw [hps.length_eq, ← h.count, hnew]
      omega
    · show k.interfaceCount.toNat < (k.interfaceList.resize _).slots.length
      rw [length_resize, hnew]
      omega
  · have hinc := toNat_succ (w := k.interfaceCount) (by omega)
    have hgrow : ¬ k.interfaceCapacity < k.interfaceCount + 1 := by
      rw [UInt32.lt_iff_toNat_lt, hinc]
      omega
    rw [Registry.grow, if_neg hgrow]
    exact ⟨h, rfl, rfl, by rw [h.capacity]; exact hlt⟩

/-- Giving out an id keeps the ids given out so far below the next one. -/
theorem Refines.allocateId {k : Registry} {d : Directory} (h : Refines k d)
    (hid : k.allocatedId.toNat + 1 < 2 ^ 32) :
    Refines { k with allocatedId := k.allocatedId + 1 } d
      ∧ k.allocatedId ≠ 0 ∧ k.allocatedId ∉ d.issued := by
  have hnext := toNat_succ hid
  refine ⟨⟨h.lists, h.count, h.capacity, h.ids, h.known, ?_, ?_⟩, ?_, ?_⟩
  · show 0 < (k.allocatedId + 1).toNat
    omega
  · intro id hmem
    obtain ⟨hpos, hlt⟩ := h.issued id hmem
    exact ⟨hpos, by show id.toNat < (k.allocatedId + 1).toNat; omega⟩
  · intro h0
    have := h.nextId
    rw [h0] at this
    exact Nat.lt_irrefl 0 this
  · intro hmem
    exact Nat.lt_irrefl _ (h.issued _ hmem).2

/-- **REGISTRATION** appends one entry under a fresh id. -/
theorem registerInterface_refines {k : Registry} {d : Directory}
    (h : Refines k d) {pid : Int32} {procCreate : Option ProcEntry}
    {u : UserInterface} (hok : Handled k (.register pid procCreate u))
    (hid : k.allocatedId.toNat + 1 < 2 ^ 32) :
    ∃ k' procEntry, registerInterface pid procCreate u k
        = some (k.allocatedId, k')
      ∧ k.allocatedId ≠ 0 ∧ k.allocatedId ∉ d.issued
      ∧ k'.allocatedId = k.allocatedId + 1
      ∧ Refines k' ⟨d.entries ++ [u.registered k.allocatedId pid procEntry],
          k.allocatedId :: d.issued⟩ := by
  obtain ⟨procEntry, hproc⟩ := addInterfaceToProc_ok h.live hok.2 procCreate
  obtain ⟨h1, hne, hfresh⟩ := h.allocateId hid
  obtain ⟨h2, hcount, halloc, hroom⟩ := h1.grow hok.1
  generalize hk1 : ({ k with allocatedId := k.allocatedId + 1 } : Registry).grow
    = k1 at h2 hcount halloc hroom
  replace hcount : k1.interfaceCount = k.interfaceCount := hcount
  replace halloc : k1.allocatedId = k.allocatedId + 1 := halloc
  obtain ⟨ps, hps⟩ := h2.lists
  have hlen : ps.length = k1.interfaceCount.toNat := by
    rw [hps.length_eq, ← h2.count]
  -- after `grow` there is a free slot behind the last one
  obtain ⟨list, hwrite, hslots, hlist⟩ := hps.append (by rw [hlen]; exact hroom)
    (u.registered k.allocatedId pid procEntry)
  have hinc := toNat_succ (w := k1.interfaceCount) (by
    have := k1.interfaceCapacity.toNat_lt
    rw [← h2.capacity] at this
    omega)
  refine ⟨{ k1 with interfaceCount := k1.interfaceCount + 1,
                    interfaceList := list }, procEntry, ?_, hne, hfresh, halloc, ?_⟩
  · rw [hlen] at hwrite
    simp only [registerInterface, hproc, hk1, Option.bind_eq_bind,
      Option.bind_some, hwrite]
    rfl
  · refine ⟨⟨_, hlist⟩, ?_, by rw [hslots]; exact h2.capacity, ?_, ?_, h2.nextId,
      ?_⟩
    · show (k1.interfaceCount + 1).toNat = (d.entries ++ [_]).length
      rw [hinc, List.length_append, h2.count]
      rfl
    · -- the id is fresh, so the ids stay different
      rw [List.map_append, List.nodup_append]
      refine ⟨h.ids, List.nodup_singleton _, ?_⟩
      intro i hi j hj heq
      obtain ⟨x, hx, hxi⟩ := List.mem_map.mp hi
      rw [List.mem_singleton.mp hj] at heq
      exact hfresh (by rw [← show i = k.allocatedId from heq, ← hxi]; exact h.known x hx)
    · intro x hx
      rcases List.mem_append.mp hx with h1 | h1
      · exact List.mem_cons_of_mem _ (h.known x h1)
      · rw [List.mem_singleton.mp h1]
        exact List.mem_cons_self ..
    · intro id hmem
      show 0 < id.toNat ∧ id.toNat < k1.allocatedId.toNat
      rw [halloc]
      rcases List.mem_cons.mp hmem with h1 | h1
      · rw [h1, toNat_succ hid]
        exact ⟨h.nextId, Nat.lt_succ_self _⟩
      · obtain ⟨h0, hlt⟩ := h.issued id h1
        rw [toNat_succ hid]
        exact ⟨h0, Nat.lt_succ_of_lt hlt⟩

/-! ## Removal -/

/-- What a traversal of the registry sees are the entries of the directory. -/
theorem Refines.entry {k : Registry} {d : Directory} (h : Refines k d)
    {i : Nat} {x : Interface} (hi : d.entries[i]? = some x) :
    ∃ p, k.interfaceList.deref i = some (p, x) := by
  obtain ⟨ps, hps⟩ := h.lists
  have hlt : i < ps.length := by
    rw [hps.length_eq]
    exact (List.getElem?_eq_some_iff.mp hi).1
  obtain ⟨y, hy, hderef⟩ := hps.deref (List.getElem?_eq_getElem hlt)
  rw [hi] at hy
  rw [← Option.some.inj hy] at hderef
  exact ⟨_, hderef⟩

/-- A list that ends at index `i`. -/
theorem eq_take_append {α : Type} {l : List α} {i : Nat} {a : α}
    (hi : l[i]? = some a) (hlen : l.length = i + 1) : l = l.take i ++ [a] := by
  have hlt : i < l.length := by omega
  rw [List.getElem?_eq_getElem hlt] at hi
  rw [← Option.some.inj hi, ← List.take_succ_eq_append_getElem hlt,
    List.take_of_length_le (by omega)]

/-- Removing an id that no interface has. -/
theorem removeInterface_absent {k : Registry} {d : Directory} (h : Refines k d)
    {id : UInt32}
    (hno : NoHit k.interfaceList.deref (fun x => x.2.id == id) 0
      k.interfaceCount.toNat) :
    (d.entries.filter fun x => x.id ≠ id) = d.entries := by
  refine List.filter_eq_self.mpr fun x hx => ?_
  obtain ⟨i, hi⟩ := List.getElem?_of_mem hx
  obtain ⟨p, hderef⟩ := h.entry hi
  have hlt : i < d.entries.length := (List.getElem?_eq_some_iff.mp hi).1
  rw [← h.count] at hlt
  exact decide_eq_true (hno.ne hlt hderef)

/-- Under pairwise different ids, filtering by the last id drops the last
    interface alone. -/
theorem filter_last {es : List Interface} {x : Interface}
    (h : ((es ++ [x]).map fun y => y.id).Nodup) :
    ((es ++ [x]).filter fun y => y.id ≠ x.id) = es := by
  rw [List.map_append, List.nodup_append] at h
  have hkeep : (es.filter fun y => y.id ≠ x.id) = es :=
    List.filter_eq_self.mpr fun y hy => decide_eq_true
      (h.2.2 y.id (List.mem_map_of_mem hy) x.id (List.mem_singleton.mpr rfl))
  rw [List.filter_append, hkeep, List.filter_cons_of_neg (by simp),
    List.filter_nil, List.append_nil]

/-- A removal that is handled finds its interface in the last slot. -/
theorem Handled.last {k : Registry} {id : UInt32} (hok : Handled k (.remove id))
    {i p : Nat} {x : Interface}
    (hfirst : FirstHit k.interfaceList.deref (fun x => x.2.id == id) 0 ⟨i, (p, x)⟩)
    (hlt : i < k.interfaceCount.toNat) : k.interfaceCount.toNat = i + 1 := by
  have hxid : x.id = id := eq_of_beq hfirst.sat
  by_contra hne
  exact hok i (p, x) (by omega) hfirst.get_index hxid

/-- There the loop makes no round, and the interface is freed. -/
theorem removeInterface_last {k : Registry} {id : UInt32} {i p : Nat} {x : Interface}
    (hsome : search k.interfaceList.deref (fun x => x.2.id == id) 0
      k.interfaceCount.toNat = some (some ⟨i, (p, x)⟩))
    (hlast : k.interfaceCount.toNat = i + 1) {list : Table Interface}
    (hfree : k.interfaceList.free p = some list) :
    removeInterface id k = some (id, { k with
      interfaceCount := k.interfaceCount - 1, interfaceList := list }) := by
  have hrounds : (k.interfaceCount - 1).toNat - i = 0 := by
    rw [@toNat_pred k.interfaceCount (by omega)]
    omega
  simp only [removeInterface, hsome, Option.bind_eq_bind, Option.bind_some,
    hrounds, moveSlots, hfree]

/-- **REMOVAL** of the interface in the last slot, or of none. -/
theorem removeInterface_refines {k : Registry} {d : Directory}
    (h : Refines k d) {id : UInt32} (hok : Handled k (.remove id)) :
    ∃ r k', removeInterface id k = some (r, k')
      ∧ k'.allocatedId = k.allocatedId
      ∧ Refines k' ⟨d.entries.filter fun x => x.id ≠ id, d.issued⟩ := by
  rcases h.live.search (fun x => x.2.id == id)
    with ⟨hnone, hno⟩ | ⟨⟨i, p, x⟩, hsome, hfirst, hlt⟩
  · refine ⟨-1, k, ?_, rfl, ?_⟩
    · rw [removeInterface, hnone]
      rfl
    · rw [removeInterface_absent h hno]
      exact h
  · replace hlt : i < k.interfaceCount.toNat := hlt
    have hxid : x.id = id := eq_of_beq hfirst.sat
    have hlast := hok.last hfirst hlt
    have hpred := toNat_pred (w := k.interfaceCount) (by omega)
    obtain ⟨ps, hps⟩ := h.lists
    obtain ⟨hp, hx⟩ : ps[i]? = some p ∧ d.entries[i]? = some x :=
      hps.of_deref (by rw [hps.length_eq, ← h.count]; exact hlt) hfirst.get_index
    have hpslen : ps.length = i + 1 := by rw [hps.length_eq, ← h.count, hlast]
    have hentries := eq_take_append hx (by rw [← h.count, hlast])
    rw [eq_take_append hp hpslen, hentries] at hps
    obtain ⟨list, hfree, hslots, hlist⟩ := hps.dropLast
    have hfilter : (d.entries.filter fun y => y.id ≠ id) = d.entries.take i := by
      have hids := h.ids
      rw [hentries] at hids
      have hlist := filter_last hids
      rwa [← hentries, hxid] at hlist
    refine ⟨id, _, removeInterface_last hsome hlast hfree, rfl, ?_⟩
    rw [hfilter]
    refine ⟨⟨_, hlist⟩, ?_, by rw [hslots]; exact h.capacity, ?_, ?_, h.nextId,
      h.issued⟩
    · show (k.interfaceCount - 1).toNat = (d.entries.take i).length
      rw [hpred, hlast, List.length_take, ← h.count, hlast]
      omega
    · exact h.ids.sublist ((List.take_sublist i d.entries).map _)
    · exact fun y hy => h.known y (List.mem_of_mem_take hy)

/-! ## Activation -/

/-- What a handshake packet sets off: nothing if it is too short for its count, else
    the outer loop. -/
theorem handleActivateInterface_run (m : Mem) (packet : Nat)
    (packetLength portid : UInt32) (k : Registry) :
    handleActivateInterface m packet packetLength portid k
      = if packetLength < 4 then ⟨some (), k, []⟩
        else if packetLength.toNat < 4 * (wordAt m packet + 1).toNat then
          ⟨some (), k, [.read ⟨packet, 4⟩]⟩
        else (activateAll m (packet + 4) portid 0 (wordAt m packet).toNat k).after
          [.read ⟨packet, 4⟩] := by
  rw [handleActivateInterface]
  by_cases hshort : packetLength < 4
  · rw [if_pos hshort, if_pos hshort]
    rfl
  · rw [if_neg hshort, if_neg hshort, run_readPacket_bind, run_ite]
    by_cases hcount : packetLength.toNat < 4 * (wordAt m packet + 1).toNat
    · rw [if_pos (show packetLength.toNat < 4 * ((word m packet).val + 1).toNat
        from hcount), if_pos hcount]
      rfl
    · rw [if_neg (show ¬ packetLength.toNat < 4 * ((word m packet).val + 1).toNat
        from hcount), if_neg hcount]
      rfl

/-- What the inner loop leaves, given what a search for the id finds. -/
def activated (k : Registry) (portid : UInt32) :
    Option (Option (Hit (Nat × Interface))) → Option Unit × Registry
  | none => (none, k)
  | some none => (some (), k)
  | some (some hit) =>
      (some (), k.assign hit.val.1 (hit.val.2.activate portid))

/-- The inner loop is a search for the id that it reads, again and again, at
    `pos`. -/
theorem activateOne_run (m : Mem) (pos : Nat) (portid : UInt32) (k : Registry)
    (n j : Nat) :
    ∃ r, activateOne m pos portid j n k
        = ⟨(activated k portid (search k.interfaceList.deref
              (fun x => x.2.id == wordAt m pos) j n)).1,
            (activated k portid (search k.interfaceList.deref
              (fun x => x.2.id == wordAt m pos) j n)).2,
            List.replicate r (Event.read ⟨pos, 4⟩)⟩
      ∧ (n = 0 → r = 0)
      ∧ (0 < n → (k.interfaceList.deref j).isSome → 0 < r) := by
  induction n generalizing j with
  | zero => exact ⟨0, rfl, fun _ => rfl, fun h => absurd h (Nat.lt_irrefl 0)⟩
  | succ n ih =>
      rw [search_succ]
      cases hderef : k.interfaceList.deref j with
      | none =>
          refine ⟨0, ?_, fun _ => rfl, fun _ h => nomatch h⟩
          rw [activateOne, run_getState_bind, run_orFault_none_bind hderef]
          rfl
      | some entry =>
          rw [Option.bind_some, activateOne, run_getState_bind,
            run_orFault_some_bind hderef, run_readPacket_bind]
          show ∃ r, ((if entry.2.id = wordAt m pos then
                putState (k.assign entry.1 (entry.2.activate portid))
              else activateOne m pos portid (j + 1) n) k).after
                [Event.read ⟨pos, 4⟩] = _ ∧ _
          -- a hit ends the loop, and the id is read anew in every round
          by_cases hid : entry.2.id = wordAt m pos
          · rw [if_pos hid, if_pos (beq_iff_eq.mpr hid)]
            exact ⟨1, rfl, (fun h => nomatch h), fun _ _ => Nat.one_pos⟩
          · rw [if_neg hid, if_neg (fun h => hid (beq_iff_eq.mp h))]
            obtain ⟨r, hr, -, -⟩ := ih (j + 1)
            rw [hr]
            exact ⟨r + 1, rfl, (fun h => nomatch h), fun _ _ => Nat.succ_pos r⟩

/-- **ONE ID** among live interfaces: none of them has it, or the first one that has
    it is activated. -/
theorem Registry.Live.activateOne {k : Registry} (h : k.Live) (m : Mem) (pos : Nat)
    (portid : UInt32) :
    ∃ k' t, DistComm.activateOne m pos portid 0 k.interfaceCount.toNat k
        = ⟨some (), k', t⟩
      ∧ ((k' = k ∧ ∀ i p x, i < k.interfaceCount.toNat →
            k.interfaceList.deref i = some (p, x) → x.id ≠ wordAt m pos)
        ∨ ∃ i p x, i < k.interfaceCount.toNat
            ∧ k.interfaceList.deref i = some (p, x) ∧ x.id = wordAt m pos
            ∧ k' = k.assign p (x.activate portid)) := by
  obtain ⟨r, hrun, -, -⟩ := activateOne_run m pos portid k
    k.interfaceCount.toNat 0
  rw [hrun]
  rcases h.search (fun x => x.2.id == wordAt m pos)
    with ⟨hnone, hno⟩ | ⟨⟨i, p, x⟩, hsome, hfirst, hlt⟩
  · rw [hnone]
    exact ⟨k, _, rfl, Or.inl ⟨rfl, fun i p x hi hx => hno.ne hi hx⟩⟩
  · rw [hsome]
    exact ⟨_, _, rfl, Or.inr ⟨i, p, x, hlt, hfirst.get_index, eq_of_beq hfirst.sat,
      rfl⟩⟩

@[simp] theorem activateIds_id (ids : List UInt32) (portid : UInt32)
    (x : Interface) : (activateIds ids portid x).id = x.id := by
  rw [activateIds]
  split <;> rfl

theorem activateIds_nil (portid : UInt32) (x : Interface) :
    activateIds [] portid x = x :=
  if_neg (List.not_mem_nil)

/-- Activating one after the other is activating all. -/
theorem activateIds_cons (id : UInt32) (ids : List UInt32) (portid : UInt32)
    (x : Interface) :
    activateIds ids portid (activateIds [id] portid x)
      = activateIds (id :: ids) portid x := by
  rw [activateIds, activateIds_id]
  by_cases hid : x.id = id
  · have h1 : activateIds [id] portid x = x.activate portid :=
      if_pos (List.mem_singleton.mpr hid)
    have h2 : activateIds (id :: ids) portid x = x.activate portid :=
      if_pos (List.mem_cons.mpr (Or.inl hid))
    rw [h1, h2]
    by_cases hmem : x.id ∈ ids
    · rw [if_pos hmem]
      rfl
    · rw [if_neg hmem]
  · have h1 : activateIds [id] portid x = x :=
      if_neg (fun h => hid (List.mem_singleton.mp h))
    rw [h1, activateIds]
    by_cases hmem : x.id ∈ ids
    · rw [if_pos hmem, if_pos (List.mem_cons_of_mem _ hmem)]
    · rw [if_neg hmem, if_neg (fun h => (List.mem_cons.mp h).elim hid hmem)]

/-- Among interfaces of different ids, replacing the one with the id is
    activating the id. -/
theorem set_activate {es : List Interface} {i : Nat} {x : Interface}
    (hids : (es.map fun y => y.id).Nodup) (hi : es[i]? = some x)
    (portid : UInt32) :
    es.set i (x.activate portid) = es.map (activateIds [x.id] portid) := by
  apply List.ext_getElem?
  intro j
  rw [List.getElem?_set, List.getElem?_map]
  have hlt : i < es.length := (List.getElem?_eq_some_iff.mp hi).1
  by_cases hij : i = j
  · rw [if_pos hij, if_pos hlt, ← hij, hi]
    exact congrArg some (if_pos (List.mem_singleton.mpr rfl)).symm
  · rw [if_neg hij]
    cases hj : es[j]? with
    | none => rfl
    | some y =>
        -- an entry in another slot has another id
        have hne : y.id ≠ x.id := by
          intro heq
          refine hij ((List.getElem?_inj (by rwa [List.length_map]) hids).mp ?_)
          rw [List.getElem?_map, List.getElem?_map, hi, hj]
          exact congrArg some heq.symm
        exact congrArg some
          (if_neg (fun h => hne (List.mem_singleton.mp h))).symm

/-- Activations leave the ids, the order and the bookkeeping alone. -/
theorem Refines.activateIds {k : Registry} {d : Directory} {ids : List UInt32}
    {portid : UInt32} (h : Refines k d) {list : Table Interface}
    (hlists : ∃ ps, Lists list ps (d.entries.map (activateIds ids portid)))
    (hslots : list.slots = k.interfaceList.slots) :
    Refines { k with interfaceList := list }
      ⟨d.entries.map (DistComm.activateIds ids portid), d.issued⟩ := by
  refine ⟨hlists, ?_, by rw [hslots]; exact h.capacity, ?_, ?_, h.nextId,
    h.issued⟩
  · show k.interfaceCount.toNat = (d.entries.map _).length
    rw [List.length_map, h.count]
  · rw [List.map_map]
    have hcomp : ((fun x : Interface => x.id) ∘ DistComm.activateIds ids portid)
        = fun x => x.id := funext (activateIds_id ids portid)
    rw [hcomp]
    exact h.ids
  · intro x hx
    obtain ⟨y, hy, hxy⟩ := List.mem_map.mp hx
    rw [← hxy, activateIds_id]
    exact h.known y hy

theorem Refines.activate_none {k : Registry} {d : Directory} (h : Refines k d)
    (portid : UInt32) :
    Refines k ⟨d.entries.map (DistComm.activateIds [] portid), d.issued⟩ := by
  have hsame : d.entries.map (DistComm.activateIds [] portid) = d.entries :=
    (List.map_congr_left fun x _ => activateIds_nil portid x).trans
      (List.map_id _)
  rw [hsame]
  exact h

/-- The inner loop activates the interface with the id at `pos`. -/
theorem activateOne_refines {k : Registry} {d : Directory} (h : Refines k d)
    (m : Mem) (pos : Nat) (portid : UInt32) :
    ∃ k' t, activateOne m pos portid 0 k.interfaceCount.toNat k
        = ⟨some (), k', t⟩
      ∧ k'.allocatedId = k.allocatedId
      ∧ Refines k' ⟨d.entries.map (activateIds [wordAt m pos] portid),
          d.issued⟩ := by
  obtain ⟨k', t, hrun, ⟨rfl, hno⟩ | ⟨i, p, x, hlt, hderef, hxid, rfl⟩⟩ :=
    h.live.activateOne m pos portid
  · refine ⟨k', t, hrun, rfl, ?_⟩
    -- no entry has the id, so activating it changes nothing
    have hsame : d.entries.map (activateIds [wordAt m pos] portid)
        = d.entries := by
      refine (List.map_congr_left fun x hx => ?_).trans (List.map_id _)
      obtain ⟨i, hi⟩ := List.getElem?_of_mem hx
      obtain ⟨p, hderef⟩ := h.entry hi
      have hlt : i < d.entries.length := (List.getElem?_eq_some_iff.mp hi).1
      rw [← h.count] at hlt
      exact if_neg fun hmem => hno i p x hlt hderef (List.mem_singleton.mp hmem)
    rw [hsame]
    exact h
  · refine ⟨k.assign p (x.activate portid), t, hrun, rfl, ?_⟩
    obtain ⟨ps, hps⟩ := h.lists
    obtain ⟨hp, hx⟩ : ps[i]? = some p ∧ d.entries[i]? = some x :=
      hps.of_deref (by rw [hps.length_eq, ← h.count]; exact hlt) hderef
    refine h.activateIds ⟨ps, ?_⟩ rfl
    rw [← hxid, ← set_activate h.ids hx portid]
    exact hps.update hp (x.activate portid)

/-- The outer loop activates the ids in the packet, one after the other. -/
theorem activateAll_refines (m : Mem) (ids : Nat) (portid : UInt32) (n i : Nat)
    {k : Registry} {d : Directory} (h : Refines k d) :
    ∃ k' t, activateAll m ids portid i n k = ⟨some (), k', t⟩
      ∧ k'.allocatedId = k.allocatedId
      ∧ Refines k' ⟨d.entries.map
          (activateIds (wordsAt m (ids + 4 * i) n) portid), d.issued⟩ := by
  induction n generalizing i k d with
  | zero =>
      exact ⟨k, [], rfl, rfl, h.activate_none portid⟩
  | succ n ih =>
      obtain ⟨k1, t1, hrun1, halloc1, h1⟩ :=
        activateOne_refines h m (ids + 4 * i) portid
      obtain ⟨k2, t2, hrun2, halloc2, h2⟩ := ih (i + 1) h1
      refine ⟨k2, t1 ++ t2, ?_, halloc2.trans halloc1, ?_⟩
      · rw [activateAll, run_getState_bind, run_bind_some hrun1, hrun2]
        rfl
      · rw [List.map_map] at h2
        have hcomp : activateIds (wordsAt m (ids + 4 * (i + 1)) n) portid
              ∘ activateIds [wordAt m (ids + 4 * i)] portid
            = activateIds (wordsAt m (ids + 4 * i) (n + 1)) portid :=
          funext fun x => activateIds_cons _ _ portid x
        rwa [hcomp] at h2

/-- **ACTIVATION** touches the requested interfaces and nothing else. -/
theorem handleActivateInterface_refines {k : Registry} {d : Directory}
    (h : Refines k d) (m : Mem) (packet : Nat) (packetLength portid : UInt32) :
    ∃ k' t, handleActivateInterface m packet packetLength portid k
        = ⟨some (), k', t⟩
      ∧ k'.allocatedId = k.allocatedId
      ∧ Refines k' ⟨d.entries.map
          (activateIds (requestedIds m packet packetLength) portid),
          d.issued⟩ := by
  rw [handleActivateInterface_run, requestedIds]
  by_cases hshort : packetLength < 4
  · rw [if_pos hshort, if_pos (Or.inl hshort)]
    exact ⟨k, [], rfl, rfl, h.activate_none portid⟩
  rw [if_neg hshort]
  by_cases hcount : packetLength.toNat < 4 * (wordAt m packet + 1).toNat
  · rw [if_pos hcount, if_pos (Or.inr hcount)]
    exact ⟨k, _, rfl, rfl, h.activate_none portid⟩
  · rw [if_neg hcount, if_neg (not_or.mpr ⟨hshort, hcount⟩)]
    obtain ⟨k', t, hrun, hrest⟩ := activateAll_refines m (packet + 4) portid
      (wordAt m packet).toNat 0 h
    rw [hrun]
    exact ⟨k', _, rfl, hrest⟩

/-! ## Runs -/

theorem refines_initial : Refines Registry.initial Directory.empty :=
  ⟨⟨[], lists_empty⟩, rfl, rfl, List.nodup_nil, (fun _ h => nomatch h),
    Nat.one_pos, (fun _ h => nomatch h)⟩

theorem step_activate {m : Mem} {packetLength portid : UInt32} {k k' : Registry}
    {t : List Event} (hrun : handleActivateInterface m 0 packetLength portid k
      = ⟨some (), k', t⟩) :
    k.step (.activate m packetLength portid) = some k' := by
  show (handleActivateInterface m 0 packetLength portid k).ret.map
    (fun _ => (handleActivateInterface m 0 packetLength portid k).state) = some k'
  rw [hrun]
  rfl

/-- **ONE CALL**: a handled call, with ids left for it and the calls to come, does
    to the registry what it should do to the directory. -/
theorem step_refines {k : Registry} {d : Directory} {c : RegistryCall}
    {cs : List RegistryCall} (h : Refines k d) (hok : Handled k c)
    (hids : k.allocatedId.toNat + (c :: cs).countP RegistryCall.isRegister
      < 2 ^ 32) :
    ∃ k' d', k.step c = some k' ∧ DirectoryStep d c d' ∧ Refines k' d'
      ∧ k'.allocatedId.toNat + cs.countP RegistryCall.isRegister < 2 ^ 32 := by
  cases c with
  | register pid procCreate u =>
      -- a registration uses up one of the ids that are left
      rw [List.countP_cons_of_pos rfl] at hids
      have hid : k.allocatedId.toNat + 1 < 2 ^ 32 := by omega
      obtain ⟨k', procEntry, hrun, hne, hfresh, halloc, h'⟩ :=
        registerInterface_refines h hok hid
      refine ⟨k', _, by rw [Registry.step, hrun]; rfl,
        .register k.allocatedId procEntry hne hfresh, h', ?_⟩
      rw [halloc, toNat_succ hid]
      omega
  | remove id =>
      rw [List.countP_cons_of_neg (by exact Bool.false_ne_true)] at hids
      obtain ⟨r, k', hrun, halloc, h'⟩ := removeInterface_refines h hok
      exact ⟨k', _, by rw [Registry.step, hrun]; rfl, .remove, h',
        by rw [halloc]; exact hids⟩
  | activate m packetLength portid =>
      rw [List.countP_cons_of_neg (by exact Bool.false_ne_true)] at hids
      obtain ⟨k', t, hrun, halloc, h'⟩ :=
        handleActivateInterface_refines h m 0 packetLength portid
      exact ⟨k', _, step_activate hrun, .activate, h', by rw [halloc]; exact hids⟩

/-- The run does not fault, and its registry is what the directory says. -/
def RegistryFollows (calls : List RegistryCall) : Prop :=
  ∃ k d, runAll Registry.step Registry.initial calls = some k
    ∧ Run DirectoryStep Directory.empty calls d ∧ Refines k d
    ∧ k.interfaceCount ≤ k.interfaceCapacity

/-- **REGISTRY REFINEMENT**, for all runs whose calls are handled. -/
theorem registry_refines (calls : List RegistryCall)
    (hfew : calls.countP RegistryCall.isRegister < 2 ^ 32 - 1)
    (hok : AlongRun Registry.step Handled Registry.initial calls) :
    RegistryFollows calls := by
  have hone : Registry.initial.allocatedId.toNat = 1 := rfl
  obtain ⟨k, d, hrun, hspec, h, -⟩ := @runAll_simulates _ _ _ Registry.step
    Handled DirectoryStep (fun cs k d => Refines k d
      ∧ k.allocatedId.toNat + cs.countP RegistryCall.isRegister < 2 ^ 32)
    (fun c cs k d hR hc => step_refines hR.1 hc hR.2)
    calls Registry.initial Directory.empty
    ⟨refines_initial, by omega⟩ hok
  exact ⟨k, d, hrun, hspec, h, h.count_le⟩

/-- An entry of the directory is what a lookup of its id finds, as far as an `int`
    can count. -/
theorem Refines.findInterface {k : Registry} {d : Directory} (h : Refines k d)
    (hcount : k.interfaceCount.toNat < 2 ^ 31) {x : Interface}
    (hx : x ∈ d.entries) :
    x.id ≠ 0 ∧ ∃ p, k.findInterface x.id.toInt32 = some (some (p, x)) := by
  have hnz : x.id ≠ 0 := by
    intro h0
    have hpos := (h.issued x.id (h.known x hx)).1
    rw [h0] at hpos
    exact absurd hpos (Nat.lt_irrefl 0)
  refine ⟨hnz, ?_⟩
  have hrounds := toNat_toInt32 hcount
  obtain ⟨i, hi⟩ := List.getElem?_of_mem hx
  have hlt : i < d.entries.length := (List.getElem?_eq_some_iff.mp hi).1
  rcases h.live.search (fun y => y.2.id == x.id)
    with ⟨-, hno⟩ | ⟨⟨j, p, y⟩, hsome, hfirst, hj⟩
  · obtain ⟨p, hderef⟩ := h.entry hi
    rw [← h.count] at hlt
    exact absurd rfl (hno.ne hlt hderef)
  · obtain ⟨ps, hps⟩ := h.lists
    replace hj : j < k.interfaceCount.toNat := hj
    have hy : d.entries[j]? = some y := (hps.of_deref
      (by rw [hps.length_eq, ← h.count]; exact hj) hfirst.get_index).2
    have hid : y.id = x.id := eq_of_beq hfirst.sat
    -- different entries have different ids
    have hsame : i = j := by
      refine (List.getElem?_inj (by rwa [List.length_map]) h.ids).mp ?_
      rw [List.getElem?_map, List.getElem?_map, hi, hy, Option.map_some,
        Option.map_some, hid]
    rw [← hsame, hi] at hy
    refine ⟨p, ?_⟩
    rw [Registry.findInterface, DistComm.findInterface, hrounds,
      Option.some.inj hy]
    have hsome' : search k.interfaceList.deref
        (fun z => z.2.id == x.id.toInt32.toUInt32) 0 k.interfaceCount.toNat
        = some (some ⟨j, p, y⟩) := hsome
    rw [Option.some.inj hy] at hsome'
    rw [hsome']
    rfl

/-- An interface without arguments and results, and with empty strings. -/
def UserInterface.bare : UserInterface :=
  ⟨0, 0, .empty, .empty, [], [], rfl, rfl⟩

/-- Two processes register an interface each, and the second one is removed. -/
theorem registry_refines_last_removed :
    RegistryFollows [.register 7 (some 1) .bare, .register 8 (some 2) .bare,
      .remove 2] := by
  refine registry_refines _ (by decide) ?_
  refine AlongRun.cons ⟨fun _ => by decide, Or.inl (by decide)⟩ rfl ?_
  refine AlongRun.cons ⟨fun _ => by decide, Or.inl (by decide)⟩ rfl ?_
  refine AlongRun.cons (fun i x hi hx => ?_) rfl trivial
  cases i with
  | zero =>
      have hid : x.2.id = 1 := by
        rw [← Option.some.inj hx]
        rfl
      rw [hid]
      decide
  | succ i =>
      have htwo : i + 1 + 1 < 2 := hi
      omega

/-- The compaction loop copies the wrong neighbour: removing the second of three
    interfaces loses the third and leaves the first one twice. -/
theorem removal_in_the_middle :
    ¬ RegistryFollows [.register 7 (some 1) .bare, .register 8 (some 2) .bare,
      .register 9 (some 3) .bare, .remove 2] := by
  rintro ⟨k, d, hrun, -, h, -⟩
  have hslots : (runAll Registry.step Registry.initial
      [.register 7 (some 1) .bare, .register 8 (some 2) .bare,
        .register 9 (some 3) .bare, .remove 2]).map
      (fun k => (k.interfaceCount, k.interfaceList.slot 0, k.interfaceList.slot 1))
        = some (2, some 0, some 0) := by
    decide
  rw [hrun] at hslots
  obtain ⟨hcount, h0, h1⟩ : k.interfaceCount = 2
      ∧ k.interfaceList.slot 0 = some 0 ∧ k.interfaceList.slot 1 = some 0 := by
    simpa using hslots
  obtain ⟨ps, hps⟩ := h.lists
  have hlen : ps.length = 2 := by
    rw [hps.length_eq, ← h.count, hcount]
    rfl
  have hslot : ∀ i (hi : i < ps.length), k.interfaceList.slot i = some ps[i] := by
    intro i hi
    obtain ⟨x, -, hderef⟩ := hps.deref (List.getElem?_eq_getElem hi)
    exact (deref_eq_some.mp hderef).1
  have heq : ps[0] = ps[1] := by
    apply Option.some.inj
    rw [← hslot 0 (by omega), ← hslot 1 (by omega), h0, h1]
  exact absurd ((List.Nodup.getElem_inj_iff hps.nodup).mp heq) Nat.zero_ne_one

end DistComm
