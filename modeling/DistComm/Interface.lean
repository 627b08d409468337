import DistComm.InterfacesPacket
import DistComm.PointerArray
import DistComm.Traced

/-! # Interfaces, the registry and what a handler leaves behind

    `interface_t` as the serving kernel keeps it (`module/interface.h`), the
    globals of `module/interface.c` with the objects they point to, and the
    events of a handler: the packet bytes it reads, the strings it prints, what
    it writes to sockets and sends to processes.

    `findInterface` is the one lookup function of the repository: the kernel uses
    it on `INTERFACE_LIST` and on the lists of its peers, and the library has the
    same text for the interfaces a process manages. -/

namespace DistComm

open RawMemory RawScan PointerArray TracedProgram

/-- `GRADIENT`: how many slots the registry grows by. -/
def GRADIENT : UInt32 := 10

/-- A socket, by identity. -/
abbrev SockId := Nat

/-- A file under `/proc/dist_comm`, by identity. -/
abbrev ProcEntry := Nat

/-- A NUL-terminated string, without its terminator. -/
structure CString where
  bytes : List UInt8
  nulFree : 0 ∉ bytes
  deriving DecidableEq, Repr

def CString.empty : CString := ⟨[], List.not_mem_nil⟩

/-- `attr_info_t`; both pointers may be NULL. -/
structure AttrInfo where
  name : Option CString
  description : Option CString
  deriving DecidableEq, Repr

/-- `info_t`. -/
structure Info where
  name : Option CString
  description : Option CString
  argInfo : List AttrInfo
  retInfo : List AttrInfo
  deriving DecidableEq, Repr

/-- `ctrl_t`, without the callback, which only the library sets. -/
structure Ctrl where
  activated : UInt8
  clientPortid : UInt32
  socket : Option SockId
  bindPid : Int32
  procEntry : Option ProcEntry
  deriving DecidableEq

/-- A registered `interface_t`: the advertised fields, `ctrl` and `info`. -/
structure Interface extends Advert where
  ctrl : Ctrl
  info : Info
  deriving DecidableEq

/-- Name and description of an argument or a result in user memory. -/
structure UserAttr where
  name : CString
  description : CString
  deriving DecidableEq, Repr

/-- Both strings of a description copied from user memory. -/
def UserAttr.copied (a : UserAttr) : AttrInfo :=
  ⟨some a.name, some a.description⟩

/-- The `interface_t` a process passes to `register_interface`: its description
    arrays have as many entries as its counts say. -/
structure UserInterface where
  argc : UInt32
  retc : UInt32
  name : CString
  description : CString
  argInfo : List UserAttr
  retInfo : List UserAttr
  argInfo_length : argInfo.length = argc.toNat
  retInfo_length : retInfo.length = retc.toNat

/-- The globals of `module/interface.c`; `interfaceList` is `INTERFACE_LIST` with
    the interfaces its slots point to. -/
structure Registry where
  allocatedId : UInt32
  interfaceCount : UInt32
  interfaceCapacity : UInt32
  interfaceList : Table Interface

/-- The globals as the module is loaded. -/
def Registry.initial : Registry := ⟨1, 0, 0, Table.empty⟩

/-- Assignment to fields of the interface at address `p`. -/
def Registry.assign (k : Registry) (p : Nat) (interface : Interface) :
    Registry :=
  { k with interfaceList := k.interfaceList.update p interface }

/-- All slots below `INTERFACE_COUNT` point to live interfaces. -/
def Registry.Live (k : Registry) : Prop :=
  PointerArray.Live k.interfaceList k.interfaceCount.toNat

@[simp] theorem assign_interfaceCount (k : Registry) (p : Nat) (x : Interface) :
    (k.assign p x).interfaceCount = k.interfaceCount := rfl

@[simp] theorem assign_interfaceList (k : Registry) (p : Nat) (x : Interface) :
    (k.assign p x).interfaceList = k.interfaceList.update p x := rfl

theorem Registry.Live.assign {k : Registry} (h : k.Live) (p : Nat)
    (x : Interface) : (k.assign p x).Live :=
  PointerArray.Live.update h p x

/-! ## Lookup -/

/-- `find_interface(interface_list, count, id)`; `get` reads an entry of the list
    and `idOf` its `id`.  Both numbers arrive as `int`, so a count from `2 ^ 31`
    on is negative and nothing is searched. -/
def findInterface {β : Type} (get : Nat → Option β) (idOf : β → UInt32)
    (count id : Int32) : Option (Option (Hit β)) :=
  search get (fun x => idOf x == id.toUInt32) 0 count.toInt.toNat

/-- `find_interface(INTERFACE_LIST, INTERFACE_COUNT, id)`: the address of the
    interface, and the interface. -/
def Registry.findInterface (k : Registry) (id : Int32) :
    Option (Option (Nat × Interface)) :=
  (DistComm.findInterface k.interfaceList.deref (fun x => x.2.id)
    k.interfaceCount.toInt32 id).map fun hit => hit.map fun h => h.val

/-- The conversion of a `uint32_t` to an `int`. -/
theorem toInt_toInt32 (w : UInt32) :
    w.toInt32.toInt
      = if w.toNat < 2 ^ 31 then (w.toNat : Int) else w.toNat - 2 ^ 32 := by
  have h : w.toInt32.toInt = if 2 * w.toNat < 2 ^ 32 then (w.toNat : Int)
      else (w.toNat : Int) - (2 ^ 32 : Nat) :=
    BitVec.toInt_eq_toNat_cond w.toBitVec
  rw [h]
  by_cases hw : w.toNat < 2 ^ 31
  · rw [if_pos hw, if_pos (by omega)]
  · rw [if_neg hw, if_neg (by omega)]
    rfl

/-- A call that returns 0 has not failed. -/
theorem zero_not_neg : ¬ (0 : Int32) < 0 := by decide

/-- A `uint32_t` below its maximum is incremented without wrapping. -/
theorem toNat_succ {w : UInt32} (h : w.toNat + 1 < 2 ^ 32) :
    (w + 1).toNat = w.toNat + 1 := by
  rw [UInt32.toNat_add]
  exact Nat.mod_eq_of_lt h

/-- A positive `uint32_t` is decremented without wrapping. -/
theorem toNat_pred {w : UInt32} (h : 0 < w.toNat) :
    (w - 1).toNat = w.toNat - 1 :=
  UInt32.toNat_sub_of_le w 1 (UInt32.le_iff_toNat_le.mpr h)

/-- The rounds of `find_interface` for a count. -/
theorem toNat_toInt32 {count : UInt32} (h : count.toNat < 2 ^ 31) :
    count.toInt32.toInt.toNat = count.toNat := by
  rw [toInt_toInt32, if_pos h, Int.toNat_natCast]

theorem toNat_toInt32_many {count : UInt32} (h : ¬ count.toNat < 2 ^ 31) :
    count.toInt32.toInt.toNat = 0 := by
  have hmax := count.toNat_lt
  rw [toInt_toInt32, if_neg h]
  omega

/-- They do not exceed the count it was given. -/
theorem toNat_toInt32_le (count : UInt32) :
    count.toInt32.toInt.toNat ≤ count.toNat := by
  by_cases h : count.toNat < 2 ^ 31
  · exact Nat.le_of_eq (toNat_toInt32 h)
  · rw [toNat_toInt32_many h]
    exact Nat.zero_le _

/-- A search over more than an `int` can count finds nothing. -/
theorem findInterface_many {β : Type} {get : Nat → Option β} {idOf : β → UInt32}
    {count : UInt32} (h : ¬ count.toNat < 2 ^ 31) (id : Int32) :
    findInterface get idOf count.toInt32 id = some none := by
  rw [findInterface, toNat_toInt32_many h]
  rfl

/-- **LOOKUP**: in a live registry the search neither faults nor returns an
    interface of another id. -/
theorem Registry.Live.findInterface {k : Registry} (h : k.Live) (id : Int32) :
    k.findInterface id = some none
      ∨ ∃ p x, k.findInterface id = some (some (p, x))
          ∧ k.interfaceList.heap p = some x ∧ x.id = id.toUInt32 := by
  have hread := PointerArray.Live.below h (toNat_toInt32_le k.interfaceCount)
  rcases hread.search (fun x => x.2.id == id.toUInt32)
    with ⟨hnone, -⟩ | ⟨⟨i, p, x⟩, hsome, hfirst, -⟩
  · refine Or.inl ?_
    rw [Registry.findInterface, DistComm.findInterface, hnone]
    rfl
  · refine Or.inr ⟨p, x, ?_, (deref_eq_some.mp hfirst.get_index).2,
      eq_of_beq hfirst.sat⟩
    rw [Registry.findInterface, DistComm.findInterface, hsome]
    rfl

/-- What a lookup finds is at the address, and has the id. -/
theorem findInterface_hit {k : Registry} {id : Int32} {p : Nat} {x : Interface}
    (hfound : k.findInterface id = some (some (p, x))) :
    k.interfaceList.heap p = some x ∧ x.id = id.toUInt32 := by
  obtain ⟨found, hsearch, hval⟩ := Option.map_eq_some_iff.mp hfound
  obtain ⟨h, hsome, hpx⟩ := Option.map_eq_some_iff.mp hval
  rw [hsome] at hsearch
  obtain ⟨hget, hsat⟩ := search_hit hsearch
  rw [hpx] at hget hsat
  exact ⟨(deref_eq_some.mp hget).2, eq_of_beq hsat⟩

/-- Assigning to the other fields of an interface changes no lookup, but for what
    is found at its address. -/
theorem findInterface_assign {k : Registry} {p : Nat} {x y : Interface}
    (hx : k.interfaceList.heap p = some x) (hid : y.id = x.id) (id : Int32) :
    (k.assign p y).findInterface id
      = (k.findInterface id).map fun found =>
          found.map fun z => if z.1 = p then (p, y) else z := by
  have hsame : ∀ i (z : Nat × Interface), k.interfaceList.deref i = some z →
      ((if z.1 = p then (p, y) else z).2.id == id.toUInt32)
        = (z.2.id == id.toUInt32) := by
    rintro i ⟨q, z⟩ hz
    by_cases hq : q = p
    · have hheap := (deref_eq_some.mp hz).2
      rw [hq, hx] at hheap
      rw [if_pos hq, ← Option.some.inj hheap, hid]
    · rw [if_neg hq]
  rw [Registry.findInterface, Registry.findInterface, DistComm.findInterface,
    DistComm.findInterface, assign_interfaceList, assign_interfaceCount,
    search_map (deref_update hx y) hsame, Option.map_map, Option.map_map]
  refine congrArg (fun f => Option.map f _) (funext fun found => ?_)
  cases found with
  | none => rfl
  | some h => rfl

/-! ## Events -/

/-- What a handler does that is visible outside of its own variables: it reads
    bytes of the packet it was given, reads `n` bytes at the address of a decoded
    value or prints this value as a string (there is no value where the decoded
    array is empty), writes to a socket, or sends a netlink message to a port.
    The last two carry the result of the call. -/
inductive Event where
  | read (span : Span)
  | load (value : Option AttrValue) (n : Nat)
  | print (value : Option AttrValue)
  | sendto (sock : SockId) (data : List UInt8) (ret : Int32)
  | unicast (portid : UInt32) (message : List UInt8) (ret : Int32)
  deriving DecidableEq

/-- What was sent to processes, and to which port. -/
def unicasts (t : List Event) : List (UInt32 × List UInt8) :=
  t.filterMap fun
    | .unicast portid message _ => some (portid, message)
    | _ => none

/-- The messages that reached a port, with the port. -/
def deliveries (t : List Event) : List (UInt32 × List UInt8) :=
  t.filterMap fun
    | .unicast port message ret => if ret < 0 then none else some (port, message)
    | _ => none

/-- What was not sent does not reach a port. -/
theorem deliveries_of_unicasts {t : List Event} (h : unicasts t = []) :
    deliveries t = [] := by
  refine List.filterMap_eq_nil_iff.mpr fun e he => ?_
  have hnone := List.filterMap_eq_nil_iff.mp h e he
  cases e with
  | unicast port message ret => exact nomatch hnone
  | read span => rfl
  | load value n => rfl
  | print value => rfl
  | sendto sock data ret => rfl

/-- What was written to sockets. -/
def sends (t : List Event) : List (SockId × List UInt8) :=
  t.filterMap fun
    | .sendto sock data _ => some (sock, data)
    | _ => none

/-- Read the packet: the reads of a scan are the reads of the handler. -/
def readPacket {σ α : Type} (p : Scan α) (m : Mem) (pos : Nat) :
    Traced σ Event α :=
  fun s => ⟨some (p m pos).val, s, (p m pos).reads.map Event.read⟩

theorem readOnly_readPacket {σ α : Type} (p : Scan α) (m : Mem) (pos : Nat) :
    ReadOnly (readPacket p m pos : Traced σ Event α) := fun _ => rfl

theorem emits_readPacket {σ α : Type} {P : Event → Prop}
    (hread : ∀ span, P (.read span)) (p : Scan α) (m : Mem) (pos : Nat) :
    Emits P (readPacket p m pos : Traced σ Event α) := by
  intro s e he
  obtain ⟨span, -, hspan⟩ := List.mem_map.mp he
  rw [← hspan]
  exact hread span

theorem run_readPacket_bind {σ α β : Type} (p : Scan α) (m : Mem) (pos : Nat)
    (q : α → Traced σ Event β) (s : σ) :
    (readPacket p m pos >>= q) s
      = (q (p m pos).val s).after ((p m pos).reads.map Event.read) := rfl

end DistComm
