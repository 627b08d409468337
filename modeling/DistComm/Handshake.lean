import DistComm.HandleRpc
import DistComm.NetlinkBounds
import DistComm.Slots

/-! # Handshakes

    `activate_and_listen` of the library sends the ids of the interfaces that a
    process manages, `count||[array of ids]`, and `handle_activate_interface` of the
    kernel activates the interfaces with these ids.  `Activated` is what a handshake
    is for; `handshake_activates` connects the library's packet with it.

    The kernel compares the length of the packet with `count + 1` words, a sum that
    wraps around for the greatest count: that one passes the check with any length,
    and `activatesInside_iff` says that nothing else goes wrong. -/

namespace DistComm

open RawMemory RawScan PointerArray TracedProgram

/-! ## The packet -/

/-- `count||[array of ids]`. -/
def handshakeEncoding (ids : List UInt32) : List UInt8 :=
  wordBytes (UInt32.ofNat ids.length) ++ ids.flatMap wordBytes

/-- The loop of `activate_and_listen`, from index `i` for `n` rounds. -/
def copyIds (managed : List Managed) :
    Nat → Nat → List UInt8 → Option (List UInt8)
  | _, 0, packet => some packet
  | i, n + 1, packet => do
      let interface ← managed[i]?
      let packet ← copyInto packet (4 * (i + 1)) (wordBytes interface.id)
      copyIds managed (i + 1) n packet

/-- The packet that `activate_and_listen` sends, in the block that `malloc` returned
    at `heap`; `count + 1` is computed in `uint32_t`. -/
def Lib.handshakePacket (heap : Mem) (managed : List Managed) (count : UInt32) :
    Option (List UInt8) := do
  let packet ← copyInto (slice heap 0 (4 * (count + 1).toNat)) 0 (wordBytes count)
  copyIds managed 0 count.toNat packet

/-- The rounds put the ids behind what is there. -/
theorem copyIds_append (managed : List Managed) (n i : Nat)
    (hn : i + n = managed.length) {done rest : List UInt8}
    (hdone : done.length = 4 * (i + 1)) (hrest : rest.length = 4 * n) :
    copyIds managed i n (done ++ rest)
      = some (done ++ ((managed.drop i).map Managed.id).flatMap wordBytes) := by
  induction n generalizing i done rest with
  | zero =>
      rw [List.length_eq_zero_iff.mp hrest, List.drop_eq_nil_of_le (by omega)]
      rfl
  | succ n ih =>
      have hi : i < managed.length := by omega
      rw [copyIds, List.getElem?_eq_getElem hi, Option.bind_eq_bind,
        Option.bind_some, ← hdone, copyInto_append done (by
          rw [length_wordBytes]
          omega), Option.bind_eq_bind, Option.bind_some]
      rw [ih (i + 1) (by omega)
        (by rw [List.length_append, hdone, length_wordBytes]; omega)
        (by rw [List.length_drop, hrest, length_wordBytes]; omega),
        List.drop_eq_getElem_cons hi, List.map_cons, List.flatMap_cons,
        List.append_assoc]

/-- **THE HANDSHAKE PACKET** holds the count and the ids, in order. -/
theorem Lib.handshakePacket_eq (heap : Mem) {managed : List Managed}
    (hcount : managed.length + 1 < 2 ^ 32) :
    Lib.handshakePacket heap managed (UInt32.ofNat managed.length)
      = some (handshakeEncoding (managed.map Managed.id)) := by
  have hword : (UInt32.ofNat managed.length).toNat = managed.length :=
    UInt32.toNat_ofNat_of_lt' (Nat.lt_trans (Nat.lt_succ_self _) hcount)
  have hsize : (slice heap 0
      (4 * (UInt32.ofNat managed.length + 1).toNat)).length
        = 4 * (managed.length + 1) := by
    rw [length_slice, toNat_succ (by rw [hword]; exact hcount), hword]
  have hfirst := @copyInto_append [] (wordBytes (UInt32.ofNat managed.length)) _
    (by rw [hsize, length_wordBytes]; omega)
  rw [List.nil_append, List.nil_append, List.length_nil] at hfirst
  rw [Lib.handshakePacket, hfirst, Option.bind_eq_bind, Option.bind_some, hword,
    copyIds_append managed _ 0 (Nat.zero_add _) rfl
      (by rw [List.length_drop, hsize, length_wordBytes]; omega),
    List.drop_zero, handshakeEncoding, List.length_map]

/-! ## What a handshake does -/

/-- `y` is `x`, activated for the port: two fields are assigned, the others are the
    same. -/
structure Interface.ActivatedAs (x : Interface) (portid : UInt32) (y : Interface) :
    Prop where
  activated : y.ctrl.activated = 1
  clientPortid : y.ctrl.clientPortid = portid
  socket : y.ctrl.socket = x.ctrl.socket
  bindPid : y.ctrl.bindPid = x.ctrl.bindPid
  procEntry : y.ctrl.procEntry = x.ctrl.procEntry
  advert : y.toAdvert = x.toAdvert
  info : y.info = x.info

/-- The assignments of the code do that, and nothing else does. -/
theorem Interface.activatedAs_iff {x y : Interface} {portid : UInt32} :
    x.ActivatedAs portid y ↔ y = x.activate portid := by
  constructor
  · rintro ⟨hactivated, hport, hsocket, hpid, hproc, hadvert, hinfo⟩
    obtain ⟨advert, ⟨activated, port, socket, pid, proc⟩, info⟩ := y
    simp only at hactivated hport hsocket hpid hproc hadvert hinfo
    rw [hactivated, hport, hsocket, hpid, hproc, hadvert, hinfo]
    rfl
  · rintro rfl
    exact ⟨rfl, rfl, rfl, rfl, rfl, rfl, rfl⟩

/-- The registered interfaces with these ids are activated for the port, and nothing
    else is different. -/
structure Activated (ids : List UInt32) (portid : UInt32) (k k' : Registry) :
    Prop where
  allocatedId : k'.allocatedId = k.allocatedId
  count : k'.interfaceCount = k.interfaceCount
  capacity : k'.interfaceCapacity = k.interfaceCapacity
  slots : k'.interfaceList.slots = k.interfaceList.slots
  next : k'.interfaceList.next = k.interfaceList.next
  registered : ∀ i p x, k.At i p x → ∃ y, k'.interfaceList.heap p = some y
    ∧ (x.id ∈ ids → x.ActivatedAs portid y) ∧ (x.id ∉ ids → y = x)
  others : ∀ p, (∀ i x, ¬ k.At i p x) →
    k'.interfaceList.heap p = k.interfaceList.heap p

/-- What a handshake makes of one interface. -/
theorem activateIds_iff {ids : List UInt32} {portid : UInt32} {x y : Interface} :
    (x.id ∈ ids → x.ActivatedAs portid y) ∧ (x.id ∉ ids → y = x)
      ↔ y = activateIds ids portid x := by
  rw [activateIds]
  by_cases hmem : x.id ∈ ids
  · rw [if_pos hmem, ← Interface.activatedAs_iff]
    exact ⟨fun h => h.1 hmem, fun h => ⟨fun _ => h, fun hno => absurd hmem hno⟩⟩
  · rw [if_neg hmem]
    exact ⟨fun h => h.2 hmem, fun h => ⟨fun h0 => absurd h0 hmem, fun _ => h⟩⟩

theorem Activated.heap {ids : List UInt32} {portid : UInt32} {k k' : Registry}
    (h : Activated ids portid k k') {i p : Nat} {x : Interface} (hx : k.At i p x) :
    k'.interfaceList.heap p = some (activateIds ids portid x) := by
  obtain ⟨y, hy, hids⟩ := h.registered i p x hx
  rw [hy, activateIds_iff.mp hids]

theorem Activated.slot {ids : List UInt32} {portid : UInt32} {k k' : Registry}
    (h : Activated ids portid k k') (i : Nat) :
    k'.interfaceList.slot i = k.interfaceList.slot i := by
  rw [Table.slot, Table.slot, h.slots]

/-- The slots afterwards. -/
theorem Activated.at {ids : List UInt32} {portid : UInt32} {k k' : Registry}
    (h : Activated ids portid k k') {i p : Nat} {x : Interface} (hx : k.At i p x) :
    k'.At i p (activateIds ids portid x) := by
  obtain ⟨hi, hderef⟩ := hx
  refine ⟨by rw [h.count]; exact hi, deref_eq_some.mpr ⟨?_, ?_⟩⟩
  · rw [h.slot]
    exact (deref_eq_some.mp hderef).1
  · exact h.heap ⟨hi, hderef⟩

/-- What was in a slot before. -/
theorem Activated.back {ids : List UInt32} {portid : UInt32} {k k' : Registry}
    (h : Activated ids portid k k') (hlive : k.Live) {i p : Nat} {y : Interface}
    (hy : k'.At i p y) : ∃ x, k.At i p x ∧ y = activateIds ids portid x := by
  have hlt := hy.1
  rw [h.count] at hlt
  obtain ⟨⟨q, x⟩, hx⟩ := hlive i hlt
  obtain ⟨rfl, rfl⟩ := hy.unique (h.at ⟨hlt, hx⟩)
  exact ⟨x, ⟨hlt, hx⟩, rfl⟩

theorem Activated.live {ids : List UInt32} {portid : UInt32} {k k' : Registry}
    (h : Activated ids portid k k') (hlive : k.Live) : k'.Live := by
  intro i hi
  rw [h.count] at hi
  obtain ⟨⟨p, x⟩, hx⟩ := hlive i hi
  exact ⟨_, (h.at ⟨hi, hx⟩).2⟩

theorem Activated.distinctIds {ids : List UInt32} {portid : UInt32}
    {k k' : Registry} (h : Activated ids portid k k') (hlive : k.Live)
    (hd : k.DistinctIds) : k'.DistinctIds := by
  intro i p x j q y hx hy hid
  obtain ⟨x0, hx0, rfl⟩ := h.back hlive hx
  obtain ⟨y0, hy0, rfl⟩ := h.back hlive hy
  rw [activateIds_id, activateIds_id] at hid
  exact hd i p x0 j q y0 hx0 hy0 hid

/-- Activating nothing. -/
theorem Activated.refl (portid : UInt32) (k : Registry) :
    Activated [] portid k k :=
  ⟨rfl, rfl, rfl, rfl, rfl,
    fun _ _ x hx => ⟨x, (deref_eq_some.mp hx.2).2,
      activateIds_iff.mpr (activateIds_nil portid x).symm⟩,
    fun _ _ => rfl⟩

/-- Activating one id and then others. -/
theorem Activated.trans {id : UInt32} {ids : List UInt32} {portid : UInt32}
    {k k1 k2 : Registry} (hlive : k.Live) (h1 : Activated [id] portid k k1)
    (h2 : Activated ids portid k1 k2) : Activated (id :: ids) portid k k2 where
  allocatedId := h2.allocatedId.trans h1.allocatedId
  count := h2.count.trans h1.count
  capacity := h2.capacity.trans h1.capacity
  slots := h2.slots.trans h1.slots
  next := h2.next.trans h1.next
  registered i p x hx := by
    refine ⟨_, h2.heap (h1.at hx), activateIds_iff.mpr ?_⟩
    rw [activateIds_cons]
  others p hp := by
    have hp1 : ∀ i x, ¬ k1.At i p x := by
      intro i y hy
      obtain ⟨x, hx, -⟩ := h1.back hlive hy
      exact hp i x hx
    rw [h2.others p hp1, h1.others p hp]

/-- **ONE RESULT**: what a handshake leaves depends on the set of the ids only. -/
theorem Activated.unique {ids ids' : List UInt32} {portid : UInt32}
    {k k1 k2 : Registry} (h1 : Activated ids portid k k1)
    (h2 : Activated ids' portid k k2) (hids : ∀ id, id ∈ ids ↔ id ∈ ids') :
    k1 = k2 := by
  have hsame : ∀ x, activateIds ids portid x = activateIds ids' portid x :=
    fun x => if_congr (hids x.id) rfl rfl
  have hheap : k1.interfaceList.heap = k2.interfaceList.heap := by
    funext p
    by_cases hp : ∃ i x, k.At i p x
    · obtain ⟨i, x, hx⟩ := hp
      rw [h1.heap hx, h2.heap hx, hsame]
    · have hno : ∀ i x, ¬ k.At i p x := fun i x hx => hp ⟨i, x, hx⟩
      rw [h1.others p hno, h2.others p hno]
  obtain ⟨a1, c1, n1, s1, p1, m1⟩ := k1
  obtain ⟨a2, c2, n2, s2, p2, m2⟩ := k2
  have halloc := h1.allocatedId.trans h2.allocatedId.symm
  have hcount := h1.count.trans h2.count.symm
  have hcap := h1.capacity.trans h2.capacity.symm
  have hslots := h1.slots.trans h2.slots.symm
  have hnext := h1.next.trans h2.next.symm
  simp only at halloc hcount hcap hslots hnext hheap
  rw [halloc, hcount, hcap, hslots, hnext, hheap]

/-! ## The kernel -/

/-- The inner loop activates the id at `pos`. -/
theorem activateOne_activated {k : Registry} (hlive : k.Live) (hd : k.DistinctIds)
    (m : Mem) (pos : Nat) (portid : UInt32) :
    ∃ k' t, activateOne m pos portid 0 k.interfaceCount.toNat k
        = ⟨some (), k', t⟩
      ∧ Activated [wordAt m pos] portid k k' := by
  obtain ⟨k', t, hrun, ⟨rfl, hno⟩ | ⟨i, p, x, hlt, hderef, hid, rfl⟩⟩ :=
    hlive.activateOne m pos portid
  · -- the id is unknown
    refine ⟨k', t, hrun, rfl, rfl, rfl, rfl, rfl, fun i p x hx => ?_, fun _ _ => rfl⟩
    refine ⟨x, (deref_eq_some.mp hx.2).2, fun hmem => ?_, fun _ => rfl⟩
    exact absurd (List.mem_singleton.mp hmem) (hno i p x hx.1 hx.2)
  · have hat : k.At i p x := ⟨hlt, hderef⟩
    refine ⟨k.assign p (x.activate portid), t, hrun, rfl, rfl, rfl, rfl, rfl,
      fun j q z hz => ?_, fun q hq => ?_⟩
    · by_cases hqp : q = p
      · subst hqp
        rw [hz.same hat]
        exact ⟨_, update_heap_self _ _ _, fun _ => Interface.activatedAs_iff.mpr rfl,
          fun hno => absurd (List.mem_singleton.mpr hid) hno⟩
      · -- another interface, hence another id
        have hother : z.id ∉ [wordAt m pos] := fun hmem =>
          hqp (hd j q z i p x hz hat ((List.mem_singleton.mp hmem).trans hid.symm))
        rw [assign_interfaceList, update_heap_ne _ _ hqp]
        exact ⟨z, (deref_eq_some.mp hz.2).2, fun hmem => absurd hmem hother, fun _ => rfl⟩
    · refine update_heap_ne _ _ fun hqp => ?_
      rw [hqp] at hq
      exact hq i x hat

/-- The outer loop activates the ids in the packet. -/
theorem activateAll_activated {k : Registry} (hlive : k.Live) (hd : k.DistinctIds)
    (m : Mem) (ids : Nat) (portid : UInt32) (n i : Nat) :
    ∃ k' t, activateAll m ids portid i n k = ⟨some (), k', t⟩
      ∧ Activated (wordsAt m (ids + 4 * i) n) portid k k' := by
  induction n generalizing i k with
  | zero => exact ⟨k, [], rfl, Activated.refl portid k⟩
  | succ n ih =>
      obtain ⟨k1, t1, hrun1, h1⟩ :=
        activateOne_activated hlive hd m (ids + 4 * i) portid
      obtain ⟨k2, t2, hrun2, h2⟩ := ih (h1.live hlive) (h1.distinctIds hlive hd)
        (i + 1)
      refine ⟨k2, t1 ++ t2, ?_, h1.trans hlive h2⟩
      rw [activateAll, run_getState_bind, run_bind_some hrun1, hrun2]
      rfl

/-- A packet with its ids inside is accepted, and its ids are activated. -/
theorem handleActivateInterface_activated {k : Registry} (hlive : k.Live)
    (hd : k.DistinctIds) {m : Mem} {packet : Nat} {ids : List UInt32}
    (hm : Holds m packet (handshakeEncoding ids)) {packetLength : UInt32}
    (hin : 4 * (ids.length + 1) ≤ packetLength.toNat) (portid : UInt32) :
    ∃ k' t, handleActivateInterface m packet packetLength portid k
        = ⟨some (), k', t⟩ ∧ Activated ids portid k k' := by
  have hlen := packetLength.toNat_lt
  obtain ⟨hcount, hids⟩ := holds_append.mp hm
  rw [length_wordBytes] at hids
  have hword : (wordAt m packet).toNat = ids.length := by
    rw [wordAt_of_holds hcount]
    exact UInt32.toNat_ofNat_of_lt' (show ids.length < 2 ^ 32 by omega)
  have hfour : ¬ packetLength < 4 := by
    rw [UInt32.lt_iff_toNat_lt]
    show ¬ packetLength.toNat < 4
    omega
  have hfits : ¬ packetLength.toNat < 4 * (wordAt m packet + 1).toNat := by
    rw [toNat_succ (by omega), hword]
    omega
  obtain ⟨k', t, hrun, hact⟩ := activateAll_activated hlive hd m (packet + 4) portid
    ids.length 0
  rw [Nat.mul_zero, Nat.add_zero, wordsAt_of_holds hids] at hact
  rw [handleActivateInterface_run, if_neg hfour, if_neg hfits, hword, hrun]
  exact ⟨k', _, rfl, hact⟩

/-- **HANDSHAKE**.  `activate_and_listen` sends the count and the ids of the managed
    interfaces.  After `handle_activate_interface` on a packet with its ids inside,
    whatever follows them, the interfaces with these ids are activated and nothing
    else has changed, and every packet with the same set of ids leaves the same
    registry. -/
theorem handshake_activates :
    (∀ (heap : Mem) (managed : List Managed), managed.length + 1 < 2 ^ 32 →
      Lib.handshakePacket heap managed (UInt32.ofNat managed.length)
        = some (handshakeEncoding (managed.map Managed.id)))
    ∧ ∀ (k : Registry) (m : Mem) (packet : Nat) (ids : List UInt32)
        (packetLength portid : UInt32),
      k.Live → k.DistinctIds → Holds m packet (handshakeEncoding ids) →
      4 * (ids.length + 1) ≤ packetLength.toNat →
      ∃ k' t, handleActivateInterface m packet packetLength portid k
          = ⟨some (), k', t⟩
        ∧ Activated ids portid k k'
        ∧ ∀ (m' : Mem) (packet' : Nat) (ids' : List UInt32)
            (packetLength' : UInt32),
          (∀ id, id ∈ ids' ↔ id ∈ ids) →
          Holds m' packet' (handshakeEncoding ids') →
          4 * (ids'.length + 1) ≤ packetLength'.toNat →
          (handleActivateInterface m' packet' packetLength' portid k).state = k' := by
  refine ⟨fun heap managed => Lib.handshakePacket_eq heap, ?_⟩
  intro k m packet ids packetLength portid hlive hd hm hin
  obtain ⟨k', t, hrun, hact⟩ :=
    handleActivateInterface_activated hlive hd hm hin portid
  refine ⟨k', t, hrun, hact, ?_⟩
  intro m' packet' ids' packetLength' hids hm' hin'
  obtain ⟨k1, t1, hrun1, hact1⟩ :=
    handleActivateInterface_activated hlive hd hm' hin' portid
  rw [hrun1]
  exact hact1.unique hact hids

theorem distinctIds_sole (x : Interface) : (Registry.sole x).DistinctIds := by
  intro i p y j q z hy hz _
  have hi : i = 0 := Nat.lt_one_iff.mp hy.1
  have hj : j = 0 := Nat.lt_one_iff.mp hz.1
  subst hi hj
  exact (hy.unique hz).1

/-- An unknown id, and a known one twice. -/
theorem handshake_activates_repeated :
    ∃ k' t, handleActivateInterface
        (overlay (handshakeEncoding [7, 1, 1] ++ [255]) fun _ => 0) 0 17 42
        (Registry.sole (UserInterface.bare.registered 1 7 none))
        = ⟨some (), k', t⟩
      ∧ ∃ y, k'.interfaceList.heap 0 = some y
        ∧ (UserInterface.bare.registered 1 7 none).ActivatedAs 42 y := by
  obtain ⟨k', t, hrun, hact, -⟩ := handshake_activates.2
    (Registry.sole (UserInterface.bare.registered 1 7 none))
    (overlay (handshakeEncoding [7, 1, 1] ++ [255]) fun _ => 0) 0 [7, 1, 1] 17 42
    (traversable_sole _).live (distinctIds_sole _)
    (holds_overlay_append _ _ _).1 (by decide)
  obtain ⟨y, hy, hactivated, -⟩ := hact.registered 0 0 _ ⟨Nat.one_pos, rfl⟩
  exact ⟨k', t, hrun, y, hy, hactivated (by decide)⟩

/-! ## What the kernel reads of a handshake packet -/

/-- Whatever lies behind the packet, only its own bytes are read.  (A packet that is
    refused has its count read, if it is long enough to have one.) -/
def ActivatesInside (k : Registry) (b : List UInt8) : Prop :=
  ∀ (behind : Mem) (portid : UInt32),
    ∀ e ∈ (handleActivateInterface (overlay b behind) 0 (UInt32.ofNat b.length)
      portid k).trace, e.InPacket b.length

/-- **BOUNDS OF HANDSHAKES**: nothing but the packet is read, unless it begins with
    the count `2 ^ 32 - 1` and there are interfaces to compare ids with. -/
theorem activatesInside_iff {k : Registry} (hk : Traversable k) {b : List UInt8}
    (hlen : b.length < 2 ^ 32) :
    ActivatesInside k b ↔ k.interfaceCount = 0 ∨ ¬ wordBytes (-1) <+: b := by
  have hword : (UInt32.ofNat b.length).toNat = b.length :=
    UInt32.toNat_ofNat_of_lt' hlen
  have hfour : UInt32.ofNat b.length < 4 ↔ b.length < 4 := by
    rw [UInt32.lt_iff_toNat_lt, hword]
    exact Iff.rfl
  constructor
  · intro h
    by_contra hno
    obtain ⟨hne, hpre⟩ := not_or.mp hno
    rw [not_not] at hpre
    have hm := holds_overlay_of_isPrefix hpre fun _ => 0
    have hcount := wordAt_of_holds hm
    have hlong : 4 ≤ b.length := hpre.length_le
    -- the length check compares with 0, and the ids go on behind the packet
    have hread : (⟨0 + 4 + 4 * (b.length / 4), 4⟩ : Span).Within b.length := by
      refine h (fun _ => 0) 0 _ ((handshake_events hk _ 0 _ 0 _).mpr
        ⟨fun hlt => absurd (hfour.mp hlt) (by omega), Or.inr ⟨?_, hne,
          b.length / 4, ?_, rfl⟩⟩)
      · rw [hcount]
        exact Nat.not_lt_zero _
      · rw [hcount]
        show b.length / 4 < 4294967295
        omega
    rcases hread with h0 | hle
    · exact absurd h0 (Nat.succ_ne_zero 3)
    · have hle' : 0 + 4 + 4 * (b.length / 4) + 4 ≤ b.length := hle
      omega
  · intro h behind portid e he
    obtain ⟨hshort, he⟩ := (handshake_events hk _ 0 _ portid e).mp he
    rw [hfour] at hshort
    have hlong : 4 ≤ b.length := Nat.le_of_not_lt hshort
    rcases he with rfl | ⟨hcheck, hne, j, hj, rfl⟩
    · exact Or.inr hlong
    · have hwrap : wordAt (overlay b behind) 0 ≠ -1 := by
        intro hwrap
        have hm := holds_wordAt (overlay b behind) 0
        rw [hwrap] at hm
        exact h.resolve_left hne (isPrefix_of_holds hm hlong)
      have hlt : (wordAt (overlay b behind) 0).toNat + 1 < 2 ^ 32 := by
        have hmax := (wordAt (overlay b behind) 0).toNat_lt
        have hne' : (wordAt (overlay b behind) 0).toNat ≠ 4294967295 :=
          fun heq => hwrap (UInt32.toNat_inj.mp heq)
        omega
      rw [hword, toNat_succ hlt] at hcheck
      exact Or.inr (by show 0 + 4 + 4 * j + 4 ≤ b.length; omega)

/-- A packet that is refused: three ids announced, one sent. -/
theorem activatesInside_short :
    ActivatesInside (Registry.sole (UserInterface.bare.registered 1 7 none))
      [3, 0, 0, 0, 1, 0, 0, 0] :=
  (activatesInside_iff (traversable_sole _) (by decide)).mpr (Or.inr (by decide))

/-- Four bytes, all 255: the check passes, and the kernel compares the id of its
    interface with the words behind the packet. -/
theorem handshake_of_all_ones :
    ¬ ActivatesInside (Registry.sole (UserInterface.bare.registered 1 7 none))
      [255, 255, 255, 255] := by
  intro h
  have hread : (⟨0 + 4 + 4 * 0, 4⟩ : Span).Within 4 := by
    refine h (fun _ => 0) 0 _ ((handshake_events (traversable_sole _) _ 0 _ 0 _).mpr
      ⟨by decide, Or.inr ⟨by decide, by decide, 0, by decide, rfl⟩⟩)
  revert hread
  decide

end DistComm
