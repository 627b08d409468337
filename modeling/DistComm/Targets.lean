import DistComm.PointerArray

/-! # Broadcast targets

    The collecting half of `broadcast_loop` in `module/network/broadcast.c`: two
    nested traversals fill an array on the stack with the addresses to which
    `do_broadcast` announces.  A round is `none` where it follows the `ip_ptr` of a
    device that has no IPv4 configuration, or writes behind the array.

    The outer traversal is one over the addresses of all configured devices
    (`collectDevices_eq`), and this one fills the array in order for as long as there
    is room (`collectAddresses_run`). -/

namespace DistComm

open PointerArray

/-- `struct in_ifaddr`. -/
structure Ifaddr where
  address : UInt32
  mask : UInt32
  broadcast : UInt32

/-- `struct net_device`: its name, and the addresses of its IPv4 configuration;
    `ip_ptr` may be NULL. -/
structure NetDevice where
  name : List UInt8
  ipPtr : Option (List Ifaddr)

/-- The length of `broadcast` in `broadcast_loop`. -/
def BROADCAST_LENGTH : Nat := 256

/-- `broadcast` and `count` of `broadcast_loop`. -/
structure Targets where
  broadcast : Vector UInt32 BROADCAST_LENGTH
  count : Nat

/-- `broadcast[count] = target;`, inside the array. -/
def Targets.assign (t : Targets) (target : UInt32) : Option Targets :=
  if h : t.count < BROADCAST_LENGTH then
    some { t with broadcast := t.broadcast.set t.count target }
  else none

/-- The body of the inner loop. -/
def collectAddress (t : Targets) (ifa : Ifaddr) : Option Targets := do
  let t ← t.assign ifa.broadcast
  let t ← if ifa.broadcast = 0 then
      t.assign ((ifa.address &&& ifa.mask) ||| ~~~ifa.mask)
    else some t
  some { t with count := t.count + 1 }

/-- The inner loop. -/
def collectAddresses (t : Targets) (ifas : List Ifaddr) : Option Targets :=
  ifas.foldlM collectAddress t

/-- The body of the outer loop; 0x6c, 0x6f is "lo". -/
def collectDevice (t : Targets) (dev : NetDevice) : Option Targets :=
  if dev.name.take 2 ≠ [0x6c, 0x6f] then do
    let ifas ← dev.ipPtr
    collectAddresses t ifas
  else some t

/-- The outer loop. -/
def collectDevices (t : Targets) (devices : List NetDevice) : Option Targets :=
  devices.foldlM collectDevice t

/-- One round of `broadcast_loop`: the addresses that `do_broadcast` is called with,
    in order.  The array keeps what earlier rounds left in it. -/
def broadcastLoop (broadcast : Vector UInt32 BROADCAST_LENGTH)
    (devices : List NetDevice) : Option (List UInt32) := do
  let t ← collectDevices ⟨broadcast, 0⟩ devices
  readFrom (fun i => t.broadcast[i]?) 0 t.count

/-! ## What should be collected -/

/-- The name starts with "lo". -/
def NetDevice.Loopback (dev : NetDevice) : Prop := [0x6c, 0x6f] <+: dev.name

instance (dev : NetDevice) : Decidable dev.Loopback :=
  inferInstanceAs (Decidable (_ <+: _))

/-- The addresses of the devices that are not loopback devices, in order. -/
def addressesOf (devices : List NetDevice) : List Ifaddr :=
  devices.flatMap fun dev => if dev.Loopback then [] else dev.ipPtr.getD []

/-- The configured broadcast address or, where there is none, the address with the
    network bits of the interface and all host bits set. -/
def Ifaddr.HasTarget (ifa : Ifaddr) (target : UInt32) : Prop :=
  if ifa.broadcast = 0 then
    ∀ i, i < 32 → target.toBitVec.getLsbD i
      = (!ifa.mask.toBitVec.getLsbD i || ifa.address.toBitVec.getLsbD i)
  else target = ifa.broadcast

/-- The round stays inside its array and the configurations there are, and collects
    the target of every address in order. -/
def CollectsTargets (broadcast : Vector UInt32 BROADCAST_LENGTH)
    (devices : List NetDevice) : Prop :=
  ∃ targets, broadcastLoop broadcast devices = some targets
    ∧ List.Forall₂ Ifaddr.HasTarget (addressesOf devices) targets

/-- Every device that is not a loopback device has an IPv4 configuration. -/
def AllConfigured (devices : List NetDevice) : Prop :=
  ∀ dev ∈ devices, ¬ dev.Loopback → dev.ipPtr ≠ none

/-! ## One address -/

/-- The target that the body of the inner loop stores. -/
def Ifaddr.target (ifa : Ifaddr) : UInt32 :=
  if ifa.broadcast = 0 then (ifa.address &&& ifa.mask) ||| ~~~ifa.mask
  else ifa.broadcast

theorem Ifaddr.hasTarget (ifa : Ifaddr) : ifa.HasTarget ifa.target := by
  rw [Ifaddr.HasTarget, Ifaddr.target]
  by_cases h : ifa.broadcast = 0
  · rw [if_pos h, if_pos h]
    intro i hi
    have hbits : (((ifa.address &&& ifa.mask) ||| ~~~ifa.mask).toBitVec).getLsbD i
        = ((ifa.address.toBitVec.getLsbD i && ifa.mask.toBitVec.getLsbD i)
          || !ifa.mask.toBitVec.getLsbD i) := by
      simp [BitVec.getElem_or, hi]
    rw [hbits]
    cases ifa.mask.toBitVec.getLsbD i with
    | false => rw [Bool.and_false]; rfl
    | true => rw [Bool.and_true, Bool.not_true, Bool.or_false, Bool.false_or]
  · rw [if_neg h, if_neg h]

/-- The first `count` entries of the array are `targets`. -/
structure Targets.Lists (t : Targets) (targets : List UInt32) : Prop where
  count : t.count = targets.length
  entries : t.broadcast.toList.take t.count = targets

theorem Targets.assign_some {t : Targets} (h : t.count < BROADCAST_LENGTH)
    (target : UInt32) :
    t.assign target = some ⟨t.broadcast.set t.count target, t.count⟩ := dif_pos h

theorem Targets.assign_none {t : Targets} (h : ¬ t.count < BROADCAST_LENGTH)
    (target : UInt32) : t.assign target = none := dif_neg h

/-- Storing behind the targets appends one. -/
theorem Targets.Lists.store {t : Targets} {targets : List UInt32}
    (h : t.Lists targets) (hroom : t.count < BROADCAST_LENGTH) (target : UInt32) :
    Targets.Lists ⟨t.broadcast.set t.count target, t.count + 1⟩
      (targets ++ [target]) where
  count := by
    show t.count + 1 = _
    rw [List.length_append, h.count]
    rfl
  entries := by
    have hlen : t.broadcast.toList.length = BROADCAST_LENGTH := by simp
    rw [Vector.toList_set, List.take_add_one, List.take_set_of_le (Nat.le_refl _),
      h.entries, List.getElem?_set_self (by rw [hlen]; exact hroom)]
    rfl

/-- **ONE ADDRESS**: its target is stored behind the others if there is room. -/
theorem collectAddress_run {t : Targets} {targets : List UInt32}
    (h : t.Lists targets) (ifa : Ifaddr) :
    (t.count < BROADCAST_LENGTH ∧ ∃ t', collectAddress t ifa = some t'
        ∧ t'.Lists (targets ++ [ifa.target]))
      ∨ ¬ t.count < BROADCAST_LENGTH ∧ collectAddress t ifa = none := by
  by_cases hroom : t.count < BROADCAST_LENGTH
  · refine Or.inl ⟨hroom, ⟨t.broadcast.set t.count ifa.target, t.count + 1⟩, ?_,
      h.store hroom ifa.target⟩
    rw [collectAddress, Targets.assign_some hroom, Ifaddr.target]
    by_cases hzero : ifa.broadcast = 0
    · -- the fallback is written over the configured address
      rw [if_pos hzero]
      simp only [Option.bind_eq_bind, Option.bind_some, if_pos hzero]
      have hfallback := Targets.assign_some
        (t := ⟨t.broadcast.set t.count ifa.broadcast, t.count⟩) hroom
        ((ifa.address &&& ifa.mask) ||| ~~~ifa.mask)
      rw [hfallback, Option.bind_some, Vector.set_set]
    · rw [if_neg hzero]
      simp only [Option.bind_eq_bind, Option.bind_some, if_neg hzero]
  · refine Or.inr ⟨hroom, ?_⟩
    rw [collectAddress, Targets.assign_none hroom]
    rfl

/-! ## All addresses -/

/-- **THE INNER LOOP** fills the array in order, or leaves it. -/
theorem collectAddresses_run (ifas : List Ifaddr) {t : Targets}
    {targets : List UInt32} (h : t.Lists targets) (hle : t.count ≤ BROADCAST_LENGTH) :
    (t.count + ifas.length ≤ BROADCAST_LENGTH
        ∧ ∃ t', collectAddresses t ifas = some t'
          ∧ t'.Lists (targets ++ ifas.map Ifaddr.target))
      ∨ ¬ t.count + ifas.length ≤ BROADCAST_LENGTH
        ∧ collectAddresses t ifas = none := by
  induction ifas generalizing t targets with
  | nil =>
      refine Or.inl ⟨hle, t, rfl, ?_⟩
      rw [List.map_nil, List.append_nil]
      exact h
  | cons ifa ifas ih =>
      rw [collectAddresses, List.foldlM_cons, List.length_cons]
      rcases collectAddress_run h ifa with ⟨hroom, t1, ht1, h1⟩ | ⟨hroom, hnone⟩
      · have hcount : t1.count = t.count + 1 := by
          rw [h1.count, List.length_append, h.count]
          rfl
        rw [ht1, Option.bind_eq_bind, Option.bind_some, List.map_cons,
          List.append_cons]
        rcases ih h1 (by omega) with ⟨hfit, t', ht', h'⟩ | ⟨hfit, hnone⟩
        · exact Or.inl ⟨by omega, t', ht', h'⟩
        · exact Or.inr ⟨by omega, hnone⟩
      · rw [hnone]
        exact Or.inr ⟨by omega, rfl⟩

theorem loopback_iff (dev : NetDevice) :
    dev.Loopback ↔ dev.name.take 2 = [0x6c, 0x6f] := by
  rw [NetDevice.Loopback, List.prefix_iff_eq_take]
  exact eq_comm

/-- The two loops are one where all devices are configured. -/
theorem collectDevices_eq {devices : List NetDevice} (h : AllConfigured devices)
    (t : Targets) :
    collectDevices t devices = collectAddresses t (addressesOf devices) := by
  induction devices generalizing t with
  | nil => rfl
  | cons dev devices ih =>
      obtain ⟨hdev, hrest⟩ := List.forall_mem_cons.mp h
      rw [collectDevices, List.foldlM_cons, addressesOf, List.flatMap_cons,
        collectAddresses, List.foldlM_append, collectDevice]
      by_cases hlo : dev.Loopback
      · rw [if_pos hlo, if_neg (not_not_intro ((loopback_iff dev).mp hlo))]
        exact ih hrest t
      · obtain ⟨ifas, hifas⟩ := Option.ne_none_iff_exists'.mp (hdev hlo)
        rw [if_neg hlo, if_pos fun heq => hlo ((loopback_iff dev).mpr heq), hifas]
        exact congrArg (Option.bind (collectAddresses t ifas)) (funext (ih hrest))

/-- A device without configuration stops the round. -/
theorem collectDevices_none {devices : List NetDevice}
    (h : ¬ AllConfigured devices) (t : Targets) :
    collectDevices t devices = none := by
  induction devices generalizing t with
  | nil => exact absurd (fun _ hdev => absurd hdev List.not_mem_nil) h
  | cons dev devices ih =>
      rw [collectDevices, List.foldlM_cons]
      by_cases hdev : ¬ dev.Loopback → dev.ipPtr ≠ none
      · have hrest : ¬ AllConfigured devices := fun hrest =>
          h (List.forall_mem_cons.mpr ⟨hdev, hrest⟩)
        cases collectDevice t dev with
        | none => rfl
        | some t1 => exact ih hrest t1
      · obtain ⟨hlo, hnone⟩ := Classical.not_imp.mp hdev
        rw [collectDevice, if_pos fun heq => hlo ((loopback_iff dev).mpr heq),
          not_not.mp hnone]
        rfl

/-- What is listed is what `do_broadcast` is called with. -/
theorem Targets.Lists.read {t : Targets} {targets : List UInt32}
    (h : t.Lists targets) :
    readFrom (fun i => t.broadcast[i]?) 0 t.count = some targets := by
  have hget : ∀ i, i < t.count → t.broadcast[i]? = targets[i]? := by
    intro i hi
    rw [← h.entries, List.getElem?_take_of_lt hi, Vector.getElem?_toList]
  have hread : Readable (fun i => t.broadcast[i]?) t.count := by
    intro i hi
    have hlt : i < targets.length := by
      rw [← h.count]
      exact hi
    exact ⟨targets[i], (hget i hi).trans (List.getElem?_eq_getElem hlt)⟩
  obtain ⟨bs, hbs, hlen, hentry⟩ := hread.readFrom
  rw [hbs]
  refine congrArg some (List.ext_getElem? fun i => ?_)
  by_cases hi : i < t.count
  · exact (hentry i hi).trans (hget i hi)
  · have hcount := h.count
    rw [List.getElem?_eq_none (by omega), List.getElem?_eq_none (by omega)]

theorem forall₂_target (ifas : List Ifaddr) :
    List.Forall₂ Ifaddr.HasTarget ifas (ifas.map Ifaddr.target) :=
  List.forall₂_map_right_iff.mpr (List.forall₂_same.mpr fun ifa _ => ifa.hasTarget)

/-- A round that collects its targets has followed the `ip_ptr` of every device. -/
theorem CollectsTargets.configured {broadcast : Vector UInt32 BROADCAST_LENGTH}
    {devices : List NetDevice} (h : CollectsTargets broadcast devices) :
    AllConfigured devices := by
  by_contra hall
  rw [CollectsTargets, broadcastLoop, collectDevices_none hall] at h
  obtain ⟨targets, htargets, -⟩ := h
  cases htargets

/-- **BROADCAST TARGETS** are collected exactly if every device but the loopback
    devices has an IPv4 configuration, and these have no more addresses than the
    array has room for. -/
theorem collects_targets_iff (broadcast : Vector UInt32 BROADCAST_LENGTH)
    (devices : List NetDevice) :
    CollectsTargets broadcast devices
      ↔ AllConfigured devices ∧ (addressesOf devices).length ≤ BROADCAST_LENGTH := by
  have hempty : Targets.Lists ⟨broadcast, 0⟩ [] := ⟨rfl, rfl⟩
  by_cases hall : AllConfigured devices
  · rw [CollectsTargets, broadcastLoop, collectDevices_eq hall]
    rcases collectAddresses_run (addressesOf devices) hempty (Nat.zero_le _)
      with ⟨hfit, t, ht, hlists⟩ | ⟨hfit, hnone⟩
    · rw [Nat.zero_add] at hfit
      rw [ht, Option.bind_eq_bind, Option.bind_some, hlists.read]
      exact ⟨fun _ => ⟨hall, hfit⟩, fun _ => ⟨_, rfl, forall₂_target _⟩⟩
    · rw [Nat.zero_add] at hfit
      rw [hnone]
      refine ⟨?_, fun h => absurd h.2 hfit⟩
      rintro ⟨targets, htargets, -⟩
      cases htargets
  · exact ⟨fun h => absurd h.configured hall, fun h => absurd h.1 hall⟩

/-- A network device without addresses, as the kernel creates it. -/
def NetDevice.plain : NetDevice := ⟨[0x65, 0x74, 0x68, 0x30], none⟩

/-- A device without IPv4 configuration stops the round. -/
theorem unconfigured_device :
    ¬ ∀ (broadcast : Vector UInt32 BROADCAST_LENGTH) (devices : List NetDevice),
      CollectsTargets broadcast devices := by
  intro hall
  have hconfigured := (hall (.replicate BROADCAST_LENGTH 0) [.plain]).configured
  exact hconfigured .plain (List.mem_singleton_self _) (by decide) rfl

end DistComm
