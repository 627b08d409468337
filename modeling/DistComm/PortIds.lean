import Mathlib.Data.List.Basic

/-! # Port ids

    `get_portid` of `lib/src/netlink.c` makes the netlink port of a process from its
    pid, in the upper half, and the address of the calling thread.  A user-space
    address has up to 47 bits, of which 31 are left behind the shift, so that the
    upper 15 of them lie over the pid.  Two processes whose thread addresses cover
    the bits in which their pids differ get the same port, and the second of them
    cannot bind it (`port_ids_separate_iff`). -/

namespace DistComm

/-- `get_portid`, from `getpid()`, which is an `int`, and `pthread_self()`, which is
    an `unsigned long`. -/
def getPortid (pid : Int32) (self : UInt64) : UInt32 :=
  ((pid <<< 16).toInt64.toUInt64 ||| (self >>> 16)).toUInt32

/-- The `bind` of `init_netlink_client`: it fails if another socket has the port.
    The ports in use are given, and those in use afterwards returned. -/
def initNetlinkClient (bound : List UInt32) (portid : UInt32) :
    Option (List UInt32) :=
  if portid ∈ bound then none else some (portid :: bound)

/-- A client process, with a pid of 16 bits, and the thread that calls
    `activate_and_listen`, at an address of 47 bits. -/
structure Client where
  pid : Int32
  self : UInt64
  pid_pos : 0 < pid
  pid_lt : pid < 0x10000
  self_lt : self < 0x800000000000

/-- `PORTID` of `activate_and_listen`. -/
def Client.portid (c : Client) : UInt32 := getPortid c.pid c.self

/-- A bit of the pid. -/
def Client.pidBit (c : Client) (i : Nat) : Bool := c.pid.toBitVec.getLsbD i

/-- A bit of the thread address. -/
def Client.selfBit (c : Client) (i : Nat) : Bool := c.self.toBitVec.getLsbD i

/-- The ports of two clients differ, each has the pid in its upper half, and neither
    client's `bind` fails because of the other. -/
structure Separate (c d : Client) : Prop where
  different : c.portid ≠ d.portid
  upper : c.portid >>> 16 = c.pid.toUInt32 ∧ d.portid >>> 16 = d.pid.toUInt32
  binds : ∀ bound,
    (initNetlinkClient (c.portid :: bound) d.portid = none
      → initNetlinkClient bound d.portid = none)
    ∧ (initNetlinkClient (d.portid :: bound) c.portid = none
      → initNetlinkClient bound c.portid = none)

/-- The part of the thread address that lies over the pid has no bit that the pid
    does not have. -/
def Client.Spared (c : Client) : Prop :=
  ∀ i, i < 16 → c.selfBit (32 + i) = true → c.pidBit i = true

instance (c : Client) : Decidable c.Spared :=
  inferInstanceAs (Decidable (∀ i, i < 16 → _))

/-- The thread addresses differ in bits 16 to 31, or the pids do where no thread
    address covers them. -/
def Client.Apart (c d : Client) : Prop :=
  (∃ i, i < 16 ∧ c.selfBit (16 + i) ≠ d.selfBit (16 + i))
    ∨ ∃ i, i < 16
      ∧ (c.pidBit i || c.selfBit (32 + i)) ≠ (d.pidBit i || d.selfBit (32 + i))

/-! ## The bits of a port id -/

theorem getPortid_bit (pid : Int32) (self : UInt64) {i : Nat} (hi : i < 32) :
    (getPortid pid self).toBitVec.getLsbD i
      = (!decide (i < 16) && pid.toBitVec.getLsbD (i - 16)
          || self.toBitVec.getLsbD (16 + i)) := by
  have hlong : i < 64 := Nat.lt_trans hi (by decide)
  have hshift : i - 16 < 32 := by omega
  have hsign : (BitVec.signExtend 64 (pid.toBitVec <<< 16))[i]
      = (!decide (i < 16) && pid.toBitVec.getLsbD (i - 16)) := by
    rw [BitVec.getElem_signExtend, dif_pos hi, BitVec.getElem_shiftLeft,
      BitVec.getLsbD_eq_getElem hshift]
  simp [getPortid, hi, hlong, hsign, BitVec.getLsbD_eq_getElem hshift]

/-- The lower half is bits 16 to 31 of the thread address. -/
theorem Client.portid_lower (c : Client) {i : Nat} (hi : i < 16) :
    c.portid.toBitVec.getLsbD i = c.selfBit (16 + i) := by
  rw [Client.portid, getPortid_bit _ _ (Nat.lt_trans hi (by decide))]
  simp [hi, Client.selfBit]

/-- The upper half is the pid, and over it bits 32 to 47 of the thread address. -/
theorem Client.portid_upper (c : Client) {i : Nat} (hi : i < 16) :
    c.portid.toBitVec.getLsbD (16 + i)
      = (c.pidBit i || c.selfBit (32 + i)) := by
  have hsum : 16 + (16 + i) = 32 + i := by omega
  have hge : ¬ 16 + i < 16 := by omega
  rw [Client.portid, getPortid_bit _ _ (by omega), hsum]
  simp [hge, Client.pidBit, Client.selfBit]

/-- Equal words have equal halves, bit by bit. -/
theorem word_eq_iff (x y : UInt32) :
    x = y ↔ (∀ i, i < 16 → x.toBitVec.getLsbD i = y.toBitVec.getLsbD i)
      ∧ ∀ i, i < 16 →
        x.toBitVec.getLsbD (16 + i) = y.toBitVec.getLsbD (16 + i) := by
  constructor
  · rintro rfl
    exact ⟨fun _ _ => rfl, fun _ _ => rfl⟩
  · rintro ⟨hlower, hupper⟩
    apply UInt32.toBitVec_inj.mp
    apply BitVec.eq_of_getLsbD_eq
    intro i hi
    by_cases hhalf : i < 16
    · exact hlower i hhalf
    · have hshift := hupper (i - 16) (by omega)
      have hsum : 16 + (i - 16) = i := by omega
      rwa [hsum] at hshift

/-- A pid has no bits in the upper half of its word. -/
theorem Client.pidBit_high (c : Client) {i : Nat} (hi : 16 ≤ i) :
    c.pidBit i = false := by
  have hpos : 0 < c.pid.toInt := Int32.lt_iff_toInt_lt.mp c.pid_pos
  have hlt : c.pid.toInt < 2 ^ 16 := Int32.lt_iff_toInt_lt.mp c.pid_lt
  have hnat : c.pid.toBitVec.toNat < 2 ^ 16 := by
    have hint : c.pid.toInt = c.pid.toBitVec.toInt := rfl
    rw [hint, BitVec.toInt_eq_toNat_cond] at hpos hlt
    split at hpos
    · omega
    · omega
  exact Nat.testBit_lt_two_pow (Nat.lt_of_lt_of_le hnat
    (Nat.pow_le_pow_right (by decide) hi))

/-- The shift moves the upper half down. -/
theorem shiftRight_bit (x : UInt32) (i : Nat) :
    (x >>> 16).toBitVec.getLsbD i = x.toBitVec.getLsbD (16 + i) := by
  simp

/-- **THE PID IS UNDISTURBED** exactly if the thread address spares it. -/
theorem Client.upper_iff (c : Client) :
    c.portid >>> 16 = c.pid.toUInt32 ↔ c.Spared := by
  have hpid : ∀ i, c.pid.toUInt32.toBitVec.getLsbD i = c.pidBit i := fun _ => rfl
  rw [word_eq_iff]
  constructor
  · rintro ⟨hlower, -⟩ i hi hself
    have hbit := hlower i hi
    rw [shiftRight_bit, c.portid_upper hi, hpid, hself, Bool.or_true] at hbit
    exact hbit.symm
  · intro hspared
    refine ⟨fun i hi => ?_, fun i hi => ?_⟩
    · rw [shiftRight_bit, c.portid_upper hi, hpid]
      cases hself : c.selfBit (32 + i) with
      | false => exact Bool.or_false _
      | true => rw [hspared i hi hself, Bool.or_true]
    · rw [shiftRight_bit, hpid, c.pidBit_high (Nat.le_add_right 16 i)]
      exact BitVec.getLsbD_of_ge _ _ (by omega)

/-- **DIFFERENT PORTS**: bits 16 to 31 of the thread addresses, and what lies in the
    upper halves. -/
theorem Client.portid_ne_iff (c d : Client) : c.portid ≠ d.portid ↔ c.Apart d := by
  rw [ne_eq, word_eq_iff, not_and_or, Client.Apart]
  simp only [not_forall, exists_prop]
  refine or_congr (exists_congr fun i => and_congr_right fun hi => ?_)
    (exists_congr fun i => and_congr_right fun hi => ?_)
  · rw [c.portid_lower hi, d.portid_lower hi]
  · rw [c.portid_upper hi, d.portid_upper hi]

/-- A port that is not in the way of another one. -/
theorem initNetlinkClient_other {portid other : UInt32} (h : other ≠ portid)
    {bound : List UInt32}
    (hnone : initNetlinkClient (other :: bound) portid = none) :
    initNetlinkClient bound portid = none := by
  rw [initNetlinkClient] at hnone ⊢
  by_cases hmem : portid ∈ bound
  · exact if_pos hmem
  · have hnot : portid ∉ other :: bound := by
      rw [List.mem_cons, not_or]
      exact ⟨Ne.symm h, hmem⟩
    rw [if_neg hnot] at hnone
    cases hnone

/-- Pids that are spared keep the ports apart. -/
theorem Client.separate {c d : Client} (h : c.pid ≠ d.pid) (hc : c.Spared)
    (hd : d.Spared) : Separate c d := by
  have hupper := c.upper_iff.mpr hc
  have hupper' := d.upper_iff.mpr hd
  have hne : c.portid ≠ d.portid := by
    intro heq
    rw [heq, hupper'] at hupper
    exact h (congrArg UInt32.toInt32 hupper.symm)
  exact ⟨hne, ⟨hupper, hupper'⟩,
    fun _ => ⟨initNetlinkClient_other hne, initNetlinkClient_other (Ne.symm hne)⟩⟩

/-- **PORT IDS** separate two processes, with their pids in the upper halves, exactly
    if both thread addresses spare the pid; they are different exactly if the thread
    addresses differ in the lower half, or the upper halves do. -/
theorem port_ids_separate_iff {c d : Client} (h : c.pid ≠ d.pid) :
    (Separate c d ↔ c.Spared ∧ d.Spared) ∧ (c.portid ≠ d.portid ↔ c.Apart d) := by
  refine ⟨⟨fun hsep => ?_, fun hspared => Client.separate h hspared.1 hspared.2⟩,
    c.portid_ne_iff d⟩
  exact ⟨c.upper_iff.mp hsep.upper.1, d.upper_iff.mp hsep.upper.2⟩

/-- A process, and a thread at an address whose upper part is 0x7f03. -/
def Client.mapped (pid : Int32) (hpos : 0 < pid) (hlt : pid < 0x10000) : Client :=
  ⟨pid, 0x7f0312340000, hpos, hlt, by decide⟩

/-- Two processes whose pids have all bits of 0x7f03. -/
theorem port_ids_separate_iff_spared :
    Separate (.mapped 0x7f03 (by decide) (by decide))
      (.mapped 0x7f07 (by decide) (by decide)) :=
  (port_ids_separate_iff (by decide)).1.mpr ⟨by decide, by decide⟩

/-- The processes 1 and 2, with a thread at the same address in both: one port for
    both of them. -/
theorem ports_collide :
    ¬ ∀ c d : Client, c.pid ≠ d.pid → Separate c d := by
  intro hall
  have hsep := hall (.mapped 1 (by decide) (by decide))
    (.mapped 2 (by decide) (by decide)) (by decide)
  exact hsep.different (by decide)

end DistComm
