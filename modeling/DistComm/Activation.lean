import DistComm.Service
import DistComm.Slots

/-! # Who gets the requests

    The registry with the calls that change it, requests and results in any order.
    `last` is history: the port of the latest activation of each id since it was
    given out.  The kernel keeps the same in `activated` and `client_portid`
    (`Owned.Invariant`), as long as no id is given out again while an interface
    has it.

    `execute_interface` looks at the port only.  A request goes to the owner of its
    interface exactly if the interface is activated or the request goes nowhere
    (`requests_owned_iff`); otherwise it goes to port 0, the kernel's own. -/

namespace DistComm

open RawMemory RawScan PointerArray TracedProgram Transition

/-- The registry, and the port of the latest activation of each id. -/
structure Owned where
  registry : Registry
  last : UInt32 → Option UInt32

def Owned.initial : Owned := ⟨Registry.initial, fun _ => none⟩

/-- What the kernel does: a call on the registry, a request that `execute_interface`
    is called with, a result that `handle_interface_result` is called with. -/
inductive KernelCall where
  | call (c : RegistryCall)
  | execute (env : Env) (m : Mem) (packetLength : UInt32) (sock : Option SockId)
  | result (env : Env) (m : Mem) (packet : Nat) (packetLength portid : UInt32)

/-- The latest activations after a call: a new id has none, and an activation is
    the latest for the ids in its packet. -/
def lastAfter (k : Registry) (last : UInt32 → Option UInt32) :
    RegistryCall → UInt32 → Option UInt32
  | .register .., id => if id = k.allocatedId then none else last id
  | .remove _, id => last id
  | .activate m packetLength portid, id =>
      if id ∈ requestedIds m 0 packetLength then some portid else last id

/-- One call, request or result; `none` where it faults. -/
def Owned.step (s : Owned) : KernelCall → Option Owned
  | .call c =>
      (s.registry.step c).map fun k => ⟨k, lastAfter s.registry s.last c⟩
  | .execute env m packetLength sock =>
      let o := executeInterface env m packetLength sock s.registry
      o.ret.map fun _ => { s with registry := o.state }
  | .result env m packet packetLength portid =>
      let o := handleInterfaceResult env m packet packetLength portid s.registry
      o.ret.map fun _ => { s with registry := o.state }

/-- A registration does not give out the id of a registered interface. -/
def FreshId (s : Owned) : KernelCall → Prop
  | .call (.register ..) =>
      ∀ i p x, s.registry.At i p x → x.id ≠ s.registry.allocatedId
  | _ => True

/-- What a request should do, whatever the calls it makes return: nothing is sent
    to a process but to the port of the latest activation of the interface, and
    where the interface is registered and was never activated, the request is
    refused and nothing is sent at all. -/
structure Owned.Serves (s : Owned) (m : Mem) : Prop where
  owner : ∀ env packetLength sock port message, (port, message) ∈ unicasts
    (executeInterface env m packetLength sock s.registry).trace →
      s.last (wordAt m 0) = some port
  refusal : wordAt m 0 ≠ 0 → s.last (wordAt m 0) = none →
    (∃ i p x, s.registry.At i p x ∧ x.id = wordAt m 0) →
      ∀ env packetLength sock, ∃ err,
        (executeInterface env m packetLength sock s.registry).ret = some err
          ∧ err < 0
          ∧ unicasts (executeInterface env m packetLength sock s.registry).trace
            = []
          ∧ sends (executeInterface env m packetLength sock s.registry).trace = []

/-- The packet is a description query, or the interface that `find_interface` finds
    for it is activated. -/
def Owned.Addressed (s : Owned) (m : Mem) : Prop :=
  wordAt m 0 ≠ 0 → ∀ p x,
    s.registry.findInterface (wordAt m 0).toInt32 = some (some (p, x)) →
      x.ctrl.activated = 1

/-! ## The invariant -/

/-- Different ids, and in each interface what history says of its id. -/
structure Owned.Invariant (s : Owned) : Prop where
  sound : Sound s.registry
  distinct : s.registry.DistinctIds
  agrees : ∀ i p x, s.registry.At i p x → s.last x.id
    = if x.ctrl.activated = 1 then some x.ctrl.clientPortid else none

theorem owned_initial : Owned.initial.Invariant where
  sound := sound_initial
  distinct _ _ _ _ _ _ hx _ _ := absurd hx.1 (Nat.not_lt_zero _)
  agrees _ _ _ hx := absurd hx.1 (Nat.not_lt_zero _)

/-- A call on the registry keeps the invariant. -/
theorem Owned.Invariant.call {s : Owned} (h : s.Invariant) {c : RegistryCall}
    (hfresh : FreshId s (.call c)) {k : Registry}
    (hstep : s.registry.step c = some k) :
    Owned.Invariant ⟨k, lastAfter s.registry s.last c⟩ := by
  obtain ⟨hsound, hslot⟩ := h.sound.step hstep
  cases hslot with
  | @register pid procCreate u procEntry hadded =>
      -- what is registered then is old, or new under a fresh id
      have hcases := fun {i p y} => hadded.cases h.sound.live (i := i) (p := p)
        (y := y)
      have hid : (u.registered s.registry.allocatedId pid procEntry).id
          = s.registry.allocatedId := rfl
      refine ⟨hsound, fun i p x j q y hx hy heq => ?_, fun i p x hx => ?_⟩
      · rcases hcases hx with hx | ⟨-, hp, hx⟩
        · rcases hcases hy with hy | ⟨-, hq, hy⟩
          · exact h.distinct i p x j q y hx hy heq
          · rw [hy, hid] at heq
            exact absurd heq (hfresh i p x hx)
        · rcases hcases hy with hy | ⟨-, hq, hy⟩
          · rw [hx, hid] at heq
            exact absurd heq.symm (hfresh j q y hy)
          · rw [hp, hq]
      · rcases hcases hx with hx | ⟨-, -, hx⟩
        · rw [← h.agrees i p x hx]
          exact if_neg (hfresh i p x hx)
        · rw [hx]
          exact if_pos rfl
  | absent hsame hno =>
      rw [hsame]
      exact ⟨h.sound, h.distinct, h.agrees⟩
  | @remove id i p x hdropped hid hfront =>
      refine ⟨hsound, fun i p x j q y hx hy heq => ?_, fun i p x hx => ?_⟩
      · -- a removal adds nothing to the slots
        obtain ⟨i', -, hx'⟩ := hdropped.left i p x hx
        obtain ⟨j', -, hy'⟩ := hdropped.left j q y hy
        exact h.distinct i' p x j' q y hx' hy' heq
      · obtain ⟨i', -, hx'⟩ := hdropped.left i p x hx
        exact h.agrees i' p x hx'
  | @activate m packetLength portid hre =>
      refine ⟨hsound, hre.distinctIds (fun _ _ => ActivatedBy.id) h.sound.live
        h.distinct, fun i p y hy => ?_⟩
      obtain ⟨x, hx, hactivated⟩ := hre.back h.sound.live hy
      -- with different ids, every requested interface is activated
      rw [hactivated.2 h.distinct, activateIds]
      by_cases hmem : x.id ∈ requestedIds m 0 packetLength
      · rw [if_pos hmem]
        exact if_pos hmem
      · rw [if_neg hmem, ← h.agrees i p x hx]
        exact if_neg hmem

/-- A request changes neither ids nor owners. -/
theorem Owned.Invariant.execute {s : Owned} (h : s.Invariant) (env : Env)
    (m : Mem) (packetLength : UInt32) (sock : Option SockId) :
    Owned.Invariant { s with
      registry := (executeInterface env m packetLength sock s.registry).state } := by
  rcases executeInterface_state h.sound.live env m packetLength sock
    with hsame | ⟨p, x, hid, hfound, hassign⟩
  · rw [hsame]
    exact h
  · obtain ⟨hheap, -⟩ := findInterface_hit hfound
    rw [hassign]
    -- only the socket changes, which history does not record
    have hre : Reassigned (fun y z => z.id = y.id
        ∧ z.ctrl.activated = y.ctrl.activated
        ∧ z.ctrl.clientPortid = y.ctrl.clientPortid)
        s.registry (s.registry.assign p (x.setSocket sock)) := by
      refine ⟨rfl, rfl, fun i q y hy => ⟨_, hy.assign hheap _, ?_⟩⟩
      by_cases hq : q = p
      · rw [hq] at hy
        rw [if_pos hq, Option.some.inj ((deref_eq_some.mp hy.2).2.symm.trans hheap)]
        exact ⟨rfl, rfl, rfl⟩
      · rw [if_neg hq]
        exact ⟨rfl, rfl, rfl⟩
    refine ⟨h.sound.assign hheap _, hre.distinctIds (fun _ _ hR => hR.1)
      h.sound.live h.distinct, fun i q z hz => ?_⟩
    obtain ⟨y, hy, hid', hactivated, hport⟩ := hre.back h.sound.live hz
    rw [hid', hactivated, hport]
    exact h.agrees i q y hy

/-- **ONE STEP** keeps the invariant. -/
theorem Owned.Invariant.step {s s' : Owned} (h : s.Invariant) {a : KernelCall}
    (hfresh : FreshId s a) (hstep : s.step a = some s') : s'.Invariant := by
  cases a with
  | call c =>
      obtain ⟨k, hk, hs'⟩ := Option.map_eq_some_iff.mp hstep
      rw [← hs']
      exact h.call hfresh hk
  | execute env m packetLength sock =>
      obtain ⟨ret, -, hs'⟩ := Option.map_eq_some_iff.mp hstep
      rw [← hs']
      exact h.execute env m packetLength sock
  | result env m packet packetLength portid =>
      obtain ⟨ret, -, hs'⟩ := Option.map_eq_some_iff.mp hstep
      rw [← hs', readOnly_handleInterfaceResult env m packet packetLength portid]
      exact h

/-! ## Requests -/

/-- A request for a registered interface is sent to the port in its `ctrl`. -/
theorem unicasts_found {k : Registry} {m : Mem} (hid : wordAt m 0 ≠ 0) {p : Nat}
    {x : Interface}
    (hfound : k.findInterface (wordAt m 0).toInt32 = some (some (p, x)))
    (env : Env) (packetLength : UInt32) (sock : Option SockId) :
    unicasts (executeInterface env m packetLength sock k).trace
      = if env.skbAlloc = false then []
        else [(x.ctrl.clientPortid,
          userMessage (slice m 0 packetLength.toNat) packetLength)] := by
  rw [executeInterface_found hid hfound]
  show unicasts (.read ⟨0, 4⟩ :: forwardEvents env m packetLength x) = _
  rw [forwardEvents]
  by_cases halloc : env.skbAlloc = false
  · rw [if_pos halloc, if_pos halloc]
    rfl
  · rw [if_neg halloc, if_neg halloc]
    rfl

/-- **A REQUEST** is served as it should be exactly if it is addressed to an
    activated interface, or to none. -/
theorem Owned.Invariant.serves_iff {s : Owned} (h : s.Invariant) (m : Mem) :
    s.Serves m ↔ s.Addressed m := by
  have hword : (wordAt m 0).toInt32.toUInt32 = wordAt m 0 := rfl
  constructor
  · intro hserves hid p x hfound
    obtain ⟨hxid, i, hx⟩ := h.sound.found hfound
    have hlast := h.agrees i p x hx
    rw [hxid, hword] at hlast
    -- with memory for the message, it is sent to the port in `ctrl`
    have hsent := unicasts_found hid hfound .fine 0 none
    rw [if_neg (by decide)] at hsent
    have howner := hserves.owner .fine 0 none x.ctrl.clientPortid _ (by
      rw [hsent]
      exact List.mem_singleton.mpr rfl)
    by_contra hactivated
    rw [if_neg hactivated, howner] at hlast
    cases hlast
  · intro haddressed
    have hactive : wordAt m 0 ≠ 0 → ∀ p x,
        s.registry.findInterface (wordAt m 0).toInt32 = some (some (p, x)) →
          s.last (wordAt m 0) = some x.ctrl.clientPortid := by
      intro hid p x hfound
      obtain ⟨hxid, i, hx⟩ := h.sound.found hfound
      have hlast := h.agrees i p x hx
      rw [if_pos (haddressed hid p x hfound), hxid, hword] at hlast
      exact hlast
    refine ⟨fun env packetLength sock port message hmem => ?_,
      fun hid hnone _ env packetLength sock => ?_⟩
    · by_cases hid : wordAt m 0 = 0
      · -- a description query
        rw [executeInterface_zero hid, after_trace] at hmem
        change (port, message) ∈ unicasts
          (fetchInterfaceInfo env m packetLength sock s.registry).trace at hmem
        rw [unicasts_fetchInterfaceInfo] at hmem
        cases hmem
      · rcases h.sound.live.findInterface (wordAt m 0).toInt32
          with hmissing | ⟨p, x, hfound, -⟩
        · -- an unknown id is refused, and nothing is sent
          rw [executeInterface_missing hid hmissing] at hmem
          cases hmem
        · rw [unicasts_found hid hfound] at hmem
          by_cases halloc : env.skbAlloc = false
          · rw [if_pos halloc] at hmem
            cases hmem
          · rw [if_neg halloc] at hmem
            cases List.mem_singleton.mp hmem
            exact hactive hid p x hfound
    · rcases h.sound.live.findInterface (wordAt m 0).toInt32
        with hmissing | ⟨p, x, hfound, -⟩
      · rw [executeInterface_missing hid hmissing]
        exact ⟨-1, rfl, by decide, rfl, rfl⟩
      · rw [hactive hid p x hfound] at hnone
        cases hnone

/-- A request of the run is served as it should be. -/
def ServedCall (s : Owned) : KernelCall → Prop
  | .execute _ m _ _ => s.Serves m
  | _ => True

/-- A request of the run is addressed to an activated interface, or to none. -/
def AddressedCall (s : Owned) : KernelCall → Prop
  | .execute _ m _ _ => s.Addressed m
  | _ => True

/-- **OWNERS**: in any order of calls, requests and results that gives out fresh
    ids, the requests go to the owners of their interfaces exactly if every request
    is for an activated interface, or for none. -/
theorem requests_owned_iff (as : List KernelCall)
    (hfresh : AlongRun Owned.step FreshId Owned.initial as) :
    AlongRun Owned.step ServedCall Owned.initial as
      ↔ AlongRun Owned.step AddressedCall Owned.initial as := by
  refine alongRun_congr (fun s a t hI hguard => hI.step hguard) (fun s a hI => ?_)
    as owned_initial hfresh
  cases a with
  | call c => exact Iff.rfl
  | execute env m packetLength sock => exact hI.serves_iff m
  | result env m packet packetLength portid => exact Iff.rfl

/-- An interface that is registered, activated by the process with port 42, and
    requested. -/
theorem requests_owned_iff_activated :
    AlongRun Owned.step ServedCall Owned.initial
      [.call (.register 7 none .bare),
        .call (.activate (overlay (wordBytes 1 ++ wordBytes 1) fun _ => 0) 8 42),
        .execute .fine (overlay (rpcEncoding 1 []) fun _ => 0) 8 (some 5)] := by
  obtain ⟨s1, h1⟩ : ∃ s1, Owned.initial.step (.call (.register 7 none .bare))
      = some s1 := ⟨_, rfl⟩
  obtain ⟨s2, h2, p, x, hfound, hactive⟩ : ∃ s2, s1.step (.call (.activate
      (overlay (wordBytes 1 ++ wordBytes 1) fun _ => 0) 8 42)) = some s2
        ∧ ∃ p x, s2.registry.findInterface 1 = some (some (p, x))
          ∧ x.ctrl.activated = 1 := by
    cases Option.some.inj h1
    exact ⟨_, rfl, _, _, rfl, rfl⟩
  have hfresh : AlongRun Owned.step FreshId Owned.initial
      [.call (.register 7 none .bare),
        .call (.activate (overlay (wordBytes 1 ++ wordBytes 1) fun _ => 0) 8 42),
        .execute .fine (overlay (rpcEncoding 1 []) fun _ => 0) 8 (some 5)] :=
    .cons (fun _ _ _ hx => absurd hx.1 (Nat.not_lt_zero _)) h1
      (.cons trivial h2 ⟨trivial, fun _ _ => trivial⟩)
  refine (requests_owned_iff _ hfresh).mpr (.cons trivial h1 (.cons trivial h2
    ⟨fun _ q y hy => ?_, fun _ _ => trivial⟩))
  have hword : wordAt (overlay (rpcEncoding 1 []) fun _ => 0) 0 = 1 := by decide
  rw [hword] at hy
  cases Option.some.inj (Option.some.inj (hfound.symm.trans hy))
  exact hactive

/-- A request for an interface that no process has activated yet is sent to
    port 0. -/
theorem request_before_activation :
    ¬ AlongRun Owned.step ServedCall Owned.initial
      [.call (.register 7 none .bare),
        .execute .fine (overlay (rpcEncoding 1 []) fun _ => 0) 8 (some 5)] := by
  intro hall
  obtain ⟨s1, h1, p, x, hfound, hinactive⟩ : ∃ s1, Owned.initial.step
      (.call (.register 7 none .bare)) = some s1
        ∧ ∃ p x, s1.registry.findInterface 1 = some (some (p, x))
          ∧ x.ctrl.activated = 0 := ⟨_, rfl, _, _, rfl, rfl⟩
  have hinv : s1.Invariant := owned_initial.step
    (a := .call (.register 7 none .bare))
    (fun _ _ _ hx => absurd hx.1 (Nat.not_lt_zero _)) h1
  have hserves : s1.Serves (overlay (rpcEncoding 1 []) fun _ => 0) :=
    (hall.2 s1 h1).1
  have hword : wordAt (overlay (rpcEncoding 1 []) fun _ => 0) 0 = 1 := by decide
  have hactive := (hinv.serves_iff _).mp hserves (by rw [hword]; decide) p x (by
    rw [hword]
    exact hfound)
  rw [hinactive] at hactive
  exact absurd hactive (by decide)

end DistComm
