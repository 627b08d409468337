import DistComm.ProcRead
import DistComm.Registration

/-! # The entries of `/proc/dist_comm`

    `add_interface_to_proc` of `module/proc.c` creates an entry for the first
    interface of a process, and gives it to the later ones; `fint_procfs` removes
    the entries when the module exits.  Nothing else removes one: `remove_interface`
    leaves them alone, also with the last interface of a process, and `fint_procfs`
    takes them from the interfaces, each of which has one.

    `Shares` says what interfaces and entries have to do with each other.  It
    survives every registration, and the removals that leave another interface of
    the process (`procfs_mirrors`); the exit removes the entries once exactly if no
    process has registered twice (`exits_once_iff`). -/

namespace DistComm

open PointerArray Transition

/-! ## Calls and exit -/

/-- The registry, the entries under `dist_comm` with the pids that name them, and
    the entry that `proc_create` returns next. -/
structure Procfs where
  registry : Registry
  live : List (Int32 × ProcEntry)
  next : ProcEntry

def Procfs.initial : Procfs := ⟨Registry.initial, [], 0⟩

inductive ProcCall where
  | register (pid : Int32) (u : UserInterface)
  | remove (id : UInt32)

/-- Whether `add_interface_to_proc` comes to its `proc_create`. -/
def createsEntry (k : Registry) (bindPid : Int32) : Option Bool :=
  (search k.interfaceList.deref (fun x => x.2.ctrl.bindPid == bindPid) 0
    (min k.interfaceCount.toNat (2 ^ 31))).map Option.isNone

/-- `register_interface` or `remove_interface`; `proc_create` succeeds. -/
def Procfs.step (s : Procfs) : ProcCall → Option Procfs
  | .register pid u => do
      let creates ← createsEntry s.registry pid
      let result ← registerInterface pid (some s.next) u s.registry
      some (if creates then ⟨result.2, s.live ++ [(pid, s.next)], s.next + 1⟩
        else { s with registry := result.2 })
  | .remove id => do
      let result ← removeInterface id s.registry
      some { s with registry := result.2 }

/-- What `proc_remove` is called with. -/
inductive ProcDir where
  | home
  | entry (e : ProcEntry)
  deriving DecidableEq

/-- The loop of `fint_procfs`, from index `i` for `n` rounds: what it removes. -/
def removeEntries (k : Registry) : Nat → Nat → Option (List ProcDir)
  | _, 0 => some []
  | i, n + 1 => do
      let x ← k.interfaceList.deref i
      let removed ← removeEntries k (i + 1) n
      match x.2.ctrl.procEntry with
      | some e => some (.entry e :: removed)
      | none => some removed

/-- `fint_procfs`: the calls of `proc_remove`. -/
def fintProcfs (k : Registry) : Option (List ProcDir) := do
  let removed ← removeEntries k 0 k.interfaceCount.toNat
  some (removed ++ [.home])

/-! ## Sharing -/

/-- Each interface has an entry; the entries are those of the interfaces, one for
    each process; and the next one is new. -/
structure Shares (xs : List Interface) (live : List (Int32 × ProcEntry))
    (next : ProcEntry) : Prop where
  has : ∀ x ∈ xs, ∃ e, x.ctrl.procEntry = some e
  used : ∀ pid e, (pid, e) ∈ live
    ↔ ∃ x ∈ xs, x.ctrl.bindPid = pid ∧ x.ctrl.procEntry = some e
  names : (live.map Prod.fst).Nodup
  entries : (live.map Prod.snd).Nodup
  fresh : ∀ p ∈ live, p.2 < next

theorem shares_nil : Shares [] [] 0 where
  has _ hx := absurd hx List.not_mem_nil
  used _ _ := ⟨fun h => absurd h List.not_mem_nil,
    fun ⟨_, hx, _⟩ => absurd hx List.not_mem_nil⟩
  names := List.nodup_nil
  entries := List.nodup_nil
  fresh _ hp := absurd hp List.not_mem_nil

variable {xs : List Interface} {live : List (Int32 × ProcEntry)} {next : ProcEntry}

theorem Shares.listed (h : Shares xs live next) {x : Interface} (hx : x ∈ xs) :
    ∃ e, x.ctrl.procEntry = some e ∧ (x.ctrl.bindPid, e) ∈ live := by
  obtain ⟨e, he⟩ := h.has x hx
  exact ⟨e, he, (h.used _ _).mpr ⟨x, hx, rfl, he⟩⟩

/-- One entry for each process. -/
theorem Shares.same (h : Shares xs live next) {x y : Interface} (hx : x ∈ xs)
    (hy : y ∈ xs) :
    x.ctrl.procEntry = y.ctrl.procEntry ↔ x.ctrl.bindPid = y.ctrl.bindPid := by
  obtain ⟨e, he, hxe⟩ := h.listed hx
  obtain ⟨f, hf, hyf⟩ := h.listed hy
  rw [he, hf]
  constructor
  · intro heq
    have hpair := List.inj_on_of_nodup_map h.entries hxe hyf (Option.some.inj heq)
    exact congrArg Prod.fst hpair
  · intro heq
    have hpair := List.inj_on_of_nodup_map h.names hxe hyf heq
    exact congrArg (some ∘ Prod.snd) hpair

/-- Another interface of a process. -/
theorem Shares.again (h : Shares xs live next) {x y : Interface} (hy : y ∈ xs)
    (hpid : y.ctrl.bindPid = x.ctrl.bindPid)
    (hentry : y.ctrl.procEntry = x.ctrl.procEntry) :
    Shares (xs ++ [x]) live next where
  has := by
    rw [List.forall_mem_append, List.forall_mem_singleton, ← hentry]
    exact ⟨h.has, h.has y hy⟩
  used pid e := by
    rw [h.used]
    constructor
    · rintro ⟨z, hz, hzpid⟩
      exact ⟨z, List.mem_append_left _ hz, hzpid⟩
    · rintro ⟨z, hz, hzpid, he⟩
      rcases List.mem_append.mp hz with hmem | hmem
      · exact ⟨z, hmem, hzpid, he⟩
      · rw [List.mem_singleton.mp hmem, ← hpid] at hzpid
        rw [List.mem_singleton.mp hmem, ← hentry] at he
        exact ⟨y, hy, hzpid, he⟩
  names := h.names
  entries := h.entries
  fresh := h.fresh

/-- The first interface of a process, with a new entry. -/
theorem Shares.first (h : Shares xs live next) {x : Interface}
    (hno : ∀ y ∈ xs, y.ctrl.bindPid ≠ x.ctrl.bindPid)
    (hentry : x.ctrl.procEntry = some next) :
    Shares (xs ++ [x]) (live ++ [(x.ctrl.bindPid, next)]) (next + 1) where
  has := by
    rw [List.forall_mem_append, List.forall_mem_singleton]
    exact ⟨h.has, next, hentry⟩
  used pid e := by
    rw [List.mem_append, List.mem_singleton, h.used, Prod.mk.injEq]
    constructor
    · rintro (⟨z, hz, hzpid⟩ | ⟨hpid, he⟩)
      · exact ⟨z, List.mem_append_left _ hz, hzpid⟩
      · exact ⟨x, List.mem_append_right _ (List.mem_singleton_self x), hpid.symm,
          by rw [hentry, he]⟩
    · rintro ⟨z, hz, hzpid, he⟩
      rcases List.mem_append.mp hz with hmem | hmem
      · exact Or.inl ⟨z, hmem, hzpid, he⟩
      · rw [List.mem_singleton.mp hmem] at hzpid he
        exact Or.inr ⟨hzpid.symm, (Option.some.inj (hentry.symm.trans he)).symm⟩
  names := by
    rw [List.map_append, List.nodup_append]
    refine ⟨h.names, List.nodup_singleton _, fun pid hpid q hq heq => ?_⟩
    obtain ⟨⟨_, e⟩, hmem, rfl⟩ := List.mem_map.mp hpid
    obtain ⟨y, hy, hypid, -⟩ := (h.used _ _).mp hmem
    exact hno y hy (hypid.trans (heq.trans (List.mem_singleton.mp hq)))
  entries := by
    rw [List.map_append, List.nodup_append]
    refine ⟨h.entries, List.nodup_singleton _, fun e he f hf heq => ?_⟩
    obtain ⟨p, hmem, rfl⟩ := List.mem_map.mp he
    have hlt := h.fresh p hmem
    rw [heq, List.mem_singleton.mp hf] at hlt
    exact Nat.lt_irrefl next hlt
  fresh p hp := by
    rcases List.mem_append.mp hp with hmem | hmem
    · exact Nat.lt_succ_of_lt (h.fresh p hmem)
    · rw [List.mem_singleton.mp hmem]
      exact Nat.lt_succ_self next

/-- The last interface is gone, and another one of its process is left. -/
theorem Shares.dropLast {x : Interface} (h : Shares (xs ++ [x]) live next)
    {y : Interface} (hy : y ∈ xs) (hpid : y.ctrl.bindPid = x.ctrl.bindPid) :
    Shares xs live next where
  has z hz := h.has z (List.mem_append_left _ hz)
  used pid e := by
    rw [h.used]
    constructor
    · rintro ⟨z, hz, hzpid, he⟩
      rcases List.mem_append.mp hz with hmem | hmem
      · exact ⟨z, hmem, hzpid, he⟩
      · have hsame := (h.same (List.mem_append_left _ hy) hz).mpr (by
          rw [hpid, List.mem_singleton.mp hmem])
        exact ⟨y, hy, by rw [hpid, ← List.mem_singleton.mp hmem, hzpid],
          hsame.trans he⟩
    · rintro ⟨z, hz, hzpid⟩
      exact ⟨z, List.mem_append_left _ hz, hzpid⟩
  names := h.names
  entries := h.entries
  fresh := h.fresh

/-! ## One call -/

/-- The interface of a process that `add_interface_to_proc` finds has its entry;
    where there is none it creates one. -/
theorem Registry.Live.creates {k : Registry} (h : k.Live) {pid : Int32}
    {creates : Bool} {procCreate procEntry : Option ProcEntry}
    (hcreates : createsEntry k pid = some creates)
    (hproc : addInterfaceToProc k pid procCreate = some procEntry) :
    (creates = false ∧ ∃ x ∈ k.interfaces, x.ctrl.bindPid = pid
        ∧ x.ctrl.procEntry = procEntry)
      ∨ creates = true ∧ procEntry = procCreate ∧ k.interfaceCount.toNat ≤ 2 ^ 31
        ∧ ∀ x ∈ k.interfaces, x.ctrl.bindPid ≠ pid := by
  have hread := PointerArray.Live.below h
    (Nat.min_le_left k.interfaceCount.toNat (2 ^ 31))
  rw [createsEntry] at hcreates
  rw [addInterfaceToProc] at hproc
  rcases hread.search (fun x => x.2.ctrl.bindPid == pid)
    with ⟨hnone, hno⟩ | ⟨⟨i, p, x⟩, hsome, hfirst, hlt⟩
  · rw [hnone] at hcreates hproc
    replace hproc : (if k.interfaceCount.toNat ≤ 2 ^ 31 then some procCreate
      else none) = some procEntry := hproc
    by_cases hcount : k.interfaceCount.toNat ≤ 2 ^ 31
    · rw [if_pos hcount] at hproc
      refine Or.inr ⟨(Option.some.inj hcreates).symm, (Option.some.inj hproc).symm,
        hcount, fun x hx => ?_⟩
      obtain ⟨i, p, hat⟩ := h.mem.mp hx
      have hlt : i < min k.interfaceCount.toNat (2 ^ 31) := by
        rw [Nat.min_eq_left hcount]
        exact hat.1
      exact hno.ne hlt hat.2
    · rw [if_neg hcount] at hproc
      cases hproc
  · rw [hsome] at hcreates hproc
    have hat : k.At i p x :=
      ⟨Nat.lt_of_lt_of_le hlt (Nat.min_le_left _ _), hfirst.get_index⟩
    exact Or.inl ⟨(Option.some.inj hcreates).symm, x, h.mem.mpr ⟨i, p, hat⟩,
      eq_of_beq hfirst.sat, Option.some.inj hproc⟩

/-- **A REGISTRATION** appends an interface, which shares the entry of its process
    or has the new one. -/
theorem Procfs.step_register {s t : Procfs} (h : Sound s.registry)
    {pid : Int32} {u : UserInterface} (hstep : s.step (.register pid u) = some t) :
    ∃ procEntry, Sound t.registry
      ∧ t.registry.interfaces = s.registry.interfaces
        ++ [u.registered s.registry.allocatedId pid procEntry]
      ∧ ((∃ x ∈ s.registry.interfaces, x.ctrl.bindPid = pid
            ∧ x.ctrl.procEntry = procEntry) ∧ t.live = s.live ∧ t.next = s.next
        ∨ (∀ x ∈ s.registry.interfaces, x.ctrl.bindPid ≠ pid)
          ∧ s.registry.interfaces.length ≤ 2 ^ 31
          ∧ procEntry = some s.next
          ∧ t.live = s.live ++ [(pid, s.next)] ∧ t.next = s.next + 1) := by
  obtain ⟨creates, hcreates, ⟨id, k'⟩, hrun, ht⟩ : ∃ creates,
      createsEntry s.registry pid = some creates ∧ ∃ result,
        registerInterface pid (some s.next) u s.registry = some result
          ∧ some (if creates then (⟨result.2, s.live ++ [(pid, s.next)],
              s.next + 1⟩ : Procfs) else { s with registry := result.2 })
            = some t := by
    simpa only [Procfs.step, Option.bind_eq_bind, Option.bind_eq_some_iff]
      using hstep
  obtain ⟨procEntry, hproc, hsound, hadded⟩ := h.registered hrun
  have hlist := hadded.interfaces h.live hsound.live
  rcases h.live.creates hcreates hproc
    with ⟨hfalse, hfound⟩ | ⟨htrue, hentry, hcount, hno⟩
  · rw [hfalse] at ht
    cases Option.some.inj ht
    exact ⟨procEntry, hsound, hlist, Or.inl ⟨hfound, rfl, rfl⟩⟩
  · rw [htrue] at ht
    cases Option.some.inj ht
    rw [← h.live.interfaces.1] at hcount
    exact ⟨procEntry, hsound, hlist, Or.inr ⟨hno, hcount, hentry, rfl, rfl⟩⟩

/-- What the invariant of a run says: the entries are shared. -/
structure Procfs.Invariant (s : Procfs) : Prop where
  sound : Sound s.registry
  shares : Shares s.registry.interfaces s.live s.next

theorem procfs_initial : Procfs.initial.Invariant := ⟨sound_initial, shares_nil⟩

theorem procfs_initial_interfaces : Procfs.initial.registry.interfaces = [] := rfl

theorem Procfs.Invariant.register {s t : Procfs} (h : s.Invariant) {pid : Int32}
    {u : UserInterface} (hstep : s.step (.register pid u) = some t) :
    t.Invariant := by
  obtain ⟨procEntry, hsound, hlist, hcase⟩ := Procfs.step_register h.sound hstep
  refine ⟨hsound, ?_⟩
  rw [hlist]
  rcases hcase with ⟨⟨x, hx, hpid, hentry⟩, hlive, hnext⟩
    | ⟨hno, -, hentry, hlive, hnext⟩
  · rw [hlive, hnext]
    exact h.shares.again hx hpid hentry
  · rw [hlive, hnext]
    exact h.shares.first hno hentry

/-- A registration returns unless the array or the search ends. -/
theorem Procfs.registers {s : Procfs} (h : Sound s.registry) {pid : Int32}
    {u : UserInterface} (hok : Handled s.registry (.register pid none u)) :
    ∃ t, s.step (.register pid u) = some t := by
  have hread := PointerArray.Live.below h.live
    (Nat.min_le_left s.registry.interfaceCount.toNat (2 ^ 31))
  obtain ⟨creates, hcreates⟩ : ∃ creates,
      createsEntry s.registry pid = some creates := by
    rw [createsEntry]
    rcases hread.search (fun x => x.2.ctrl.bindPid == pid)
      with ⟨hnone, -⟩ | ⟨hit, hsome, -, -⟩
    · rw [hnone]
      exact ⟨true, rfl⟩
    · rw [hsome]
      exact ⟨false, rfl⟩
  obtain ⟨result, hrun⟩ := @Sound.registers _ h pid (some s.next) u hok
  rw [Procfs.step, hcreates, hrun]
  exact ⟨_, rfl⟩

/-! ## The exit -/

/-- The entries of the interfaces, one after the other. -/
def removals (xs : List Interface) : List ProcDir :=
  xs.filterMap fun x => x.ctrl.procEntry.map ProcDir.entry

theorem removeEntries_interfaces {k : Registry} (h : k.Live) (n i : Nat)
    (hn : i + n = k.interfaces.length) :
    removeEntries k i n = some (removals (k.interfaces.drop i)) := by
  induction n generalizing i with
  | zero =>
      rw [List.drop_eq_nil_of_le (by omega)]
      rfl
  | succ n ih =>
      have hi : i < k.interfaces.length := by omega
      obtain ⟨p, hat⟩ := h.at (List.getElem?_eq_getElem hi)
      rw [removeEntries, hat.2, List.drop_eq_getElem_cons hi, ih (i + 1) (by omega),
        removals, removals, List.filterMap_cons]
      cases hentry : k.interfaces[i].ctrl.procEntry with
      | none => simp [hentry]
      | some e => simp [hentry]

theorem fintProcfs_interfaces {k : Registry} (h : k.Live) :
    fintProcfs k = some (removals k.interfaces ++ [.home]) := by
  rw [fintProcfs, removeEntries_interfaces h _ 0 (by
    rw [Nat.zero_add, h.interfaces.1]), List.drop_zero]
  rfl

theorem home_not_mem_removals (xs : List Interface) :
    ProcDir.home ∉ removals xs := by
  simp [removals]

theorem Shares.mem_removals (h : Shares xs live next) {e : ProcEntry} :
    .entry e ∈ removals xs ↔ e ∈ live.map Prod.snd := by
  simp only [removals, List.mem_filterMap, Option.map_eq_some_iff,
    ProcDir.entry.injEq, List.mem_map, Prod.exists, h.used]
  constructor
  · rintro ⟨x, hx, f, hf, rfl⟩
    exact ⟨x.ctrl.bindPid, f, ⟨x, hx, rfl, hf⟩, rfl⟩
  · rintro ⟨pid, f, ⟨x, hx, -, hf⟩, rfl⟩
    exact ⟨x, hx, f, hf, rfl⟩

/-- No entry is there twice exactly if no two interfaces share one. -/
theorem Shares.nodup_removals (h : Shares xs live next) :
    (removals xs).Nodup ↔ (xs.map fun x => x.ctrl.bindPid).Nodup := by
  rw [removals, List.Nodup, List.pairwise_filterMap, List.Nodup, List.pairwise_map]
  refine List.Pairwise.iff_of_mem fun {x y} hx hy => ?_
  obtain ⟨e, he⟩ := h.has x hx
  obtain ⟨f, hf⟩ := h.has y hy
  have hsame := h.same hx hy
  rw [he, hf] at hsame
  simp [he, hf, ← hsame]

/-- The exit removes every entry under `dist_comm`, and nothing twice. -/
def Procfs.ExitsOnce (s : Procfs) : Prop :=
  ∃ removed, fintProcfs s.registry = some removed ∧ removed.Nodup
    ∧ ∀ e, .entry e ∈ removed ↔ e ∈ s.live.map Prod.snd

/-- It removes an entry once for each interface of the process. -/
theorem Procfs.Invariant.exitsOnce_iff {s : Procfs} (h : s.Invariant) :
    s.ExitsOnce ↔ (s.registry.interfaces.map fun x => x.ctrl.bindPid).Nodup := by
  have hrun := fintProcfs_interfaces h.sound.live
  have hnodup : (removals s.registry.interfaces ++ [ProcDir.home]).Nodup
      ↔ (removals s.registry.interfaces).Nodup := by
    rw [List.nodup_append_comm, List.singleton_append, List.nodup_cons,
      and_iff_right (home_not_mem_removals _)]
  rw [← h.shares.nodup_removals]
  constructor
  · rintro ⟨removed, hrun', honce, -⟩
    cases Option.some.inj (hrun.symm.trans hrun')
    exact hnodup.mp honce
  · intro honce
    refine ⟨_, hrun, hnodup.mpr honce, fun e => ?_⟩
    rw [← h.shares.mem_removals]
    simp

/-- What registrations alone lead to: an interface for each, and no more entries
    than `add_interface_to_proc` can look through. -/
theorem Procfs.Invariant.registrations {s : Procfs} (h : s.Invariant)
    (hfew : (s.registry.interfaces.map fun x => x.ctrl.bindPid).Nodup →
      s.registry.interfaces.length ≤ 2 ^ 31 + 1)
    (regs : List (Int32 × UserInterface)) {t : Procfs}
    (hrun : runAll Procfs.step s (regs.map fun r => .register r.1 r.2) = some t) :
    t.Invariant ∧ (t.registry.interfaces.map fun x => x.ctrl.bindPid)
        = (s.registry.interfaces.map fun x => x.ctrl.bindPid) ++ regs.map Prod.fst
      ∧ ((t.registry.interfaces.map fun x => x.ctrl.bindPid).Nodup →
        t.registry.interfaces.length ≤ 2 ^ 31 + 1) := by
  induction regs generalizing s with
  | nil =>
      cases Option.some.inj hrun
      exact ⟨h, (List.append_nil _).symm, hfew⟩
  | cons r regs ih =>
      cases hs : s.step (.register r.1 r.2) with
      | none =>
          rw [List.map_cons, runAll, hs] at hrun
          cases hrun
      | some u =>
          rw [List.map_cons, runAll_cons hs] at hrun
          obtain ⟨procEntry, -, hlist, hcase⟩ := Procfs.step_register h.sound hs
          have hpids : (u.registry.interfaces.map fun x => x.ctrl.bindPid)
              = (s.registry.interfaces.map fun x => x.ctrl.bindPid) ++ [r.1] := by
            rw [hlist, List.map_append]
            rfl
          have hfew' : (u.registry.interfaces.map fun x => x.ctrl.bindPid).Nodup →
              u.registry.interfaces.length ≤ 2 ^ 31 + 1 := by
            intro hnodup
            rcases hcase with ⟨⟨x, hx, hpid, -⟩, -⟩ | ⟨-, hcount, -⟩
            · -- the pid is there already
              rw [hpids, List.nodup_append] at hnodup
              exact absurd hpid (hnodup.2.2 _ (List.mem_map_of_mem hx) r.1
                (List.mem_singleton_self r.1))
            · rw [hlist, List.length_append]
              exact Nat.succ_le_succ hcount
          obtain ⟨ht, hmap, hbound⟩ := ih (h.register hs) hfew' hrun
          refine ⟨ht, ?_, hbound⟩
          rw [hmap, hpids, List.append_assoc]
          rfl

/-- So many registrations return. -/
theorem Procfs.Invariant.registers {s : Procfs} (h : s.Invariant)
    (regs : List (Int32 × UserInterface))
    (hfew : s.registry.interfaces.length + regs.length ≤ 2 ^ 31 + 1) :
    ∃ t, runAll Procfs.step s (regs.map fun r => .register r.1 r.2) = some t := by
  induction regs generalizing s with
  | nil => exact ⟨s, rfl⟩
  | cons r regs ih =>
      rw [List.length_cons] at hfew
      have hcount := h.sound.live.interfaces.1
      have hgradient : GRADIENT.toNat = 10 := rfl
      obtain ⟨u, hu⟩ := @Procfs.registers _ h.sound r.1 r.2
        ⟨fun heq => by rw [← heq]; omega, Or.inl (by omega)⟩
      obtain ⟨procEntry, -, hlist, -⟩ := Procfs.step_register h.sound hu
      rw [List.map_cons, runAll_cons hu]
      refine ih (h.register hu) ?_
      rw [hlist, List.length_append, List.length_singleton]
      omega

/-- **THE EXIT** after any registrations removes each entry once exactly if no
    process has registered twice; so many processes that the search for one of them
    overflows cannot register. -/
theorem exits_once_iff (regs : List (Int32 × UserInterface)) :
    (∃ s, runAll Procfs.step Procfs.initial
        (regs.map fun r => .register r.1 r.2) = some s ∧ s.ExitsOnce)
      ↔ (regs.map Prod.fst).Nodup ∧ regs.length ≤ 2 ^ 31 + 1 := by
  constructor
  · rintro ⟨s, hrun, hexits⟩
    obtain ⟨hs, hmap, hbound⟩ := procfs_initial.registrations
      (fun _ => Nat.zero_le _) regs hrun
    have honce := hs.exitsOnce_iff.mp hexits
    rw [procfs_initial_interfaces, List.map_nil, List.nil_append] at hmap
    have hlength := congrArg List.length hmap
    rw [List.length_map, List.length_map] at hlength
    refine ⟨by rw [← hmap]; exact honce, ?_⟩
    rw [← hlength]
    exact hbound honce
  · rintro ⟨honce, hfew⟩
    obtain ⟨s, hrun⟩ := procfs_initial.registers regs (by
      rw [procfs_initial_interfaces, List.length_nil, Nat.zero_add]
      exact hfew)
    obtain ⟨hs, hmap, -⟩ := procfs_initial.registrations
      (fun _ => Nat.zero_le _) regs hrun
    refine ⟨s, hrun, hs.exitsOnce_iff.mpr ?_⟩
    rw [hmap]
    exact honce

/-- A process with two interfaces has its entry removed twice. -/
theorem exit_removes_twice :
    ¬ ∃ s, runAll Procfs.step Procfs.initial
        ([(7, UserInterface.bare), (7, .bare)].map fun r => .register r.1 r.2)
          = some s ∧ s.ExitsOnce := by
  rintro ⟨s, hrun, hexits⟩
  obtain ⟨hs, hmap, -⟩ := procfs_initial.registrations (fun _ => Nat.zero_le _) _
    hrun
  have honce := hs.exitsOnce_iff.mp hexits
  rw [hmap, procfs_initial_interfaces] at honce
  simp at honce

/-! ## The mirror -/

/-- What a call does to the interfaces that are registered. -/
inductive RegisteredStep : List Interface → ProcCall → List Interface → Prop where
  | register {xs : List Interface} {pid : Int32} {u : UserInterface} (id : UInt32)
      (procEntry : Option ProcEntry) :
      RegisteredStep xs (.register pid u) (xs ++ [u.registered id pid procEntry])
  | remove {xs : List Interface} {id : UInt32} :
      RegisteredStep xs (.remove id) (xs.filter fun x => x.id ≠ id)

/-- The interfaces of a process. -/
def interfacesOf (pid : Int32) (xs : List Interface) : List Interface :=
  xs.filter fun x => x.ctrl.bindPid = pid

/-- The slots show the registered interfaces; the entries are those of the processes
    with one, one for each; and each is read as the interfaces of its process. -/
structure Procfs.Mirrors (s : Procfs) (xs : List Interface) : Prop where
  slots : s.registry.interfaces = xs
  listed : ∀ x ∈ xs, ∃ e, x.ctrl.procEntry = some e
    ∧ (x.ctrl.bindPid, e) ∈ s.live
  same : ∀ x ∈ xs, ∀ y ∈ xs,
    x.ctrl.procEntry = y.ctrl.procEntry ↔ x.ctrl.bindPid = y.ctrl.bindPid
  used : ∀ pid e, (pid, e) ∈ s.live
    ↔ ∃ x ∈ xs, x.ctrl.bindPid = pid ∧ x.ctrl.procEntry = some e
  names : (s.live.map Prod.fst).Nodup
  read : ∀ pid e, (pid, e) ∈ s.live → ∀ count,
    (procText (interfacesOf pid xs)).length ≤ count →
    procRead s.registry e count 0 0
      = some (((procText (interfacesOf pid xs)).length : Int),
          procText (interfacesOf pid xs), (procText (interfacesOf pid xs)).length)

/-- The lines of the interface fit `tmp`, and with it the text of its process fits
    the buffer. -/
def Interface.Printable (x : Interface) (xs : List Interface) : Prop :=
  (∀ line ∈ x.lines, line.length < TMP_SIZE)
    ∧ (procText (interfacesOf x.ctrl.bindPid xs ++ [x])).length
      ≤ 2 ^ 32 - BUFFER_INC_SIZE.toNat

/-- The registration is handled and can be printed; the removal is handled, and
    another interface of the process stays. -/
def Procfs.Kept (s : Procfs) : ProcCall → Prop
  | .register pid u =>
      Handled s.registry (.register pid none u)
        ∧ (u.registered s.registry.allocatedId pid none).Printable
            s.registry.interfaces
  | .remove id =>
      Handled s.registry (.remove id)
        ∧ ∀ x ∈ s.registry.interfaces, x.id = id →
          ∃ y ∈ s.registry.interfaces, y.id ≠ id ∧ y.ctrl.bindPid = x.ctrl.bindPid

/-- All interfaces can be printed. -/
structure Printed (xs : List Interface) : Prop where
  shaped : ∀ x ∈ xs, x.Shaped
  lines : ∀ x ∈ xs, ∀ line ∈ x.lines, line.length < TMP_SIZE
  text : ∀ pid, (procText (interfacesOf pid xs)).length
    ≤ 2 ^ 32 - BUFFER_INC_SIZE.toNat

theorem printed_nil : Printed [] where
  shaped _ hx := absurd hx List.not_mem_nil
  lines _ hx := absurd hx List.not_mem_nil
  text _ := Nat.zero_le _

theorem procText_append (xs ys : List Interface) :
    procText (xs ++ ys) = procText xs ++ procText ys := by
  simp [procText]

theorem interfacesOf_append (pid : Int32) (xs ys : List Interface) :
    interfacesOf pid (xs ++ ys) = interfacesOf pid xs ++ interfacesOf pid ys :=
  List.filter_append ..

theorem Printed.append (h : Printed xs) {x : Interface} (hshaped : x.Shaped)
    (hx : x.Printable xs) : Printed (xs ++ [x]) where
  shaped := by
    rw [List.forall_mem_append, List.forall_mem_singleton]
    exact ⟨h.shaped, hshaped⟩
  lines := by
    rw [List.forall_mem_append, List.forall_mem_singleton]
    exact ⟨h.lines, hx.1⟩
  text pid := by
    rw [interfacesOf_append]
    by_cases hpid : x.ctrl.bindPid = pid
    · rw [interfacesOf, interfacesOf, List.filter_cons_of_pos (by simpa using hpid),
        List.filter_nil, ← hpid]
      exact hx.2
    · rw [interfacesOf, interfacesOf, List.filter_cons_of_neg (by simpa using hpid),
        List.filter_nil, List.append_nil]
      exact h.text pid

theorem Printed.of_append {ys : List Interface} (h : Printed (xs ++ ys)) :
    Printed xs where
  shaped x hx := h.shaped x (List.mem_append_left _ hx)
  lines x hx := h.lines x (List.mem_append_left _ hx)
  text pid := by
    have htext := h.text pid
    rw [interfacesOf_append, procText_append, List.length_append] at htext
    omega

/-- What is printed of an entry are the interfaces of its process. -/
theorem Procfs.Invariant.mirrors {s : Procfs} (h : s.Invariant)
    (hprinted : Printed s.registry.interfaces) :
    s.Mirrors s.registry.interfaces where
  slots := rfl
  listed _ hx := h.shares.listed hx
  same _ hx _ hy := h.shares.same hx hy
  used := h.shares.used
  names := h.shares.names
  read pid e he count hcount := by
    obtain ⟨y, hy, hypid, hye⟩ := (h.shares.used pid e).mp he
    -- an interface has the entry exactly if it is of the process
    have hselect : (s.registry.interfaces.filter fun x => x.ctrl.procEntry = some e)
        = interfacesOf pid s.registry.interfaces := by
      refine List.filter_congr fun x hx => ?_
      have hsame := h.shares.same hx hy
      rw [hye, hypid] at hsame
      exact decide_eq_decide.mpr hsame
    exact procRead_text h.sound.live hprinted.shaped hselect
      (fun x hx => hprinted.lines x (List.mem_of_mem_filter hx)) (hprinted.text pid)
      hcount

/-- A removal returns if its interface is in the last slot, or if there is none. -/
theorem Sound.removal {k : Registry} (h : Sound k) {id : UInt32}
    (hok : Handled k (.remove id)) :
    ∃ r k', removeInterface id k = some (r, k') := by
  rcases h.live.search (fun x => x.2.id == id)
    with ⟨hnone, -⟩ | ⟨⟨i, p, x⟩, hsome, hfirst, hlt⟩
  · rw [removeInterface, hnone]
    exact ⟨-1, k, rfl⟩
  · obtain ⟨list, hfree⟩ : ∃ list, k.interfaceList.free p = some list := by
      rw [Table.free, (deref_eq_some.mp hfirst.get_index).2]
      exact ⟨_, rfl⟩
    exact ⟨id, _, removeInterface_last hsome (hok.last hfirst hlt) hfree⟩

/-- Removing the interface in the last slot, or none. -/
theorem Sound.removes {k k' : Registry} (h : Sound k) {id r : UInt32}
    (hok : Handled k (.remove id)) (hrun : removeInterface id k = some (r, k')) :
    Sound k' ∧ ((∀ x ∈ k.interfaces, x.id ≠ id) ∧ k' = k
      ∨ ∃ x, k.interfaces = k'.interfaces ++ [x] ∧ x.id = id
        ∧ ∀ y ∈ k'.interfaces, y.id ≠ id) := by
  rcases h.toTraversable.removeInterface hrun
    with ⟨hsame, hno⟩ | ⟨i, p, x, hrem, hfirst⟩
  · rw [hsame]
    refine ⟨h, Or.inl ⟨fun x hx => ?_, rfl⟩⟩
    obtain ⟨i, p, hat⟩ := h.live.mem.mp hx
    exact hno.ne hat.1 hat.2
  · obtain ⟨hsound, hdropped⟩ :=
      h.removed hrem hfirst (h.toTraversable.remove hrun)
    refine ⟨hsound, Or.inr ⟨x, ?_, eq_of_beq hfirst.sat, fun y hy => ?_⟩⟩
    · exact hdropped.interfaces h.live hsound.live (hok.last hfirst hrem.inside).symm
    · obtain ⟨j, q, hat⟩ := hsound.live.mem.mp hy
      obtain ⟨j', hj', hat'⟩ := hdropped.left j q y hat
      exact hfirst.ne hj' hat'.2

/-- **ONE CALL** of those that are kept. -/
theorem Procfs.Invariant.kept {s : Procfs} (h : s.Invariant)
    (hprinted : Printed s.registry.interfaces) {c : ProcCall} (hc : s.Kept c) :
    ∃ t, s.step c = some t
      ∧ RegisteredStep s.registry.interfaces c t.registry.interfaces
      ∧ t.Invariant ∧ Printed t.registry.interfaces := by
  cases c with
  | register pid u =>
      obtain ⟨hok, hprintable⟩ := hc
      obtain ⟨t, ht⟩ := Procfs.registers h.sound hok
      obtain ⟨procEntry, -, hlist, -⟩ := Procfs.step_register h.sound ht
      refine ⟨t, ht, ?_, h.register ht, ?_⟩
      · rw [hlist]
        exact .register _ _
      · rw [hlist]
        -- the entry is not printed
        have hsame : procText [u.registered s.registry.allocatedId pid procEntry]
            = procText [u.registered s.registry.allocatedId pid none] := rfl
        refine hprinted.append (u.registered_shaped _ _ _) ⟨hprintable.1, ?_⟩
        rw [procText_append, hsame, ← procText_append]
        exact hprintable.2
  | remove id =>
      obtain ⟨hok, hstays⟩ := hc
      obtain ⟨r, k', hrun⟩ := h.sound.removal hok
      obtain ⟨hsound, hcase⟩ := h.sound.removes hok hrun
      have hstep : s.step (.remove id) = some { s with registry := k' } := by
        rw [Procfs.step, hrun]
        rfl
      rcases hcase with ⟨hno, hsame⟩ | ⟨x, hlist, hxid, hne⟩
      · rw [hsame] at hstep
        refine ⟨s, hstep, ?_, h, hprinted⟩
        have hfilter : (s.registry.interfaces.filter fun x => x.id ≠ id)
            = s.registry.interfaces :=
          List.filter_eq_self.mpr fun x hx => decide_eq_true (hno x hx)
        have hremove := @RegisteredStep.remove s.registry.interfaces id
        rwa [hfilter] at hremove
      · obtain ⟨y, hy, hyid, hpid⟩ := hstays x (by
          rw [hlist]
          exact List.mem_append_right _ (List.mem_singleton_self x)) hxid
        have hyk : y ∈ k'.interfaces := by
          rw [hlist] at hy
          rcases List.mem_append.mp hy with hmem | hmem
          · exact hmem
          · rw [List.mem_singleton.mp hmem] at hyid
            exact absurd hxid hyid
        have hfilter : (s.registry.interfaces.filter fun x => x.id ≠ id)
            = k'.interfaces := by
          rw [hlist, List.filter_append, List.filter_cons_of_neg (by simpa using hxid),
            List.filter_nil, List.append_nil]
          exact List.filter_eq_self.mpr fun z hz => decide_eq_true (hne z hz)
        have hremove := @RegisteredStep.remove s.registry.interfaces id
        rw [hfilter] at hremove
        have hshares := h.shares
        rw [hlist] at hshares hprinted
        exact ⟨_, hstep, hremove, ⟨hsound, hshares.dropLast hyk hpid⟩,
          hprinted.of_append⟩

/-- The run does not fault, and its entries mirror the interfaces that are
    registered. -/
def ProcfsFollows (calls : List ProcCall) : Prop :=
  ∃ s xs, runAll Procfs.step Procfs.initial calls = some s
    ∧ Run RegisteredStep [] calls xs ∧ s.Mirrors xs

/-- **THE MIRROR** after all runs whose calls are kept: no process removes the last
    of its interfaces, and no removal finds its id before the last slot. -/
theorem procfs_mirrors (calls : List ProcCall)
    (hkept : AlongRun Procfs.step Procfs.Kept Procfs.initial calls) :
    ProcfsFollows calls := by
  obtain ⟨s, xs, hrun, hspec, h, hprinted, hxs⟩ := @runAll_simulates _ _ _
    Procfs.step Procfs.Kept RegisteredStep
    (fun _ s xs => s.Invariant ∧ Printed s.registry.interfaces
      ∧ s.registry.interfaces = xs)
    (fun c cs s xs hR hc => by
      obtain ⟨h, hprinted, hxs⟩ := hR
      obtain ⟨t, hstep, hspec, ht, hprinted'⟩ := h.kept hprinted hc
      rw [hxs] at hspec
      exact ⟨t, _, hstep, hspec, ht, hprinted', rfl⟩)
    calls Procfs.initial []
    ⟨procfs_initial, printed_nil, procfs_initial_interfaces⟩ hkept
  refine ⟨s, xs, hrun, hspec, ?_⟩
  rw [← hxs]
  exact h.mirrors hprinted

/-- Two registrations of a process, and the removal of the later one. -/
theorem procfs_mirrors_two :
    ProcfsFollows [.register 7 .bare, .register 7 .bare, .remove 2] := by
  refine procfs_mirrors _ ?_
  refine AlongRun.cons ⟨⟨fun _ => by decide, Or.inl (by decide)⟩,
    ⟨by decide, by decide⟩⟩ rfl ?_
  refine AlongRun.cons ⟨⟨fun _ => by decide, Or.inl (by decide)⟩,
    ⟨by decide, by decide +kernel⟩⟩ rfl ?_
  refine AlongRun.cons ⟨fun i x hi hx => ?_, by decide⟩ rfl trivial
  cases i with
  | zero =>
      have hid : x.2.id = 1 := by
        rw [← Option.some.inj hx]
        rfl
      rw [hid]
      decide
  | succ i =>
      have htwo : i + 1 + 1 < 2 := hi
      omega

/-- The entry of a process stays when its last interface is removed. -/
theorem entry_outlives_interfaces :
    ¬ ProcfsFollows [.register 7 .bare, .remove 1] := by
  rintro ⟨s, xs, hrun, -, hmirrors⟩
  have hleft : (runAll Procfs.step Procfs.initial
      [.register 7 .bare, .remove 1]).map (fun s => (s.live, s.registry.interfaces))
        = some ([(7, 0)], []) := by
    decide
  rw [hrun] at hleft
  obtain ⟨hlive, hxs⟩ := Prod.mk.inj (Option.some.inj hleft)
  obtain ⟨x, hx, -⟩ := (hmirrors.used 7 0).mp (by
    rw [hlive]
    exact List.mem_singleton_self _)
  rw [← hmirrors.slots, hxs] at hx
  cases hx

end DistComm
