import DistComm.PeerDevices
import Mathlib.Data.Multiset.OrderedMonoid
import Mathlib.Tactic.Abel

/-! # What the module holds

    `init_module` and `cleanup_module`, and what they call: the character devices, the
    servers with their threads, the netlink socket and the directory in procfs.  The
    outcome of every call of the kernel is a parameter.  What such a call hands out is
    held until it is given back; where the code follows a pointer it did not get, stops
    a thread whose task is gone, or waits for one that does not end, it has no outcome.

    A load gets everything, or fails and leaves what its earlier steps got
    (`initModule_cases`).  An unload gives back what is in the variables that it looks at
    (`cleanupModule_cases`).  The devices of single peers and the entries of interfaces in
    procfs are left out. -/

namespace DistComm

open TracedProgram

/-! ## What is held -/

inductive SocketType where
  | dgram
  | stream
  deriving DecidableEq

/-- What the kernel hands out. -/
inductive Resource where
  | region (dev count : Nat)
  | devClass (name : String)
  | device (name : String) (dev : Nat)
  | cdev (dev count : Nat)
  | socket (type : SocketType) (n : Nat)
  | port (type : SocketType) (n : Nat)
  | block (n : Nat)
  | task (n : Nat)
  | netlink
  | procDir
  deriving DecidableEq

/-- The functions that the module runs in threads. -/
inductive ThreadFn where
  | discoveryServerLoop
  | broadcastLoop
  | serviceServerLoop
  deriving DecidableEq

/-- Only the service loop has a way out, on a failing `listen`, `sock_create` or
    `accept`; the other two loops have none. -/
def ThreadFn.hasExit : ThreadFn → Bool
  | .serviceServerLoop => true
  | _ => false

/-- A thread has not entered its function yet, is inside, has returned from it by
    itself, or was ended by `kthread_stop`. -/
inductive ThreadState where
  | created
  | looping
  | returned
  | stopped
  deriving DecidableEq

structure Thread where
  threadfn : ThreadFn
  state : ThreadState

/-- `kthread_stop` ends the thread: it has not entered its function and never does, or
    it is inside, and returns while it is waited for.  A thread that returned before has
    no task to stop any more. -/
def Thread.stops (returns : Bool) (t : Thread) : Bool :=
  match t.state with
  | .created => true
  | .looping => returns && t.threadfn.hasExit
  | _ => false

/-- The number of the next thing that gets one, what is held, and the threads. -/
structure Holdings where
  next : Nat
  held : Multiset Resource
  threads : List Thread

/-- Calls of the kernel. -/
abbrev ModuleCall (α : Type) := Traced Holdings Empty α

def acquire (r : Resource) : ModuleCall Unit := do
  let s ← getState
  putState { s with held := s.held + {r} }

def release (r : Resource) : ModuleCall Unit := do
  let s ← getState
  putState { s with held := s.held.erase r }

def newNumber : ModuleCall Nat := do
  let s ← getState
  putState { s with next := s.next + 1 }
  pure s.next

/-! ## Calls of the kernel -/

/-- A call that gets a thing with a number, or fails with a negative error. -/
def getNumbered (outcome : Int32) (r : Nat → Resource) : ModuleCall (Except Int32 Nat) :=
  if outcome < 0 then pure (.error outcome)
  else do
    let n ← newNumber
    acquire (r n)
    pure (.ok n)

/-- A call that gets a thing, or fails with a negative error. -/
def getNamed (outcome : Int32) (r : Resource) : ModuleCall Int32 :=
  if outcome < 0 then pure outcome
  else do
    acquire r
    pure 0

/-- A call that gets a thing and returns a pointer to it, or one that is not good. -/
def getPointer (outcome : Bool) (r : Resource) : ModuleCall Bool :=
  if outcome then do
    acquire r
    pure true
  else pure false

/-- `alloc_chrdev_region`. -/
def allocChrdevRegion (outcome : Int32) (count : Nat) :
    ModuleCall (Except Int32 Nat) :=
  getNumbered outcome (Resource.region · count)

/-- `unregister_chrdev`: of the major number that it is given, the 256 numbers that
    `register_chrdev` would have got. -/
def unregisterChrdev (major : Nat) : ModuleCall Unit :=
  release (.region (major * 2 ^ 20) 256)

/-- `unregister_chrdev_region`. -/
def unregisterChrdevRegion (dev count : Nat) : ModuleCall Unit :=
  release (.region dev count)

/-- `class_create`. -/
def classCreate (outcome : Bool) (name : String) : ModuleCall Bool :=
  getPointer outcome (.devClass name)

/-- `class_destroy`. -/
def classDestroy (name : String) : ModuleCall Unit := release (.devClass name)

/-- `device_create`. -/
def deviceCreate (outcome : Bool) (name : String) (dev : Nat) : ModuleCall Bool :=
  getPointer outcome (.device name dev)

/-- `device_destroy`. -/
def deviceDestroy (name : String) (dev : Nat) : ModuleCall Unit :=
  release (.device name dev)

/-- `cdev_add`. -/
def cdevAdd (outcome : Int32) (dev count : Nat) : ModuleCall Int32 :=
  getNamed outcome (.cdev dev count)

/-- `cdev_del`. -/
def cdevDel (dev count : Nat) : ModuleCall Unit := release (.cdev dev count)

/-- `sock_create`. -/
def sockCreate (outcome : Int32) (type : SocketType) : ModuleCall (Except Int32 Nat) :=
  getNumbered outcome (Resource.socket type)

/-- `bind`. -/
def bindSocket (outcome : Int32) (type : SocketType) (n : Nat) : ModuleCall Int32 :=
  getNamed outcome (.port type n)

/-- `netlink_kernel_create`. -/
def netlinkKernelCreate (outcome : Bool) : ModuleCall Bool := getPointer outcome .netlink

/-- `netlink_kernel_release`. -/
def netlinkKernelRelease : ModuleCall Unit := release .netlink

/-- `proc_mkdir`. -/
def procMkdir (outcome : Bool) : ModuleCall Bool := getPointer outcome .procDir

/-- `proc_remove`. -/
def procRemove : ModuleCall Unit := release .procDir

/-- `kzalloc` of an address, which is filled in at once. -/
def kzallocAddr (outcome : Bool) : ModuleCall Nat :=
  if outcome then do
    let n ← newNumber
    acquire (.block n)
    pure n
  else fault

/-- `kthread_create`, of a thread that is woken up at once. -/
def kthreadCreate (outcome : Bool) (threadfn : ThreadFn) : ModuleCall Nat :=
  if outcome then do
    let s ← getState
    putState { s with threads := s.threads ++ [⟨threadfn, .created⟩] }
    acquire (.task s.threads.length)
    pure s.threads.length
  else fault

/-- `kthread_stop`; `returns` says whether a function that can return does so while it
    is waited for. -/
def kthreadStop (returns : Bool) (n : Nat) : ModuleCall Unit := do
  let s ← getState
  let thread ← orFault s.threads[n]?
  if thread.stops returns then do
    putState { s with threads := s.threads.set n { thread with state := .stopped } }
    release (.task n)
  else fault

/-! ## Loading -/

/-- `CLASS_NAME` of `device/peer.c`. -/
def PEER_CLASS : String := "dc_peer"

/-- `CLASS_NAME` of `device/manager.c`. -/
def MANAGER_CLASS : String := "dc_manager"

/-- `DISCOVERY_SERVER_PORT`. -/
def DISCOVERY_SERVER_PORT : Nat := 21233

/-- `SERVICE_SERVER_PORT`. -/
def SERVICE_SERVER_PORT : Nat := 21234

/-- What `alloc_chrdev_region`, `class_create`, `device_create` and `cdev_add` return. -/
structure DeviceEnv where
  region : Int32
  devClass : Bool
  device : Bool
  cdev : Int32

/-- What `sock_create`, `kzalloc`, `bind` and `kthread_create` return. -/
structure ServerEnv where
  socket : Int32
  addr : Bool
  bind : Int32
  task : Bool

/-- What the calls of a load return. -/
structure LoadEnv where
  peer : DeviceEnv
  discovery : ServerEnv
  broadcast : Bool
  service : ServerEnv
  netlink : Bool
  rebroadcast : Bool
  manager : DeviceEnv
  procMkdir : Bool

/-- The variables of a server. -/
structure ServerGlobals where
  sock : Nat
  addr : Nat
  task : Nat

/-- The variables of the module that point to what it holds. -/
structure ModuleGlobals where
  peerMajor : Nat
  discovery : ServerGlobals
  broadcastTask : Nat
  service : ServerGlobals
  managerMajor : Nat

/-- `init_peer_major_device`. -/
def initPeerMajorDevice (e : DeviceEnv) : ModuleCall (Except Int32 Nat) := do
  match ← allocChrdevRegion e.region PEER_MINORS with
  | .error err => pure (.error err)
  | .ok peerMajor => do
      if ← classCreate e.devClass PEER_CLASS then do
        let err ← cdevAdd e.cdev peerMajor PEER_MINORS
        if err < 0 then do
          deviceDestroy PEER_CLASS peerMajor
          pure (.error (-1))
        else pure (.ok peerMajor)
      else do
        unregisterChrdev peerMajor
        pure (.error (-1))

/-- `start_discovery_server` and `start_service_server`, for what they differ in. -/
def startServer (e : ServerEnv) (type : SocketType) (port : Nat) (loop : ThreadFn) :
    ModuleCall (Except Int32 ServerGlobals) := do
  match ← sockCreate e.socket type with
  | .error err => pure (.error err)
  | .ok sock => do
      let addr ← kzallocAddr e.addr
      let err ← bindSocket e.bind type port
      if err < 0 then pure (.error err)
      else do
        let task ← kthreadCreate e.task loop
        pure (.ok ⟨sock, addr, task⟩)

/-- `start_discovery_server`. -/
def startDiscoveryServer (e : ServerEnv) : ModuleCall (Except Int32 ServerGlobals) :=
  startServer e .dgram DISCOVERY_SERVER_PORT .discoveryServerLoop

/-- `start_service_server`. -/
def startServiceServer (e : ServerEnv) : ModuleCall (Except Int32 ServerGlobals) :=
  startServer e .stream SERVICE_SERVER_PORT .serviceServerLoop

/-- `start_broadcast`: the new value of `broadcast_loop_task`. -/
def startBroadcast (outcome : Bool) : ModuleCall Nat :=
  kthreadCreate outcome .broadcastLoop

/-- `init_interface_socket`. -/
def initInterfaceSocket (outcome : Bool) : ModuleCall Int32 := do
  if ← netlinkKernelCreate outcome then pure 0 else pure (-1)

/-- `register_manager_device`. -/
def registerManagerDevice (e : DeviceEnv) : ModuleCall (Except Int32 Nat) := do
  match ← allocChrdevRegion e.region 1 with
  | .error err => pure (.error err)
  | .ok managerMajor => do
      if ← classCreate e.devClass MANAGER_CLASS then do
        if ← deviceCreate e.device MANAGER_CLASS managerMajor then do
          let err ← cdevAdd e.cdev managerMajor 1
          if err < 0 then do
            deviceDestroy MANAGER_CLASS managerMajor
            classDestroy MANAGER_CLASS
            unregisterChrdevRegion managerMajor 1
            pure (.error (-1))
          else pure (.ok managerMajor)
        else do
          classDestroy MANAGER_CLASS
          unregisterChrdevRegion managerMajor 1
          pure (.error (-1))
      else do
        unregisterChrdev managerMajor
        pure (.error (-1))

/-- `init_procfs`. -/
def initProcfs (outcome : Bool) : ModuleCall Int32 := do
  if ← procMkdir outcome then pure 0 else pure (-1)

/-- `init_module`: the error, or the variables that it leaves. -/
def initModule (e : LoadEnv) : ModuleCall (Except Int32 ModuleGlobals) := do
  match ← initPeerMajorDevice e.peer with
  | .error _ => pure (.error (-1))
  | .ok peerMajor => do
      match ← startDiscoveryServer e.discovery with
      | .error _ => pure (.error (-1))
      | .ok discovery => do
          let _ ← startBroadcast e.broadcast
          match ← startServiceServer e.service with
          | .error _ => pure (.error (-1))
          | .ok service => do
              if (← initInterfaceSocket e.netlink) < 0 then pure (.error (-1))
              else do
                -- the task of the first call is overwritten
                let broadcastTask ← startBroadcast e.rebroadcast
                match ← registerManagerDevice e.manager with
                | .error _ => pure (.error (-1))
                | .ok managerMajor => do
                    if (← initProcfs e.procMkdir) < 0 then pure (.error (-1))
                    else
                      pure (.ok
                        ⟨peerMajor, discovery, broadcastTask, service, managerMajor⟩)

/-! ## Unloading -/

/-- `unregister_manager_device`. -/
def unregisterManagerDevice (g : ModuleGlobals) : ModuleCall Unit := do
  cdevDel g.managerMajor 1
  deviceDestroy MANAGER_CLASS g.managerMajor
  classDestroy MANAGER_CLASS
  unregisterChrdevRegion g.managerMajor 1

/-- `cleanup_module`. -/
def cleanupModule (returns : Bool) (g : ModuleGlobals) : ModuleCall Unit := do
  kthreadStop returns g.discovery.task
  kthreadStop returns g.broadcastTask
  kthreadStop returns g.service.task
  unregisterManagerDevice g
  netlinkKernelRelease
  procRemove

/-! ## What the calls of a load add -/

/-- So many numbers used up, the resources added, and the threads created. -/
def Holdings.plus (s : Holdings) (n : Nat) (rs : Multiset Resource)
    (fns : List ThreadFn) : Holdings :=
  ⟨s.next + n, s.held + rs, s.threads ++ fns.map (Thread.mk · .created)⟩

theorem plus_plus (s : Holdings) (n m : Nat) (rs qs : Multiset Resource)
    (fns gns : List ThreadFn) :
    (s.plus n rs fns).plus m qs gns = s.plus (n + m) (rs + qs) (fns ++ gns) := by
  rw [Holdings.plus, Holdings.plus, Holdings.plus, Nat.add_assoc, add_assoc,
    List.append_assoc, List.map_append]

theorem plus_more (s : Holdings) (n m : Nat) (rs qs os : Multiset Resource)
    (fns gns : List ThreadFn) :
    (s.plus n (rs + qs) fns).plus m os gns
      = s.plus (n + m) (rs + (qs + os)) (fns ++ gns) := by
  rw [plus_plus, add_assoc]

theorem length_plus {s : Holdings} (n : Nat) (rs : Multiset Resource)
    (fns : List ThreadFn) :
    (s.plus n rs fns).threads.length = s.threads.length + fns.length := by
  rw [Holdings.plus, List.length_append, List.length_map]

theorem plus_nothing (s : Holdings) : s.plus 0 0 [] = s := by
  rw [Holdings.plus, Nat.add_zero, add_zero, List.map_nil, List.append_nil]

/-- What is given back was got last. -/
theorem erase_added (rs : Multiset Resource) (r : Resource) : (rs + {r}).erase r = rs := by
  rw [add_comm, Multiset.singleton_add, Multiset.erase_cons_head]

/-- Nothing that the code gives back by mistake. -/
def Resource.Proper : Resource → Prop
  | .region _ count => count ≠ 256
  | .device name _ => name ≠ PEER_CLASS
  | _ => True

def Holdings.Proper (s : Holdings) : Prop := ∀ r ∈ s.held, r.Proper

theorem Holdings.Proper.plus {s : Holdings} (h : s.Proper) {n : Nat}
    {rs : Multiset Resource} {fns : List ThreadFn} (hrs : ∀ r ∈ rs, r.Proper) :
    (s.plus n rs fns).Proper := by
  intro r hr
  rcases Multiset.mem_add.mp hr with hold | hnew
  · exact h r hold
  · exact hrs r hnew

theorem proper_single {r : Resource} (h : r.Proper) :
    ∀ q ∈ ({r} : Multiset Resource), q.Proper := by
  intro q hq
  rw [Multiset.mem_singleton.mp hq]
  exact h

theorem proper_add {rs qs : Multiset Resource} (hr : ∀ r ∈ rs, r.Proper)
    (hq : ∀ q ∈ qs, q.Proper) : ∀ r ∈ rs + qs, r.Proper := by
  intro r hmem
  rcases Multiset.mem_add.mp hmem with h | h
  · exact hr r h
  · exact hq r h

section Calls

variable {s : Holdings} {α β : Type}

theorem run_then {p : ModuleCall α} {q : α → ModuleCall β} {s' : Holdings} {a : α}
    (h : p s = ⟨some a, s', []⟩) : (p >>= q) s = q a s' :=
  run_bind_some h

theorem run_stuck {p : ModuleCall α} {q : α → ModuleCall β} (h : (p s).ret = none) :
    ((p >>= q) s).ret = none := by
  cases hp : p s with
  | mk ret s' t =>
      rw [hp] at h
      replace h : ret = none := h
      rw [h] at hp
      rw [run_bind_none hp]

/-- What nobody holds is not given back. -/
theorem release_improper (hs : s.Proper) {r : Resource} (hr : ¬ r.Proper) :
    release r s = ⟨some (), s, []⟩ := by
  show (⟨some (), { s with held := s.held.erase r }, []⟩ : Outcome Holdings Empty Unit) = _
  rw [Multiset.erase_of_notMem fun hmem => hr (hs r hmem)]

theorem release_last {n : Nat} {rs : Multiset Resource} {r : Resource}
    {fns : List ThreadFn} :
    release r (s.plus n (rs + {r}) fns) = ⟨some (), s.plus n rs fns, []⟩ := by
  show (⟨some (), ⟨_, (s.held + (rs + {r})).erase r, _⟩, []⟩ : Outcome Holdings Empty Unit)
    = _
  rw [← add_assoc, erase_added]
  rfl

theorem run_acquire (r : Resource) : acquire r s = ⟨some (), s.plus 0 {r} [], []⟩ := by
  show (⟨some (), ⟨s.next, s.held + {r}, s.threads⟩, []⟩ : Outcome Holdings Empty Unit) = _
  rw [Holdings.plus, List.map_nil, List.append_nil, Nat.add_zero]

theorem run_newNumber : newNumber s = ⟨some s.next, s.plus 1 0 [], []⟩ := by
  show (⟨some s.next, ⟨s.next + 1, s.held, s.threads⟩, []⟩ : Outcome Holdings Empty Nat) = _
  rw [Holdings.plus, List.map_nil, List.append_nil, add_zero]

theorem release_only {n : Nat} {r : Resource} {fns : List ThreadFn} :
    release r (s.plus n {r} fns) = ⟨some (), s.plus n 0 fns, []⟩ := by
  have hlast := @release_last s n 0 r fns
  rwa [zero_add] at hlast

/-- A new thing with its number. -/
theorem run_numbered (r : Nat → Resource) {f : Nat → α} :
    (do
      let n ← newNumber
      acquire (r n)
      pure (f n) : ModuleCall α) s = ⟨some (f s.next), s.plus 1 {r s.next} [], []⟩ := by
  rw [run_then run_newNumber, run_then (run_acquire _), plus_plus, zero_add]
  rfl

theorem getNumbered_cases (outcome : Int32) (r : Nat → Resource) :
    (outcome < 0 ∧ getNumbered outcome r s = ⟨some (.error outcome), s, []⟩)
      ∨ (¬ outcome < 0 ∧ getNumbered outcome r s
          = ⟨some (.ok s.next), s.plus 1 {r s.next} [], []⟩) := by
  rw [getNumbered]
  by_cases h : outcome < 0
  · rw [if_pos h]
    exact Or.inl ⟨h, rfl⟩
  · rw [if_neg h]
    exact Or.inr ⟨h, run_numbered r⟩

theorem getNamed_cases (outcome : Int32) (r : Resource) :
    (outcome < 0 ∧ getNamed outcome r s = ⟨some outcome, s, []⟩)
      ∨ (¬ outcome < 0 ∧ getNamed outcome r s = ⟨some 0, s.plus 0 {r} [], []⟩) := by
  rw [getNamed]
  by_cases h : outcome < 0
  · rw [if_pos h]
    exact Or.inl ⟨h, rfl⟩
  · rw [if_neg h]
    exact Or.inr ⟨h, run_then (run_acquire r)⟩

theorem run_getPointer (r : Resource) :
    getPointer true r s = ⟨some true, s.plus 0 {r} [], []⟩ :=
  run_then (run_acquire r)

theorem run_getPointer_bad (r : Resource) :
    getPointer false r s = ⟨some false, s, []⟩ := rfl

theorem run_kzallocAddr :
    kzallocAddr true s = ⟨some s.next, s.plus 1 {.block s.next} [], []⟩ :=
  run_numbered Resource.block

theorem run_kthreadCreate (fn : ThreadFn) :
    kthreadCreate true fn s
      = ⟨some s.threads.length, s.plus 0 {.task s.threads.length} [fn], []⟩ := rfl

end Calls

/-! ## The steps of a load -/

/-- The calls of `init_peer_major_device` succeed. -/
structure DeviceEnv.FinePeer (e : DeviceEnv) : Prop where
  region : ¬ e.region < 0
  devClass : e.devClass = true
  cdev : ¬ e.cdev < 0

/-- The calls of `register_manager_device` succeed. -/
structure DeviceEnv.Fine (e : DeviceEnv) : Prop extends e.FinePeer where
  device : e.device = true

/-- The calls of a `start_…_server` succeed. -/
structure ServerEnv.Fine (e : ServerEnv) : Prop where
  socket : ¬ e.socket < 0
  addr : e.addr = true
  bind : ¬ e.bind < 0
  task : e.task = true

/-- What `init_peer_major_device` gets. -/
def peerHolds (dev : Nat) : Multiset Resource :=
  {.region dev PEER_MINORS} + {.devClass PEER_CLASS} + {.cdev dev PEER_MINORS}

/-- What it leaves where it fails. -/
def DeviceEnv.peerLeaves (e : DeviceEnv) (dev : Nat) : Multiset Resource :=
  if e.region < 0 then 0
  else {.region dev PEER_MINORS} + if e.devClass then {.devClass PEER_CLASS} else 0

/-- What a server gets. -/
def serverHolds (type : SocketType) (port : Nat) (g : ServerGlobals) : Multiset Resource :=
  {.socket type g.sock} + {.block g.addr} + {.port type port} + {.task g.task}

/-- What `register_manager_device` gets. -/
def managerHolds (dev : Nat) : Multiset Resource :=
  {.region dev 1} + {.devClass MANAGER_CLASS} + {.device MANAGER_CLASS dev} + {.cdev dev 1}

section Steps

variable {s : Holdings}

theorem initPeerMajorDevice_cases (hs : s.Proper) (e : DeviceEnv) :
    (¬ e.FinePeer ∧ ∃ err n, initPeerMajorDevice e s
        = ⟨some (.error err), s.plus n (e.peerLeaves s.next) [], []⟩)
      ∨ (e.FinePeer ∧ initPeerMajorDevice e s
          = ⟨some (.ok s.next), s.plus 1 (peerHolds s.next) [], []⟩) := by
  rw [initPeerMajorDevice]
  rcases getNumbered_cases (s := s) e.region (Resource.region · PEER_MINORS)
    with ⟨hregion, hrun⟩ | ⟨hregion, hrun⟩
  · refine Or.inl ⟨fun h => h.region hregion, e.region, 0, ?_⟩
    rw [DeviceEnv.peerLeaves, if_pos hregion, plus_nothing]
    exact run_then hrun
  have hmajor : (Resource.region s.next PEER_MINORS).Proper := by
    show PEER_MINORS ≠ 256
    decide
  rw [allocChrdevRegion, run_then hrun]
  dsimp only
  cases hclass : e.devClass with
  | false =>
      refine Or.inl ⟨fun h => Bool.false_ne_true (hclass.symm.trans h.devClass), -1, 1, ?_⟩
      rw [DeviceEnv.peerLeaves, if_neg hregion, hclass, if_neg Bool.false_ne_true, add_zero,
        classCreate, run_then (run_getPointer_bad _), if_neg Bool.false_ne_true]
      exact run_then (release_improper (hs.plus (proper_single hmajor)) fun h => h rfl)
  | true =>
      rw [classCreate, run_then (run_getPointer _), if_pos rfl, plus_plus]
      rcases getNamed_cases (s := s.plus (1 + 0) _ _) e.cdev (.cdev s.next PEER_MINORS)
        with ⟨hcdev, hrun⟩ | ⟨hcdev, hrun⟩
      · refine Or.inl ⟨fun h => h.cdev hcdev, -1, 1, ?_⟩
        rw [DeviceEnv.peerLeaves, if_neg hregion, hclass, if_pos rfl, cdevAdd,
          run_then hrun, if_pos hcdev]
        have hclass : (Resource.devClass PEER_CLASS).Proper := trivial
        exact run_then (release_improper (hs.plus (proper_add (proper_single hmajor)
          (proper_single hclass))) fun h => h rfl)
      · refine Or.inr ⟨⟨hregion, hclass, hcdev⟩, ?_⟩
        rw [cdevAdd, run_then hrun, if_neg (by decide), plus_plus]
        rfl

theorem startServer_cases (e : ServerEnv) (type : SocketType) (port : Nat)
    (loop : ThreadFn) :
    (¬ e.Fine ∧ (startServer e type port loop s).ret = none)
      ∨ (¬ e.Fine ∧ ∃ err n rs, (∀ r ∈ rs, r.Proper)
          ∧ startServer e type port loop s = ⟨some (.error err), s.plus n rs [], []⟩)
      ∨ (e.Fine ∧ ∃ g, g.task = s.threads.length ∧ startServer e type port loop s
          = ⟨some (.ok g), s.plus 2 (serverHolds type port g) [loop], []⟩) := by
  rw [startServer]
  rcases getNumbered_cases (s := s) e.socket (Resource.socket type)
    with ⟨hsocket, hrun⟩ | ⟨hsocket, hrun⟩
  · refine Or.inr (Or.inl ⟨fun h => h.socket hsocket, e.socket, 0, 0,
      fun r hr => absurd hr (Multiset.notMem_zero r), ?_⟩)
    rw [plus_nothing]
    exact run_then hrun
  rw [sockCreate, run_then hrun]
  dsimp only
  cases haddr : e.addr with
  | false => exact Or.inl ⟨fun h => Bool.false_ne_true (haddr.symm.trans h.addr), rfl⟩
  | true =>
      rw [run_then run_kzallocAddr, plus_plus]
      rcases getNamed_cases (s := s.plus _ _ _) e.bind (.port type port)
        with ⟨hbind, hrun⟩ | ⟨hbind, hrun⟩
      · have hsock : (Resource.socket type s.next).Proper := trivial
        have hblock : (Resource.block (s.next + 1)).Proper := trivial
        refine Or.inr (Or.inl ⟨fun h => h.bind hbind, e.bind, 2, _,
          proper_add (proper_single hsock) (proper_single hblock), ?_⟩)
        rw [bindSocket, run_then hrun, if_pos hbind]
        rfl
      · rw [bindSocket, run_then hrun, if_neg (by decide), plus_plus]
        cases htask : e.task with
        | false => exact Or.inl ⟨fun h => Bool.false_ne_true (htask.symm.trans h.task), rfl⟩
        | true =>
            rw [run_then (run_kthreadCreate loop), plus_plus]
            refine Or.inr (Or.inr ⟨⟨hsocket, haddr, hbind, htask⟩,
              ⟨s.next, s.next + 1, s.threads.length⟩, rfl, ?_⟩)
            rw [serverHolds]
            simp [Holdings.plus]

theorem registerManagerDevice_cases (hs : s.Proper) (e : DeviceEnv) :
    (¬ e.Fine ∧ ∃ err n rs, (∀ r ∈ rs, r.Proper)
        ∧ registerManagerDevice e s = ⟨some (.error err), s.plus n rs [], []⟩)
      ∨ (e.Fine ∧ registerManagerDevice e s
          = ⟨some (.ok s.next), s.plus 1 (managerHolds s.next) [], []⟩) := by
  have hmajor : (Resource.region s.next 1).Proper := by
    show 1 ≠ 256
    decide
  have hnothing : ∀ r ∈ (0 : Multiset Resource), r.Proper :=
    fun r hr => absurd hr (Multiset.notMem_zero r)
  rw [registerManagerDevice]
  rcases getNumbered_cases (s := s) e.region (Resource.region · 1)
    with ⟨hregion, hrun⟩ | ⟨hregion, hrun⟩
  · refine Or.inl ⟨fun h => h.region hregion, e.region, 0, 0, hnothing, ?_⟩
    rw [plus_nothing]
    exact run_then hrun
  rw [allocChrdevRegion, run_then hrun]
  dsimp only
  cases hclass : e.devClass with
  | false =>
      refine Or.inl ⟨fun h => Bool.false_ne_true (hclass.symm.trans h.devClass), -1, 1, _,
        proper_single hmajor, ?_⟩
      rw [classCreate, run_then (run_getPointer_bad _), if_neg Bool.false_ne_true]
      exact run_then (release_improper (hs.plus (proper_single hmajor)) fun h => h rfl)
  | true =>
      rw [classCreate, run_then (run_getPointer _), if_pos rfl, plus_plus]
      cases hdevice : e.device with
      | false =>
          refine Or.inl ⟨fun h => Bool.false_ne_true (hdevice.symm.trans h.device), -1, 1,
            0, hnothing, ?_⟩
          rw [deviceCreate, run_then (run_getPointer_bad _), if_neg Bool.false_ne_true,
            classDestroy, run_then release_last, unregisterChrdevRegion,
            run_then release_only]
          rfl
      | true =>
          rw [deviceCreate, run_then (run_getPointer _), if_pos rfl, plus_plus]
          rcases getNamed_cases (s := s.plus _ _ _) e.cdev (.cdev s.next 1)
            with ⟨hcdev, hrun⟩ | ⟨hcdev, hrun⟩
          · refine Or.inl ⟨fun h => h.cdev hcdev, -1, 1, 0, hnothing, ?_⟩
            rw [cdevAdd, run_then hrun, if_pos hcdev, deviceDestroy, run_then release_last,
              classDestroy, run_then release_last, unregisterChrdevRegion,
              run_then release_only]
            rfl
          · refine Or.inr ⟨⟨⟨hregion, hclass, hcdev⟩, hdevice⟩, ?_⟩
            rw [cdevAdd, run_then hrun, if_neg (by decide), plus_plus]
            rfl

theorem run_initInterfaceSocket :
    initInterfaceSocket true s = ⟨some 0, s.plus 0 {.netlink} [], []⟩ :=
  run_then (run_getPointer .netlink)

theorem run_initProcfs : initProcfs true s = ⟨some 0, s.plus 0 {.procDir} [], []⟩ :=
  run_then (run_getPointer .procDir)

/-- All calls of a load succeed. -/
structure LoadEnv.Fine (e : LoadEnv) : Prop where
  peer : e.peer.FinePeer
  discovery : e.discovery.Fine
  broadcast : e.broadcast = true
  service : e.service.Fine
  netlink : e.netlink = true
  rebroadcast : e.rebroadcast = true
  manager : e.manager.Fine
  procMkdir : e.procMkdir = true

/-- What a load leaves that fails. -/
structure LoadEnv.Leaves (e : LoadEnv) (dev : Nat) (rs : Multiset Resource)
    (fns : List ThreadFn) : Prop where
  proper : ∀ r ∈ rs, r.Proper
  early : ¬ e.peer.FinePeer → rs = e.peer.peerLeaves dev ∧ fns = []
  late : e.peer.FinePeer → peerHolds dev ≤ rs
  threads : fns = [] ↔ ¬ (e.peer.FinePeer ∧ e.discovery.Fine)

theorem LoadEnv.leaves_late {e : LoadEnv} {dev : Nat} (hpeer : e.peer.FinePeer)
    {rs : Multiset Resource} (hproper : ∀ r ∈ rs, r.Proper) (hle : peerHolds dev ≤ rs)
    {fns : List ThreadFn} (hfns : fns = [] ↔ ¬ e.discovery.Fine) : e.Leaves dev rs fns where
  proper := hproper
  early h := absurd hpeer h
  late _ := hle
  threads := by
    rw [hfns, not_iff_not]
    exact ⟨fun h => ⟨hpeer, h⟩, fun h => h.2⟩

theorem peerLeaves_proper (e : DeviceEnv) (dev : Nat) :
    ∀ r ∈ e.peerLeaves dev, r.Proper := by
  intro r hr
  rw [DeviceEnv.peerLeaves] at hr
  by_cases hregion : e.region < 0
  · rw [if_pos hregion] at hr
    exact absurd hr (Multiset.notMem_zero r)
  rw [if_neg hregion] at hr
  rcases Multiset.mem_add.mp hr with h | h
  · rw [Multiset.mem_singleton.mp h]
    show PEER_MINORS ≠ 256
    decide
  · cases hclass : e.devClass with
    | false =>
        rw [hclass, if_neg Bool.false_ne_true] at h
        exact absurd h (Multiset.notMem_zero r)
    | true =>
        rw [hclass, if_pos rfl] at h
        rw [Multiset.mem_singleton.mp h]
        trivial

/-- What the module has in its variables and does not give back; the task of the first
    `start_broadcast` is in none. -/
def ModuleGlobals.keeps (g : ModuleGlobals) (orphan : Nat) : Multiset Resource :=
  peerHolds g.peerMajor + {.socket .dgram g.discovery.sock} + {.block g.discovery.addr}
    + {.port .dgram DISCOVERY_SERVER_PORT} + {.task orphan}
    + {.socket .stream g.service.sock} + {.block g.service.addr}
    + {.port .stream SERVICE_SERVER_PORT}

/-- What `cleanup_module` gives back, in the opposite order. -/
def ModuleGlobals.gives (g : ModuleGlobals) : Multiset Resource :=
  {.procDir} + {.netlink} + {.region g.managerMajor 1} + {.devClass MANAGER_CLASS}
    + {.device MANAGER_CLASS g.managerMajor} + {.cdev g.managerMajor 1}
    + {.task g.service.task} + {.task g.broadcastTask} + {.task g.discovery.task}

theorem proper_peerHolds (dev : Nat) : ∀ r ∈ peerHolds dev, r.Proper := by
  have h1 : (Resource.region dev PEER_MINORS).Proper := by
    show PEER_MINORS ≠ 256
    decide
  have h2 : (Resource.devClass PEER_CLASS).Proper := trivial
  have h3 : (Resource.cdev dev PEER_MINORS).Proper := trivial
  exact proper_add (proper_add (proper_single h1) (proper_single h2)) (proper_single h3)

theorem proper_serverHolds (type : SocketType) (port : Nat) (g : ServerGlobals) :
    ∀ r ∈ serverHolds type port g, r.Proper := by
  have h1 : (Resource.socket type g.sock).Proper := trivial
  have h2 : (Resource.block g.addr).Proper := trivial
  have h3 : (Resource.port type port).Proper := trivial
  have h4 : (Resource.task g.task).Proper := trivial
  exact proper_add (proper_add (proper_add (proper_single h1) (proper_single h2))
    (proper_single h3)) (proper_single h4)

theorem proper_managerHolds (dev : Nat) : ∀ r ∈ managerHolds dev, r.Proper := by
  have h1 : (Resource.region dev 1).Proper := by
    show 1 ≠ 256
    decide
  have h2 : (Resource.devClass MANAGER_CLASS).Proper := trivial
  have h3 : (Resource.device MANAGER_CLASS dev).Proper := by
    show MANAGER_CLASS ≠ PEER_CLASS
    decide
  have h4 : (Resource.cdev dev 1).Proper := trivial
  exact proper_add (proper_add (proper_add (proper_single h1) (proper_single h2))
    (proper_single h3)) (proper_single h4)

/-- **A LOAD** does not come to an end, fails, or gets everything. -/
theorem initModule_cases (hs : s.Proper) (e : LoadEnv) :
    (¬ e.Fine ∧ (initModule e s).ret = none)
      ∨ (¬ e.Fine ∧ ∃ n rs fns, e.Leaves s.next rs fns
          ∧ initModule e s = ⟨some (.error (-1)), s.plus n rs fns, []⟩)
      ∨ (e.Fine ∧ ∃ g orphan n fns, g.peerMajor = s.next
          ∧ g.discovery.task = s.threads.length ∧ orphan = s.threads.length + 1
          ∧ g.service.task = s.threads.length + 2 ∧ g.broadcastTask = s.threads.length + 3
          ∧ fns = [.discoveryServerLoop, .broadcastLoop, .serviceServerLoop, .broadcastLoop]
          ∧ (∀ r ∈ g.keeps orphan + g.gives, r.Proper)
          ∧ initModule e s
            = ⟨some (.ok g), s.plus n (g.keeps orphan + g.gives) fns, []⟩) := by
  rw [initModule]
  rcases initPeerMajorDevice_cases hs e.peer with ⟨hpeer, err, n, hrun⟩ | ⟨hpeer, hrun⟩
  · refine Or.inr (Or.inl ⟨fun h => hpeer h.peer, n, _, [],
      ⟨peerLeaves_proper _ _, fun _ => ⟨rfl, rfl⟩, fun h => absurd h hpeer,
        iff_of_true rfl fun h => hpeer h.1⟩, run_then hrun⟩)
  rw [run_then hrun]
  dsimp only
  have hproper1 := proper_peerHolds s.next
  rcases startServer_cases (s := s.plus 1 (peerHolds s.next) []) e.discovery .dgram
      DISCOVERY_SERVER_PORT .discoveryServerLoop
    with ⟨hdiscovery, hrun⟩ | ⟨hdiscovery, err, n, rs, hrs, hrun⟩
      | ⟨hdiscovery, d, hd, hrun⟩
  · exact Or.inl ⟨fun h => hdiscovery h.discovery, run_stuck hrun⟩
  · rw [plus_plus] at hrun
    exact Or.inr (Or.inl ⟨fun h => hdiscovery h.discovery, _, _, _,
      LoadEnv.leaves_late hpeer (proper_add hproper1 hrs) le_self_add
        (iff_of_true rfl hdiscovery), run_then hrun⟩)
  rw [startDiscoveryServer, run_then hrun, plus_plus]
  dsimp only
  -- the first thread runs: whatever fails from here on leaves it behind
  have hlate : ∀ {rs : Multiset Resource} {fn : ThreadFn} {fns : List ThreadFn},
      (∀ r ∈ rs, r.Proper) → e.Leaves s.next (peerHolds s.next + rs) (fn :: fns) :=
    fun hrs => LoadEnv.leaves_late hpeer (proper_add hproper1 hrs) le_self_add
      (iff_of_false (List.cons_ne_nil _ _) (not_not_intro hdiscovery))
  have hproper2 := proper_serverHolds .dgram DISCOVERY_SERVER_PORT d
  rcases hbroadcast : e.broadcast with _ | _
  · exact Or.inl ⟨fun h => Bool.false_ne_true (hbroadcast.symm.trans h.broadcast),
      rfl⟩
  rw [startBroadcast, run_then (run_kthreadCreate _), plus_more, length_plus]
  have htask : ∀ n, ∀ r ∈ ({.task n} : Multiset Resource), r.Proper :=
    fun _ => proper_single trivial
  have hproper3 := fun n => proper_add hproper2 (htask n)
  rcases startServer_cases (s := s.plus _ _ _) e.service .stream SERVICE_SERVER_PORT
      .serviceServerLoop
    with ⟨hservice, hrun⟩ | ⟨hservice, err, n, rs, hrs, hrun⟩ | ⟨hservice, g, hg, hrun⟩
  · exact Or.inl ⟨fun h => hservice h.service, run_stuck hrun⟩
  · rw [plus_more] at hrun
    exact Or.inr (Or.inl ⟨fun h => hservice h.service, _, _, _,
      hlate (proper_add (hproper3 _) hrs), run_then hrun⟩)
  rw [startServiceServer, run_then hrun, plus_more]
  dsimp only
  have hproper4 := fun n => proper_add (hproper3 n)
    (proper_serverHolds .stream SERVICE_SERVER_PORT g)
  rcases hnetlink : e.netlink with _ | _
  · exact Or.inr (Or.inl ⟨fun h => Bool.false_ne_true (hnetlink.symm.trans h.netlink),
      _, _, _, hlate (hproper4 _), rfl⟩)
  rw [run_then run_initInterfaceSocket, if_neg (by decide), plus_more]
  have hproper5 := fun n => proper_add (hproper4 n)
    (proper_single (show Resource.netlink.Proper from trivial))
  rcases hagain : e.rebroadcast with _ | _
  · exact Or.inl ⟨fun h => Bool.false_ne_true (hagain.symm.trans h.rebroadcast),
      rfl⟩
  rw [startBroadcast, run_then (run_kthreadCreate _), plus_more, length_plus]
  have hproper6 := fun n m => proper_add (hproper5 n) (htask m)
  rcases registerManagerDevice_cases (s := s.plus _ _ _)
      (hs.plus (proper_add hproper1 (hproper6 _ _))) e.manager
    with ⟨hmanager, err, n, rs, hrs, hrun⟩ | ⟨hmanager, hrun⟩
  · rw [plus_more] at hrun
    exact Or.inr (Or.inl ⟨fun h => hmanager h.manager, _, _, _,
      hlate (proper_add (hproper6 _ _) hrs), run_then hrun⟩)
  rw [run_then hrun, plus_more]
  dsimp only
  rcases hproc : e.procMkdir with _ | _
  · exact Or.inr (Or.inl ⟨fun h => Bool.false_ne_true (hproc.symm.trans h.procMkdir),
      _, _, _, hlate (proper_add (hproper6 _ _) (proper_managerHolds _)), rfl⟩)
  rw [run_then run_initProcfs, if_neg (by decide), plus_more]
  rw [length_plus] at hd hg
  refine Or.inr (Or.inr ⟨⟨hpeer, hdiscovery, hbroadcast, hservice, hnetlink, hagain,
    hmanager, hproc⟩, ⟨s.next, d, s.threads.length + 3, g, s.next + 5⟩,
    s.threads.length + 1, 6, _, rfl, hd, rfl, hg, rfl, rfl, ?_⟩)
  have hheld : ∀ a b dev, peerHolds s.next + (serverHolds .dgram DISCOVERY_SERVER_PORT d
      + {.task a} + serverHolds .stream SERVICE_SERVER_PORT g + {.netlink} + {.task b}
      + managerHolds dev + {.procDir})
      = ModuleGlobals.keeps ⟨s.next, d, b, g, dev⟩ a
        + ModuleGlobals.gives ⟨s.next, d, b, g, dev⟩ := by
    intro a b dev
    simp only [ModuleGlobals.keeps, ModuleGlobals.gives, serverHolds, managerHolds]
    abel
  rw [hheld]
  refine ⟨?_, rfl⟩
  rw [← hheld]
  exact proper_add hproper1 (proper_add (proper_add (hproper6 _ _) (proper_managerHolds _))
    (proper_single trivial))

end Steps

/-! ## What an unload gives back -/

section Unload

variable {s : Holdings}

theorem release_held {rs : Multiset Resource} {r : Resource} (h : s.held = rs + {r}) :
    release r s = ⟨some (), { s with held := rs }, []⟩ := by
  show (⟨some (), { s with held := s.held.erase r }, []⟩ : Outcome Holdings Empty Unit) = _
  rw [h, erase_added]

theorem kthreadStop_cases (returns : Bool) {n : Nat} {t : Thread}
    (ht : s.threads[n]? = some t) :
    (t.stops returns = false ∧ (kthreadStop returns n s).ret = none)
      ∨ (t.stops returns = true ∧ kthreadStop returns n s = ⟨some (), ⟨s.next,
          s.held.erase (.task n), s.threads.set n { t with state := .stopped }⟩, []⟩) := by
  have hrun : kthreadStop returns n s = (if t.stops returns then do
        putState { s with threads := s.threads.set n { t with state := .stopped } }
        release (.task n)
      else fault : ModuleCall Unit) s := by
    show (orFault s.threads[n]? >>= _ : ModuleCall Unit) s = _
    rw [ht]
    rfl
  rw [hrun]
  cases hstops : t.stops returns with
  | false => exact Or.inl ⟨rfl, rfl⟩
  | true => exact Or.inr ⟨rfl, rfl⟩

theorem run_unregisterManagerDevice {g : ModuleGlobals} {rs : Multiset Resource}
    (h : s.held = rs + {.region g.managerMajor 1} + {.devClass MANAGER_CLASS}
      + {.device MANAGER_CLASS g.managerMajor} + {.cdev g.managerMajor 1}) :
    unregisterManagerDevice g s = ⟨some (), { s with held := rs }, []⟩ := by
  rw [unregisterManagerDevice, cdevDel, run_then (release_held h), deviceDestroy,
    run_then (release_held rfl), classDestroy, run_then (release_held rfl)]
  exact release_held rfl

/-- The threads of a loaded module: those that an unload stops, and the one of the
    first `start_broadcast`. -/
structure ModuleGlobals.Threads (g : ModuleGlobals) (orphan : Nat)
    (threads : List Thread) : Prop where
  discovery : ∃ t, threads[g.discovery.task]? = some t ∧ t.threadfn = .discoveryServerLoop
  firstBroadcast : ∃ t, threads[orphan]? = some t ∧ t.threadfn = .broadcastLoop
  service : ∃ t, threads[g.service.task]? = some t ∧ t.threadfn = .serviceServerLoop
  broadcast : ∃ t, threads[g.broadcastTask]? = some t ∧ t.threadfn = .broadcastLoop
  twice : orphan ≠ g.broadcastTask

/-- Two threads with different functions are two. -/
theorem task_ne {threads : List Thread} {n m : Nat} {fn fn' : ThreadFn}
    (hn : ∃ t, threads[n]? = some t ∧ t.threadfn = fn)
    (hm : ∃ t, threads[m]? = some t ∧ t.threadfn = fn') (hne : fn ≠ fn') : n ≠ m := by
  rintro rfl
  obtain ⟨t, ht, rfl⟩ := hn
  obtain ⟨u, hu, rfl⟩ := hm
  rw [ht] at hu
  exact hne (congrArg Thread.threadfn (Option.some.inj hu))

/-- The discovery loop and the broadcast loop were not entered, and the service loop was
    not either, or it returns while it is waited for. -/
structure ModuleGlobals.Stoppable (g : ModuleGlobals) (returns : Bool)
    (threads : List Thread) : Prop where
  discovery : ∀ t, threads[g.discovery.task]? = some t → t.state = .created
  broadcast : ∀ t, threads[g.broadcastTask]? = some t → t.state = .created
  service : ∀ t, threads[g.service.task]? = some t →
    t.state = .created ∨ t.state = .looping ∧ returns = true

/-- A thread without a way out is only stopped before it enters its loop. -/
theorem Thread.stops_iff {t : Thread} (hexit : t.threadfn.hasExit = false)
    (returns : Bool) : t.stops returns = true ↔ t.state = .created := by
  rw [Thread.stops, hexit, Bool.and_false]
  cases t.state with
  | created => exact iff_of_true rfl rfl
  | looping => exact iff_of_false Bool.false_ne_true (fun h => nomatch h)
  | returned => exact iff_of_false Bool.false_ne_true (fun h => nomatch h)
  | stopped => exact iff_of_false Bool.false_ne_true (fun h => nomatch h)

theorem Thread.stops_iff_returns {t : Thread} (hexit : t.threadfn.hasExit = true)
    (returns : Bool) : t.stops returns = true
      ↔ t.state = .created ∨ t.state = .looping ∧ returns = true := by
  rw [Thread.stops, hexit, Bool.and_true]
  cases t.state with
  | created => exact iff_of_true rfl (Or.inl rfl)
  | looping => simp
  | returned => simp
  | stopped => simp

/-- **AN UNLOAD** comes to an end if its threads can be stopped, gives back its part, and
    leaves the other threads alone. -/
theorem cleanupModule_cases {g : ModuleGlobals} {orphan : Nat} (returns : Bool)
    (hg : g.Threads orphan s.threads) :
    (¬ g.Stoppable returns s.threads ∧ (cleanupModule returns g s).ret = none)
      ∨ (g.Stoppable returns s.threads ∧ ∃ threads,
          (∀ n, n ≠ g.discovery.task → n ≠ g.broadcastTask → n ≠ g.service.task →
            threads[n]? = s.threads[n]?)
          ∧ ∀ rs, s.held = rs + g.gives →
            cleanupModule returns g s = ⟨some (), ⟨s.next, rs, threads⟩, []⟩) := by
  obtain ⟨td, hd, hdfn⟩ := hg.discovery
  obtain ⟨tb, hb, hbfn⟩ := hg.broadcast
  obtain ⟨ts, hs, hsfn⟩ := hg.service
  have hdb : g.discovery.task ≠ g.broadcastTask :=
    task_ne hg.discovery hg.broadcast (fun h => nomatch h)
  have hds : g.discovery.task ≠ g.service.task :=
    task_ne hg.discovery hg.service (fun h => nomatch h)
  have hbs : g.broadcastTask ≠ g.service.task :=
    task_ne hg.broadcast hg.service (fun h => nomatch h)
  have hdiff := Thread.stops_iff (t := td) (by rw [hdfn]; rfl) returns
  have hbiff := Thread.stops_iff (t := tb) (by rw [hbfn]; rfl) returns
  have hsiff := Thread.stops_iff_returns (t := ts) (by rw [hsfn]; rfl) returns
  rw [cleanupModule]
  rcases kthreadStop_cases returns hd with ⟨hno, hrun⟩ | ⟨hd', hrun⟩
  · refine Or.inl ⟨fun h => ?_, run_stuck hrun⟩
    exact Bool.false_ne_true (hno.symm.trans (hdiff.mpr (h.discovery td hd)))
  rw [run_then hrun]
  have hb1 : (s.threads.set g.discovery.task
      { td with state := .stopped })[g.broadcastTask]? = some tb := by
    rw [List.getElem?_set_ne hdb, hb]
  rcases @kthreadStop_cases ⟨s.next, _, _⟩ returns _ _ hb1 with ⟨hno, hrun⟩ | ⟨hb', hrun⟩
  · refine Or.inl ⟨fun h => ?_, run_stuck hrun⟩
    exact Bool.false_ne_true (hno.symm.trans (hbiff.mpr (h.broadcast tb hb)))
  rw [run_then hrun]
  have hs1 : ((s.threads.set g.discovery.task { td with state := .stopped }).set
      g.broadcastTask { tb with state := .stopped })[g.service.task]? = some ts := by
    rw [List.getElem?_set_ne hbs, List.getElem?_set_ne hds, hs]
  rcases @kthreadStop_cases ⟨s.next, _, _⟩ returns _ _ hs1 with ⟨hno, hrun⟩ | ⟨hs', hrun⟩
  · refine Or.inl ⟨fun h => ?_, run_stuck hrun⟩
    exact Bool.false_ne_true (hno.symm.trans (hsiff.mpr (h.service ts hs)))
  rw [run_then hrun]
  refine Or.inr ⟨⟨fun t ht => ?_, fun t ht => ?_, fun t ht => ?_⟩,
    ((s.threads.set g.discovery.task { td with state := .stopped }).set g.broadcastTask
      { tb with state := .stopped }).set g.service.task { ts with state := .stopped },
    fun n hnd hnb hns => ?_, fun rs h => ?_⟩
  · rw [← Option.some.inj (hd.symm.trans ht)]
    exact hdiff.mp hd'
  · rw [← Option.some.inj (hb.symm.trans ht)]
    exact hbiff.mp hb'
  · rw [← Option.some.inj (hs.symm.trans ht)]
    exact hsiff.mp hs'
  · rw [List.getElem?_set_ne hns.symm, List.getElem?_set_ne hnb.symm,
      List.getElem?_set_ne hnd.symm]
  · rw [ModuleGlobals.gives, ← add_assoc, ← add_assoc, ← add_assoc, ← add_assoc,
      ← add_assoc, ← add_assoc, ← add_assoc, ← add_assoc] at h
    rw [h, erase_added, erase_added, erase_added,
      run_then (run_unregisterManagerDevice rfl), netlinkKernelRelease,
      run_then (release_held rfl), procRemove]
    exact release_held rfl

end Unload

end DistComm
