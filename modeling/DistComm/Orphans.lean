import DistComm.Connection
import DistComm.NetlinkBounds
import DistComm.Slots

/-! # Orphaned connections

    The service with its connections: they are accepted, `handle_connection` runs to
    its end on whatever arrives, results come in for any interface, and the
    registry changes.  An accepted socket that is no longer handled should be in the
    `ctrl` of an interface that still owes it an answer, or released.

    No function of the service releases a socket.  A connection is in good hands only
    from the request that is forwarded for it until the result: `Kept` says which
    steps leave it there, and no connection is orphaned exactly in the runs of such
    steps (`no_orphans_iff`). -/

namespace DistComm

open RawMemory RawScan PointerArray TracedProgram Transition

/-- The service: the registry, the sockets of the running `handle_connection`s, the
    accepted sockets that are no longer handled, those whose request was forwarded
    and is not answered yet, and those that were released. -/
structure Server where
  registry : Registry
  handled : List SockId
  parked : List SockId
  unanswered : List SockId
  released : List SockId

def Server.initial : Server := ⟨Registry.initial, [], [], [], []⟩

inductive ServerCall where
  | accept (sock : SockId)
  | handle (env : Env) (getname : Int32) (r : Receiver) (sock : SockId)
      (incoming : List UInt8)
  | result (env : Env) (m : Mem) (packet : Nat) (packetLength portid : UInt32)
  | call (c : RegistryCall)

/-- The sockets that something was sent to. -/
def answered (t : List Event) : List SockId :=
  t.filterMap fun
    | .sendto sock _ ret => if ret < 0 then none else some sock
    | _ => none

/-- One step; `none` where it faults, or is not possible.  An accepted socket is a
    new one.  The end of `handle_connection` parks the socket, and its request
    counts as unanswered if it reached a process; a result answers the sockets that
    it is sent to. -/
def Server.step (s : Server) : ServerCall → Option Server
  | .accept sock =>
      if sock ∈ s.handled ∨ sock ∈ s.parked then none
      else some { s with handled := sock :: s.handled }
  | .handle env getname r sock incoming =>
      if sock ∈ s.handled then
        let o := handleConnection env getname r sock incoming s.registry
        o.ret.map fun _ => { s with
          registry := o.state
          handled := s.handled.filter fun other => other ≠ sock
          parked := sock :: s.parked
          unanswered := if deliveries o.trace = [] then s.unanswered
            else sock :: s.unanswered }
      else none
  | .result env m packet packetLength portid =>
      let o := handleInterfaceResult env m packet packetLength portid s.registry
      o.ret.map fun _ => { s with
        registry := o.state
        unanswered := s.unanswered.filter fun sock => sock ∉ answered o.trace }
  | .call c => (s.registry.step c).map fun k => { s with registry := k }

/-- The socket is the `socket` of a registered interface. -/
def Registry.Remembers (k : Registry) (sock : SockId) : Prop :=
  ∃ i p x, k.At i p x ∧ x.ctrl.socket = some sock

/-- Every accepted socket that is not handled is released, or its request is not
    answered yet and an interface remembers it. -/
def Server.NoOrphans (s : Server) : Prop :=
  ∀ sock ∈ s.parked,
    sock ∈ s.released ∨ sock ∈ s.unanswered ∧ s.registry.Remembers sock

/-! ## Which steps orphan no connection -/

/-- `handle_connection` receives a packet with an id other than 0, and finds the
    interface `x` for it. -/
def Requests (getname : Int32) (r : Receiver) (incoming : List UInt8)
    (k : Registry) (p : Nat) (x : Interface) : Prop :=
  ¬ getname < 0 ∧ ∃ buffer length,
    receiveFrame (fun _ => 0) r incoming = some (buffer, length)
      ∧ wordAt buffer 0 ≠ 0
      ∧ k.findInterface (wordAt buffer 0).toInt32 = some (some (p, x))

/-- The steps that orphan no connection.  A connection requests an interface that
    waits for no other, and the request reaches the process; a result comes for an
    interface without a socket, or cannot be sent; a removal leaves every interface
    with a socket in a slot in front of what it removes. -/
def Kept (s : Server) : ServerCall → Prop
  | .accept _ => True
  | .handle env getname r _ incoming =>
      ∃ p x, Requests getname r incoming s.registry p x ∧ x.ctrl.socket = none
        ∧ env.skbAlloc = true ∧ ¬ env.unicastRet < 0
  | .result env m packet _ _ => ∀ p x sock,
      s.registry.findInterface (wordAt m packet).toInt32 = some (some (p, x)) →
        x.ctrl.socket = some sock → env.sendRet 0 < 0 ∧ env.sendRet 1 < 0
  | .call (.remove id) => ∀ j q y sock, s.registry.At j q y →
      y.ctrl.socket = some sock → ∃ j', s.registry.At j' q y
        ∧ ∀ i p x, i ≤ j' → s.registry.At i p x → x.id ≠ id
  | .call _ => True

/-! ## What the steps do -/

/-- **A CONNECTION** that requests an interface puts its socket there, and a message
    reaches the process if nothing fails; any other connection leaves nothing
    behind. -/
theorem handleConnection_cases {k : Registry} (hk : k.Live) (env : Env)
    (getname : Int32) (r : Receiver) (sock : SockId) (incoming : List UInt8) :
    (∃ p x, Requests getname r incoming k p x
        ∧ (handleConnection env getname r sock incoming k).state
          = k.assign p (x.setSocket (some sock))
        ∧ (deliveries (handleConnection env getname r sock incoming k).trace = []
          ↔ ¬ (env.skbAlloc = true ∧ ¬ env.unicastRet < 0)))
      ∨ (∀ p x, ¬ Requests getname r incoming k p x)
        ∧ (handleConnection env getname r sock incoming k).state = k
        ∧ deliveries (handleConnection env getname r sock incoming k).trace
          = [] := by
  by_cases hname : getname < 0
  · rw [handleConnection, if_pos hname]
    exact Or.inr ⟨fun p x hreq => hreq.1 hname, rfl, rfl⟩
  cases hframe : receiveFrame (fun _ => 0) r incoming with
  | none =>
      rw [handleConnection, if_neg hname, hframe]
      refine Or.inr ⟨?_, rfl, rfl⟩
      rintro p x ⟨-, buffer, length, hsome, -⟩
      rw [hframe] at hsome
      cases hsome
  | some received =>
      obtain ⟨buffer, length⟩ := received
      have hnot : (wordAt buffer 0 = 0
          ∨ k.findInterface (wordAt buffer 0).toInt32 = some none) →
          ∀ p x, ¬ Requests getname r incoming k p x := by
        rintro hnone p x ⟨-, buffer', length', hsome, hne, hfound⟩
        cases Option.some.inj (hframe.symm.trans hsome)
        rcases hnone with hzero | hmissing
        · exact hne hzero
        · cases Option.some.inj (hmissing.symm.trans hfound)
      rw [handleConnection_received hname hframe]
      by_cases hid : wordAt buffer 0 = 0
      · -- a description query
        rw [executeInterface_zero hid]
        exact Or.inr ⟨hnot (Or.inl hid),
          readOnly_fetchInterfaceInfo env buffer length (some sock) k,
          deliveries_of_unicasts
            (unicasts_fetchInterfaceInfo env buffer length (some sock) k)⟩
      · rcases hk.findInterface (wordAt buffer 0).toInt32
          with hmissing | ⟨p, x, hfound, -⟩
        · rw [executeInterface_missing hid hmissing]
          exact Or.inr ⟨hnot (Or.inr hmissing), rfl, rfl⟩
        · rw [executeInterface_found hid hfound]
          refine Or.inl ⟨p, x, ⟨hname, buffer, length, hframe, hid, hfound⟩, rfl, ?_⟩
          show deliveries (forwardEvents env buffer length x) = [] ↔ _
          rw [deliveries_forwardEvents]
          exact ite_eq_right_iff.trans (imp_congr_right fun _ =>
            iff_of_false (List.cons_ne_nil _ _) id)

theorem mem_answered_iff {t : List Event} {sock : SockId} :
    sock ∈ answered t ↔ ∃ data ret, .sendto sock data ret ∈ t ∧ ¬ ret < 0 := by
  rw [answered, List.mem_filterMap]
  constructor
  · rintro ⟨e, he, hsome⟩
    cases e with
    | sendto sock' data ret =>
        by_cases hret : ret < 0
        · simp only [if_pos hret] at hsome
          exact nomatch hsome
        · simp only [if_neg hret] at hsome
          cases Option.some.inj hsome
          exact ⟨data, ret, he, hret⟩
    | read span => exact nomatch hsome
    | load value n => exact nomatch hsome
    | print value => exact nomatch hsome
    | unicast port message ret => exact nomatch hsome
  · rintro ⟨data, ret, he, hret⟩
    exact ⟨_, he, if_neg hret⟩

/-- The sends of a result answer its socket, unless both fail. -/
theorem mem_answered_sendEvents (env : Env) (m : Mem) (packet : Nat)
    (packetLength : UInt32) (socket : Option SockId) (sock : SockId) :
    (∃ data ret, .sendto sock data ret
        ∈ sendEvents env m packet packetLength socket ∧ ¬ ret < 0)
      ↔ socket = some sock ∧ ¬ (env.sendRet 0 < 0 ∧ env.sendRet 1 < 0) := by
  cases socket with
  | none =>
      constructor
      · rintro ⟨data, ret, hmem, -⟩
        cases hmem
      · rintro ⟨hnone, -⟩
        cases hnone
  | some other =>
      rw [sendEvents]
      constructor
      · rintro ⟨data, ret, hmem, hret⟩
        rcases List.mem_cons.mp hmem with h0 | hmem
        · cases h0
          exact ⟨rfl, fun hfail => hret hfail.1⟩
        · rcases List.mem_cons.mp hmem with h1 | hmem
          · cases h1
          · cases List.mem_singleton.mp hmem
            exact ⟨rfl, fun hfail => hret hfail.2⟩
      · rintro ⟨hsock, hsent⟩
        cases Option.some.inj hsock
        -- the packet is sent whether or not its length was
        by_cases h0 : env.sendRet 0 < 0
        · exact ⟨_, _, List.mem_cons_of_mem _ (List.mem_cons_of_mem _
            (List.mem_singleton.mpr rfl)), fun h1 => hsent ⟨h0, h1⟩⟩
        · exact ⟨_, _, List.mem_cons_self, h0⟩

/-- **A RESULT** answers the socket of its interface, unless both sends fail. -/
theorem mem_answered {k : Registry} {env : Env} {m : Mem} {packet : Nat}
    {packetLength portid : UInt32} (hk : k.Live)
    (hret : (handleInterfaceResult env m packet packetLength portid k).ret ≠ none)
    (sock : SockId) :
    sock ∈ answered
        (handleInterfaceResult env m packet packetLength portid k).trace
      ↔ (∃ p x, k.findInterface (wordAt m packet).toInt32 = some (some (p, x))
          ∧ x.ctrl.socket = some sock)
        ∧ ¬ (env.sendRet 0 < 0 ∧ env.sendRet 1 < 0) := by
  rcases hk.findInterface (wordAt m packet).toInt32
    with hmissing | ⟨p, x, hfound, -⟩
  · rw [handleInterfaceResult_missing hmissing]
    constructor
    · intro hmem
      exact nomatch hmem
    · rintro ⟨⟨p, x, hfound, -⟩, -⟩
      exact nomatch Option.some.inj (hmissing.symm.trans hfound)
  · obtain ⟨vs, henc, hm⟩ := holds_rpcEncoding m packet
    obtain ⟨reads, -, hrun⟩ :=
      handleInterfaceResult_found hfound henc hm env packetLength portid
    rw [hrun] at hret ⊢
    cases vs with
    | nil => exact absurd rfl hret
    | cons v vs =>
        -- the decoder and the print send nothing
        have hsends : ∀ data ret, Event.sendto sock data ret ∈ Event.read ⟨packet, 4⟩
            :: (reads.map Event.read ++ resultEvents env m packet packetLength
              x.ctrl.socket (v :: vs))
            ↔ Event.sendto sock data ret
              ∈ sendEvents env m packet packetLength x.ctrl.socket := by
          intro data ret
          simp [resultEvents]
        have hsock : (∃ p y, k.findInterface (wordAt m packet).toInt32
            = some (some (p, y)) ∧ y.ctrl.socket = some sock)
            ↔ x.ctrl.socket = some sock := by
          rw [hfound]
          constructor
          · rintro ⟨q, y, heq, hy⟩
            cases Option.some.inj (Option.some.inj heq)
            exact hy
          · intro hx
            exact ⟨p, x, rfl, hx⟩
        rw [mem_answered_iff, hsock,
          ← mem_answered_sendEvents env m packet packetLength]
        simp only [hsends]

/-! ## The invariant -/

/-- The sockets in the interfaces are parked, and each is in one interface; requests
    that wait were made on parked sockets; nothing is ever released. -/
structure Server.Invariant (s : Server) : Prop where
  sound : Sound s.registry
  apart : ∀ sock ∈ s.handled, sock ∉ s.parked
  remembered : ∀ sock, s.registry.Remembers sock → sock ∈ s.parked
  unique : ∀ i p x j q y sock, s.registry.At i p x → s.registry.At j q y →
    x.ctrl.socket = some sock → y.ctrl.socket = some sock → p = q
  waiting : ∀ sock ∈ s.unanswered, sock ∈ s.parked
  released : s.released = []

/-- Where nothing was released, every parked socket waits for its answer. -/
theorem Server.NoOrphans.waits {s : Server} (h : s.NoOrphans)
    (hreleased : s.released = []) {sock : SockId} (hsock : sock ∈ s.parked) :
    sock ∈ s.unanswered ∧ s.registry.Remembers sock := by
  rcases h sock hsock with hrel | hwait
  · rw [hreleased] at hrel
    exact nomatch hrel
  · exact hwait

theorem server_initial : Server.initial.Invariant where
  sound := sound_initial
  apart _ h := nomatch h
  remembered _ := fun ⟨_, _, _, hx, _⟩ => absurd hx.1 (Nat.not_lt_zero _)
  unique _ _ _ _ _ _ _ hx := absurd hx.1 (Nat.not_lt_zero _)
  waiting _ h := nomatch h
  released := rfl

/-- A call that puts no socket anywhere keeps the invariant. -/
theorem Server.Invariant.call {s : Server} (h : s.Invariant) {k : Registry}
    (hsound : Sound k)
    (hold : ∀ i p y sock, k.At i p y → y.ctrl.socket = some sock →
      ∃ j x, s.registry.At j p x ∧ x.ctrl.socket = some sock) :
    Server.Invariant { s with registry := k } := by
  refine ⟨hsound, h.apart, ?_, ?_, h.waiting, h.released⟩
  · rintro sock ⟨i, p, y, hy, hsock⟩
    obtain ⟨j, x, hx, hsock'⟩ := hold i p y sock hy hsock
    exact h.remembered sock ⟨j, p, x, hx, hsock'⟩
  · intro i p x j q y sock hx hy hxsock hysock
    obtain ⟨i', x', hx', hxsock'⟩ := hold i p x sock hx hxsock
    obtain ⟨j', y', hy', hysock'⟩ := hold j q y sock hy hysock
    exact h.unique i' p x' j' q y' sock hx' hy' hxsock' hysock'

/-- It orphans no connection if every socket stays in an interface. -/
theorem Server.Invariant.call_iff {s : Server} (h : s.Invariant)
    (hsafe : s.NoOrphans) (k : Registry) :
    Server.NoOrphans { s with registry := k }
      ↔ ∀ sock, s.registry.Remembers sock → k.Remembers sock := by
  constructor
  · intro hafter sock hsock
    exact (hafter.waits h.released (h.remembered sock hsock)).2
  · intro hkept sock hsock
    obtain ⟨hwait, hk⟩ := hsafe.waits h.released hsock
    exact Or.inr ⟨hwait, hkept sock hk⟩

theorem Requests.unique {getname : Int32} {r : Receiver} {incoming : List UInt8}
    {k : Registry} {p q : Nat} {x y : Interface}
    (hx : Requests getname r incoming k p x)
    (hy : Requests getname r incoming k q y) : p = q ∧ x = y := by
  obtain ⟨-, buffer, length, hbuffer, -, hp⟩ := hx
  obtain ⟨-, buffer', length', hbuffer', -, hq⟩ := hy
  cases Option.some.inj (hbuffer.symm.trans hbuffer')
  cases Option.some.inj (Option.some.inj (hp.symm.trans hq))
  exact ⟨rfl, rfl⟩

theorem Requests.at {getname : Int32} {r : Receiver} {incoming : List UInt8}
    {k : Registry} {p : Nat} {x : Interface}
    (h : Requests getname r incoming k p x) (hk : Sound k) : ∃ i, k.At i p x := by
  obtain ⟨-, buffer, length, -, -, hfound⟩ := h
  exact (hk.found hfound).2

/-- A connection that ends keeps the invariant, if it puts its socket into one
    interface at most and no other socket anywhere. -/
theorem Server.Invariant.park {s : Server} (h : s.Invariant) {sock : SockId}
    (hmem : sock ∈ s.handled) {k : Registry} (hsound : Sound k) (p : Nat)
    (hold : ∀ i q y other, k.At i q y → y.ctrl.socket = some other →
      other = sock ∧ q = p
        ∨ ∃ j x, s.registry.At j q x ∧ x.ctrl.socket = some other)
    {unanswered : List SockId}
    (hwait : ∀ other ∈ unanswered, other = sock ∨ other ∈ s.unanswered) :
    Server.Invariant ⟨k, s.handled.filter fun other => other ≠ sock,
      sock :: s.parked, unanswered, s.released⟩ := by
  have hnew : ¬ s.registry.Remembers sock := fun hrem =>
    h.apart sock hmem (h.remembered sock hrem)
  refine ⟨hsound, ?_, ?_, ?_, ?_, h.released⟩
  · intro other hother hparked
    obtain ⟨hhandled, hne⟩ := List.mem_filter.mp hother
    rcases List.mem_cons.mp hparked with heq | hparked
    · exact absurd heq (of_decide_eq_true hne)
    · exact h.apart other hhandled hparked
  · rintro other ⟨i, q, y, hy, hother⟩
    rcases hold i q y other hy hother with ⟨heq, -⟩ | ⟨j, x, hx, hxother⟩
    · rw [heq]
      exact List.mem_cons_self
    · exact List.mem_cons_of_mem _ (h.remembered other ⟨j, q, x, hx, hxother⟩)
  · intro i q y j q' y' other hy hy' hother hother'
    -- the new socket is at `p` alone, and was in no interface before
    rcases hold i q y other hy hother with ⟨heq, hq⟩ | ⟨j1, x, hx, hxother⟩
    · rcases hold j q' y' other hy' hother' with ⟨-, hq'⟩ | ⟨j2, x', hx', hx'other⟩
      · rw [hq, hq']
      · rw [heq] at hx'other
        exact absurd ⟨j2, q', x', hx', hx'other⟩ hnew
    · rcases hold j q' y' other hy' hother' with ⟨heq, -⟩ | ⟨j2, x', hx', hx'other⟩
      · rw [heq] at hxother
        exact absurd ⟨j1, q, x, hx, hxother⟩ hnew
      · exact h.unique j1 q x j2 q' x' other hx hx' hxother hx'other
  · intro other hother
    rcases hwait other hother with heq | hold
    · rw [heq]
      exact List.mem_cons_self
    · exact List.mem_cons_of_mem _ (h.waiting other hold)

/-- After a request that put its socket into the interface at `p`: no orphans means
    that the request waits and that the interface had no socket. -/
theorem Server.Invariant.requested {s : Server} (h : s.Invariant)
    (hsafe : s.NoOrphans) {sock : SockId} (hmem : sock ∈ s.handled) {i p : Nat}
    {x : Interface} (hx : s.registry.At i p x) {handled unanswered : List SockId}
    (hwait : ∀ other ∈ s.unanswered, other ∈ unanswered) :
    Server.NoOrphans ⟨s.registry.assign p (x.setSocket (some sock)), handled,
        sock :: s.parked, unanswered, s.released⟩
      ↔ sock ∈ unanswered ∧ x.ctrl.socket = none := by
  have hheap := (deref_eq_some.mp hx.2).2
  constructor
  · intro hafter
    refine ⟨(hafter.waits h.released List.mem_cons_self).1, ?_⟩
    cases hold : x.ctrl.socket with
    | none => rfl
    | some other =>
        -- the socket that was there before is in no interface any more
        have hparked := h.remembered other ⟨i, p, x, hx, hold⟩
        obtain ⟨-, j, q, w, hw, hother⟩ :=
          hafter.waits h.released (List.mem_cons_of_mem _ hparked)
        obtain ⟨z, hz, hwz⟩ := hw.of_assign hheap
        by_cases hq : q = p
        · rw [hwz, if_pos hq] at hother
          rw [← Option.some.inj hother] at hparked
          exact absurd hparked (h.apart sock hmem)
        · rw [hwz, if_neg hq] at hother
          exact absurd (h.unique j q z i p x other hz hx hother hold) hq
  · rintro ⟨hsock, hnone⟩ other hother
    refine Or.inr ?_
    rcases List.mem_cons.mp hother with heq | hparked
    · rw [heq]
      refine ⟨hsock, i, p, _, hx.assign hheap _, ?_⟩
      rw [if_pos rfl]
      rfl
    · obtain ⟨hother, j, q, z, hz, hold⟩ := hsafe.waits h.released hparked
      have hqp : ¬ q = p := by
        intro heq
        rw [heq] at hz
        rw [hz.same hx, hnone] at hold
        exact nomatch hold
      refine ⟨hwait other hother, j, q, _, hz.assign hheap _, ?_⟩
      rw [if_neg hqp]
      exact hold

/-- **A CONNECTION** ends: the invariant, and when it is no orphan. -/
theorem Server.Invariant.handle {s t : Server} (h : s.Invariant)
    (hsafe : s.NoOrphans) {env : Env} {getname : Int32} {r : Receiver}
    {sock : SockId} {incoming : List UInt8}
    (hstep : s.step (.handle env getname r sock incoming) = some t) :
    t.Invariant
      ∧ (t.NoOrphans ↔ Kept s (.handle env getname r sock incoming)) := by
  by_cases hmem : sock ∈ s.handled
  swap
  · rw [Server.step, if_neg hmem] at hstep
    exact nomatch hstep
  rw [Server.step, if_pos hmem] at hstep
  obtain ⟨ret, -, ht⟩ := Option.map_eq_some_iff.mp hstep
  have hnew := h.apart sock hmem
  have hnotwait : sock ∉ s.unanswered := fun hw => hnew (h.waiting sock hw)
  rcases handleConnection_cases h.sound.live env getname r sock incoming
    with ⟨p, x, hreq, hstate, hlost⟩ | ⟨hnot, hstate, hlost⟩
  · obtain ⟨i, hx⟩ := hreq.at h.sound
    have hheap := (deref_eq_some.mp hx.2).2
    -- what was received asks for one interface only
    have hkept : Kept s (.handle env getname r sock incoming)
        ↔ x.ctrl.socket = none ∧ env.skbAlloc = true ∧ ¬ env.unicastRet < 0 := by
      constructor
      · rintro ⟨q, y, hreq', hnone, hsent⟩
        rw [(hreq'.unique hreq).2] at hnone
        exact ⟨hnone, hsent⟩
      · rintro ⟨hnone, hsent⟩
        exact ⟨p, x, hreq, hnone, hsent⟩
    have hold : ∀ j q w other,
        (s.registry.assign p (x.setSocket (some sock))).At j q w →
        w.ctrl.socket = some other → other = sock ∧ q = p
          ∨ ∃ j z, s.registry.At j q z ∧ z.ctrl.socket = some other := by
      intro j q w other hw hother
      obtain ⟨z, hz, hwz⟩ := hw.of_assign hheap
      by_cases hq : q = p
      · rw [hwz, if_pos hq] at hother
        exact Or.inl ⟨(Option.some.inj hother).symm, hq⟩
      · rw [hwz, if_neg hq] at hother
        exact Or.inr ⟨j, z, hz, hother⟩
    rw [hkept, ← ht, hstate]
    by_cases hsent : env.skbAlloc = true ∧ ¬ env.unicastRet < 0
    · -- the message is sent, and the request waits
      rw [if_neg fun hnil => hlost.mp hnil hsent]
      refine ⟨h.park hmem (h.sound.assign hheap _) p hold fun other hother =>
        List.mem_cons.mp hother, ?_⟩
      refine (h.requested hsafe hmem hx fun other hother =>
        List.mem_cons_of_mem _ hother).trans ⟨fun hall => ⟨hall.2, hsent⟩,
          fun hnone => ⟨List.mem_cons_self, hnone.1⟩⟩
    · -- the message is lost: nobody will answer this socket
      rw [if_pos (hlost.mpr hsent)]
      refine ⟨h.park hmem (h.sound.assign hheap _) p hold fun other hother =>
        Or.inr hother, ?_⟩
      exact (h.requested hsafe hmem hx fun other hother => hother).trans
        ⟨fun hall => absurd hall.1 hnotwait, fun hnone => absurd hnone.2 hsent⟩
  · -- the socket is nowhere
    rw [hstate, if_pos hlost] at ht
    rw [← ht]
    refine ⟨h.park hmem h.sound 0 (fun i q y other hy hother =>
      Or.inr ⟨i, y, hy, hother⟩) fun other hother => Or.inr hother, ?_, ?_⟩
    · intro hafter
      exact absurd (hafter.waits h.released List.mem_cons_self).1 hnotwait
    · rintro ⟨p, x, hreq, -⟩
      exact absurd hreq (hnot p x)

/-- **A RESULT** comes: the invariant, and when no socket is orphaned. -/
theorem Server.Invariant.result {s t : Server} (h : s.Invariant)
    (hsafe : s.NoOrphans) {env : Env} {m : Mem} {packet : Nat}
    {packetLength portid : UInt32}
    (hstep : s.step (.result env m packet packetLength portid) = some t) :
    t.Invariant
      ∧ (t.NoOrphans ↔ Kept s (.result env m packet packetLength portid)) := by
  obtain ⟨ret, hret, ht⟩ := Option.map_eq_some_iff.mp hstep
  rw [readOnly_handleInterfaceResult env m packet packetLength portid] at ht
  rw [← ht]
  have hanswered := @mem_answered s.registry env m packet packetLength portid
    h.sound.live (by rw [hret]; exact Option.some_ne_none ret)
  refine ⟨⟨h.sound, h.apart, h.remembered, h.unique, fun sock hsock =>
    h.waiting sock (List.mem_filter.mp hsock).1, h.released⟩, ?_, ?_⟩
  · intro hafter p x sock hfound hsock
    obtain ⟨-, i, hx⟩ := h.sound.found hfound
    -- an answered socket waits no longer, and nothing releases it
    obtain ⟨hwait, -⟩ :=
      hafter.waits h.released (h.remembered sock ⟨i, p, x, hx, hsock⟩)
    have hnot := of_decide_eq_true (List.mem_filter.mp hwait).2
    exact not_not.mp fun hsent =>
      hnot ((hanswered sock).mpr ⟨⟨p, x, hfound, hsock⟩, hsent⟩)
  · intro hkept sock hsock
    obtain ⟨hwait, hrem⟩ := hsafe.waits h.released hsock
    refine Or.inr ⟨List.mem_filter.mpr ⟨hwait, decide_eq_true ?_⟩, hrem⟩
    intro hmem
    obtain ⟨⟨p, x, hfound, hx⟩, hsent⟩ := (hanswered sock).mp hmem
    exact hsent (hkept p x sock hfound hx)

/-- **A CALL** on the registry: the invariant, and when no socket is orphaned. -/
theorem Server.Invariant.registryCall {s t : Server} (h : s.Invariant)
    (hsafe : s.NoOrphans) {c : RegistryCall}
    (hstep : s.step (.call c) = some t) :
    t.Invariant ∧ (t.NoOrphans ↔ Kept s (.call c)) := by
  obtain ⟨k, hk, ht⟩ := Option.map_eq_some_iff.mp hstep
  obtain ⟨hsound, hslot⟩ := h.sound.step hk
  rw [← ht, h.call_iff hsafe k]
  cases hslot with
  | @register pid procCreate u procEntry hadded =>
      refine ⟨h.call hsound fun i p y sock hy hsock => ?_, fun _ => trivial, ?_⟩
      · rcases hadded.cases h.sound.live hy with hold | ⟨-, -, hnew⟩
        · exact ⟨i, y, hold, hsock⟩
        · -- the new interface has no socket
          rw [hnew] at hsock
          exact nomatch hsock
      · rintro - sock ⟨i, p, x, hx, hsock⟩
        exact ⟨i, p, x, hadded.kept i p x hx, hsock⟩
  | absent hsame hno =>
      rw [hsame]
      refine ⟨h, fun _ j q y sock hy _ => ⟨j, hy, fun i p x _ hx => hno i p x hx⟩,
        fun _ sock hsock => hsock⟩
  | @remove id i p x hdropped hid hfront =>
      refine ⟨h.call hsound fun j q y sock hy hsock => ?_, ?_, ?_⟩
      · obtain ⟨j', -, hold⟩ := hdropped.left j q y hy
        exact ⟨j', y, hold, hsock⟩
      · intro hkept j q y sock hy hsock
        obtain ⟨j1, q1, y1, hy1, hsock1⟩ := hkept sock ⟨j, q, y, hy, hsock⟩
        -- what is left stood in front of the removed interface
        obtain ⟨j2, hj2, hold⟩ := hdropped.left j1 q1 y1 hy1
        have hq := h.unique j2 q1 y1 j q y sock hold hy hsock1 hsock
        rw [hq] at hold
        rw [hold.same hy] at hold
        exact ⟨j2, hold, fun i' p' x' hi' hx' =>
          hfront i' p' x' (Nat.lt_of_le_of_lt hi' hj2) hx'⟩
      · rintro hkept sock ⟨j, q, y, hy, hsock⟩
        obtain ⟨j', hy', hbefore⟩ := hkept j q y sock hy hsock
        -- `j'` is in front of the removed slot, or the removed id would be
        have hj' : j' < i := by
          by_contra hge
          exact hbefore i p x (Nat.le_of_not_lt hge) hdropped.found hid
        exact ⟨j', q, y, hdropped.kept j' q y hj' hy', hsock⟩
  | @activate m packetLength portid hre =>
      -- an activation leaves the sockets alone
      have hsocket : ∀ {x y : Interface}, ActivatedBy s.registry.DistinctIds
          (requestedIds m 0 packetLength) portid x y →
          y.ctrl.socket = x.ctrl.socket := by
        rintro x y ⟨heq | heq, -⟩
        · rw [heq]
        · rw [heq]
          rfl
      refine ⟨h.call hsound fun i p y sock hy hsock => ?_, fun _ => trivial, ?_⟩
      · obtain ⟨x, hx, hR⟩ := hre.back h.sound.live hy
        exact ⟨i, x, hx, (hsocket hR).symm.trans hsock⟩
      · rintro - sock ⟨i, p, x, hx, hsock⟩
        obtain ⟨y, hy, hR⟩ := hre.related i p x hx
        exact ⟨i, p, y, hy, (hsocket hR).trans hsock⟩

/-- **ONE STEP** from a state without orphans leads to one without orphans exactly
    if it is one of the `Kept` steps. -/
theorem Server.Invariant.step {s t : Server} {a : ServerCall} (h : s.Invariant)
    (hsafe : s.NoOrphans) (hstep : s.step a = some t) :
    t.Invariant ∧ (t.NoOrphans ↔ Kept s a) := by
  cases a with
  | accept sock =>
      by_cases hold : sock ∈ s.handled ∨ sock ∈ s.parked
      · rw [Server.step, if_pos hold] at hstep
        exact nomatch hstep
      · rw [Server.step, if_neg hold] at hstep
        rw [← Option.some.inj hstep]
        refine ⟨⟨h.sound, fun other hother => ?_, h.remembered, h.unique, h.waiting,
          h.released⟩, fun _ => trivial, fun _ => hsafe⟩
        rcases List.mem_cons.mp hother with heq | hhandled
        · rw [heq]
          exact fun hparked => hold (Or.inr hparked)
        · exact h.apart other hhandled
  | handle env getname r sock incoming => exact h.handle hsafe hstep
  | result env m packet packetLength portid => exact h.result hsafe hstep
  | call c => exact h.registryCall hsafe hstep

/-! ## Runs -/

/-- **NO ORPHANS**: in a run of the service, from the start, no connection is ever
    orphaned exactly if every step of the run is a `Kept` one. -/
theorem no_orphans_iff (as : List ServerCall) (t : Server)
    (hrun : runAll Server.step Server.initial as = some t) :
    Throughout Server.step Server.NoOrphans Server.initial as
      ↔ AlongRun Server.step Kept Server.initial as :=
  throughout_alongRun (I := Server.Invariant)
    (fun _ _ _ hI hsafe hstep => hI.step hsafe hstep) as server_initial
    (fun _ h => nomatch h) hrun

/-- An interface is registered, and one connection requests it. -/
theorem no_orphans_iff_forwarded :
    Throughout Server.step Server.NoOrphans Server.initial
      [.call (.register 7 none .bare), .accept 5, .handle .fine 0
        (.fine fun _ => 0) 5 (frame (rpcEncoding 1 []))] := by
  obtain ⟨s1, h1⟩ : ∃ s1, Server.initial.step (.call (.register 7 none .bare))
      = some s1 := ⟨_, rfl⟩
  obtain ⟨s2, h2, hmem, p, x, hfound, hsock⟩ : ∃ s2, s1.step (.accept 5) = some s2
      ∧ 5 ∈ s2.handled ∧ ∃ p x, s2.registry.findInterface 1 = some (some (p, x))
        ∧ x.ctrl.socket = none := by
    cases Option.some.inj h1
    exact ⟨_, rfl, List.mem_cons_self, _, _, rfl, rfl⟩
  obtain ⟨behind, hframe⟩ := @Receiver.Reliable.receiveFrame (.fine fun _ => 0)
    (Receiver.fine_reliable _) (fun _ => 0) (rpcEncoding 1 []) (by decide)
    (by decide)
  have hword : wordAt (overlay (rpcEncoding 1 []) behind) 0 = 1 :=
    wordAt_of_holds (holds_append.mp (holds_overlay _ behind)).1
  have hreq : Requests 0 (.fine fun _ => 0) (frame (rpcEncoding 1 []))
      s2.registry p x :=
    ⟨zero_not_neg, _, _, hframe, by rw [hword]; decide, by rw [hword]; exact hfound⟩
  obtain ⟨s3, h3⟩ : ∃ s3, s2.step (.handle .fine 0 (.fine fun _ => 0) 5
      (frame (rpcEncoding 1 []))) = some s3 := by
    rw [Server.step, if_pos hmem, handleConnection_received zero_not_neg hframe,
      executeInterface_found (by rw [hword]; decide) (by rw [hword]; exact hfound)]
    exact ⟨_, rfl⟩
  have hrun : runAll Server.step Server.initial
      [.call (.register 7 none .bare), .accept 5, .handle .fine 0
        (.fine fun _ => 0) 5 (frame (rpcEncoding 1 []))] = some s3 := by
    rw [runAll_cons h1, runAll_cons h2, runAll_cons h3]
    rfl
  exact (no_orphans_iff _ s3 hrun).mpr (.cons trivial h1 (.cons trivial h2
    (.cons ⟨p, x, hreq, hsock, rfl, by decide⟩ h3 trivial)))

/-- A connection that is closed before it sends anything is given up, but not
    released. -/
theorem closed_connection_orphaned :
    ¬ Throughout Server.step Server.NoOrphans Server.initial
      [.accept 5, .handle .fine 0 (.fine fun _ => 0) 5 []] := by
  intro hall
  obtain ⟨s1, h1, hmem, hnone⟩ : ∃ s1, Server.initial.step (.accept 5) = some s1
      ∧ 5 ∈ s1.handled ∧ s1.released = [] ∧ s1.unanswered = [] :=
    ⟨_, rfl, List.mem_cons_self, rfl, rfl⟩
  have hframe : receiveFrame (fun _ => 0) (.fine fun _ => 0) [] = none := by decide
  obtain ⟨s2, h2, hparked, hreleased, hunanswered⟩ : ∃ s2, s1.step (.handle .fine 0
      (.fine fun _ => 0) 5 []) = some s2 ∧ 5 ∈ s2.parked ∧ s2.released = []
        ∧ s2.unanswered = [] := by
    rw [Server.step, if_pos hmem, handleConnection, if_neg (by decide), hframe]
    exact ⟨_, rfl, List.mem_cons_self, hnone.1, hnone.2⟩
  rcases (hall.2 s1 h1).2 s2 h2 5 hparked with hrel | ⟨hwait, -⟩
  · rw [hreleased] at hrel
    cases hrel
  · rw [hunanswered] at hwait
    cases hwait

end DistComm
