import DistComm.Announcements
import DistComm.Broadcast
import DistComm.Receptions

/-! # Discovery in a network

    Hosts that register interfaces, announce them with `do_broadcast` and hear one
    another in `discovery_server_loop`.  The network may lose datagrams, deliver them
    late, in any order and more than once, and receives may fail.

    What a host knows of another is never made up: whatever its table has for an
    address was, at one moment of the run, what the host with this address had
    registered (`discovery_truthful`). -/

namespace DistComm

open RawMemory RawScan PointerArray Transition

variable {ι : Type}

/-! ## The network -/

/-- The greatest datagram that UDP sends over IPv4. -/
def MAX_DATAGRAM : Nat := 65507

/-- A datagram: the address it comes from, and its bytes. -/
structure Datagram where
  source : UInt32
  bytes : List UInt8

/-- Hosts, each with its registry and its discovery loop, and every datagram that
    was sent so far. -/
structure Network (ι : Type) where
  registry : ι → Registry
  discovery : ι → Discovery
  sent : List Datagram

def Network.initial : Network ι :=
  ⟨fun _ => .initial, fun _ => .initial, []⟩

/-- A host changes its registry, broadcasts from one of its addresses, receives the
    `n`-th datagram that was sent, or fails to receive. -/
inductive NetworkCall (ι : Type) where
  | call (host : ι) (c : RegistryCall)
  | broadcast (host : ι) (source : UInt32) (e : BroadcastEnv)
  | deliver (host : ι) (n : Nat)
  | fail (host : ι) (err : Int32)

/-- What the network takes of a broadcast: `sock_sendto` fails on too many bytes. -/
def carried (source : UInt32) : Option (List UInt8) → List Datagram
  | none => []
  | some packet => if packet.length ≤ MAX_DATAGRAM then [⟨source, packet⟩] else []

/-- A round of the discovery loop of a host. -/
def Network.receive [DecidableEq ι] (s : Network ι) (host : ι) (r : Reception) :
    Option (Network ι) :=
  (discoveryServerLoop (s.discovery host) r).map fun d =>
    { s with discovery := Function.update s.discovery host d }

/-- One step; `owner` says which host has an address. -/
def Network.step [DecidableEq ι] (owner : UInt32 → Option ι) (s : Network ι) :
    NetworkCall ι → Option (Network ι)
  | .call host c =>
      ((s.registry host).step c).map fun k =>
        { s with registry := Function.update s.registry host k }
  | .broadcast host source e =>
      if owner source = some host then
        (doBroadcast e (s.registry host)).map fun done =>
          { s with sent := s.sent ++ carried source done.2 }
      else none
  | .deliver host n => do
      let d ← s.sent[n]?
      s.receive host (.datagram d.source d.bytes)
  | .fail host err => s.receive host (.failed err)

/-! ## Lists of a sender -/

/-- The peer has the count of a list that its address had once, and this list or
    none. -/
def Peer.Faithful (T : UInt32 → List Advert → Prop) (p : Peer) : Prop :=
  ∃ xs, T p.addr xs ∧ p.interfaceCount.toInt = xs.length
    ∧ (p.interfaces = none ∨ p.interfaces = some xs)

/-- Whatever the loop holds of an address is a list that this address had: `T` says
    which ones these are. -/
structure Discovery.Faithful (T : UInt32 → List Advert → Prop) (s : Discovery) :
    Prop where
  well : s.table.WellFormed
  buffer : ∃ ls, Listable ls ∧ Holds s.buffer 0 (listEncoding ls)
    ∧ T s.fromAddr (ls.map Listing.advert)
  peers : ∀ p ∈ s.table.live, p.Faithful T

theorem Discovery.Faithful.mono {T T' : UInt32 → List Advert → Prop}
    (hT : ∀ addr xs, T addr xs → T' addr xs) {s : Discovery} (h : s.Faithful T) :
    s.Faithful T' := by
  obtain ⟨ls, hls, hm, hsender⟩ := h.buffer
  refine ⟨h.well, ⟨ls, hls, hm, hT _ _ hsender⟩, fun p hp => ?_⟩
  obtain ⟨xs, hxs, hcount, hlist⟩ := h.peers p hp
  exact ⟨xs, hT _ _ hxs, hcount, hlist⟩

/-- In the beginning the buffer holds the empty list of the address 0. -/
theorem faithful_initial {T : UInt32 → List Advert → Prop} (hT : T 0 []) :
    Discovery.initial.Faithful T where
  well := wellFormed_initial
  buffer := ⟨[], ⟨by decide, fun _ h => nomatch h⟩, rfl, hT⟩
  peers _ hp := absurd hp List.not_mem_nil

/-- An answer to a list of the sender keeps the table faithful. -/
theorem Answered.faithful {T : UInt32 → List Advert → Prop} {t t' : PeerTable}
    {addr : UInt32} {decoded : Except Int (List Advert)} {answer : Except Int Unit}
    (ha : Answered t addr decoded answer t') (h : t.WellFormed) {slots : List Peer}
    (hslots : t.peers = some slots)
    (hdecoded : ∀ xs, decoded = .ok xs →
      T addr xs ∧ xs.length ≤ MAX_INTERFACES.toNat)
    (hpeers : ∀ p ∈ t.live, p.Faithful T) : ∀ p ∈ t'.live, p.Faithful T := by
  cases ha with
  | full err _ _ => exact hpeers
  | rejected err => exact hpeers
  | @added interfaces hnew hroom =>
      obtain ⟨hlist, hfew⟩ := hdecoded interfaces rfl
      intro p hp
      rw [PeerTable.live_withPeer hslots (h.room slots hslots) hroom] at hp
      rcases List.mem_append.mp hp with hold | hlast
      · exact hpeers p hold
      · rw [List.mem_singleton.mp hlast]
        exact ⟨interfaces, hlist, toInt_count hfew, Or.inl rfl⟩
  | @updated interfaces i p hp haddr =>
      obtain ⟨hlist, hfew⟩ := hdecoded interfaces rfl
      intro q hq
      rw [PeerTable.live_put] at hq
      rcases mem_set_peer h.nodup hp hq with hnew | ⟨hold, -⟩
      · rw [hnew]
        refine ⟨interfaces, ?_, toInt_count hfew, Or.inr rfl⟩
        show T p.addr interfaces
        rw [haddr]
        exact hlist
      · exact hpeers q hold

/-- What may be received: a list packet of its sender, or nothing. -/
def Reception.Faithful (T : UInt32 → List Advert → Prop) : Reception → Prop
  | .datagram source bytes =>
      bytes.length ≤ MAX_DATAGRAM ∧ ∃ ls, Listable ls ∧ bytes = listEncoding ls
        ∧ T source (ls.map Listing.advert)
  | .failed _ => True

/-- After a receive the buffer holds a list of the sender that the loop remembers. -/
theorem Discovery.Faithful.received {T : UInt32 → List Advert → Prop}
    {s : Discovery} (h : s.Faithful T) {r : Reception} (hr : r.Faithful T) :
    (s.receive r).2.table = s.table
      ∧ ∃ ls, Listable ls ∧ Holds (s.receive r).2.buffer 0 (listEncoding ls)
        ∧ T (s.receive r).2.fromAddr (ls.map Listing.advert) := by
  cases r with
  | failed err => exact ⟨rfl, h.buffer⟩
  | datagram source bytes =>
      obtain ⟨hlen, ls, hls, hbytes, hsender⟩ := hr
      have hwhole : bytes.take MAX_BUFFER_SIZE = bytes :=
        List.take_of_length_le (Nat.le_trans hlen (by decide))
      refine ⟨rfl, ls, hls, ?_, hsender⟩
      show Holds (store (bytes.take MAX_BUFFER_SIZE) s.buffer) 0 _
      rw [hwhole, hbytes]
      exact holds_store _ _

/-- **ONE ROUND** of the loop is faithful. -/
theorem Discovery.Faithful.round {T : UInt32 → List Advert → Prop} {s s' : Discovery}
    (h : s.Faithful T) {r : Reception} (hr : r.Faithful T)
    (hround : discoveryServerLoop s r = some s') : s'.Faithful T := by
  obtain ⟨htable, ls, hls, hm, hsender⟩ := h.received hr
  obtain ⟨answer, t', hanswer, ha⟩ := h.well.answer r
  obtain ⟨hwell, ⟨slots, hslots⟩, -, hlive⟩ := h.well.ensure
  rw [discoveryServerLoop_answer, hanswer] at hround
  cases hround
  refine ⟨(ha.keeps hwell hslots).1, ⟨ls, hls, hm, hsender⟩,
    ha.faithful hwell hslots (fun xs hxs => ?_) (by rw [hlive]; exact h.peers)⟩
  obtain ⟨heq, hfew⟩ := decoded_listEncoding hls hm hxs
  rw [heq, List.length_map]
  exact ⟨hsender, hfew⟩

/-! ## Lists in the network -/

/-- The host with this address had the list registered at one moment of the run. -/
def Listed [DecidableEq ι] (owner : UInt32 → Option ι) (calls : List (NetworkCall ι))
    (addr : UInt32) (xs : List Advert) : Prop :=
  ∃ host, owner addr = some host
    ∧ Once (Network.step owner) (fun s => (s.registry host).adverts = some xs)
        Network.initial calls

/-- The same, or the empty list of the address 0, for which a receive that fails
    before the first datagram passes. -/
def Known [DecidableEq ι] (owner : UInt32 → Option ι) (calls : List (NetworkCall ι))
    (addr : UInt32) (xs : List Advert) : Prop :=
  Listed owner calls addr xs ∨ addr = 0 ∧ xs = []

theorem Known.append [DecidableEq ι] {owner : UInt32 → Option ι}
    {calls : List (NetworkCall ι)} {addr : UInt32} {xs : List Advert}
    (h : Known owner calls addr xs) (more : List (NetworkCall ι)) :
    Known owner (calls ++ more) addr xs := by
  rcases h with ⟨host, howner, honce⟩ | hnobody
  · exact Or.inl ⟨host, howner, honce.append more⟩
  · exact Or.inr hnobody

/-- The packet of a broadcast is the list of what is registered. -/
theorem doBroadcast_sent {e : BroadcastEnv} {k : Registry} (hk : k.Live)
    (h : k.AllComplete) {ret : Int32} {packet : List UInt8}
    (hsent : doBroadcast e k = some (ret, some packet)) :
    ∃ ls, Listable ls ∧ packet = listEncoding ls
      ∧ k.adverts = some (ls.map Listing.advert)
      ∧ ls.length = k.interfaceCount.toNat := by
  obtain ⟨ls, hlist, hcount, hadverts, -⟩ := adverts_spec hk h
  have he : e.Connects := by
    rw [doBroadcast] at hsent
    refine ⟨fun h0 => ?_, fun h0 => ?_, fun h0 => ?_⟩
    · rw [if_pos h0] at hsent
      cases hsent
    · rw [if_pos h0] at hsent
      split at hsent
      · cases hsent
      · cases hsent
    · rw [if_pos h0] at hsent
      split at hsent
      · cases hsent
      · split at hsent
        · cases hsent
        · cases hsent
  rw [doBroadcast_connected he hcount hadverts] at hsent
  obtain ⟨packet', hpacket, heq⟩ := Option.map_eq_some_iff.mp hsent
  cases heq
  exact ⟨ls, hlist, serializeInterfacesPacket_eq hlist hpacket, hadverts, hcount⟩

/-- What the network carries of a broadcast. -/
theorem mem_carried {source : UInt32} {packet : Option (List UInt8)} {d : Datagram} :
    d ∈ carried source packet
      ↔ ∃ bytes, packet = some bytes ∧ bytes.length ≤ MAX_DATAGRAM
        ∧ d = ⟨source, bytes⟩ := by
  cases packet with
  | none => exact ⟨fun h => absurd h List.not_mem_nil, fun ⟨_, h, _⟩ => nomatch h⟩
  | some bytes =>
      rw [carried]
      by_cases hlen : bytes.length ≤ MAX_DATAGRAM
      · rw [if_pos hlen, List.mem_singleton]
        refine ⟨fun h => ⟨bytes, rfl, hlen, h⟩, ?_⟩
        rintro ⟨bytes', heq, -, hd⟩
        rw [hd, Option.some.inj heq]
      · rw [if_neg hlen]
        refine ⟨fun h => absurd h List.not_mem_nil, ?_⟩
        rintro ⟨bytes', heq, hlen', -⟩
        rw [← Option.some.inj heq] at hlen'
        exact absurd hlen' hlen

/-- What holds in every state of a network: the registries are sound, and all lists
    in flight, in buffers and in tables are lists of their senders. -/
structure Network.Faithful [DecidableEq ι] (owner : UInt32 → Option ι)
    (calls : List (NetworkCall ι)) (s : Network ι) : Prop where
  sound : ∀ host, Sound (s.registry host) ∧ (s.registry host).AllComplete
  sent : ∀ d ∈ s.sent,
    (Reception.datagram d.source d.bytes).Faithful (Known owner calls)
  hears : ∀ host, (s.discovery host).Faithful (Known owner calls)

section Steps

variable [DecidableEq ι] {owner : UInt32 → Option ι} {calls : List (NetworkCall ι)}
  {s s' : Network ι}

theorem Network.Faithful.later (h : s.Faithful owner calls)
    (more : List (NetworkCall ι)) : s.Faithful owner (calls ++ more) := by
  refine ⟨h.sound, fun d hd => ?_, fun host =>
    (h.hears host).mono fun _ _ hknown => hknown.append more⟩
  obtain ⟨hlen, ls, hls, hbytes, hknown⟩ := h.sent d hd
  exact ⟨hlen, ls, hls, hbytes, hknown.append more⟩

theorem Network.Faithful.receive (h : s.Faithful owner calls) {host : ι}
    {r : Reception} (hr : r.Faithful (Known owner calls))
    (hstep : s.receive host r = some s') : s'.Faithful owner calls := by
  obtain ⟨d, hround, heq⟩ := Option.map_eq_some_iff.mp hstep
  rw [← heq]
  refine ⟨h.sound, h.sent, fun i => ?_⟩
  show (Function.update s.discovery host d i).Faithful _
  by_cases hi : i = host
  · rw [hi, Function.update_self]
    exact (h.hears host).round hr hround
  · rw [Function.update_of_ne hi]
    exact h.hears i

/-- **ONE STEP** of the network. -/
theorem Network.Faithful.step
    (hrun : runAll (Network.step owner) Network.initial calls = some s)
    (h : s.Faithful owner calls) {c : NetworkCall ι}
    (hstep : s.step owner c = some s') : s'.Faithful owner (calls ++ [c]) := by
  have hlater := h.later [c]
  cases c with
  | call host c =>
      obtain ⟨k, hk, heq⟩ := Option.map_eq_some_iff.mp hstep
      rw [← heq]
      refine ⟨fun i => ?_, hlater.sent, hlater.hears⟩
      show Sound (Function.update s.registry host k i)
        ∧ (Function.update s.registry host k i).AllComplete
      by_cases hi : i = host
      · obtain ⟨hsound, hcomplete⟩ := h.sound host
        obtain ⟨hsound', hslot⟩ := hsound.step hk
        rw [hi, Function.update_self]
        exact ⟨hsound', hslot.allComplete hsound hcomplete⟩
      · rw [Function.update_of_ne hi]
        exact h.sound i
  | broadcast host source e =>
      rw [Network.step] at hstep
      split at hstep
      case isFalse => cases hstep
      case isTrue howner =>
        obtain ⟨⟨ret, packet⟩, hsent, heq⟩ := Option.map_eq_some_iff.mp hstep
        rw [← heq]
        refine ⟨hlater.sound, fun d hd => ?_, hlater.hears⟩
        rcases List.mem_append.mp hd with hold | hnew
        · exact hlater.sent d hold
        · -- the list that is sent is the one that is registered now
          obtain ⟨bytes, hbytes, hlen, hd⟩ := mem_carried.mp hnew
          replace hbytes : packet = some bytes := hbytes
          rw [hbytes] at hsent
          obtain ⟨hsound, hcomplete⟩ := h.sound host
          obtain ⟨ls, hls, hpacket, hadverts, -⟩ :=
            doBroadcast_sent hsound.live hcomplete hsent
          rw [hd]
          exact ⟨hlen, ls, hls, hpacket,
            Or.inl ⟨host, howner, (Once.now hrun hadverts).append _⟩⟩
  | deliver host n =>
      obtain ⟨d, hd, hreceive⟩ := Option.bind_eq_some_iff.mp hstep
      exact hlater.receive (hlater.sent d (List.mem_of_getElem? hd)) hreceive
  | fail host err => exact hlater.receive (r := .failed err) trivial hstep

/-- Every state that is reached is faithful. -/
theorem faithful_reachable
    (hrun : runAll (Network.step owner) Network.initial calls = some s) :
    s.Faithful owner calls := by
  refine runAll_invariant (I := fun calls s => s.Faithful owner calls) ?_
    (fun calls c s s' hrun h hstep => h.step hrun hstep) calls hrun
  refine ⟨fun _ => ⟨sound_initial, fun _ _ _ hx => absurd hx.1 (Nat.not_lt_zero _)⟩,
    fun _ hd => absurd hd List.not_mem_nil,
    fun _ => faithful_initial (Or.inr ⟨rfl, rfl⟩)⟩

/-- **TRUTHFUL DISCOVERY**: whatever is lost, repeated, reordered or delayed, what a
    host has of another one was registered there once. -/
theorem discovery_truthful
    (hrun : runAll (Network.step owner) Network.initial calls = some s) (host : ι)
    {p : Peer} (hp : p ∈ (s.discovery host).table.live) :
    p.Faithful (Known owner calls) :=
  ((faithful_reachable hrun).hears host).peers p hp

end Steps

/-- Two hosts with an address each. -/
def twoHosts (addr : UInt32) : Option Bool :=
  if addr = 1 then some false else if addr = 2 then some true else none

/-- The first host registers an interface. -/
def NetworkCall.registers : NetworkCall Bool :=
  .call false (.register 7 none .bare)

/-- It broadcasts twice, and the second one hears both datagrams. -/
def NetworkCall.announces : List (NetworkCall Bool) :=
  [.broadcast false 1 .fine, .broadcast false 1 .fine, .deliver true 0,
    .deliver true 1]

set_option maxRecDepth 4000 in
/-- The second host knows the first one. -/
theorem discovery_truthful_two :
    ∃ s p, runAll (Network.step twoHosts) Network.initial
        (.registers :: NetworkCall.announces) = some s
      ∧ p ∈ (s.discovery true).table.live
      ∧ p.Faithful (Known twoHosts (.registers :: NetworkCall.announces)) := by
  obtain ⟨s, hrun, haddr⟩ : ∃ s, runAll (Network.step twoHosts) Network.initial
      (.registers :: NetworkCall.announces) = some s
      ∧ (s.discovery true).table.live.map Peer.addr = [1] := ⟨_, rfl, rfl⟩
  obtain ⟨p, hp, -⟩ := List.mem_map.mp (haddr.symm ▸ List.mem_singleton_self 1)
  exact ⟨s, p, hrun, hp, discovery_truthful hrun true hp⟩

end DistComm
