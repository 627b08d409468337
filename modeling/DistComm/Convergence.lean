import DistComm.Network
import DistComm.Receptions

/-! # Convergence of discovery

    A host that hears two datagrams of another one, both sent since that one last
    changed its registry, has its list in the table: the first datagram may only have
    added the peer, whose list `add_peer` drops, the second one sets the list.  What
    else happens meanwhile in the network does not matter, as long as no older
    datagram of the sender comes late; and receives may fail, for what is applied
    again is then a list of the sender that is up to date
    (`discovery_converges`). -/

namespace DistComm

open RawMemory RawScan PointerArray Transition

/-! ## Answers and the peers of one address -/

section Answers

variable {t t' : PeerTable} {addr : UInt32} {decoded : Except Int (List Advert)}
  {answer : Except Int Unit}

/-- The address has a peer, or cannot get one any more. -/
def PeerTable.Met (t : PeerTable) (addr : UInt32) : Prop :=
  ¬ t.Unknown addr ∨ MAX_PEERS ≤ t.peerCount

/-- All peers with the address list these interfaces. -/
def PeerTable.ListsAt (t : PeerTable) (addr : UInt32) (xs : List Advert) : Prop :=
  ∀ p ∈ t.live, p.addr = addr → p.Lists xs

/-- Whom the table has met it does not forget. -/
theorem Answered.met (ha : Answered t addr decoded answer t') {slots : List Peer}
    (h : t.WellFormed) (hslots : t.peers = some slots) {other : UInt32}
    (hmet : t.Met other) : t'.Met other := by
  cases ha with
  | full err _ _ => exact hmet
  | rejected err => exact hmet
  | added hnew hroom =>
      refine Or.inl fun hunknown => ?_
      rcases hmet with hknown | hfull
      · refine hknown fun hmem => hunknown ?_
        rw [PeerTable.live_withPeer hslots (h.room slots hslots) hroom,
          List.map_append]
        exact List.mem_append_left _ hmem
      · exact absurd hroom (Nat.not_lt.mpr hfull)
  | @updated interfaces i p hp haddr =>
      refine hmet.imp (fun hknown hunknown => hknown fun hmem => hunknown ?_) id
      rw [PeerTable.map_live_put hp (p.withList interfaces) Peer.addr rfl]
      exact hmem

/-- An answer to one sender is none to the others. -/
theorem Answered.other (ha : Answered t addr decoded answer t') {slots : List Peer}
    (h : t.WellFormed) (hslots : t.peers = some slots) {other : UInt32}
    (hne : addr ≠ other) {xs : List Advert} (hlists : t.ListsAt other xs) :
    t'.ListsAt other xs := by
  cases ha with
  | full err _ _ => exact hlists
  | rejected err => exact hlists
  | added hnew hroom =>
      intro p hp haddr
      rw [PeerTable.live_withPeer hslots (h.room slots hslots) hroom] at hp
      rcases List.mem_append.mp hp with hold | hlast
      · exact hlists p hold haddr
      · rw [List.mem_singleton.mp hlast] at haddr
        exact absurd haddr hne
  | @updated interfaces i p hp haddr =>
      intro q hq hother
      rw [PeerTable.live_put] at hq
      rcases mem_set_peer h.nodup hp hq with hnew | ⟨hold, -⟩
      · rw [hnew] at hother
        exact absurd (haddr.symm.trans hother) hne
      · exact hlists q hold hother

/-- A list that was decoded meets its sender, and is listed if the sender was met
    before. -/
theorem Answered.lists {xs : List Advert} (ha : Answered t addr (.ok xs) answer t')
    {slots : List Peer} (h : t.WellFormed) (hslots : t.peers = some slots) :
    t'.Met addr ∧ (t.Met addr → t'.ListsAt addr xs) := by
  cases ha with
  | full err hnew hfull =>
      refine ⟨Or.inr hfull, fun _ p hp haddr => absurd ?_ hnew⟩
      rw [← haddr]
      exact List.mem_map_of_mem hp
  | added hnew hroom =>
      refine ⟨Or.inl fun hunknown => hunknown ?_, fun hmet => ?_⟩
      · rw [PeerTable.live_withPeer hslots (h.room slots hslots) hroom,
          List.map_append]
        exact List.mem_append_right _ (List.mem_singleton_self _)
      · rcases hmet with hknown | hfull
        · exact absurd hnew hknown
        · exact absurd hroom (Nat.not_lt.mpr hfull)
  | @updated interfaces i p hp haddr =>
      refine ⟨Or.inl fun hunknown => hunknown ?_, fun _ q hq hother => ?_⟩
      · rw [PeerTable.map_live_put hp (p.withList xs) Peer.addr rfl, ← haddr]
        exact List.mem_map_of_mem (List.mem_of_getElem? hp)
      · rw [PeerTable.live_put] at hq
        rcases mem_set_peer h.nodup hp hq with hnew | ⟨-, hne⟩
        · rw [hnew]
          exact ⟨rfl, rfl⟩
        · rw [haddr] at hne
          exact absurd hother hne

end Answers

/-! ## The hearer -/

/-- The bytes are the packet of a list. -/
def Packs (bytes : List UInt8) (xs : List Advert) : Prop :=
  ∃ ls, Listable ls ∧ bytes = listEncoding ls ∧ ls.map Listing.advert = xs

/-- The loop has heard at least `n` times, up to twice, that the address has the list
    `xs`. -/
structure Discovery.Heard (addr : UInt32) (xs : List Advert) (n : Nat)
    (s : Discovery) : Prop where
  well : s.table.WellFormed
  buffer : 1 ≤ n → s.fromAddr = addr →
    ∃ bytes, Packs bytes xs ∧ Holds s.buffer 0 bytes
  met : 1 ≤ n → s.table.Met addr
  lists : 2 ≤ n → s.table.ListsAt addr xs

section Hearer

variable {addr : UInt32} {xs : List Advert} {n : Nat} {s s' : Discovery}

/-- A datagram of another sender, or a failed receive, tells nothing new. -/
theorem Discovery.Heard.again (h : s.Heard addr xs n) {r : Reception}
    (hr : ∀ source bytes, r = .datagram source bytes → source ≠ addr)
    (hround : discoveryServerLoop s r = some s') : s'.Heard addr xs n := by
  obtain ⟨answer, t', hanswer, ha⟩ := h.well.answer r
  obtain ⟨hwell, ⟨slots, hslots⟩, hcount, hlive⟩ := h.well.ensure
  rw [discoveryServerLoop_answer, hanswer] at hround
  cases hround
  have hmet : 1 ≤ n → (ensurePeers s.table).Met addr := by
    rw [PeerTable.Met, PeerTable.Unknown, hlive, hcount]
    exact h.met
  have hbuffer : 1 ≤ n → (s.receive r).2.fromAddr = addr →
      ∃ bytes, Packs bytes xs ∧ Holds (s.receive r).2.buffer 0 bytes := by
    cases r with
    | failed err => exact h.buffer
    | datagram source bytes => exact fun _ hfrom => absurd hfrom (hr _ _ rfl)
  refine ⟨(ha.keeps hwell hslots).1, hbuffer,
    fun hn => ha.met hwell hslots (hmet hn), fun hn => ?_⟩
  have hlists : (ensurePeers s.table).ListsAt addr xs := by
    rw [PeerTable.ListsAt, hlive]
    exact h.lists hn
  by_cases hfrom : (s.receive r).2.fromAddr = addr
  · -- the last list of the sender is applied once more, or refused
    obtain ⟨bytes, ⟨ls, hls, hbytes, hxs⟩, hm⟩ := hbuffer (by omega) hfrom
    rw [hbytes] at hm
    rw [hfrom] at ha
    cases hdec : (unserializeInterfacesPacket (s.receive r).1.toUInt32
        (s.receive r).2.buffer 0).val with
    | error err =>
        rw [hdec] at ha
        cases ha with
        | full err _ _ => exact hlists
        | rejected err => exact hlists
    | ok ys =>
        rw [hdec, (decoded_listEncoding hls hm hdec).1, hxs] at ha
        exact (ha.lists hwell hslots).2 (hmet (by omega))
  · exact ha.other hwell hslots hfrom hlists

/-- A datagram of the sender is heard. -/
theorem Discovery.Heard.heard (h : s.Heard addr xs n) {bytes : List UInt8}
    (hpacks : Packs bytes xs) (hlen : bytes.length ≤ MAX_DATAGRAM)
    (hfew : xs.length ≤ MAX_INTERFACES.toNat)
    (hround : discoveryServerLoop s (.datagram addr bytes) = some s') :
    s'.Heard addr xs (n + 1) := by
  obtain ⟨answer, t', hanswer, ha⟩ := h.well.answer (.datagram addr bytes)
  obtain ⟨hwell, ⟨slots, hslots⟩, hcount, hlive⟩ := h.well.ensure
  rw [discoveryServerLoop_answer, hanswer] at hround
  cases hround
  have hmax : MAX_DATAGRAM = 65507 := rfl
  have hwhole : bytes.take MAX_BUFFER_SIZE = bytes :=
    List.take_of_length_le (Nat.le_trans hlen (by decide))
  have hm : Holds (s.receive (.datagram addr bytes)).2.buffer 0 bytes := by
    show Holds (store (bytes.take MAX_BUFFER_SIZE) s.buffer) 0 bytes
    rw [hwhole]
    exact holds_store _ _
  obtain ⟨ls, hls, hbytes, hxs⟩ := hpacks
  -- the packet is long enough, and its list short enough
  have hsize : (s.receive (.datagram addr bytes)).1.toUInt32.toNat = bytes.length := by
    show (Int32.ofNat (bytes.take MAX_BUFFER_SIZE).length).toUInt32.toNat = _
    rw [hwhole]
    exact UInt32.toNat_ofNat_of_lt' (Nat.lt_of_le_of_lt hlen (by decide))
  have hdec : (unserializeInterfacesPacket
      (s.receive (.datagram addr bytes)).1.toUInt32
      (s.receive (.datagram addr bytes)).2.buffer 0).val = .ok xs := by
    rw [← hxs]
    refine unserializeInterfacesPacket_listEncoding hls ?_ (by rw [← hbytes]; exact hm)
      (@listEncoding_not_short ls _ ?_)
    · rw [← List.length_map (f := Listing.advert), hxs]
      exact hfew
    · rw [hsize, hbytes]
  rw [hdec] at ha
  obtain ⟨hmet, hlists⟩ := ha.lists hwell hslots
  refine ⟨(ha.keeps hwell hslots).1, fun _ _ => ⟨bytes, ⟨ls, hls, hbytes, hxs⟩, hm⟩,
    fun _ => hmet, fun hn => hlists ?_⟩
  rw [PeerTable.Met, PeerTable.Unknown, hlive, hcount]
  exact h.met (by omega)

end Hearer

/-! ## The network -/

section Networks

variable {ι : Type} [DecidableEq ι]

/-- The registry of the sender stays as it is, and the hearer gets no datagram of the
    address that is older than the `base`-th. -/
def Quiet (hearer sender : ι) (addr : UInt32) (base : Nat) (s : Network ι) :
    NetworkCall ι → Prop
  | .call host _ => host ≠ sender
  | .deliver host n =>
      host = hearer → n < base → ∀ d, s.sent[n]? = some d → d.source ≠ addr
  | .broadcast _ _ _ => True
  | .fail _ _ => True

/-- How often a step lets the hearer hear the address. -/
def hears (hearer : ι) (addr : UInt32) (s : Network ι) : NetworkCall ι → Nat
  | .deliver host n =>
      if host = hearer ∧ (s.sent[n]?).map Datagram.source = some addr then 1 else 0
  | .call _ _ => 0
  | .broadcast _ _ _ => 0
  | .fail _ _ => 0

/-- The sender has the list `xs` registered, all datagrams of the address from the
    `base`-th on say so, and the hearer has heard `n` of them. -/
structure Network.Spreads (owner : UInt32 → Option ι) (hearer sender : ι)
    (addr : UInt32) (base : Nat) (xs : List Advert) (n : Nat) (s : Network ι) :
    Prop where
  sound : ∀ host, Sound (s.registry host) ∧ (s.registry host).AllComplete
  registered : (s.registry sender).adverts = some xs
  base_le : base ≤ s.sent.length
  short : ∀ d ∈ s.sent, d.bytes.length ≤ MAX_DATAGRAM
  recent : ∀ i d, base ≤ i → s.sent[i]? = some d → d.source = addr →
    Packs d.bytes xs
  heard : (s.discovery hearer).Heard addr xs n

variable {owner : UInt32 → Option ι} {hearer sender : ι} {addr : UInt32} {base : Nat}
  {xs : List Advert} {n : Nat} {s s' : Network ι}

/-- A reception of some host. -/
theorem Network.Spreads.receive {m : Nat}
    (h : s.Spreads owner hearer sender addr base xs n) {host : ι} {r : Reception}
    (hround : ∀ d, discoveryServerLoop (s.discovery hearer) r = some d →
      host = hearer → d.Heard addr xs (n + m))
    (hother : host ≠ hearer → m = 0) (hstep : s.receive host r = some s') :
    s'.Spreads owner hearer sender addr base xs (n + m) := by
  obtain ⟨d, hd, heq⟩ := Option.map_eq_some_iff.mp hstep
  rw [← heq]
  refine ⟨h.sound, h.registered, h.base_le, h.short, h.recent, ?_⟩
  show (Function.update s.discovery host d hearer).Heard _ _ _
  by_cases hhost : hearer = host
  · rw [hhost, Function.update_self]
    rw [← hhost] at hd
    exact hround d hd hhost.symm
  · rw [Function.update_of_ne hhost, hother (Ne.symm hhost)]
    exact h.heard

/-- A broadcast of the address packs what is registered. -/
theorem Network.Spreads.broadcast (h : s.Spreads owner hearer sender addr base xs n)
    (howner : owner addr = some sender) {host : ι} {source : UInt32}
    {e : BroadcastEnv} (hstep : s.step owner (.broadcast host source e) = some s') :
    s'.Spreads owner hearer sender addr base xs n := by
  rw [Network.step] at hstep
  split at hstep
  case isFalse => cases hstep
  case isTrue hhost =>
    obtain ⟨⟨ret, packet⟩, hsent, heq⟩ := Option.map_eq_some_iff.mp hstep
    rw [← heq]
    have hnew : ∀ d ∈ carried source packet, d.bytes.length ≤ MAX_DATAGRAM
        ∧ (d.source = addr → Packs d.bytes xs) := by
      intro d hd
      obtain ⟨bytes, hbytes, hlen, hd⟩ := mem_carried.mp hd
      rw [hd]
      refine ⟨hlen, fun haddr => ?_⟩
      replace haddr : source = addr := haddr
      -- the address is the sender's
      rw [haddr, howner] at hhost
      cases Option.some.inj hhost
      replace hbytes : packet = some bytes := hbytes
      rw [hbytes] at hsent
      obtain ⟨hsound, hcomplete⟩ := h.sound sender
      obtain ⟨ls, hls, hpacket, hadverts, -⟩ :=
        doBroadcast_sent hsound.live hcomplete hsent
      rw [h.registered] at hadverts
      exact ⟨ls, hls, hpacket, (Option.some.inj hadverts).symm⟩
    refine ⟨h.sound, h.registered, ?_, fun d hd => ?_, fun i d hi hd haddr => ?_,
      h.heard⟩
    · show base ≤ (s.sent ++ carried source packet).length
      rw [List.length_append]
      exact Nat.le_trans h.base_le (Nat.le_add_right _ _)
    · rcases List.mem_append.mp hd with hold | hlast
      · exact h.short d hold
      · exact (hnew d hlast).1
    · replace hd : (s.sent ++ carried source packet)[i]? = some d := hd
      rcases Nat.lt_or_ge i s.sent.length with hlt | hge
      · rw [List.getElem?_append_left hlt] at hd
        exact h.recent i d hi hd haddr
      · rw [List.getElem?_append_right hge] at hd
        exact (hnew d (List.mem_of_getElem? hd)).2 haddr

/-- A delivery. -/
theorem Network.Spreads.deliver (h : s.Spreads owner hearer sender addr base xs n)
    (hfew : xs.length ≤ MAX_INTERFACES.toNat) {host : ι} {i : Nat}
    (hquiet : Quiet hearer sender addr base s (.deliver host i))
    (hstep : s.step owner (.deliver host i) = some s') :
    s'.Spreads owner hearer sender addr base xs
      (n + hears hearer addr s (.deliver host i)) := by
  obtain ⟨d, hd, hreceive⟩ := Option.bind_eq_some_iff.mp hstep
  have hweight : hears hearer addr s (.deliver host i)
      = if host = hearer ∧ d.source = addr then 1 else 0 := by
    simp only [hears, hd, Option.map_some, Option.some.injEq]
  rw [hweight]
  refine h.receive (fun d' hround hhost => ?_) (fun hne => if_neg fun h0 => hne h0.1)
    hreceive
  by_cases haddr : d.source = addr
  · have hbase : base ≤ i := by
      by_contra hold
      exact hquiet hhost (Nat.lt_of_not_le hold) d hd haddr
    rw [if_pos ⟨hhost, haddr⟩]
    rw [haddr] at hround
    exact h.heard.heard (h.recent i d hbase hd haddr)
      (h.short d (List.mem_of_getElem? hd)) hfew hround
  · rw [if_neg fun h0 => haddr h0.2]
    refine h.heard.again (fun source bytes heq => ?_) hround
    rw [← (Reception.datagram.inj heq).1]
    exact haddr

/-- **ONE STEP** spreads the list as far as the hearer hears it. -/
theorem Network.Spreads.step (h : s.Spreads owner hearer sender addr base xs n)
    (howner : owner addr = some sender) (hfew : xs.length ≤ MAX_INTERFACES.toNat)
    {c : NetworkCall ι} (hquiet : Quiet hearer sender addr base s c)
    (hstep : s.step owner c = some s') :
    s'.Spreads owner hearer sender addr base xs (n + hears hearer addr s c) := by
  cases c with
  | call host c =>
      obtain ⟨k, hk, heq⟩ := Option.map_eq_some_iff.mp hstep
      rw [← heq]
      refine ⟨fun i => ?_, ?_, h.base_le, h.short, h.recent, h.heard⟩
      · show Sound (Function.update s.registry host k i)
          ∧ (Function.update s.registry host k i).AllComplete
        by_cases hi : i = host
        · obtain ⟨hsound, hcomplete⟩ := h.sound host
          obtain ⟨hsound', hslot⟩ := hsound.step hk
          rw [hi, Function.update_self]
          exact ⟨hsound', hslot.allComplete hsound hcomplete⟩
        · rw [Function.update_of_ne hi]
          exact h.sound i
      · show (Function.update s.registry host k sender).adverts = _
        rw [Function.update_of_ne (Ne.symm hquiet)]
        exact h.registered
  | broadcast host source e => exact h.broadcast howner hstep
  | deliver host i => exact h.deliver hfew hquiet hstep
  | fail host err =>
      exact h.receive (m := 0) (r := .failed err) (fun d hround _ =>
        h.heard.again (fun _ _ heq => by cases heq) hround) (fun _ => rfl) hstep

/-- What the hearer has heard of a list since its sender registered it. -/
theorem Network.spreads_quiet {past calls : List (NetworkCall ι)}
    (hpast : runAll (Network.step owner) Network.initial past = some s)
    (howner : owner addr = some sender)
    (hfew : (s.registry sender).interfaceCount ≤ MAX_INTERFACES)
    (hquiet : AlongRun (Network.step owner) (Quiet hearer sender addr s.sent.length)
      s calls)
    (hrun : runAll (Network.step owner) s calls = some s') :
    ∃ xs, xs.length ≤ MAX_INTERFACES.toNat
      ∧ s'.Spreads owner hearer sender addr s.sent.length xs
          (sumAlong (Network.step owner) (hears hearer addr) s calls) := by
  have hfaithful := faithful_reachable hpast
  obtain ⟨hsound, hcomplete⟩ := hfaithful.sound sender
  obtain ⟨ls, hls, hcount, hadverts, -⟩ := adverts_spec hsound.live hcomplete
  have hlen : (ls.map Listing.advert).length ≤ MAX_INTERFACES.toNat := by
    rw [List.length_map, hcount]
    exact UInt32.le_iff_toNat_le.mp hfew
  have hstart : s.Spreads owner hearer sender addr s.sent.length
      (ls.map Listing.advert) 0 := by
    refine ⟨hfaithful.sound, hadverts, Nat.le_refl _, fun d hd => (hfaithful.sent d hd).1,
      fun i d hi hd => absurd (List.getElem?_eq_some_iff.mp hd).1 (Nat.not_lt.mpr hi),
      ⟨(hfaithful.hears hearer).well, fun h => absurd h (by omega),
        fun h => absurd h (by omega), fun h => absurd h (by omega)⟩⟩
  have hend : s'.Spreads owner hearer sender addr s.sent.length
      (ls.map Listing.advert)
      (0 + sumAlong (Network.step owner) (hears hearer addr) s calls) :=
    runAll_sumAlong (I := fun n t =>
        t.Spreads owner hearer sender addr s.sent.length (ls.map Listing.advert) n)
      (fun n t c u h hquiet hstep => h.step howner hlen hquiet hstep) calls hstart
      hquiet hrun
  rw [Nat.zero_add] at hend
  exact ⟨_, hlen, hend⟩

/-- **CONVERGENCE**: once the hearer has heard the address twice since its host last
    changed its registry, its table lists what is registered there, if it has room
    for the address at all. -/
theorem discovery_converges {past calls : List (NetworkCall ι)}
    (hpast : runAll (Network.step owner) Network.initial past = some s)
    (howner : owner addr = some sender)
    (hfew : (s.registry sender).interfaceCount ≤ MAX_INTERFACES)
    (hquiet : AlongRun (Network.step owner) (Quiet hearer sender addr s.sent.length)
      s calls)
    (htwice : 2 ≤ sumAlong (Network.step owner) (hears hearer addr) s calls)
    (hrun : runAll (Network.step owner) s calls = some s') :
    ∃ xs, (s'.registry sender).adverts = some xs
      ∧ (s'.discovery hearer).table.ListsAt addr xs
      ∧ (s'.discovery hearer).table.Met addr := by
  obtain ⟨xs, -, hend⟩ := Network.spreads_quiet hpast howner hfew hquiet hrun
  exact ⟨xs, hend.registered, hend.heard.lists htwice, hend.heard.met (by omega)⟩

end Networks

/-- Where nothing was sent before, no older datagram comes late. -/
theorem quiet_announces (s : Network Bool) :
    AlongRun (Network.step twoHosts) (Quiet true false 1 0) s NetworkCall.announces :=
  ⟨trivial, fun _ _ => ⟨trivial, fun _ _ =>
    ⟨fun _ h => absurd h (Nat.not_lt_zero _), fun _ _ =>
      ⟨fun _ h => absurd h (Nat.not_lt_zero _), fun _ _ => trivial⟩⟩⟩⟩

set_option maxRecDepth 4000 in
/-- Two datagrams, none of them older than the registration. -/
theorem discovery_converges_two :
    ∃ s s', runAll (Network.step twoHosts) Network.initial [.registers] = some s
      ∧ runAll (Network.step twoHosts) s NetworkCall.announces = some s'
      ∧ ∃ xs, (s'.registry false).adverts = some xs
        ∧ (s'.discovery true).table.ListsAt 1 xs
        ∧ (s'.discovery true).table.Met 1 := by
  obtain ⟨s, hpast, s', hrun, hnone, hfew, htwice⟩ : ∃ s,
      runAll (Network.step twoHosts) Network.initial [.registers] = some s
      ∧ ∃ s', runAll (Network.step twoHosts) s NetworkCall.announces = some s'
      ∧ s.sent = [] ∧ (s.registry false).interfaceCount = 1
      ∧ sumAlong (Network.step twoHosts) (hears true 1) s NetworkCall.announces = 2 :=
    ⟨_, rfl, _, rfl, rfl, rfl, rfl⟩
  have hquiet := quiet_announces s
  rw [← List.length_nil (α := Datagram), ← hnone] at hquiet
  exact ⟨s, s', hpast, hrun, discovery_converges hpast rfl (by rw [hfew]; decide) hquiet
    (Nat.le_of_eq htwice.symm) hrun⟩

end DistComm
