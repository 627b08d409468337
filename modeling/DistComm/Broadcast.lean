import DistComm.Slots

/-! # Announcing the interfaces

    `do_broadcast` of `module/network/broadcast.c`, and what becomes of its packet
    where it arrives whole.  The sender encodes whatever is registered; the
    receiver refuses more than `MAX_INTERFACES` interfaces, and the encoder leaves
    its buffer where an array is much longer than a growth step.  The registries
    in between are those that are announced (`announces_iff`). -/

namespace DistComm

open RawMemory RawScan PointerArray GrowBuffer Transition

/-- What the calls of `do_broadcast` return. -/
structure BroadcastEnv where
  sockCreate : Int32
  setsockopt : Int32
  connect : Int32

/-- The first `INTERFACE_COUNT` entries of `INTERFACE_LIST`, as far as the encoder
    looks at them. -/
def Registry.adverts (k : Registry) : Option (List Advert) :=
  (readFrom k.interfaceList.deref 0 k.interfaceCount.toNat).map fun entries =>
    entries.map fun x => x.2.toAdvert

/-- `do_broadcast`: its result, and the datagram it sends. -/
def doBroadcast (e : BroadcastEnv) (k : Registry) :
    Option (Int32 × Option (List UInt8)) :=
  if e.sockCreate < 0 then some (e.sockCreate, none)
  else if e.setsockopt < 0 then some (e.setsockopt, none)
  else if e.connect < 0 then some (e.connect, none)
  else do
    let entries ← k.adverts
    let packet ← serializeInterfacesPacket (entries.map some) k.interfaceCount
    some (0, some packet)

/-- The socket is created, set up and connected. -/
structure BroadcastEnv.Connects (e : BroadcastEnv) : Prop where
  sockCreate : ¬ e.sockCreate < 0
  setsockopt : ¬ e.setsockopt < 0
  connect : ¬ e.connect < 0

/-- The list has the ids and the counts of the registered interfaces, in order. -/
structure Registry.ListedBy (k : Registry) (xs : List Advert) : Prop where
  length : xs.length = k.interfaceCount.toNat
  entries : ∀ i p x, k.At i p x → ∃ y, xs[i]? = some y ∧ y.id = x.id
    ∧ y.argc = x.argc ∧ y.retc = x.retc

/-- A datagram is sent, and a receiver that gets it whole accepts it and has all
    registered interfaces in its list. -/
def Announces (e : BroadcastEnv) (k : Registry) : Prop :=
  ∃ packet, doBroadcast e k = some (0, some packet)
    ∧ ∀ (behind : Mem) (packetLength : UInt32),
      packetLength.toNat = packet.length →
      ∃ xs, (unserializeInterfacesPacket packetLength (overlay packet behind)
          0).val = .ok xs ∧ k.ListedBy xs

/-- There are no more interfaces than a receiver accepts, and the pieces of their
    list fit the encoder's buffer. -/
def Announceable (k : Registry) : Prop :=
  k.interfaceCount ≤ MAX_INTERFACES
    ∧ ∃ xs, k.adverts = some xs
      ∧ PiecesFit BUFFER_INC_SIZE.toNat 0 (4 :: xs.flatMap Advert.pieceLengths)

/-! ## What is registered is complete -/

/-- All registered interfaces have their flag arrays. -/
def Registry.AllComplete (k : Registry) : Prop :=
  ∀ i p x, k.At i p x → x.toAdvert.Complete

theorem complete_registered (u : UserInterface) (id : UInt32) (pid : Int32)
    (procEntry : Option ProcEntry) :
    (u.registered id pid procEntry).toAdvert.Complete :=
  ⟨_, _, rfl, List.length_replicate, rfl, List.length_replicate⟩

theorem SlotStep.allComplete {k k' : Registry} {c : RegistryCall}
    (hk : Sound k) (h : k.AllComplete) (hstep : SlotStep k k' c) :
    k'.AllComplete := by
  intro i p y hy
  cases hstep with
  | register procEntry hadded =>
      rcases hadded.cases hk.live hy with hold | ⟨-, -, hnew⟩
      · exact h i p y hold
      · rw [hnew]
        exact complete_registered ..
  | absent hsame _ =>
      rw [hsame] at hy
      exact h i p y hy
  | remove hdropped _ _ =>
      obtain ⟨j', -, hold⟩ := hdropped.left i p y hy
      exact h j' p y hold
  | activate hre =>
      have hlt := hy.1
      rw [hre.count] at hlt
      obtain ⟨⟨q, x⟩, hx⟩ := hk.live i hlt
      obtain ⟨y', hy', hact⟩ := hre.related i q x ⟨hlt, hx⟩
      have hcomplete := h i q x ⟨hlt, hx⟩
      rw [(hy.unique hy').2]
      rcases hact.1 with heq | heq
      · rw [heq]
        exact hcomplete
      · rw [heq]
        exact hcomplete

/-- What the encoder gets to see of a registry. -/
theorem adverts_spec {k : Registry} (hk : k.Live) (h : k.AllComplete) :
    ∃ ls : List Listing, Listable ls
      ∧ ls.length = k.interfaceCount.toNat
      ∧ k.adverts = some (ls.map Listing.advert)
      ∧ k.ListedBy (ls.map Listing.advert) := by
  obtain ⟨entries, hread, hlen, hget⟩ := Readable.readFrom hk
  -- every entry that is read is in some slot, where it is complete
  have hcomplete : ∀ x ∈ entries.map fun x => x.2.toAdvert, x.Complete := by
    intro x hx
    obtain ⟨⟨p, y⟩, hmem, hy⟩ := List.mem_map.mp hx
    obtain ⟨i, hi⟩ := List.getElem?_of_mem hmem
    have hlt : i < k.interfaceCount.toNat := by
      rw [← hlen]
      exact (List.getElem?_eq_some_iff.mp hi).1
    rw [← hy]
    exact h i p y ⟨hlt, (hget i hlt).symm.trans hi⟩
  obtain ⟨ls, hls, hmap⟩ := exists_listings hcomplete
  have hcount : ls.length = k.interfaceCount.toNat := by
    rw [← hlen, ← List.length_map (f := Listing.advert), hmap, List.length_map]
  have hlt := k.interfaceCount.toNat_lt
  refine ⟨ls, ⟨by omega, hls⟩, hcount, ?_, by rw [List.length_map, hcount],
    fun i p x hx => ⟨x.toAdvert, ?_, rfl, rfl, rfl⟩⟩
  · rw [Registry.adverts, hread, hmap]
    rfl
  · rw [hmap, List.getElem?_map, hget i hx.1, hx.2]
    rfl

/-! ## Which registries are announced -/

theorem doBroadcast_connected {e : BroadcastEnv} (he : e.Connects)
    {k : Registry} {ls : List Listing}
    (hcount : ls.length = k.interfaceCount.toNat)
    (hadverts : k.adverts = some (ls.map Listing.advert)) :
    doBroadcast e k
      = (serializeInterfacesPacket (ls.map fun l => some l.advert)
          (UInt32.ofNat ls.length)).map fun packet => (0, some packet) := by
  have hmap : (ls.map Listing.advert).map some = ls.map fun l => some l.advert :=
    List.map_map ..
  rw [doBroadcast, if_neg he.sockCreate, if_neg he.setsockopt,
    if_neg he.connect, hadverts, hcount, UInt32.ofNat_toNat, ← hmap]
  exact Option.map_eq_bind.symm

/-- **ANNOUNCED** are the registries within the receiver's limit whose list fits
    the sender's buffer. -/
theorem announces_iff_announceable {e : BroadcastEnv} (he : e.Connects)
    {k : Registry} (hk : k.Live) (h : k.AllComplete) :
    Announces e k ↔ Announceable k := by
  obtain ⟨ls, hlist, hcount, hadverts, hlisted⟩ := adverts_spec hk h
  have hrun := doBroadcast_connected he hcount hadverts
  constructor
  · rintro ⟨packet, hsent, haccepted⟩
    rw [hrun] at hsent
    obtain ⟨packet', hpacket, heq⟩ := Option.map_eq_some_iff.mp hsent
    cases heq
    have henc := serializeInterfacesPacket_eq hlist hpacket
    have hsmall := length_serializeInterfacesPacket hpacket
    rw [henc] at hpacket haccepted hsmall
    refine ⟨?_, _, hadverts, (serializeInterfacesPacket_iff hlist).mp hpacket⟩
    -- the receiver refuses a count above `MAX_INTERFACES`
    by_contra hcrowd
    obtain ⟨xs, hxs, -⟩ := haccepted (fun _ => 0)
      (UInt32.ofNat (listEncoding ls).length) (UInt32.toNat_ofNat_of_lt' hsmall)
    have hword : wordAt (overlay (listEncoding ls) fun _ => 0) 0
        = UInt32.ofNat ls.length :=
      wordAt_of_holds (holds_append.mp (holds_overlay _ _)).1
    have hfour : ¬ UInt32.ofNat (listEncoding ls).length < 4 :=
      listEncoding_not_short (Nat.le_of_eq (UInt32.toNat_ofNat_of_lt' hsmall).symm)
    rw [unserializeInterfacesPacket_crowded hfour (by
      rw [hword, hcount, UInt32.ofNat_toNat]
      exact UInt32.not_le.mp hcrowd)] at hxs
    cases hxs
  · rintro ⟨hmax, xs, hxs, hfit⟩
    rw [hadverts] at hxs
    rw [← Option.some.inj hxs] at hfit
    have hpacket := (serializeInterfacesPacket_iff hlist).mpr hfit
    refine ⟨listEncoding ls, by rw [hrun, hpacket]; rfl,
      fun behind packetLength hlen => ⟨_, ?_, hlisted⟩⟩
    have hfour : ¬ packetLength < 4 :=
      listEncoding_not_short (Nat.le_of_eq hlen.symm)
    refine unserializeInterfacesPacket_listEncoding hlist ?_
      (holds_overlay _ behind) hfour
    rw [hcount]
    exact UInt32.le_iff_toNat_le.mp hmax

/-- **DISCOVERY**, after any calls: what is announced and accepted. -/
theorem announces_iff {e : BroadcastEnv} (he : e.Connects)
    {calls : List RegistryCall} {k : Registry}
    (hrun : runAll Registry.step Registry.initial calls = some k) :
    Announces e k ↔ Announceable k := by
  obtain ⟨hk, h⟩ := sound_initial.reachable calls
    (fun _ _ _ hk h hstep => hstep.allComplete hk h)
    (fun _ _ _ hx => absurd hx.1 (Nat.not_lt_zero _)) hrun
  exact announces_iff_announceable he hk.live h

/-! ## Few interfaces, and many -/

/-- All calls succeed. -/
def BroadcastEnv.fine : BroadcastEnv := ⟨0, 0, 0⟩

theorem BroadcastEnv.fine_connects : BroadcastEnv.fine.Connects :=
  ⟨by decide, by decide, by decide⟩

/-- One process registers two interfaces. -/
theorem announces_iff_two :
    ∃ k, runAll Registry.step Registry.initial
        [.register 7 (some 1) .bare, .register 7 (some 1) .bare] = some k
      ∧ Announces .fine k := by
  have hrun : runAll Registry.step Registry.initial
      [.register 7 (some 1) .bare, .register 7 (some 1) .bare] = some _ := rfl
  refine ⟨_, hrun, (announces_iff BroadcastEnv.fine_connects hrun).mpr
    ⟨by decide, _, rfl, piecesFit_of_small (fun x hx => ?_) (by decide)⟩⟩
  rcases List.mem_cons.mp hx with h | h
  · rw [h]
    exact ⟨by decide, by decide⟩
  · rw [List.mem_singleton.mp h]
    exact ⟨by decide, by decide⟩

/-- Registrations alone succeed for a long time. -/
theorem registrations_run (pid : Int32) (procCreate : Option ProcEntry)
    (u : UserInterface) (n : Nat) (hn : n < 2 ^ 31) :
    ∃ k d, runAll Registry.step Registry.initial
        (List.replicate n (.register pid procCreate u)) = some k
      ∧ Refines k d ∧ d.entries.length = n ∧ k.allocatedId.toNat = n + 1 := by
  induction n with
  | zero =>
      exact ⟨Registry.initial, Directory.empty, rfl, refines_initial, rfl, rfl⟩
  | succ n ih =>
      obtain ⟨k, d, hrun, h, hlen, hid⟩ := ih (by omega)
      have hcount := h.count
      have hten : GRADIENT.toNat = 10 := rfl
      have hok : Handled k (.register pid procCreate u) := by
        refine ⟨fun heq => ?_, Or.inl (by omega)⟩
        rw [← heq]
        omega
      obtain ⟨k', procEntry, hreg, -, -, halloc, h'⟩ :=
        registerInterface_refines h hok (by omega)
      refine ⟨k', _, ?_, h', ?_, ?_⟩
      · have hstep : k.step (.register pid procCreate u) = some k' := by
          rw [Registry.step, hreg]
          rfl
        rw [List.replicate_succ', runAll_append, hrun, Option.bind_some,
          runAll_cons hstep]
        rfl
      · rw [List.length_append, hlen]
        rfl
      · rw [halloc, toNat_succ (by omega), hid]

/-- More than `MAX_INTERFACES` interfaces are not announced, however small. -/
theorem crowd_not_announced :
    ¬ ∀ (calls : List RegistryCall) (k : Registry),
      runAll Registry.step Registry.initial calls = some k →
        Announces .fine k := by
  intro hall
  obtain ⟨k, d, hrun, h, hlen, -⟩ := registrations_run 7 (some 1) .bare 257
    (by decide)
  obtain ⟨hk, hc⟩ := sound_initial.reachable _
    (fun _ _ _ hk h hstep => SlotStep.allComplete hk h hstep)
    (fun _ _ _ hx => absurd hx.1 (Nat.not_lt_zero _)) hrun
  obtain ⟨hmax, -⟩ := (announces_iff_announceable BroadcastEnv.fine_connects
    hk.live hc).mp (hall _ k hrun)
  have hle := UInt32.le_iff_toNat_le.mp hmax
  have h256 : MAX_INTERFACES.toNat = 256 := rfl
  rw [h.count, hlen, h256] at hle
  omega

end DistComm
