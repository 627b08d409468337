import DistComm.NetlinkBounds
import DistComm.Slots

/-! # Results on their way to the client

    `handle_interface_result`, called with a result packet of the library and its
    exact length.  Before the packet is forwarded its first value is printed as a
    C string, whether there is one, and whether it has a terminator or not.
    `results_forwarded_iff` is the exact condition for the packet to be forwarded as
    it is without a read outside of it. -/

namespace DistComm

open RawMemory RawScan PointerArray TracedProgram

/-- `find_interface` counts with an `int`, and stops at the first interface with the
    id: that one has the reply socket. -/
def Registry.FoundOn (k : Registry) (id : UInt32) (socket : Option SockId) : Prop :=
  k.interfaceCount.toNat < 2 ^ 31
    ∧ ∀ j q y, k.At j q y → y.id = id →
      (∀ j' q' y', j' < j → k.At j' q' y' → y'.id ≠ id) → y.ctrl.socket = socket

/-- The length and the packet are written to the socket, and all that is read lies
    inside the packet or inside the value that is printed. -/
def ForwardsResult (k : Registry) (sock : SockId) (packet : List UInt8) : Prop :=
  ∀ (env : Env) (behind : Mem) (portid : UInt32),
    (∀ e ∈ (handleInterfaceResult env (overlay packet behind) 0
      (UInt32.ofNat packet.length) portid k).trace, e.InPacket packet.length)
    ∧ sends (handleInterfaceResult env (overlay packet behind) 0
        (UInt32.ofNat packet.length) portid k).trace
      = [(sock, wordBytes (UInt32.ofNat packet.length)), (sock, packet)]

/-- Among as many as an `int` can count the first interface with the id is found, if
    there is one. -/
theorem findInterface_first {k : Registry} (hlive : k.Live)
    (hcount : k.interfaceCount.toNat < 2 ^ 31) {i p : Nat} {x : Interface}
    (hx : k.At i p x) :
    ∃ j q y, k.findInterface x.id.toInt32 = some (some (q, y)) ∧ k.At j q y
      ∧ y.id = x.id ∧ ∀ j' q' y', j' < j → k.At j' q' y' → y'.id ≠ x.id := by
  have hrounds := toNat_toInt32 hcount
  rcases hlive.search (fun y => y.2.id == x.id)
    with ⟨-, hno⟩ | ⟨⟨j, q, y⟩, hsome, hfirst, hj⟩
  · exact absurd rfl (hno.ne hx.1 hx.2)
  · refine ⟨j, q, y, ?_, ⟨hj, hfirst.get_index⟩, eq_of_beq hfirst.sat, ?_⟩
    · have hsome' : search k.interfaceList.deref
          (fun z => z.2.id == x.id.toInt32.toUInt32) 0 k.interfaceCount.toNat
          = some (some ⟨j, q, y⟩) := hsome
      rw [Registry.findInterface, DistComm.findInterface, hrounds, hsome']
      rfl
    · intro j' q' y' hj' hy'
      exact hfirst.ne hj' hy'.2

/-- Two interfaces that are the first with an id are in one slot. -/
theorem Registry.At.first_unique {k : Registry} {id : UInt32} {j q j' q' : Nat}
    {y y' : Interface} (hy : k.At j q y) (hid : y.id = id)
    (hbefore : ∀ i p x, i < j → k.At i p x → x.id ≠ id) (hy' : k.At j' q' y')
    (hid' : y'.id = id) (hbefore' : ∀ i p x, i < j' → k.At i p x → x.id ≠ id) :
    y = y' := by
  have hjj : j = j' := by
    rcases Nat.lt_trichotomy j j' with hlt | heq | hgt
    · exact absurd hid (hbefore' j q y hlt hy)
    · exact heq
    · exact absurd hid' (hbefore j' q' y' hgt hy')
  subst hjj
  exact (hy.unique hy').2

/-- The two sends, where the `int` length is not negative. -/
theorem sends_sendEvents (env : Env) (m : Mem) (packet : Nat)
    (packetLength : UInt32) (sock : SockId) :
    sends (sendEvents env m packet packetLength (some sock))
      = [(sock, wordBytes packetLength),
          (sock, slice m packet (iovLength packetLength))] := rfl

/-- What a result with at least one value makes the handler send. -/
theorem sends_result (env : Env) (m : Mem) (packet : Nat) (packetLength : UInt32)
    (socket : Option SockId) (reads : List Span) (v : List UInt8)
    (vs : List (List UInt8)) :
    sends (.read ⟨packet, 4⟩ :: (reads.map Event.read
        ++ resultEvents env m packet packetLength socket (v :: vs)))
      = sends (sendEvents env m packet packetLength socket) := by
  show sends (reads.map Event.read ++ (.print _ :: sendEvents _ _ _ _ _)) = _
  rw [sends_append, sends_reads]
  rfl

/-- The events of a result for an interface that the lookup finds: reads inside the
    packet, and then the print and the sends. -/
theorem result_trace {k : Registry} {id : UInt32} {q : Nat} {y : Interface}
    (hfound : k.findInterface id.toInt32 = some (some (q, y)))
    {vs : List (List UInt8)} (hfits : (rpcEncoding id vs).length < 2 ^ 32)
    (env : Env) (behind : Mem) (portid : UInt32) :
    ∃ reads : List Span, InBounds reads (rpcEncoding id vs).length
      ∧ (handleInterfaceResult env (overlay (rpcEncoding id vs) behind) 0
          (UInt32.ofNat (rpcEncoding id vs).length) portid k).trace
        = .read ⟨0, 4⟩ :: (reads.map Event.read
            ++ resultEvents env (overlay (rpcEncoding id vs) behind) 0
              (UInt32.ofNat (rpcEncoding id vs).length) y.ctrl.socket vs) := by
  have hm := holds_overlay (rpcEncoding id vs) behind
  have hid := wordAt_of_holds (holds_append.mp hm).1
  obtain ⟨reads, hreads, hrun⟩ :=
    handleInterfaceResult_found (by rw [hid]; exact hfound)
      (encodable_of_length hfits) hm env
      (UInt32.ofNat (rpcEncoding id vs).length) portid
  refine ⟨reads, (hreads _).mpr (by rw [Nat.zero_add]), ?_⟩
  rw [hrun]

/-- A forwarded result has a first value that can be printed, and a length that is
    not sent as a huge one. -/
theorem forwardsResult_needs {k : Registry} {id : UInt32} {q : Nat} {y : Interface}
    (hfound : k.findInterface id.toInt32 = some (some (q, y)))
    {vs : List (List UInt8)} (hfits : (rpcEncoding id vs).length < 2 ^ 32)
    {sock : SockId} (h : ForwardsResult k sock (rpcEncoding id vs)) :
    y.ctrl.socket = some sock ∧ (∃ v ws, vs = v :: ws ∧ (v = [] ∨ 0 ∈ v))
      ∧ (rpcEncoding id vs).length < 2 ^ 31 := by
  obtain ⟨reads, -, hrun⟩ := result_trace hfound hfits .fine (fun _ => 0) 0
  obtain ⟨hin, hsends⟩ := h .fine (fun _ => 0) 0
  rw [hrun] at hin hsends
  have hrest : ∀ e ∈ resultEvents .fine _ 0 _ y.ctrl.socket vs,
      e.InPacket (rpcEncoding id vs).length := fun e he =>
    hin e (List.mem_cons_of_mem _ (List.mem_append.mpr (Or.inr he)))
  cases vs with
  | nil =>
      obtain ⟨v, hv, -⟩ := hrest _ (List.mem_singleton.mpr rfl)
      cases hv
  | cons v vs =>
      obtain ⟨w, hw, hprint⟩ := hrest _ (List.mem_cons_self ..)
      rw [← Option.some.inj hw] at hprint
      have hreply := (sendEvents_inPacket .fine _ _ 0 _ _).mp fun e he =>
        hrest e (List.mem_cons_of_mem _ he)
      rw [sends_result] at hsends
      cases hs : y.ctrl.socket with
      | none =>
          rw [hs] at hsends
          cases hsends
      | some sock' =>
          rw [hs, sends_sendEvents] at hsends
          rw [hs] at hreply
          refine ⟨congrArg (some ·.1) (List.cons.inj hsends).1,
            ⟨v, vs, rfl, (printable_decodedValue v).mp hprint⟩, ?_⟩
          -- a negative length would be sent as a huge one
          have hwithin : iovLength _ = 0 ∨ 0 + iovLength _ ≤ _ :=
            hreply.resolve_left (Option.some_ne_none _)
          rw [iovLength, UInt32.toNat_ofNat_of_lt' hfits] at hwithin
          split at hwithin <;> omega

/-- With such a value and such a length it is forwarded. -/
theorem forwardsResult_suffices {k : Registry} {id : UInt32} {q : Nat}
    {y : Interface} (hfound : k.findInterface id.toInt32 = some (some (q, y)))
    {v : List UInt8} {vs : List (List UInt8)} (hprint : v = [] ∨ 0 ∈ v)
    (hlen : (rpcEncoding id (v :: vs)).length < 2 ^ 31) {sock : SockId}
    (hs : y.ctrl.socket = some sock) :
    ForwardsResult k sock (rpcEncoding id (v :: vs)) := by
  intro env behind portid
  have hfits : (rpcEncoding id (v :: vs)).length < 2 ^ 32 :=
    Nat.lt_trans hlen (by decide)
  have hiov : iovLength (UInt32.ofNat (rpcEncoding id (v :: vs)).length)
      = (rpcEncoding id (v :: vs)).length := by
    rw [iovLength, UInt32.toNat_ofNat_of_lt' hfits, if_pos hlen]
  obtain ⟨reads, hreads, hrun⟩ := result_trace hfound hfits env behind portid
  rw [hrun]
  refine ⟨fun e he => ?_, ?_⟩
  · rcases List.mem_cons.mp he with rfl | h1
    · refine Or.inr ?_
      rw [length_rpcEncoding]
      show 0 + 4 ≤ 8 + _
      omega
    rcases List.mem_append.mp h1 with h2 | h2
    · exact inPacket_reads.mpr hreads e h2
    rcases List.mem_cons.mp h2 with rfl | h3
    · exact ⟨_, rfl, (printable_decodedValue v).mpr hprint⟩
    · refine (sendEvents_inPacket env _ _ 0 _ _).mpr (Or.inr (Or.inr ?_)) e h3
      rw [hiov, Nat.zero_add]
  · rw [sends_result, hs, sends_sendEvents, hiov, slice_overlay]

/-- A result for an interface that the lookup finds. -/
theorem forwardsResult_found {k : Registry} {id : UInt32} {q : Nat} {y : Interface}
    (hfound : k.findInterface id.toInt32 = some (some (q, y)))
    {vs : List (List UInt8)} (hfits : (rpcEncoding id vs).length < 2 ^ 32)
    (sock : SockId) :
    ForwardsResult k sock (rpcEncoding id vs)
      ↔ y.ctrl.socket = some sock ∧ (∃ v ws, vs = v :: ws ∧ (v = [] ∨ 0 ∈ v))
        ∧ (rpcEncoding id vs).length < 2 ^ 31 := by
  constructor
  · exact forwardsResult_needs hfound hfits
  · rintro ⟨hs, ⟨v, ws, rfl, hprint⟩, hlen⟩
    exact forwardsResult_suffices hfound hprint hlen hs

/-- **RESULTS ARE FORWARDED** exactly if the interface is found, there is a first
    value that is empty or has a terminator, and the length of the packet is not
    negative as an `int`. -/
theorem results_forwarded_iff {k : Registry} (hlive : k.Live) {i p : Nat}
    {x : Interface} (hx : k.At i p x) {sock : SockId}
    (hsock : x.ctrl.socket = some sock) {retc : UInt32} {values : List AttrValue}
    (hretc : retc.toNat = values.length) {packet : List UInt8}
    (hpacket : Lib.serializeRpcPacket x.id.toInt32 retc.toInt32 values
      = some packet) :
    ForwardsResult k sock packet
      ↔ k.FoundOn x.id x.ctrl.socket
        ∧ (∃ v vs, values.map AttrValue.value = v :: vs ∧ (v = [] ∨ 0 ∈ v))
        ∧ packet.length < 2 ^ 31 := by
  have hfits := (Lib.serializeRpcPacket_id hpacket).2
  have hencoding : packet = rpcEncoding x.id (values.map AttrValue.value) :=
    (Kernel.serializeRpcPacket_some hretc hpacket).1
  subst hencoding
  by_cases hcount : k.interfaceCount.toNat < 2 ^ 31
  · obtain ⟨j, q, y, hfound, hy, hyid, hbefore⟩ :=
      findInterface_first hlive hcount hx
    have hfirst : k.FoundOn x.id x.ctrl.socket ↔ y.ctrl.socket = some sock := by
      rw [hsock]
      constructor
      · intro h
        exact h.2 j q y hy hyid hbefore
      · intro hs
        refine ⟨hcount, fun j' q' y' hy' hid' hbefore' => ?_⟩
        rw [hy'.first_unique hid' hbefore' hy hyid hbefore, hs]
    rw [hfirst, forwardsResult_found hfound hfits sock]
  · -- the count is negative as an `int`, and nothing is found
    have hmissing : ∀ id, k.findInterface id = some none := by
      intro id
      rw [Registry.findInterface, findInterface_many hcount]
      rfl
    refine iff_of_false (fun h => ?_) fun h => hcount h.1.1
    have hsends := (h .fine (fun _ => 0) 0).2
    rw [handleInterfaceResult_missing (hmissing _)] at hsends
    cases hsends

/-- The result of `add` in the tests: one value, a string with its terminator. -/
theorem results_forwarded_string :
    ForwardsResult (Registry.sole
        ((UserInterface.bare.registered 1 7 none).setSocket (some 5))) 5
      (rpcEncoding 1 [[51, 0]]) := by
  have hat : (Registry.sole ((UserInterface.bare.registered 1 7 none).setSocket
      (some 5))).At 0 0 _ := ⟨Nat.one_pos, rfl⟩
  refine (@results_forwarded_iff _ (traversable_sole _).live 0 0 _ hat 5 rfl 1
    [AttrValue.ofBytes [51, 0]] rfl _ (by decide)).mpr
    ⟨⟨by decide, fun j q y hy hid _ => ?_⟩, ⟨_, _, rfl, Or.inr (by decide)⟩,
      by decide⟩
  have hj : j = 0 := Nat.lt_one_iff.mp hy.1
  subst hj
  rw [(hy.unique hat).2]

/-- A result of one byte without a terminator: the block of the value is read past
    its end before the packet is forwarded. -/
theorem result_without_terminator :
    Lib.serializeRpcPacket 1 1 [AttrValue.ofBytes [51]]
        = some (rpcEncoding 1 [[51]])
      ∧ ¬ ForwardsResult (Registry.sole
          ((UserInterface.bare.registered 1 7 none).setSocket (some 5))) 5
          (rpcEncoding 1 [[51]]) := by
  refine ⟨by decide, fun h => ?_⟩
  have hprint : Event.InPacket _ (.print (some (decodedValue .null [51]))) :=
    (h .fine (fun _ => 0) 0).1 _ (by decide)
  obtain ⟨v, hv, hprint⟩ := hprint
  rw [← Option.some.inj hv] at hprint
  exact absurd ((printable_decodedValue [51]).mp hprint) (by decide)

end DistComm
