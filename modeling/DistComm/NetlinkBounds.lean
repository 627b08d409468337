import DistComm.Bounds

/-! # What netlink messages make the kernel read and send

    `handle_netlink_income` derives the length of a message's body from a field
    that the sender fills in, and only logs a message that is too short for its
    headers.  `MessageInside` is the exact condition under which it and the handler
    it calls read nothing but the message (`netlink_events_iff`); it speaks about
    the bytes of the message and about what the registry says on the interface
    that is named in it.  Where it holds, what is sent to the reply socket does
    not depend on the memory behind the message (`MessageInside.sends`), and the
    two together are `netlinkInside_iff`. -/

namespace DistComm

open RawMemory RawScan PointerArray TracedProgram

/-! ## Handshakes -/

/-- A handshake of the given body length in a message of `n` bytes: it is refused
    before or after its count is read, or there are no interfaces to compare ids
    with, or all ids lie inside. -/
def HandshakeInside (k : Registry) (m : Mem) (n : Nat) (bodyLength : UInt32) :
    Prop :=
  bodyLength < 4 ∨ (21 ≤ n
    ∧ (bodyLength.toNat < 4 * (wordAt m 17 + 1).toNat ∨ k.interfaceCount = 0
      ∨ 21 + 4 * (wordAt m 17).toNat ≤ n))

/-- The events of a handshake are the read of the count and those of the ids. -/
theorem handshake_events {k : Registry} (hk : Traversable k) (m : Mem)
    (packet : Nat) (packetLength portid : UInt32) (e : Event) :
    e ∈ (handleActivateInterface m packet packetLength portid k).trace
      ↔ ¬ packetLength < 4 ∧ (e = .read ⟨packet, 4⟩
        ∨ (¬ packetLength.toNat < 4 * (wordAt m packet + 1).toNat
          ∧ k.interfaceCount ≠ 0
          ∧ ∃ j, j < (wordAt m packet).toNat
            ∧ e = .read ⟨packet + 4 + 4 * j, 4⟩)) := by
  rw [handleActivateInterface_run]
  by_cases hshort : packetLength < 4
  · rw [if_pos hshort]
    refine ⟨fun he => ?_, fun h => absurd hshort h.1⟩
    cases he
  rw [if_neg hshort]
  by_cases hcount : packetLength.toNat < 4 * (wordAt m packet + 1).toNat
  · rw [if_pos hcount]
    constructor
    · intro he
      exact ⟨hshort, Or.inl (List.mem_singleton.mp he)⟩
    · rintro ⟨-, he | ⟨hno, -⟩⟩
      · exact List.mem_singleton.mpr he
      · exact absurd hcount hno
  · obtain ⟨k', t, hrun, -, -, ht⟩ := hk.activateAll m (packet + 4) portid
      (wordAt m packet).toNat 0
    rw [if_neg hcount, hrun]
    show e ∈ .read ⟨packet, 4⟩ :: t ↔ _
    rw [List.mem_cons, ht e]
    constructor
    · rintro (he | ⟨hne, j, -, hj, he⟩)
      · exact ⟨hshort, Or.inl he⟩
      · exact ⟨hshort, Or.inr ⟨hcount, hne, j, by omega, he⟩⟩
    · rintro ⟨-, he | ⟨-, hne, j, hj, he⟩⟩
      · exact Or.inl he
      · exact Or.inr ⟨hne, j, Nat.zero_le j, by omega, he⟩

theorem handshakeInside_iff {k : Registry} (hk : Traversable k) (m : Mem)
    (n : Nat) (bodyLength portid : UInt32) :
    (∀ e ∈ (handleActivateInterface m 17 bodyLength portid k).trace,
        e.InPacket n) ↔ HandshakeInside k m n bodyLength := by
  constructor
  · intro h
    by_cases hshort : bodyLength < 4
    · exact Or.inl hshort
    · have hcountRead : (⟨17, 4⟩ : Span).Within n :=
        h _ ((handshake_events hk m 17 bodyLength portid _).mpr
          ⟨hshort, Or.inl rfl⟩)
      have hn : 21 ≤ n := hcountRead.resolve_left (by decide)
      refine Or.inr ⟨hn, ?_⟩
      by_cases hcount : bodyLength.toNat < 4 * (wordAt m 17 + 1).toNat
      · exact Or.inl hcount
      · by_cases hnone : k.interfaceCount = 0
        · exact Or.inr (Or.inl hnone)
        · refine Or.inr (Or.inr ?_)
          cases hc : (wordAt m 17).toNat with
          | zero => exact hn
          | succ c =>
              -- the last id is the one furthest behind
              have hlast : (⟨21 + 4 * c, 4⟩ : Span).Within n :=
                h _ ((handshake_events hk m 17 bodyLength portid _).mpr
                  ⟨hshort, Or.inr ⟨hcount, hnone, c, by omega, rfl⟩⟩)
              have hle : 21 + 4 * c + 4 ≤ n :=
                hlast.resolve_left (Nat.succ_ne_zero 3)
              omega
  · intro h e he
    obtain ⟨hshort, he⟩ := (handshake_events hk m 17 bodyLength portid e).mp he
    obtain ⟨hn, hids⟩ := h.resolve_left hshort
    rcases he with he | ⟨hcount, hne, j, hj, he⟩
    · rw [he]
      exact Or.inr hn
    · rw [he]
      have hall := (hids.resolve_left hcount).resolve_left hne
      exact Or.inr (by show 21 + 4 * j + 4 ≤ n; omega)

/-! ## Results -/

/-- What the two sends of a result leave. -/
def sendEvents (env : Env) (m : Mem) (packet : Nat) (packetLength : UInt32) :
    Option SockId → List Event
  | none => []
  | some sock => [.sendto sock (wordBytes packetLength) (env.sendRet 0),
      .read ⟨packet, iovLength packetLength⟩,
      .sendto sock (slice m packet (iovLength packetLength)) (env.sendRet 1)]

/-- What `handle_interface_result` does once the values are decoded: print the
    first one, and forward the packet.  Without a first value it faults. -/
def resultEvents (env : Env) (m : Mem) (packet : Nat) (packetLength : UInt32)
    (sock : Option SockId) : List (List UInt8) → List Event
  | [] => [.print none]
  | v :: _ => .print (some (decodedValue .null v))
      :: sendEvents env m packet packetLength sock

def resultRet : List (List UInt8) → Option Unit
  | [] => none
  | _ :: _ => some ()

theorem run_sendResult (env : Env) (m : Mem) (packet : Nat)
    (packetLength : UInt32) (sock : Option SockId) (k : Registry) :
    sendResult env m packet packetLength sock k
      = ⟨some (), k, sendEvents env m packet packetLength sock⟩ := by
  cases sock with
  | none => rfl
  | some sock =>
      have hnever : ¬ (env.sendRet 0).toUInt32 < 0 :=
        fun h => Nat.not_lt_zero _ (UInt32.lt_iff_toNat_lt.mp h)
      rw [sendResult, run_emit_bind, if_neg hnever]
      rfl

theorem handleInterfaceResult_missing {k : Registry} {m : Mem} {packet : Nat}
    (hnone : k.findInterface (wordAt m packet).toInt32 = some none) (env : Env)
    (packetLength portid : UInt32) :
    handleInterfaceResult env m packet packetLength portid k
      = ⟨some (), k, [.read ⟨packet, 4⟩]⟩ := by
  have hnone' : k.findInterface (interfaceId m packet).val = some none := hnone
  rw [handleInterfaceResult, run_readPacket_bind, run_getState_bind,
    run_orFault_some_bind hnone']
  rfl

theorem handleInterfaceResult_fault {k : Registry} {m : Mem} {packet : Nat}
    (hfault : k.findInterface (wordAt m packet).toInt32 = none) (env : Env)
    (packetLength portid : UInt32) :
    handleInterfaceResult env m packet packetLength portid k
      = ⟨none, k, [.read ⟨packet, 4⟩]⟩ := by
  have hfault' : k.findInterface (interfaceId m packet).val = none := hfault
  rw [handleInterfaceResult, run_readPacket_bind, run_getState_bind,
    run_orFault_none_bind hfault']
  rfl

/-- **RESULT**: a packet with the values `vs` for a registered interface. -/
theorem handleInterfaceResult_found {k : Registry} {m : Mem} {packet : Nat}
    {p : Nat} {x : Interface}
    (hfound : k.findInterface (wordAt m packet).toInt32 = some (some (p, x)))
    {id : UInt32} {vs : List (List UInt8)} (henc : Encodable vs)
    (hm : Holds m packet (rpcEncoding id vs)) (env : Env)
    (packetLength portid : UInt32) :
    ∃ reads, (∀ n, InBounds reads n ↔ packet + (rpcEncoding id vs).length ≤ n)
      ∧ handleInterfaceResult env m packet packetLength portid k
        = ⟨resultRet vs, k, .read ⟨packet, 4⟩ :: (reads.map Event.read
            ++ resultEvents env m packet packetLength x.ctrl.socket vs)⟩ := by
  obtain ⟨hval, hreads⟩ := Kernel.unserializeRpcPacket_run henc hm packetLength
  refine ⟨_, hreads, ?_⟩
  have hfound' : k.findInterface (interfaceId m packet).val
      = some (some (p, x)) := hfound
  rw [handleInterfaceResult, run_readPacket_bind, run_getState_bind,
    run_orFault_some_bind hfound', forwardResult, run_readPacket_bind,
    run_emit_bind, hval]
  cases vs with
  | nil =>
      have h0 : (([] : List (List UInt8)).map (decodedValue .null))[0]? = none :=
        rfl
      rw [run_orFault_none_bind h0]
      rfl
  | cons v vs =>
      have h0 : ((v :: vs).map (decodedValue .null))[0]?
          = some (decodedValue .null v) := rfl
      rw [run_orFault_some_bind h0, run_sendResult]
      rfl

/-- A value is printed safely when it is empty or has a terminator. -/
theorem printable_decodedValue (v : List UInt8) :
    Printable (decodedValue .null v).addr ↔ v = [] ∨ 0 ∈ v := by
  have haddr : (decodedValue .null v).addr
      = if v.length = 0 then .null else .block v := rfl
  rw [haddr]
  by_cases h0 : v.length = 0
  · rw [if_pos h0]
    exact ⟨fun _ => Or.inl (List.length_eq_zero_iff.mp h0), fun _ => trivial⟩
  · rw [if_neg h0]
    constructor
    · exact Or.inr
    · intro h
      exact h.resolve_left fun hnil => h0 (List.length_eq_zero_iff.mpr hnil)

/-- What is sent to the reply socket lies inside the first `n` bytes. -/
def ReplyInside (n : Nat) (packet : Nat) (packetLength : UInt32)
    (sock : Option SockId) : Prop :=
  sock = none ∨ (⟨packet, iovLength packetLength⟩ : Span).Within n

/-- A result of the given body length in a message of `n` bytes: its interface is
    not registered, or the message holds a complete packet whose first value is a
    string or empty, and the body that is forwarded lies inside. -/
def ResultInside (k : Registry) (m : Mem) (n : Nat) (bodyLength : UInt32) :
    Prop :=
  21 ≤ n ∧ ∀ p x, k.findInterface (wordAt m 17).toInt32 = some (some (p, x)) →
    ∃ v vs, Encodable (v :: vs)
      ∧ Holds m 17 (rpcEncoding (wordAt m 17) (v :: vs))
      ∧ 17 + (rpcEncoding (wordAt m 17) (v :: vs)).length ≤ n
      ∧ (v = [] ∨ 0 ∈ v) ∧ ReplyInside n 17 bodyLength x.ctrl.socket

theorem sendEvents_inPacket (env : Env) (m : Mem) (n packet : Nat)
    (packetLength : UInt32) (sock : Option SockId) :
    (∀ e ∈ sendEvents env m packet packetLength sock, e.InPacket n)
      ↔ ReplyInside n packet packetLength sock := by
  cases sock with
  | none => exact ⟨fun _ => Or.inl rfl, fun _ e he => nomatch he⟩
  | some s =>
      constructor
      · intro h
        exact Or.inr (h (.read ⟨packet, iovLength packetLength⟩)
          (List.mem_cons_of_mem _ (List.mem_cons_self ..)))
      · intro h e he
        rcases List.mem_cons.mp he with h1 | h1
        · rw [h1]
          trivial
        · rcases List.mem_cons.mp h1 with h2 | h2
          · rw [h2]
            exact h.resolve_left (fun h0 => nomatch h0)
          · rw [List.mem_singleton.mp h2]
            trivial

theorem resultInside_iff {k : Registry} (hk : k.Live) (env : Env) (m : Mem)
    (n : Nat) (bodyLength portid : UInt32) :
    (∀ e ∈ (handleInterfaceResult env m 17 bodyLength portid k).trace,
        e.InPacket n) ↔ ResultInside k m n bodyLength := by
  rcases hk.findInterface (wordAt m 17).toInt32 with hnone | ⟨p, x, hfound, -⟩
  · rw [handleInterfaceResult_missing hnone]
    constructor
    · intro h
      have hid : (⟨17, 4⟩ : Span).Within n := h _ (List.mem_cons_self ..)
      refine ⟨hid.resolve_left (by decide), fun p x hfound => ?_⟩
      rw [hnone] at hfound
      exact nomatch hfound
    · rintro ⟨hn, -⟩ e he
      rw [List.mem_singleton.mp he]
      exact Or.inr hn
  · constructor
    · intro h
      obtain ⟨vs, henc, hm⟩ := holds_rpcEncoding m 17
      obtain ⟨reads, hreads, hrun⟩ :=
        handleInterfaceResult_found hfound henc hm env bodyLength portid
      rw [hrun] at h
      have hid : (⟨17, 4⟩ : Span).Within n := h _ (List.mem_cons_self ..)
      have hin := (hreads n).mp (inPacket_reads.mp fun e he =>
        h e (List.mem_cons_of_mem _ (List.mem_append.mpr (Or.inl he))))
      have hrest : ∀ e ∈ resultEvents env m 17 bodyLength x.ctrl.socket vs,
          e.InPacket n := fun e he =>
        h e (List.mem_cons_of_mem _ (List.mem_append.mpr (Or.inr he)))
      refine ⟨hid.resolve_left (by decide), fun p' x' hfound' => ?_⟩
      rw [hfound] at hfound'
      cases hfound'
      cases vs with
      | nil =>
          obtain ⟨v, hv, -⟩ := hrest _ (List.mem_singleton.mpr rfl)
          exact nomatch hv
      | cons v vs =>
          obtain ⟨w, hw, hprint⟩ := hrest _ (List.mem_cons_self ..)
          rw [← Option.some.inj hw] at hprint
          exact ⟨v, vs, henc, hm, hin, (printable_decodedValue v).mp hprint,
            (sendEvents_inPacket env m n 17 bodyLength _).mp fun e he =>
              hrest e (List.mem_cons_of_mem _ he)⟩
    · rintro ⟨hn, hall⟩ e he
      obtain ⟨v, vs, henc, hm, hin, hprint, hreply⟩ := hall p x hfound
      obtain ⟨reads, hreads, hrun⟩ :=
        handleInterfaceResult_found hfound henc hm env bodyLength portid
      rw [hrun] at he
      rcases List.mem_cons.mp he with h1 | h1
      · rw [h1]
        exact Or.inr hn
      · rcases List.mem_append.mp h1 with h2 | h2
        · exact inPacket_reads.mpr ((hreads n).mpr hin) e h2
        · rcases List.mem_cons.mp h2 with h3 | h3
          · rw [h3]
            exact ⟨_, rfl, (printable_decodedValue v).mpr hprint⟩
          · exact (sendEvents_inPacket env m n 17 bodyLength _).mpr hreply e h3

/-! ## Messages -/

/-- The message of `n` bytes has its headers, and its handler stays inside it. -/
def MessageInside (k : Registry) (m : Mem) (n : Nat) : Prop :=
  17 ≤ n ∧ (m 16 = INCOME_HANDSHAKE → HandshakeInside k m n (wordAt m 0 - 1))
    ∧ (m 16 = INCOME_RESULT → ResultInside k m n (wordAt m 0 - 1))

/-- The header is read first, and its type selects the handler. -/
theorem handleNetlinkIncome_run (env : Env) (m : Mem) (k : Registry) :
    handleNetlinkIncome env m k
      = ((if m 16 = INCOME_HANDSHAKE then
            handleActivateInterface m 17 (wordAt m 0 - 1) (wordAt m 12)
          else if m 16 = INCOME_RESULT then
            handleInterfaceResult env m 17 (wordAt m 0 - 1) (wordAt m 12)
          else pure ()) k).after
        [.read ⟨0, 4⟩, .read ⟨12, 4⟩, .read ⟨16, 1⟩] := rfl

theorem handshake_ne_result : INCOME_RESULT ≠ INCOME_HANDSHAKE := by decide

/-- A message of type `INCOME_RESULT` is for `handle_interface_result`. -/
theorem handleNetlinkIncome_isResult {m : Mem} (htype : m 16 = INCOME_RESULT)
    (env : Env) (k : Registry) :
    handleNetlinkIncome env m k
      = (handleInterfaceResult env m 17 (wordAt m 0 - 1) (wordAt m 12) k).after
        [.read ⟨0, 4⟩, .read ⟨12, 4⟩, .read ⟨16, 1⟩] := by
  have hne : ¬ m 16 = INCOME_HANDSHAKE := fun h =>
    handshake_ne_result (htype.symm.trans h)
  rw [handleNetlinkIncome_run, if_neg hne, if_pos htype]

/-- **BOUNDS OF MESSAGES**, in one memory. -/
theorem netlink_events_iff {k : Registry} (hk : Traversable k) (env : Env)
    (m : Mem) (n : Nat) :
    (∀ e ∈ (handleNetlinkIncome env m k).trace, e.InPacket n)
      ↔ MessageInside k m n := by
  have hheader : (∀ e ∈ [Event.read ⟨0, 4⟩, .read ⟨12, 4⟩, .read ⟨16, 1⟩],
      e.InPacket n) ↔ 17 ≤ n := by
    constructor
    · intro h
      have hlast : (⟨16, 1⟩ : Span).Within n := h (.read ⟨16, 1⟩) (by simp)
      exact hlast.resolve_left (by decide)
    · intro hn e he
      rcases List.mem_cons.mp he with h1 | h1
      · rw [h1]
        exact Or.inr (by show 0 + 4 ≤ n; omega)
      · rcases List.mem_cons.mp h1 with h2 | h2
        · rw [h2]
          exact Or.inr (by show 12 + 4 ≤ n; omega)
        · rw [List.mem_singleton.mp h2]
          exact Or.inr hn
  rw [handleNetlinkIncome_run, after_trace]
  simp only [List.forall_mem_append]
  rw [hheader, MessageInside]
  refine and_congr_right fun _ => ?_
  by_cases hshake : m 16 = INCOME_HANDSHAKE
  · rw [if_pos hshake, handshakeInside_iff hk]
    have hne : ¬ m 16 = INCOME_RESULT := fun h =>
      handshake_ne_result (h.symm.trans hshake)
    exact ⟨fun h => ⟨fun _ => h, fun h' => absurd h' hne⟩, fun h => h.1 hshake⟩
  · rw [if_neg hshake]
    by_cases hresult : m 16 = INCOME_RESULT
    · rw [if_pos hresult, resultInside_iff hk.live]
      exact ⟨fun h => ⟨fun h' => absurd h' hshake, fun _ => h⟩,
        fun h => h.2 hresult⟩
    · rw [if_neg hresult]
      exact ⟨fun _ => ⟨fun h' => absurd h' hshake, fun h' => absurd h' hresult⟩,
        fun _ e he => nomatch he⟩

/-! ## Two runs -/

theorem sends_append (s t : List Event) : sends (s ++ t) = sends s ++ sends t :=
  List.filterMap_append

theorem sends_reads (reads : List Span) : sends (reads.map Event.read) = [] := by
  rw [sends, List.filterMap_map]
  exact List.filterMap_eq_nil_iff.mpr fun _ _ => rfl

theorem HandshakeInside.congr {k : Registry} {m m' : Mem} {n : Nat}
    {bodyLength : UInt32} (h : HandshakeInside k m n bodyLength)
    (hagree : AgreeBelow n m m') : HandshakeInside k m' n bodyLength := by
  refine h.imp_right fun ⟨hn, hids⟩ => ⟨hn, ?_⟩
  rw [wordAt_agree hagree (show 17 + 4 ≤ n from hn)]
  exact hids

theorem ResultInside.congr {k : Registry} {m m' : Mem} {n : Nat}
    {bodyLength : UInt32} (h : ResultInside k m n bodyLength)
    (hagree : AgreeBelow n m m') : ResultInside k m' n bodyLength := by
  obtain ⟨hn, hall⟩ := h
  refine ⟨hn, ?_⟩
  rw [wordAt_agree hagree (show 17 + 4 ≤ n from hn)]
  intro p x hfound
  obtain ⟨v, vs, henc, hm, hin, hrest⟩ := hall p x hfound
  exact ⟨v, vs, henc, hm.congr fun i _ hi => hagree i (by omega), hin, hrest⟩

/-- Whether a message is processed inside its bounds is a matter of its bytes. -/
theorem MessageInside.congr {k : Registry} {m m' : Mem} {n : Nat}
    (h : MessageInside k m n) (hagree : AgreeBelow n m m') :
    MessageInside k m' n := by
  obtain ⟨hn, hshake, hresult⟩ := h
  refine ⟨hn, ?_, ?_⟩
  · rw [← hagree 16 hn, wordAt_agree hagree (show 0 + 4 ≤ n by omega)]
    exact fun htype => (hshake htype).congr hagree
  · rw [← hagree 16 hn, wordAt_agree hagree (show 0 + 4 ≤ n by omega)]
    exact fun htype => (hresult htype).congr hagree

theorem handshake_sends {k : Registry} (hk : Traversable k) (m : Mem)
    (bodyLength portid : UInt32) :
    sends (handleActivateInterface m 17 bodyLength portid k).trace = [] := by
  refine List.filterMap_eq_nil_iff.mpr fun e he => ?_
  obtain ⟨-, he⟩ := (handshake_events hk m 17 bodyLength portid e).mp he
  rcases he with he | ⟨-, -, j, -, he⟩
  · rw [he]
  · rw [he]

/-- What a result sends depends on nothing but the bytes inside. -/
theorem ResultInside.sends {k : Registry} (hk : k.Live) {m m' : Mem} {n : Nat}
    {bodyLength : UInt32} (h : ResultInside k m n bodyLength)
    (hagree : AgreeBelow n m m') (env : Env) (portid portid' : UInt32) :
    sends (handleInterfaceResult env m 17 bodyLength portid k).trace
      = DistComm.sends (handleInterfaceResult env m' 17 bodyLength portid'
          k).trace := by
  have h' := h.congr hagree
  have hid := wordAt_agree hagree (show 17 + 4 ≤ n from h.1)
  rcases hk.findInterface (wordAt m 17).toInt32 with hnone | ⟨p, x, hfound, -⟩
  · rw [handleInterfaceResult_missing hnone,
      handleInterfaceResult_missing (by rw [hid]; exact hnone)]
  · obtain ⟨v, vs, henc, hm, -, -, hreply⟩ := h.2 p x hfound
    obtain ⟨v', vs', henc', hm', -, -, -⟩ := h'.2 p x (by rw [hid]; exact hfound)
    obtain ⟨reads, -, hrun⟩ :=
      handleInterfaceResult_found hfound henc hm env bodyLength portid
    obtain ⟨reads', -, hrun'⟩ := handleInterfaceResult_found
      (by rw [hid]; exact hfound) henc' hm' env bodyLength portid'
    have hsends : ∀ (r : List Span) (mem : Mem) (w : List UInt8)
        (ws : List (List UInt8)),
        DistComm.sends (.read ⟨17, 4⟩ :: (r.map Event.read
          ++ resultEvents env mem 17 bodyLength x.ctrl.socket (w :: ws)))
        = DistComm.sends (sendEvents env mem 17 bodyLength x.ctrl.socket) := by
      intro r mem w ws
      show DistComm.sends (r.map Event.read ++ (.print _ :: sendEvents _ _ _ _ _))
        = _
      rw [sends_append, sends_reads]
      rfl
    rw [hrun, hrun', hsends, hsends]
    cases hsock : x.ctrl.socket with
    | none => rfl
    | some s =>
        rw [hsock] at hreply
        have hslice : slice m 17 (iovLength bodyLength)
            = slice m' 17 (iovLength bodyLength) := by
          rcases hreply.resolve_left (fun h0 => nomatch h0) with h0 | hle
          · rw [show iovLength bodyLength = 0 from h0]
            rfl
          · exact hagree.slice hle
        rw [sendEvents, sendEvents, hslice]

theorem MessageInside.sends {k : Registry} (hk : Traversable k) {m m' : Mem}
    {n : Nat} (h : MessageInside k m n) (hagree : AgreeBelow n m m')
    (env : Env) :
    sends (handleNetlinkIncome env m k).trace
      = DistComm.sends (handleNetlinkIncome env m' k).trace := by
  obtain ⟨hn, -, hresult⟩ := h
  rw [handleNetlinkIncome_run, handleNetlinkIncome_run, after_trace, after_trace,
    sends_append, sends_append, ← hagree 16 hn,
    wordAt_agree hagree (show 0 + 4 ≤ n by omega)]
  congr 1
  by_cases hshake : m 16 = INCOME_HANDSHAKE
  · rw [if_pos hshake, if_pos hshake, handshake_sends hk, handshake_sends hk]
  · rw [if_neg hshake, if_neg hshake]
    by_cases htype : m 16 = INCOME_RESULT
    · rw [if_pos htype, if_pos htype]
      exact (hresult htype).sends hk.live hagree env _ _
    · rw [if_neg htype, if_neg htype]

/-- `handle_netlink_income` reads only the message, whatever lies behind it, and
    what it sends is the same over everything that may lie behind it. -/
def NetlinkInside (k : Registry) (message : List UInt8) : Prop :=
  (∀ env behind, ∀ e ∈ (handleNetlinkIncome env (overlay message behind) k).trace,
    e.InPacket message.length)
  ∧ ∀ env behind behind',
    sends (handleNetlinkIncome env (overlay message behind) k).trace
      = sends (handleNetlinkIncome env (overlay message behind') k).trace

/-- **NO KERNEL MEMORY BEHIND A MESSAGE** is read or sent exactly for the messages
    that `MessageInside` describes. -/
theorem netlinkInside_iff {k : Registry} (hk : Traversable k)
    (message : List UInt8) :
    NetlinkInside k message
      ↔ MessageInside k (overlay message fun _ => 0) message.length := by
  constructor
  · rintro ⟨hreads, -⟩
    exact (netlink_events_iff hk .fine _ _).mp (hreads .fine fun _ => 0)
  · intro h
    have hall : ∀ behind, MessageInside k (overlay message behind)
        message.length :=
      fun behind => h.congr (overlay_agree message _ behind)
    refine ⟨fun env behind => (netlink_events_iff hk env _ _).mpr (hall behind),
      fun env behind behind' => ?_⟩
    exact (hall behind).sends hk (overlay_agree message behind behind') env

/-- A message of unknown type. -/
theorem netlinkInside_iff_unknown :
    NetlinkInside Registry.initial (nlmsghdr 17 0 7 ++ [2]) :=
  (netlinkInside_iff traversable_initial _).mpr
    ⟨by decide, fun h => absurd h (by decide), fun h => absurd h (by decide)⟩

/-- The registry after a client on socket 5 called interface 1. -/
def Registry.called : Registry :=
  Registry.one.assign 0
    ((UserInterface.bare.registered 1 7 none).setSocket (some 5))

/-- The message in which the library itself delivers a result makes the kernel
    send 16 bytes of its memory to the client. -/
theorem own_result_leaks :
    ∃ message, Lib.netlinkSendtoKern 7 INCOME_RESULT (rpcEncoding 1 [[0]]) 13
        = some message
      ∧ ¬ NetlinkInside Registry.called message := by
  have hsent : Lib.netlinkSendtoKern 7 INCOME_RESULT (rpcEncoding 1 [[0]]) 13
      = some (nlmsghdr 32 0 7 ++ [1] ++ rpcEncoding 1 [[0]] ++ [0, 0]) := by
    decide
  refine ⟨_, hsent, ?_⟩
  rintro ⟨-, hsame⟩
  have h := hsame .fine (fun _ => 0) (fun _ => 1)
  revert h
  decide

end DistComm
