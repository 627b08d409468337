import DistComm.HandleRpc

/-! # Dispatch

    `handle_rpc` over any sequence of receives.  Between two rounds it keeps nothing
    of its own; what the callbacks keep is in what they do next, so each round has
    its callbacks.

    The return value of `netlink_recvfrom_kern` is kept in an unsigned variable, and
    an error is not noticed.  It does no harm: the packet was zeroed, and no
    interface has the id 0.  What goes wrong is an answer whose message takes
    `2 ^ 31` bytes, a size that `netlink_sendto_kern` keeps in an `int`, and a list
    of so many interfaces, a number that `find_interface` takes as an `int`
    (`dispatches_iff`). -/

namespace DistComm

open RawMemory RawScan PointerArray TracedProgram

/-! ## The loop -/

/-- One round: what the callbacks do in it, by the ids of their interfaces, what the
    memory holds, and what `recvmsg` gets. -/
structure Round where
  callbacks : UInt32 → Callback
  left : Leftovers
  received : Option (List UInt8)

/-- The process with the callbacks of the round. -/
def Process.inRound (p : Process) (r : Round) : Process :=
  { p with
    managed := p.managed.map fun x => { x with callback := r.callbacks x.id } }

/-- `handle_rpc`, for as many rounds. -/
def handleRpcLoop (p : Process) : List Round → Traced Unit RpcEvent Unit
  | [] => pure ()
  | r :: rs => do
      handleRpc (p.inRound r) r.left r.received
      handleRpcLoop p rs

/-! ## What a round should do -/

/-- What `netlink_recvfrom_kern` makes of a receive. -/
inductive Receipt where
  | request (id : UInt32) (args : List (List UInt8))
  | rejected

/-- A request that fits the packet, or anything that is answered with -1. -/
def Round.Receives (r : Round) : Receipt → Prop
  | .request id args =>
      (rpcEncoding id args).length ≤ MAX_PAYLOAD.toNat
        ∧ r.received = some (userMessage (rpcEncoding id args)
          (UInt32.ofNat (rpcEncoding id args).length))
  | .rejected =>
      Lib.netlinkRecvfromKern r.left.stack r.received MAX_PAYLOAD = none

/-- What the callback of `x` returns, and the results as it leaves them. -/
def Round.called (r : Round) (x : Managed) (argv : List AttrValue) :
    Int32 × List AttrValue :=
  r.callbacks x.id argv (List.replicate x.retc.toNat ⟨-1, .null⟩)

/-- Callbacks that succeed set all results, each to no more than one growth step of
    the encoder. -/
def Round.SetsResults (r : Round) (p : Process) : Prop :=
  ∀ x ∈ p.managed, ∀ argv, ¬ (r.called x argv).1 < 0 →
    (r.called x argv).2.length = x.retc.toNat
      ∧ ∀ v ∈ (r.called x argv).2, Sendable v

/-- The interfaces have different ids other than 0. -/
structure Process.Distinct (p : Process) : Prop where
  nonzero : ∀ x ∈ p.managed, x.id ≠ 0
  ids : (p.managed.map Managed.id).Nodup

/-- The request is for the interface, with as many arguments as it takes. -/
structure Process.Selects (p : Process) (id : UInt32) (args : List (List UInt8))
    (x : Managed) : Prop where
  mem : x ∈ p.managed
  id : x.id = id
  argc : x.argc.toNat = args.length

/-- The array has the lengths and the bytes of the arguments. -/
def Carries (argv : List AttrValue) (args : List (List UInt8)) : Prop :=
  argv.map (fun v => (v.length.toNat, v.value)) = args.map fun a => (a.length, a)

/-- The packet with the results that the callback of `x` left. -/
def Round.answer (r : Round) (x : Managed) (argv : List AttrValue) : List UInt8 :=
  rpcEncoding x.id ((r.called x argv).2.map AttrValue.value)

/-- What happens in the round: the callback of the selected interface is called with
    the arguments and, if it succeeds, its results are sent; where none is selected,
    nothing. -/
def Round.Dispatched (p : Process) (r : Round) : Receipt → List RpcEvent → Prop
  | .rejected, t => t = []
  | .request id args, t =>
      (∃ x argv, p.Selects id args x ∧ Carries argv args
        ∧ ((r.called x argv).1 < 0 ∧ t = [.call x.id argv]
          ∨ ¬ (r.called x argv).1 < 0 ∧ ∃ message,
            Lib.netlinkSendtoKern p.portid INCOME_RESULT (r.answer x argv)
              (UInt32.ofNat (r.answer x argv).length) = some message
            ∧ t = [.call x.id argv, .send message]))
      ∨ (∀ x, ¬ p.Selects id args x) ∧ t = []

/-- The loop comes to the end of the receives, and has dispatched each of them. -/
def Dispatches (p : Process) (rounds : List (Round × Receipt)) : Prop :=
  ∃ ts, List.Forall₂ (fun r t => r.1.Dispatched p r.2 t) rounds ts
    ∧ handleRpcLoop p (rounds.map Prod.fst) () = ⟨some (), (), ts.flatten⟩

/-- If the request is for an interface, the number of interfaces is an `int`; and
    the message for the results, if there are any, is shorter than `2 ^ 31` bytes
    with its headers and its padding. -/
def Round.Answerable (p : Process) (r : Round) : Receipt → Prop
  | .rejected => True
  | .request id args => ∀ x, p.Selects id args x →
      p.managed.length < 2 ^ 31
        ∧ (¬ (r.called x (decodedArgs r.left.heap args)).1 < 0 →
          (r.answer x (decodedArgs r.left.heap args)).length + 20 < 2 ^ 31)

/-! ## One round -/

theorem decodedArgs_carries (heap : Nat → Ptr) {args : List (List UInt8)}
    (h : Encodable args) : Carries (decodedArgs heap args) args := by
  refine map_valuesFrom (fun i => decodedValue (heap i))
    (fun v => (v.length.toNat, v.value)) (fun a => (a.length, a)) args
    (fun i a ha => ?_) 0
  have hlen := UInt32.toNat_ofNat_of_lt' (h.2 a ha)
  have hvalue := decodedValue_value (heap i) (h.2 a ha)
  exact Prod.ext hlen hvalue

/-- A lookup in the list of a process goes through all of it. -/
theorem Process.findInterface_eq {p : Process} (hcount : p.managed.length < 2 ^ 31)
    (id : Int32) :
    p.findInterface id = some (p.managed.find? fun x => x.id == id.toUInt32) := by
  have hrounds : (UInt32.ofNat p.managed.length).toInt32.toInt.toNat
      = p.managed.length := by
    have hword := UInt32.toNat_ofNat_of_lt' (Nat.lt_trans hcount
      (show 2 ^ 31 < UInt32.size by decide))
    rw [toNat_toInt32 (by rw [hword]; exact hcount), hword]
  have hsearch := search_list (fun x : Managed => x.id == id.toUInt32)
    p.managed.length 0 (Nat.zero_add _)
  rw [Process.findInterface, DistComm.findInterface, hrounds]
  exact hsearch

/-- In a longer list it finds nothing: the number of the interfaces is negative. -/
theorem Process.findInterface_many {p : Process} (hmany : ¬ p.managed.length < 2 ^ 31)
    (hcount : p.managed.length < 2 ^ 32) (id : Int32) :
    p.findInterface id = some none := by
  have hword := @UInt32.toNat_ofNat_of_lt' p.managed.length hcount
  rw [Process.findInterface, DistComm.findInterface_many (by rw [hword]; exact hmany)]
  rfl

/-- There are not more interfaces than ids. -/
theorem Process.Distinct.length_lt {p : Process} (hp : p.Distinct) :
    p.managed.length < 2 ^ 32 := by
  have hnodup : ((0 :: p.managed.map Managed.id).map UInt32.toNat).Nodup := by
    refine List.Nodup.map (fun _ _ => UInt32.toNat_inj.mp) (List.nodup_cons.mpr
      ⟨fun hmem => ?_, hp.ids⟩)
    obtain ⟨x, hx, hid⟩ := List.mem_map.mp hmem
    exact hp.nonzero x hx hid
  have hsubset : (0 :: p.managed.map Managed.id).map UInt32.toNat
      ⊆ List.range (2 ^ 32) := by
    intro n hn
    obtain ⟨id, -, rfl⟩ := List.mem_map.mp hn
    exact List.mem_range.mpr id.toNat_lt
  have hlength := (List.subperm_of_subset hnodup hsubset).length_le
  rw [List.length_map, List.length_cons, List.length_map, List.length_range]
    at hlength
  exact hlength

/-- The lookup of a round, in the interfaces as they are managed. -/
theorem Process.lookup {p : Process} (hcount : p.managed.length < 2 ^ 31) (r : Round)
    (id : UInt32) :
    (p.inRound r).findInterface id.toInt32
      = some ((p.managed.find? fun x => x.id == id).map fun x =>
          { x with callback := r.callbacks x.id }) := by
  rw [Process.findInterface_eq (by
    rw [Process.inRound, List.length_map]
    exact hcount), Process.inRound, List.find?_map]
  rfl

theorem Process.Distinct.lookup_many {p : Process} (hp : p.Distinct)
    (hmany : ¬ p.managed.length < 2 ^ 31) (r : Round) (id : Int32) :
    (p.inRound r).findInterface id = some none := by
  have hlength : (p.inRound r).managed.length = p.managed.length := List.length_map _
  refine Process.findInterface_many ?_ ?_ id
  · rw [hlength]
    exact hmany
  · rw [hlength]
    exact hp.length_lt

/-- A receive that is answered with -1 does nothing. -/
theorem Process.Distinct.rejected {p : Process} (hp : p.Distinct) {r : Round}
    (hnone : Lib.netlinkRecvfromKern r.left.stack r.received MAX_PAYLOAD = none) :
    handleRpc (p.inRound r) r.left r.received () = ⟨some (), (), []⟩ := by
  have hlookup : (p.inRound r).findInterface (0 : UInt32).toInt32 = some none := by
    by_cases hcount : p.managed.length < 2 ^ 31
    · have hnobody : (p.managed.find? fun x => x.id == 0) = none :=
        List.find?_eq_none.mpr fun x hx =>
          not_beq_of_ne (hp.nonzero x hx)
      rw [Process.lookup hcount, hnobody]
      rfl
    · exact hp.lookup_many hcount r _
  have hne : ¬ recvLength none = 0 := by decide
  rw [handleRpc, hnone, handlePacket, if_neg hne, interfaceId_none]
  exact run_orFault_some_bind hlookup _ _

/-- The interface that the lookup finds is the only one with its id. -/
theorem Process.Distinct.selected {p : Process} (hp : p.Distinct) {id : UInt32}
    {args : List (List UInt8)} {x y : Managed}
    (hx : (p.managed.find? fun x => x.id == id) = some x)
    (hy : p.Selects id args y) : y = x := by
  have hsat := List.find?_some hx
  have hid : x.id = id := eq_of_beq hsat
  exact List.inj_on_of_nodup_map hp.ids hy.mem (List.mem_of_find?_eq_some hx)
    (hy.id.trans hid.symm)

/-- A call that is made: the callback is called, and its results are sent unless
    they are too long. -/
theorem Process.Selects.call {p : Process} {r : Round} (hsets : r.SetsResults p)
    {id : UInt32} {args : List (List UInt8)} {x : Managed}
    (hx : p.Selects id args x) (argv : List AttrValue) (hargv : Carries argv args) :
    let o := callInterface (p.inRound r) id
      { x with callback := r.callbacks x.id } argv ()
    (∃ t, o = ⟨some (), (), t⟩ ∧ r.Dispatched p (.request id args) t)
        ∧ (¬ (r.called x argv).1 < 0 → (r.answer x argv).length + 20 < 2 ^ 31)
      ∨ o.ret = none ∧ ¬ (r.called x argv).1 < 0
        ∧ ¬ (r.answer x argv).length + 20 < 2 ^ 31 := by
  have hid := hx.id
  subst hid
  intro o
  have hrun : o = ((if (r.called x argv).1 < 0 then pure ()
      else sendBack (p.inRound r) x.id x.retc (r.called x argv).2 :
        Traced Unit RpcEvent Unit) ()).after [.call x.id argv] := rfl
  by_cases hret : (r.called x argv).1 < 0
  · rw [if_pos hret] at hrun
    exact Or.inl ⟨⟨_, hrun, Or.inl ⟨x, argv, hx, hargv, Or.inl ⟨hret, rfl⟩⟩⟩,
      fun hok => absurd hret hok⟩
  · obtain ⟨hcount, hsend⟩ := hsets x hx.mem argv hret
    rw [if_neg hret] at hrun
    by_cases hlen : (r.answer x argv).length + 20 < 2 ^ 31
    · obtain ⟨message, hmessage, hsent⟩ :=
        sendBack_ok (p.inRound r) hcount.symm hsend hlen
      rw [hsent] at hrun
      exact Or.inl ⟨⟨_, hrun, Or.inl ⟨x, argv, hx, hargv, Or.inr ⟨hret, message,
        hmessage, rfl⟩⟩⟩, fun _ => hlen⟩
    · have hfault := @sendBack_fault (p.inRound r) x.id _ _ hcount.symm hlen
      refine Or.inr ⟨?_, hret, hlen⟩
      rw [hrun, after_ret, hfault]

/-- **ONE ROUND** does what it should if its results are answerable, and else it
    ends in a fault. -/
theorem Process.Distinct.round {p : Process} (hp : p.Distinct)
    (hcount : p.managed.length < 2 ^ 31) {r : Round} {receipt : Receipt}
    (hreceives : r.Receives receipt) (hsets : r.SetsResults p) :
    (r.Answerable p receipt
        ∧ ∃ t, handleRpc (p.inRound r) r.left r.received () = ⟨some (), (), t⟩
          ∧ r.Dispatched p receipt t)
      ∨ ¬ r.Answerable p receipt
        ∧ (handleRpc (p.inRound r) r.left r.received ()).ret = none := by
  cases receipt with
  | rejected => exact Or.inl ⟨trivial, [], hp.rejected hreceives, rfl⟩
  | request id args =>
      obtain ⟨hshort, hreceived⟩ := hreceives
      have hlookup := Process.lookup hcount r id
      cases hfound : p.managed.find? fun x => x.id == id with
      | none =>
          have hnobody : ∀ x, ¬ p.Selects id args x := fun x hx =>
            List.find?_eq_none.mp hfound x hx.mem (beq_iff_eq.mpr hx.id)
          rw [hfound] at hlookup
          have hround := handleRpc_request r.left hlookup hshort
          rw [← hreceived] at hround
          exact Or.inl ⟨fun x hx => absurd hx (hnobody x), [], hround,
            Or.inr ⟨hnobody, rfl⟩⟩
      | some x =>
          rw [hfound] at hlookup
          have hround := handleRpc_found r.left hlookup hshort
          rw [← hreceived] at hround
          have hid := List.find?_some hfound
          by_cases hargc : x.argc.toNat = args.length
          · have hx : p.Selects id args x := ⟨List.mem_of_find?_eq_some hfound,
              eq_of_beq hid, hargc⟩
            have henc : Encodable args := @encodable_of_length id args
              (Nat.lt_of_le_of_lt hshort (by decide))
            rw [if_pos hargc] at hround
            rcases hx.call hsets _ (decodedArgs_carries r.left.heap henc)
              with ⟨⟨t, hrun, hdispatched⟩, hlen⟩ | ⟨hfault, hret, hlen⟩
            · refine Or.inl ⟨fun y hy => ⟨hcount, fun hret => ?_⟩, t,
                hround.trans hrun, hdispatched⟩
              rw [hp.selected hfound hy] at hret ⊢
              exact hlen hret
            · exact Or.inr ⟨fun hall => hlen ((hall x hx).2 hret),
                by rw [hround, hfault]⟩
          · have hnobody : ∀ y, ¬ p.Selects id args y := by
              intro y hy
              have hargs := hy.argc
              rw [hp.selected hfound hy] at hargs
              exact hargc hargs
            rw [if_neg hargc] at hround
            exact Or.inl ⟨fun y hy => absurd hy (hnobody y), [], hround,
              Or.inr ⟨hnobody, rfl⟩⟩

/-- With more interfaces than an `int` can count, a round does nothing. -/
theorem Process.Distinct.round_many {p : Process} (hp : p.Distinct)
    (hmany : ¬ p.managed.length < 2 ^ 31) {r : Round} {receipt : Receipt}
    (hreceives : r.Receives receipt) :
    handleRpc (p.inRound r) r.left r.received () = ⟨some (), (), []⟩ := by
  cases receipt with
  | rejected => exact hp.rejected hreceives
  | request id args =>
      obtain ⟨hshort, hreceived⟩ := hreceives
      rw [hreceived, handleRpc_request r.left (hp.lookup_many hmany r _) hshort]
      rfl

/-- If nothing happens, and that is right, nobody is selected. -/
theorem Round.Dispatched.answerable {p : Process} {r : Round} {receipt : Receipt}
    (h : r.Dispatched p receipt []) : r.Answerable p receipt := by
  cases receipt with
  | rejected => trivial
  | request id args =>
      rcases h with ⟨x, argv, -, -, ⟨-, ht⟩ | ⟨-, message, -, ht⟩⟩ | ⟨hno, -⟩
      · cases ht
      · cases ht
      · exact fun x hx => absurd hx (hno x)

theorem Round.Answerable.dispatched_many {p : Process} {r : Round}
    {receipt : Receipt} (h : r.Answerable p receipt)
    (hmany : ¬ p.managed.length < 2 ^ 31) : r.Dispatched p receipt [] := by
  cases receipt with
  | rejected => rfl
  | request id args => exact Or.inr ⟨fun x hx => hmany (h x hx).1, rfl⟩

/-! ## All rounds -/

/-- A loop that comes to its end had results that can be sent. -/
theorem Process.Distinct.answerable {p : Process} (hp : p.Distinct)
    (hcount : p.managed.length < 2 ^ 31) {rounds : List (Round × Receipt)}
    (hrounds : ∀ r ∈ rounds, r.1.Receives r.2 ∧ r.1.SetsResults p)
    (hrun : (handleRpcLoop p (rounds.map Prod.fst) ()).ret = some ()) :
    ∀ r ∈ rounds, r.1.Answerable p r.2 := by
  induction rounds with
  | nil => exact fun r hr => absurd hr List.not_mem_nil
  | cons r rounds ih =>
      obtain ⟨hreceives, hsets⟩ := hrounds r (List.mem_cons_self ..)
      rw [List.map_cons, handleRpcLoop] at hrun
      rw [List.forall_mem_cons]
      rcases hp.round hcount hreceives hsets
        with ⟨hok, t, hround, -⟩ | ⟨-, hfault⟩
      · rw [run_bind_some hround] at hrun
        exact ⟨hok, ih (fun r hr => hrounds r (List.mem_cons_of_mem _ hr)) hrun⟩
      · -- the loop would have stopped here
        cases hround : handleRpc (p.inRound r.1) r.1.left r.1.received () with
        | mk ret s t =>
            rw [hround] at hfault
            replace hfault : ret = none := hfault
            rw [hfault] at hround
            rw [run_bind_none hround] at hrun
            cases hrun

/-- Where all results can be sent, the loop dispatches one receive after the other. -/
theorem Process.Distinct.dispatches {p : Process} (hp : p.Distinct)
    (hcount : p.managed.length < 2 ^ 31) {rounds : List (Round × Receipt)}
    (hrounds : ∀ r ∈ rounds, r.1.Receives r.2 ∧ r.1.SetsResults p)
    (hall : ∀ r ∈ rounds, r.1.Answerable p r.2) : Dispatches p rounds := by
  induction rounds with
  | nil => exact ⟨[], .nil, rfl⟩
  | cons r rounds ih =>
      obtain ⟨hreceives, hsets⟩ := hrounds r (List.mem_cons_self ..)
      obtain ⟨ts, hts, hloop⟩ := ih
        (fun r hr => hrounds r (List.mem_cons_of_mem _ hr))
        (fun r hr => hall r (List.mem_cons_of_mem _ hr))
      rcases hp.round hcount hreceives hsets with ⟨-, t, hround, ht⟩ | ⟨hlong, -⟩
      · refine ⟨t :: ts, .cons ht hts, ?_⟩
        rw [List.map_cons, handleRpcLoop, run_bind_some hround, hloop]
        rfl
      · exact absurd (hall r (List.mem_cons_self ..)) hlong

/-- With more interfaces than an `int` can count, the loop does nothing. -/
theorem Process.Distinct.loop_many {p : Process} (hp : p.Distinct)
    (hmany : ¬ p.managed.length < 2 ^ 31) {rounds : List (Round × Receipt)}
    (hrounds : ∀ r ∈ rounds, r.1.Receives r.2) :
    handleRpcLoop p (rounds.map Prod.fst) () = ⟨some (), (), []⟩ := by
  induction rounds with
  | nil => rfl
  | cons r rounds ih =>
      have hround := hp.round_many hmany (hrounds r (List.mem_cons_self ..))
      rw [List.map_cons, handleRpcLoop, run_bind_some hround,
        ih fun r hr => hrounds r (List.mem_cons_of_mem _ hr)]
      rfl

/-- That is right if no receive is for an interface. -/
theorem Process.Distinct.dispatches_many {p : Process} (hp : p.Distinct)
    (hmany : ¬ p.managed.length < 2 ^ 31) {rounds : List (Round × Receipt)}
    (hrounds : ∀ r ∈ rounds, r.1.Receives r.2) :
    Dispatches p rounds ↔ ∀ r ∈ rounds, r.1.Answerable p r.2 := by
  have hloop := hp.loop_many hmany hrounds
  constructor
  · rintro ⟨ts, hts, hrun⟩
    have hnothing : ts.flatten = [] := by
      rw [hloop] at hrun
      exact (congrArg Outcome.trace hrun).symm
    clear hrun hloop hrounds
    induction hts with
    | nil => exact fun r hr => absurd hr List.not_mem_nil
    | @cons r t rounds ts ht hts ih =>
        rw [List.flatten_cons, List.append_eq_nil_iff] at hnothing
        rw [hnothing.1] at ht
        exact List.forall_mem_cons.mpr ⟨ht.answerable, ih hnothing.2⟩
  · intro hall
    have hflatten : (rounds.map fun _ => ([] : List RpcEvent)).flatten = [] := by
      simp
    refine ⟨rounds.map fun _ => [], ?_, by rw [hloop, hflatten]⟩
    rw [List.forall₂_map_right_iff]
    exact List.forall₂_same.mpr fun r hr => (hall r hr).dispatched_many hmany

/-- **DISPATCH**: all receives are dispatched, in order, exactly if every interface
    that is asked for can be found, and every result can be sent. -/
theorem dispatches_iff {p : Process} (hp : p.Distinct)
    (rounds : List (Round × Receipt))
    (hrounds : ∀ r ∈ rounds, r.1.Receives r.2 ∧ r.1.SetsResults p) :
    Dispatches p rounds ↔ ∀ r ∈ rounds, r.1.Answerable p r.2 := by
  by_cases hcount : p.managed.length < 2 ^ 31
  · refine ⟨fun h => ?_, hp.dispatches hcount hrounds⟩
    obtain ⟨ts, -, hrun⟩ := h
    exact hp.answerable hcount hrounds (by rw [hrun])
  · exact hp.dispatches_many hcount fun r hr => (hrounds r hr).1

/-- A process that manages one interface, which has no arguments. -/
def Process.single (retc : UInt32) : Process :=
  ⟨42, [⟨1, 0, retc, fun _ results => (0, results)⟩]⟩

theorem Process.single_distinct (retc : UInt32) : (Process.single retc).Distinct where
  nonzero x hx := by
    rw [List.mem_singleton.mp hx]
    show (1 : UInt32) ≠ 0
    decide
  ids := List.nodup_singleton _

theorem Process.single_few (retc : UInt32) :
    (Process.single retc).managed.length < 2 ^ 31 := by
  show 1 < 2 ^ 31
  decide

/-- A request for it, which is answered with the given results. -/
def Round.answering (results : List AttrValue) : Round where
  callbacks _ := fun _ _ => (0, results)
  left := ⟨fun _ => .null, fun _ => 0, fun _ => 0⟩
  received := some (userMessage (rpcEncoding 1 []) (UInt32.ofNat 8))

theorem Round.answering_sets {results : List AttrValue} {retc : UInt32}
    (hcount : results.length = retc.toNat) (hsend : ∀ v ∈ results, Sendable v) :
    (Round.answering results).SetsResults (Process.single retc) := by
  intro x hx argv _
  rw [List.mem_singleton.mp hx]
  exact ⟨hcount, hsend⟩

/-- A request that is answered, and a receive that fails. -/
theorem dispatches_two :
    Dispatches (Process.single 1)
      [(Round.answering [⟨2, .block [5, 6]⟩], .request 1 []),
        ({ Round.answering [⟨2, .block [5, 6]⟩] with received := none },
          .rejected)] := by
  have hsend : ∀ v ∈ [(⟨2, .block [5, 6]⟩ : AttrValue)], Sendable v := by
    intro v hv
    rw [List.mem_singleton.mp hv]
    exact ⟨Or.inr ⟨_, rfl, by decide⟩, by decide⟩
  have hsets := @Round.answering_sets _ 1 rfl hsend
  refine (dispatches_iff (Process.single_distinct 1) _ ?_).mpr ?_
  · intro r hr
    rcases List.mem_cons.mp hr with rfl | hr
    · exact ⟨⟨by decide, rfl⟩, hsets⟩
    · rw [List.mem_singleton.mp hr]
      exact ⟨rfl, hsets⟩
  · intro r hr
    rcases List.mem_cons.mp hr with rfl | hr
    · intro x hx
      refine ⟨Process.single_few 1, fun _ => ?_⟩
      rw [List.mem_singleton.mp hx.mem]
      decide
    · rw [List.mem_singleton.mp hr]
      trivial

theorem Process.single_answers {results : List AttrValue} {retc : UInt32}
    (hcount : results.length = retc.toNat) (hsend : ∀ v ∈ results, Sendable v)
    (h : Dispatches (.single retc) [(.answering results, .request 1 [])]) :
    (rpcEncoding 1 (results.map AttrValue.value)).length + 20 < 2 ^ 31 := by
  obtain ⟨ts, -, hrun⟩ := h
  have hrounds : ∀ r ∈ [(Round.answering results, Receipt.request 1 [])],
      r.1.Receives r.2 ∧ r.1.SetsResults (.single retc) := by
    intro r hr
    rw [List.mem_singleton.mp hr]
    exact ⟨⟨by decide, rfl⟩, Round.answering_sets hcount hsend⟩
  have hall := (Process.single_distinct retc).answerable (Process.single_few retc)
    hrounds (by rw [hrun])
  obtain ⟨-, hlong⟩ := hall _ (List.mem_singleton_self _)
    ⟨1, 0, retc, fun _ results => (0, results)⟩ ⟨List.mem_singleton_self _, rfl, rfl⟩
  exact hlong zero_not_neg

/-- A callback with 32768 results of 65536 bytes each: the size of the message is no
    `int` any more. -/
theorem long_answer_faults :
    ¬ Dispatches (.single 32768) [(.answering (List.replicate 32768
      ⟨65536, .block (List.replicate 65536 0)⟩), .request 1 [])] := by
  intro h
  have hvalid : AttrValue.Valid ⟨65536, .block (List.replicate 65536 0)⟩ :=
    Or.inr ⟨_, rfl, by rw [List.length_replicate]; decide⟩
  have hvalue := AttrValue.length_value hvalid
  have hlong := Process.single_answers List.length_replicate (fun v hv => by
    rw [List.eq_of_mem_replicate hv]
    exact ⟨hvalid, by decide⟩) h
  rw [length_rpcEncoding, List.map_replicate, List.length_flatMap,
    List.map_replicate, List.sum_replicate_nat, length_encodeValue, hvalue] at hlong
  exact absurd hlong (by decide)

end DistComm
