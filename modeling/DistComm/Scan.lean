import DistComm.Memory

/-! # Scanning raw memory, and formats that a scan parses

    A decoder in C walks a pointer through memory with nothing to stop it at
    the end of its input.  `Scan` is such a walk: it sees the whole `Mem`, moves
    a cursor, and logs every span it reads, so that "it stayed inside the first
    `n` bytes" is a statement about the log (`InBounds`).

    `Parses p V E F` ties a scan to a format.  Every valid `a` has an encoding
    `E a`; a scan that finds `E a` at the cursor returns `F a`, stops right
    behind it and reads exactly these bytes (`complete`), and whatever the
    memory holds, it holds the encoding of some valid `a` (`sound`).  From these
    two, once and for all formats: round trips in both directions, the exact
    inputs on which the walk stays in bounds, and the independence of the result
    from what lies behind. -/

namespace RawScan

open RawMemory

variable {α β γ : Type}

/-- `len` bytes read at offset `off`. -/
structure Span where
  off : Nat
  len : Nat
  deriving DecidableEq, Repr

/-- All bytes of the span lie below `n`; a span of no bytes reads nothing. -/
def Span.Within (s : Span) (n : Nat) : Prop :=
  s.len = 0 ∨ s.off + s.len ≤ n

instance (s : Span) (n : Nat) : Decidable (s.Within n) :=
  inferInstanceAs (Decidable (_ ∨ _))

/-- Every byte read lies below `n`. -/
def InBounds (reads : List Span) (n : Nat) : Prop :=
  ∀ s ∈ reads, s.Within n

instance (reads : List Span) (n : Nat) : Decidable (InBounds reads n) :=
  inferInstanceAs (Decidable (∀ s ∈ reads, s.Within n))

/-- What a scan leaves: its value, the cursor behind it, the spans it read. -/
structure Scanned (α : Type) where
  val : α
  next : Nat
  reads : List Span

/-- A walk over memory from a cursor. -/
def Scan (α : Type) := Mem → Nat → Scanned α

instance : Monad Scan where
  pure a := fun _ pos => ⟨a, pos, []⟩
  bind p q := fun m pos =>
    let r := p m pos
    let s := q r.val m r.next
    ⟨s.val, s.next, r.reads ++ s.reads⟩

/-- Read a word. -/
def word : Scan UInt32 := fun m pos => ⟨wordAt m pos, pos + 4, [⟨pos, 4⟩]⟩

/-- Read a byte. -/
def byte : Scan UInt8 := fun m pos => ⟨m pos, pos + 1, [⟨pos, 1⟩]⟩

/-- Copy `n` bytes. -/
def bytes (n : Nat) : Scan (List UInt8) :=
  fun m pos => ⟨slice m pos n, pos + n, [⟨pos, n⟩]⟩

/-- Move the cursor over `n` bytes without reading them. -/
def skip (n : Nat) : Scan Unit := fun _ pos => ⟨(), pos + n, []⟩

/-- Run the body for `i`, `i + 1`, ..., `n` times, and collect the values. -/
def loop (body : Nat → Scan α) : Nat → Nat → Scan (List α)
  | _, 0 => pure []
  | i, n + 1 => do
      let a ← body i
      let as ← loop body (i + 1) n
      pure (a :: as)

@[simp] theorem run_pure (a : α) (m : Mem) (pos : Nat) :
    (pure a : Scan α) m pos = ⟨a, pos, []⟩ := rfl

@[simp] theorem run_bind (p : Scan α) (q : α → Scan β) (m : Mem) (pos : Nat) :
    (p >>= q) m pos
      = ⟨(q (p m pos).val m (p m pos).next).val,
         (q (p m pos).val m (p m pos).next).next,
         (p m pos).reads ++ (q (p m pos).val m (p m pos).next).reads⟩ := rfl

@[simp] theorem run_word (m : Mem) (pos : Nat) :
    word m pos = ⟨wordAt m pos, pos + 4, [⟨pos, 4⟩]⟩ := rfl

@[simp] theorem run_bytes (n : Nat) (m : Mem) (pos : Nat) :
    bytes n m pos = ⟨slice m pos n, pos + n, [⟨pos, n⟩]⟩ := rfl

/-- Skipped bytes are not read: what follows runs at the moved cursor. -/
theorem run_skip_bind (n : Nat) (q : Unit → Scan α) (m : Mem) (pos : Nat) :
    (skip n >>= q) m pos = q () m (pos + n) := rfl

instance : LawfulMonad Scan := LawfulMonad.mk' Scan
  (fun p => by
    funext m pos
    show (⟨(p m pos).val, (p m pos).next, (p m pos).reads ++ []⟩ : Scanned _)
      = p m pos
    rw [List.append_nil])
  (fun _ _ => rfl)
  (fun p q r => by
    funext m pos
    rw [run_bind, run_bind, run_bind, run_bind, List.append_assoc])

theorem loop_zero (body : Nat → Scan α) (i : Nat) :
    loop body i 0 = pure [] := rfl

theorem loop_succ (body : Nat → Scan α) (i n : Nat) :
    loop body i (n + 1)
      = (do let a ← body i
            let as ← loop body (i + 1) n
            pure (a :: as)) := rfl

/-! ## Bounds -/

@[simp] theorem inBounds_nil (n : Nat) : InBounds [] n :=
  fun _ hs => nomatch hs

theorem inBounds_append {r s : List Span} {n : Nat} :
    InBounds (r ++ s) n ↔ InBounds r n ∧ InBounds s n := by
  unfold InBounds
  constructor
  · intro h
    exact ⟨fun x hx => h x (List.mem_append.mpr (Or.inl hx)),
      fun x hx => h x (List.mem_append.mpr (Or.inr hx))⟩
  · rintro ⟨hr, hs⟩ x hx
    rcases List.mem_append.mp hx with h | h
    · exact hr x h
    · exact hs x h

theorem inBounds_singleton {s : Span} {n : Nat} :
    InBounds [s] n ↔ s.Within n := by
  unfold InBounds
  constructor
  · intro h
    exact h s (List.mem_singleton.mpr rfl)
  · intro h x hx
    rw [List.mem_singleton.mp hx]
    exact h

/-! ## What a scan consumes -/

/-- Where the memory holds `bs`, the scan returns `a`, stops behind `bs`, and
    reads exactly the bytes of `bs`. -/
structure Consumes (p : Scan α) (bs : List UInt8) (a : α) : Prop where
  val : ∀ {m pos}, Holds m pos bs → (p m pos).val = a
  next : ∀ {m pos}, Holds m pos bs → (p m pos).next = pos + bs.length
  reads : ∀ {m pos}, Holds m pos bs → ∀ n,
    InBounds (p m pos).reads n ↔ (bs = [] ∨ pos + bs.length ≤ n)

theorem Consumes.pure (a : α) : Consumes (Pure.pure a : Scan α) [] a where
  val _ := rfl
  next _ := rfl
  reads _ n := by
    constructor
    · intro _
      exact Or.inl rfl
    · intro _
      exact inBounds_nil n

/-- Two scans in a row consume the two encodings in a row. -/
theorem Consumes.bind {p : Scan α} {q : α → Scan β} {bs cs : List UInt8}
    {a : α} {b : β} (hp : Consumes p bs a) (hq : Consumes (q a) cs b) :
    Consumes (p >>= q) (bs ++ cs) b where
  val h := by
    obtain ⟨h1, h2⟩ := holds_append.mp h
    rw [run_bind, hp.val h1, hp.next h1]
    exact hq.val h2
  next h := by
    obtain ⟨h1, h2⟩ := holds_append.mp h
    rw [run_bind, hp.val h1, hp.next h1]
    rw [hq.next h2, List.length_append, Nat.add_assoc]
  reads h n := by
    obtain ⟨h1, h2⟩ := holds_append.mp h
    rw [run_bind, hp.val h1, hp.next h1]
    rw [inBounds_append, hp.reads h1 n, hq.reads h2 n, List.length_append]
    constructor
    · -- an empty encoding reads nothing, so the two parts end where the last one does
      rintro ⟨hb | hb, hc | hc⟩
      · exact Or.inl (by rw [hb, hc]; rfl)
      · exact Or.inr (by omega)
      · refine Or.inr ?_
        rw [hc, List.length_nil]
        omega
      · exact Or.inr (by omega)
    · rintro (hbc | hle)
      · obtain ⟨hb, hc⟩ := List.append_eq_nil_iff.mp hbc
        exact ⟨Or.inl hb, Or.inl hc⟩
      · exact ⟨Or.inr (by omega), Or.inr (by omega)⟩

theorem Consumes.map {p : Scan α} {bs : List UInt8} {a : α} (f : α → β)
    (hp : Consumes p bs a) :
    Consumes (p >>= fun x => Pure.pure (f x)) bs (f a) := by
  have h := hp.bind (q := fun x => Pure.pure (f x)) (Consumes.pure (f a))
  rwa [List.append_nil] at h

theorem consumes_word (w : UInt32) : Consumes word (wordBytes w) w where
  val h := wordAt_of_holds h
  next _ := rfl
  reads {m pos} _ n := by
    rw [run_word, inBounds_singleton, length_wordBytes]
    unfold Span.Within
    constructor
    · rintro (h0 | hle)
      · exact absurd h0 (Nat.succ_ne_zero 3)
      · exact Or.inr hle
    · rintro (h0 | hle)
      · exact absurd h0 (wordBytes_ne_nil w)
      · exact Or.inr hle

theorem consumes_bytes (bs : List UInt8) :
    Consumes (bytes bs.length) bs bs where
  val h := h
  next _ := rfl
  reads _ n := by
    rw [run_bytes, inBounds_singleton]
    unfold Span.Within
    rw [List.length_eq_zero_iff]

/-! ## Strings -/

/-- The string at `pos`: the bytes in front of the first NUL, of which no more
    than `limit` are looked at. -/
def strAt (m : Mem) : Nat → Nat → List UInt8
  | 0, _ => []
  | limit + 1, pos => if m pos = 0 then [] else m pos :: strAt m limit (pos + 1)

theorem nulFree_strAt (m : Mem) (limit pos : Nat) : 0 ∉ strAt m limit pos := by
  induction limit generalizing pos with
  | zero => exact List.not_mem_nil
  | succ limit ih =>
      rw [strAt]
      by_cases h0 : m pos = 0
      · rw [if_pos h0]
        exact List.not_mem_nil
      · rw [if_neg h0]
        intro hmem
        rcases List.mem_cons.mp hmem with heq | hmem
        · exact h0 heq.symm
        · exact ih (pos + 1) hmem

/-- The string depends on what lies from its first byte on, not on where. -/
theorem strAt_congr {m m' : Mem} {pos pos' : Nat}
    (h : ∀ i, m (pos + i) = m' (pos' + i)) (limit : Nat) :
    strAt m limit pos = strAt m' limit pos' := by
  induction limit generalizing pos pos' with
  | zero => rfl
  | succ limit ih =>
      have hhead : m pos = m' pos' := h 0
      have htail : ∀ i, m (pos + 1 + i) = m' (pos' + 1 + i) := by
        intro i
        rw [Nat.add_assoc, Nat.add_assoc, Nat.add_comm 1 i]
        exact h (i + 1)
      rw [strAt, strAt, hhead, ih htail]

/-- A terminated string is found. -/
theorem strAt_of_holds {m : Mem} {bs : List UInt8} {limit pos : Nat}
    (hnul : 0 ∉ bs) (hlimit : bs.length < limit) (hm : Holds m pos (bs ++ [0])) :
    strAt m limit pos = bs := by
  induction bs generalizing limit pos with
  | nil =>
      have h0 : m pos = 0 := (List.cons.inj hm).1
      cases limit with
      | zero => rfl
      | succ limit => rw [strAt, if_pos h0]
  | cons b bs ih =>
      obtain ⟨hb, hrest⟩ := List.cons.inj hm
      cases limit with
      | zero => exact absurd hlimit (Nat.not_lt_zero _)
      | succ limit =>
          -- the byte is not the terminator, so it belongs to the string
          have hne : m pos ≠ 0 := by
            intro h0
            refine hnul (List.mem_cons.mpr (Or.inl ?_))
            rw [← hb, h0]
          rw [strAt, if_neg hne, ih (fun h => hnul (List.mem_cons_of_mem _ h))
            (Nat.lt_of_succ_lt_succ hlimit) hrest, hb]

/-! ## Loops -/

/-- Values of a loop whose body may depend on the index. -/
def valuesFrom (F : Nat → α → β) : Nat → List α → List β
  | _, [] => []
  | i, a :: as => F i a :: valuesFrom F (i + 1) as

@[simp] theorem valuesFrom_const (f : α → β) (i : Nat) (as : List α) :
    valuesFrom (fun _ => f) i as = as.map f := by
  induction as generalizing i with
  | nil => rfl
  | cons a as ih =>
      show f a :: valuesFrom (fun _ => f) (i + 1) as = (a :: as).map f
      rw [ih, List.map_cons]

@[simp] theorem length_valuesFrom (F : Nat → α → β) (i : Nat) (as : List α) :
    (valuesFrom F i as).length = as.length := by
  induction as generalizing i with
  | nil => rfl
  | cons a as ih =>
      show (valuesFrom F (i + 1) as).length + 1 = as.length + 1
      rw [ih]

/-- A function that does not see the index sees through `valuesFrom`. -/
theorem map_valuesFrom {δ : Type} (F : Nat → α → β) (g : β → δ) (h : α → δ)
    (as : List α) (hgh : ∀ i, ∀ a ∈ as, g (F i a) = h a) (i : Nat) :
    (valuesFrom F i as).map g = as.map h := by
  induction as generalizing i with
  | nil => rfl
  | cons a as ih =>
      show g (F i a) :: (valuesFrom F (i + 1) as).map g = h a :: as.map h
      rw [hgh i a (List.mem_cons_self ..),
        ih (fun j b hb => hgh j b (List.mem_cons_of_mem a hb))]

theorem map_valuesFrom_index {δ : Type} {F : Nat → α → β} {G : Nat → α → δ}
    {g : β → δ} (h : ∀ i a, g (F i a) = G i a) (as : List α) (i : Nat) :
    (valuesFrom F i as).map g = valuesFrom G i as := by
  induction as generalizing i with
  | nil => rfl
  | cons a as ih => rw [valuesFrom, valuesFrom, List.map_cons, h, ih]

/-- A loop consumes the encodings of its items in a row. -/
theorem consumes_loop {body : Nat → Scan β} {E : α → List UInt8}
    {F : Nat → α → β} {as : List α}
    (hbody : ∀ i, ∀ a ∈ as, Consumes (body i) (E a) (F i a)) (i : Nat) :
    Consumes (loop body i as.length) (as.flatMap E) (valuesFrom F i as) := by
  induction as generalizing i with
  | nil => exact Consumes.pure []
  | cons a as ih =>
      have hhead := hbody i a (List.mem_cons_self ..)
      have htail := ih (fun j b hb => hbody j b (List.mem_cons_of_mem a hb))
        (i + 1)
      rw [List.flatMap_cons, List.length_cons, loop_succ]
      exact hhead.bind (htail.map (fun bs => F i a :: bs))

/-- A loop is its first rounds and then the others. -/
theorem loop_add (body : Nat → Scan α) (i n k : Nat) (m : Mem) (pos : Nat) :
    (loop body i (n + k) m pos).val
      = (loop body i n m pos).val
        ++ (loop body (i + n) k m (loop body i n m pos).next).val := by
  induction n generalizing i pos with
  | zero => rw [Nat.zero_add, loop_zero, run_pure, List.nil_append, Nat.add_zero]
  | succ n ih =>
      have hsum : n + 1 + k = n + k + 1 := Nat.add_right_comm n 1 k
      have hstart : i + (n + 1) = i + 1 + n := by omega
      rw [hsum, hstart, loop_succ, loop_succ, run_bind, run_bind, run_bind,
        run_bind]
      show (body i m pos).val :: _ = (body i m pos).val :: (_ ++ _)
      rw [ih (i + 1)]
      rfl

/-! ## Formats -/

/-- The scan parses the format: valid things `a`, encodings `E a`, and the
    value `F a` it returns for each. -/
structure Parses (p : Scan β) (V : α → Prop) (E : α → List UInt8)
    (F : α → β) : Prop where
  complete : ∀ a, V a → Consumes p (E a) (F a)
  sound : ∀ m pos, ∃ a, V a ∧ Holds m pos (E a)

theorem parses_word :
    Parses word (fun _ => True) wordBytes (fun w => w) where
  complete w _ := consumes_word w
  sound m pos := ⟨wordAt m pos, trivial, holds_wordAt m pos⟩

theorem parses_bytes (n : Nat) :
    Parses (bytes n) (fun bs => bs.length = n) (fun bs => bs) (fun bs => bs)
    where
  complete bs hbs := by
    rw [← hbs]
    exact consumes_bytes bs
  sound m pos := ⟨slice m pos n, length_slice m pos n, holds_slice m pos n⟩

/-- **SEQUENCE**: a format whose second part may depend on the first. -/
theorem Parses.bind {δ : Type} {p : Scan β} {q : β → Scan δ} {V : α → Prop}
    {E : α → List UInt8} {F : α → β} {V' : α → γ → Prop}
    {E' : α → γ → List UInt8} {F' : α → γ → δ} (hp : Parses p V E F)
    (hq : ∀ a, V a → Parses (q (F a)) (V' a) (E' a) (F' a)) :
    Parses (p >>= q) (fun ac : α × γ => V ac.1 ∧ V' ac.1 ac.2)
      (fun ac => E ac.1 ++ E' ac.1 ac.2) (fun ac => F' ac.1 ac.2) where
  complete ac hac :=
    (hp.complete ac.1 hac.1).bind ((hq ac.1 hac.1).complete ac.2 hac.2)
  sound m pos := by
    obtain ⟨a, ha, hE⟩ := hp.sound m pos
    obtain ⟨c, hc, hE'⟩ := (hq a ha).sound m (pos + (E a).length)
    exact ⟨(a, c), ⟨ha, hc⟩, holds_append.mpr ⟨hE, hE'⟩⟩

theorem Parses.map {δ : Type} {p : Scan β} {V : α → Prop} {E : α → List UInt8}
    {F : α → β} (f : β → δ) (hp : Parses p V E F) :
    Parses (p >>= fun x => pure (f x)) V E (fun a => f (F a)) where
  complete a ha := (hp.complete a ha).map f
  sound := hp.sound

/-- The same format over other things `c`, each standing for one `g c`. -/
theorem Parses.reindex {p : Scan β} {V : α → Prop} {E : α → List UInt8}
    {F : α → β} (hp : Parses p V E F) (V' : γ → Prop) (g : γ → α)
    (hV : ∀ c, V' c → V (g c)) (hg : ∀ a, V a → ∃ c, V' c ∧ g c = a) :
    Parses p V' (fun c => E (g c)) (fun c => F (g c)) where
  complete c hc := hp.complete (g c) (hV c hc)
  sound m pos := by
    obtain ⟨a, ha, hE⟩ := hp.sound m pos
    obtain ⟨c, hc, hgc⟩ := hg a ha
    refine ⟨c, hc, ?_⟩
    rw [hgc]
    exact hE

/-- **REPETITION**: `n` times the body parses `n` items in a row. -/
theorem parses_loop {body : Nat → Scan β} {V : α → Prop}
    {E : α → List UInt8} {F : Nat → α → β}
    (hbody : ∀ i, Parses (body i) V E (F i)) (n i : Nat) :
    Parses (loop body i n) (fun as => as.length = n ∧ ∀ a ∈ as, V a)
      (fun as => as.flatMap E) (valuesFrom F i) := by
  refine ⟨?_, ?_⟩
  · rintro as ⟨hlen, hV⟩
    rw [← hlen]
    exact consumes_loop (fun i a ha => (hbody i).complete a (hV a ha)) i
  · intro m pos
    -- whatever the memory holds, each round finds some item to decode
    induction n generalizing i pos with
    | zero => exact ⟨[], ⟨rfl, fun _ h => nomatch h⟩, holds_nil m pos⟩
    | succ n ih =>
        obtain ⟨a, ha, hE⟩ := (hbody i).sound m pos
        obtain ⟨as, ⟨hlen, hV⟩, hEs⟩ := ih (i + 1) (pos + (E a).length)
        refine ⟨a :: as, ⟨by rw [List.length_cons, hlen], ?_⟩, ?_⟩
        · intro b hb
          rcases List.mem_cons.mp hb with heq | hmem
          · rw [heq]
            exact ha
          · exact hV b hmem
        · show Holds m pos ((a :: as).flatMap E)
          rw [List.flatMap_cons]
          exact holds_append.mpr ⟨hE, hEs⟩

/-! ## What every format gets -/

section Format

variable {p : Scan β} {V : α → Prop} {E : α → List UInt8} {F : α → β}

/-- Whatever the memory holds, the scan decodes some valid `a` that is encoded
    right there, and its bounds are those of this encoding. -/
theorem Parses.run (hp : Parses p V E F) (m : Mem) (pos : Nat) :
    ∃ a, V a ∧ Holds m pos (E a) ∧ (p m pos).val = F a
      ∧ (p m pos).next = pos + (E a).length
      ∧ ∀ n, InBounds (p m pos).reads n
          ↔ (E a = [] ∨ pos + (E a).length ≤ n) := by
  obtain ⟨a, ha, hE⟩ := hp.sound m pos
  have hc := hp.complete a ha
  exact ⟨a, ha, hE, hc.val hE, hc.next hE, hc.reads hE⟩

/-- **ROUND TRIP**: an encoding followed by anything decodes to its value. -/
theorem Parses.roundTrip (hp : Parses p V E F) {a : α} (ha : V a) {m : Mem}
    {pos : Nat} (h : Holds m pos (E a)) : (p m pos).val = F a :=
  (hp.complete a ha).val h

/-- A scan that stays below `n` consumed an encoding that ends there. -/
theorem Parses.consumed (hp : Parses p V E F) (hne : ∀ a, V a → E a ≠ [])
    {m : Mem} {pos n : Nat} (h : InBounds (p m pos).reads n) :
    ∃ a, V a ∧ Holds m pos (E a) ∧ pos + (E a).length ≤ n
      ∧ (p m pos).val = F a ∧ (p m pos).next = pos + (E a).length := by
  obtain ⟨a, ha, hE, hval, hnext, hreads⟩ := hp.run m pos
  rcases (hreads n).mp h with hnil | hle
  · exact absurd hnil (hne a ha)
  · exact ⟨a, ha, hE, hle, hval, hnext⟩

/-- **BOUNDS**: the scan stays below `n` exactly when the bytes from the cursor
    to `n` begin with a complete encoding. -/
theorem Parses.inBounds_iff (hp : Parses p V E F) (hne : ∀ a, V a → E a ≠ [])
    {m : Mem} {pos n : Nat} (hpos : pos ≤ n) :
    InBounds (p m pos).reads n
      ↔ ∃ a, V a ∧ E a <+: slice m pos (n - pos) := by
  constructor
  · intro h
    obtain ⟨a, ha, hE, hle, -⟩ := hp.consumed hne h
    exact ⟨a, ha, hE.prefix_slice (by omega)⟩
  · rintro ⟨a, ha, hpre⟩
    have hlen := prefix_slice_length hpre
    exact ((hp.complete a ha).reads (holds_of_isPrefix hpre) n).mpr
      (Or.inr (by omega))

/-- **LOCALITY**: a scan that stays below `n` returns the same value on every
    memory with the same bytes below `n`, and stays below `n` there. -/
theorem Parses.local (hp : Parses p V E F) (hne : ∀ a, V a → E a ≠ [])
    {m m' : Mem} {pos n : Nat} (h : InBounds (p m pos).reads n)
    (hagree : AgreeBelow n m m') :
    (p m' pos).val = (p m pos).val ∧ InBounds (p m' pos).reads n := by
  obtain ⟨a, ha, hE, hle, hval, -⟩ := hp.consumed hne h
  -- the encoding lies below `n`, where the memories agree
  have hE' : Holds m' pos (E a) :=
    hE.congr (fun i _ hi => hagree i (by omega))
  refine ⟨?_, ((hp.complete a ha).reads hE' n).mpr (Or.inr hle)⟩
  rw [hval]
  exact hp.roundTrip ha hE'

end Format

end RawScan
