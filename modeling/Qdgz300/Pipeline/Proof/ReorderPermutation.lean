import Qdgz300.Pipeline.Proof.ReorderBalance

/-!
# Permutations within the window

The numbers `s0, …, s0 + k - 1`, `k` at most the window size, inserted in any order that begins with
`s0` and with any repeats. None of them is ever outside the window before it is consumed, so the
first insert of each is kept (`Restoring`), and nothing is skipped without a timeout. When all have
come, they have been handed out in order: **`permutation_restored`**.
-/

namespace Qdgz300.Pipeline

open Protocol

/-- The first insert with number `seq`. -/
def firstWith (E : List Entry) (seq : BitVec 32) : Option Entry :=
  E.find? fun e => e.header.sequenceNumber == seq

/-- After the inserts `E`, all within the first `k` positions: each position holds or has handed out
its first insert, and no gap was skipped. -/
structure Restoring (cfg : ReorderConfig) (s0 : BitVec 32) (k : Nat) (E : List Entry)
    (A : List Arrival) (c : List (Option Entry)) (s : Reorderer) : Prop where
  win : WinInv cfg s0 A c s
  within : ∀ a ∈ A, a.position < k
  firsts : ∀ q < k, held A q = firstWith E (s0 + BitVec.ofNat 32 q)
  gapless : none ∉ c
  skipped : s.stats.packetsZeroFilled = 0

section
variable {cfg : ReorderConfig} {s0 : BitVec 32} {k : Nat} {E : List Entry} {A : List Arrival}
  {c : List (Option Entry)} {s : Reorderer} {e : Entry}

/-! ## No gaps without a timeout -/

theorem advanceLoop_zeroFilled (clk : SteadyClock) : ∀ (fuel : Nat) (s : Reorderer),
    (Reorderer.advanceLoop clk fuel s).1.stats.packetsZeroFilled = s.stats.packetsZeroFilled
  | 0, _ => rfl
  | fuel + 1, s => by
    unfold Reorderer.advanceLoop
    split
    · rfl
    · split
      · rfl
      · exact advanceLoop_zeroFilled clk fuel (s.takeHead clk)

theorem insertBody_zeroFilled (clk : SteadyClock) (s : Reorderer) (e : Entry) :
    (s.insertBody clk e.header e.payload e.payloadSize).1.stats.packetsZeroFilled =
      s.stats.packetsZeroFilled := by
  unfold Reorderer.insertBody
  simp only
  split
  · exact advanceLoop_zeroFilled clk _ (Reorderer.advanceNow clk s.countInOrder)
  · split
    · rfl
    · split
      · rfl
      · split <;> rfl

theorem gapless_of_render : ∀ (d : List (Option Entry)) (i : Nat),
    (∀ p ∈ render true s0 i d, p.isZeroFilled = false) → none ∉ d
  | [], _, _ => List.not_mem_nil
  | some e :: d, i, h => by
    have hrest := gapless_of_render d (i + 1) fun p hp => h p (List.mem_cons_of_mem _ hp)
    simpa using hrest
  | none :: d, i, h => by
    have hgap := h (Reorderer.createZeroFilledPacket (s0 + BitVec.ofNat 32 i)) (by simp [render])
    cases hgap

/-! ## Positions -/

theorem seq_inj {q r : Nat} (hq : q < 2 ^ 32) (hr : r < 2 ^ 32)
    (h : s0 + BitVec.ofNat 32 q = s0 + BitVec.ofNat 32 r) : q = r := by
  have := congrArg BitVec.toNat ((BitVec.add_right_inj s0).1 h)
  rwa [BitVec.toNat_ofNat, BitVec.toNat_ofNat, Nat.mod_eq_of_lt hq, Nat.mod_eq_of_lt hr] at this

theorem firstWith_append (E : List Entry) (e : Entry) (seq : BitVec 32) :
    firstWith (E ++ [e]) seq =
      (firstWith E seq).or (if e.header.sequenceNumber = seq then some e else none) := by
  rw [firstWith, List.find?_append, firstWith]
  by_cases h : e.header.sequenceNumber = seq <;> simp [h]

theorem Restoring.length_le (h : Restoring cfg s0 k E A c s) : c.length ≤ k := by
  rcases Nat.lt_or_ge k c.length with hlt | hge
  · have hpast := h.win.past k hlt
    cases hf : first A k with
    | none =>
      rw [held, hf] at hpast
      exact absurd (List.mem_of_getElem? hpast) h.gapless
    | some a =>
      obtain ⟨hmem, hpos⟩ := first_mem hf
      have := h.within a hmem
      omega
  · exact hge

/-- The arrival that an insert of position `i` makes: none when the position is consumed. -/
theorem Restoring.arrival (h : Restoring cfg s0 k E A c s) (hk : k ≤ s.ringSlots.length) {i n : Nat}
    (hi : i < k) (hseq : e.header.sequenceNumber = s0 + BitVec.ofNat 32 i) :
    s.arrival n e = if c.length ≤ i then [⟨n, i, e⟩] else [] := by
  have hle := h.length_le
  have hsmall := h.win.small
  have hpos : ∀ q, s.position? e.header.sequenceNumber = some q ↔ c.length ≤ i ∧ q = i := by
    intro q
    rw [h.win.position?_iff, h.win.advanced, hseq]
    constructor
    · rintro ⟨h1, h2, h3⟩
      have := seq_inj (by omega) (by omega) h3
      omega
    · rintro ⟨h1, rfl⟩
      exact ⟨h1, by omega, rfl⟩
  rw [Reorderer.arrival]
  split
  case isTrue hci => rw [(hpos i).2 ⟨hci, rfl⟩]; rfl
  case isFalse hci =>
    have hnone : s.position? e.header.sequenceNumber = none := by
      rw [Option.eq_none_iff_forall_ne_some]
      exact fun q hq => hci ((hpos q).1 hq).1
    rw [hnone]
    rfl

/-- **One insert** of a number within the first `k`. -/
theorem Restoring.insert (clk : SteadyClock) (h : Restoring cfg s0 k E A c s)
    (hk : k ≤ s.ringSlots.length) {i : Nat} (n : Nat) (hi : i < k)
    (hseq : e.header.sequenceNumber = s0 + BitVec.ofNat 32 i) :
    ∃ d, Restoring cfg s0 k (E ++ [e]) (A ++ s.arrival n e) (c ++ d)
        (s.insertBody clk e.header e.payload e.payloadSize).1 ∧
      (s.insertBody clk e.header e.payload e.payloadSize).2 = render true s0 c.length d := by
  obtain ⟨d, hwin, hout⟩ := insertBody_inv clk true n e h.win
  have hsmall := h.win.small
  refine ⟨d, ⟨hwin, ?_, ?_, ?_, (insertBody_zeroFilled clk s e).trans h.skipped⟩, hout⟩
  · intro a ha
    rcases List.mem_append.1 ha with ha | ha
    · exact h.within a ha
    · rw [h.arrival hk hi hseq] at ha
      split at ha
      · rw [List.mem_singleton.1 ha]
        exact hi
      · cases ha
  · intro q hq
    have hnum : e.header.sequenceNumber = s0 + BitVec.ofNat 32 q ↔ i = q := by
      rw [hseq]
      exact ⟨seq_inj (by omega) (by omega), fun heq => by rw [heq]⟩
    rw [firstWith_append, ← h.firsts q hq, h.arrival hk hi hseq]
    split
    case isTrue hci =>
      rw [held, first_append, held]
      by_cases hiq : i = q
      · rw [if_pos hiq, if_pos (hnum.2 hiq)]
        cases first A q <;> rfl
      · rw [if_neg hiq, if_neg (mt hnum.1 hiq), Option.or_none, Option.or_none]
    case isFalse hci =>
      rw [List.append_nil]
      by_cases hiq : i = q
      · -- a consumed position has handed out its first insert
        have hpast := h.win.past q (by omega)
        cases hheld : held A q with
        | none =>
          rw [hheld] at hpast
          exact absurd (List.mem_of_getElem? hpast) h.gapless
        | some e' => rfl
      · rw [if_neg (mt hnum.1 hiq), Option.or_none]
  · have hd := gapless_of_render d c.length (hout ▸ insertBody_filled clk s e)
    simp [h.gapless, hd]

/-! ## Runs -/

/-- Every call inserts one of the numbers `s0, …, s0 + k - 1`. -/
def Numbers (s0 : BitVec 32) (k : Nat) (ops : List ReorderOp) : Prop :=
  ∀ op ∈ ops, ∃ e, op.entry? = some e ∧ ∃ i < k, e.header.sequenceNumber = s0 + BitVec.ofNat 32 i

/-- **A run of inserts** within the first `k` numbers. -/
theorem run_restoring (clk : SteadyClock) : ∀ (ops : List ReorderOp) (E : List Entry)
    (A : List Arrival) (c : List (Option Entry)) (s : Reorderer), Restoring cfg s0 k E A c s →
    k ≤ s.ringSlots.length → Numbers s0 k ops →
    ∃ A' d, Restoring cfg s0 k (E ++ inserted ops) A' (c ++ d) (s.run clk ops).1 ∧
      (s.run clk ops).2 = render true s0 c.length d := by
  intro ops
  induction ops with
  | nil =>
    intro E A c s h _ _
    exact ⟨A, [], by simpa [inserted, Reorderer.run] using h, rfl⟩
  | cons op ops ih =>
    intro E A c s h hk hops
    obtain ⟨e, he, i, hi, hseq⟩ := hops op List.mem_cons_self
    have hstep : s.step clk op = s.insertBody clk e.header e.payload e.payloadSize := by
      rw [step_insert clk s he, Reorderer.initWith, if_pos h.win.init]
    obtain ⟨d1, h1, hout1⟩ := h.insert clk hk 0 hi hseq
    rw [← hstep] at h1 hout1
    obtain ⟨A', d2, h2, hout2⟩ := ih _ _ _ _ h1 (by rw [h1.win.size, ← h.win.size]; exact hk)
      fun op' hop' => hops op' (List.mem_cons_of_mem _ hop')
    refine ⟨A', d1 ++ d2, ?_, ?_⟩
    · rw [inserted_cons, he, ← List.append_assoc, ← List.append_assoc]
      exact h2
    · rw [render_append, ← hout1, ← List.length_append, ← hout2]
      rfl

theorem Restoring.length_eq (h : Restoring cfg s0 k E A c s)
    (hall : ∀ i < k, ∃ e ∈ E, e.header.sequenceNumber = s0 + BitVec.ofNat 32 i) : c.length = k := by
  have hle := h.length_le
  rcases Nat.lt_or_ge c.length k with hlt | hge
  · -- the awaited position would have come
    obtain ⟨e, he, hseq⟩ := hall c.length hlt
    have hnone := h.firsts c.length hlt
    rw [held, h.win.awaited, firstWith, eq_comm, Option.map_none, List.find?_eq_none] at hnone
    exact absurd (by simp [hseq]) (hnone e he)
  · omega

theorem restoring_opened {created : Int} (h1 : 1 ≤ cfg.windowSize) (h2 : cfg.windowSize < 2 ^ 31) :
    Restoring cfg s0 k [] [] [] ((Reorderer.new cfg created).initWith s0) :=
  ⟨(fresh_new h1 h2 created).opens s0, nofun, fun _ _ => rfl, List.not_mem_nil, rfl⟩

/-- The packets of positions that all have an insert. -/
theorem getElem?_render : ∀ (c : List (Option Entry)) (i q : Nat) (e : Entry), none ∉ c →
    (c)[q]? = some (some e) →
    (render true s0 i c)[q]? = some (e.packet (s0 + BitVec.ofNat 32 (i + q)))
  | [], _, _, _, _, hq => nomatch hq
  | none :: c, _, _, _, hc, _ => absurd List.mem_cons_self hc
  | some e' :: c, i, 0, e, _, hq => by
    cases hq
    rfl
  | some e' :: c, i, q + 1, e, hc, hq => by
    have hrest := getElem?_render c (i + 1) q e (mt (List.mem_cons_of_mem _) hc)
      (by simpa using hq)
    rw [Nat.add_right_comm, Nat.add_assoc] at hrest
    rw [render, List.getElem?_cons_succ]
    exact hrest

theorem length_render : ∀ (c : List (Option Entry))
    (i : Nat), (render true s0 i c).length = c.length
  | [], _ => rfl
  | some _ :: c, i => by simp [render, length_render c]
  | none :: c, i => by simp [render, length_render c]

theorem Restoring.occupied_zero (h : Restoring cfg s0 k E A c s) (hs : Shelved s)
    (hlen : c.length = k) : s.occupied = 0 := by
  rw [← hs.length_pending, List.length_eq_zero_iff, List.eq_nil_iff_forall_not_mem]
  intro x hx
  obtain ⟨q, -, hq, -, -, hheld⟩ := h.win.pending_position hx
  cases hf : first A q with
  | none => exact hheld (by rw [held, hf]; rfl)
  | some a =>
    obtain ⟨hmem, hpos⟩ := first_mem hf
    have := h.within a hmem
    omega

/-- **Any permutation within the window is put back in order.** Inserts of the numbers
`s0, …, s0 + k - 1`, each at least once, `s0` first and `k` at most the window size, hand out
exactly one packet for each of them, in order, with its first insert; the buffer is empty in the end
and the repeats are counted as duplicates. -/
theorem permutation_restored {ops : List ReorderOp} (clk : SteadyClock) (created : Int)
    (h1 : 1 ≤ cfg.windowSize) (h2 : cfg.windowSize < 2 ^ 31) (hk : k ≤ cfg.windowSize)
    (hfirst : firstSeq ops = some s0) (hops : Numbers s0 k ops)
    (hall : ∀ i < k, ∃ e ∈ inserted ops, e.header.sequenceNumber = s0 + BitVec.ofNat 32 i) :
    ((Reorderer.new cfg created).run clk ops).2.length = k ∧
    (∀ i < k, ∃ e p, firstWith (inserted ops) (s0 + BitVec.ofNat 32 i) = some e ∧
      ((Reorderer.new cfg created).run clk ops).2[i]? = some p ∧
      p.sequenceNumber = s0 + BitVec.ofNat 32 i ∧ p.isZeroFilled = false ∧
      p.packet.header = e.header ∧ p.ownedPayload = e.payload ∧ p.payloadSize = e.payloadSize) ∧
    ((Reorderer.new cfg created).run clk ops).1.occupied = 0 ∧
    ((Reorderer.new cfg created).run clk ops).1.stats.packetsDuplicate = ops.length - k := by
  have hbal := run_unopened clk ops _ (unopened_new h1 h2 created) hfirst
  have hopened : (Reorderer.new cfg created).run clk ops =
      ((Reorderer.new cfg created).initWith s0).run clk ops := by
    cases ops with
    | nil => cases hfirst
    | cons op ops =>
      obtain ⟨e, he, -⟩ := hops op List.mem_cons_self
      have hseq : e.header.sequenceNumber = s0 := by simpa [firstSeq, he] using hfirst
      rw [(run_initWith clk 0 _ ops he).1, hseq]
  have hsize : k ≤ ((Reorderer.new cfg created).initWith s0).ringSlots.length := by
    rw [((fresh_new h1 h2 created).opens s0).size]
    omega
  obtain ⟨A, c, h, hout⟩ := run_restoring clk ops [] [] [] _ (restoring_opened h1 h2) hsize hops
  rw [← hopened] at h hout
  simp only [List.nil_append, List.length_nil] at h hout
  have hlen := h.length_eq hall
  have hcount : (inserted ops).length = ops.length := by
    rw [inserted, List.length_filterMap_eq_countP, List.countP_eq_length]
    intro op hop
    obtain ⟨e, he, -⟩ := hops op hop
    simp [he]
  have hzero := h.occupied_zero hbal.shelved hlen
  have hcallbacks : ((Reorderer.new cfg created).run clk ops).2.length = k := by
    rw [hout, length_render, hlen]
  refine ⟨hcallbacks, ?_, hzero, ?_⟩
  · intro i hi
    have hpast := h.win.past i (by omega)
    rw [h.firsts i hi] at hpast
    cases hheld : firstWith (inserted ops) (s0 + BitVec.ofNat 32 i) with
    | none =>
      rw [hheld] at hpast
      exact absurd (List.mem_of_getElem? hpast) h.gapless
    | some e =>
      rw [hheld] at hpast
      refine ⟨e, e.packet (s0 + BitVec.ofNat 32 i), rfl, ?_, rfl, rfl, rfl, rfl, rfl⟩
      rw [hout, getElem?_render c 0 i e h.gapless hpast, Nat.zero_add]
  · -- every insert was handed out or is a repeat
    have hcalls := hbal.calls
    have houts := hbal.outs
    rw [hbal.shelved.stock, hzero, hcount] at hcalls
    rw [h.skipped, hcallbacks] at houts
    omega

/-- Four numbers across the wrap, with a repeat. -/
def shuffled : List ReorderOp :=
  [.insertOwned { sequenceNumber := 0xFFFFFFFE } (some [1]) 1,
    .insertOwned { sequenceNumber := 1 } (some [4]) 1, .insertOwned { sequenceNumber := 0 }
      (some [3]) 1,
    .insertOwned { sequenceNumber := 0 } (some [9]) 1,
    .insertOwned { sequenceNumber := 0xFFFFFFFF } (some [2]) 1]

theorem shuffled_restored :
    ((Reorderer.new { windowSize := 4 } 0).run (fun _ => 0) shuffled).2.map (·.ownedPayload) =
      [some [1], some [2], some [3], some [4]] ∧
    ((Reorderer.new { windowSize := 4 } 0).run (fun _ => 0) shuffled).1.stats.packetsDuplicate = 1 := by
  refine ⟨by decide, ?_⟩
  have hnumbers : Numbers 0xFFFFFFFE 4 shuffled := by
    intro op hop
    simp only [shuffled, List.mem_cons, List.not_mem_nil, or_false] at hop
    obtain rfl | rfl | rfl | rfl | rfl := hop
    · exact ⟨_, rfl, 0, by decide, rfl⟩
    · exact ⟨_, rfl, 3, by decide, rfl⟩
    · exact ⟨_, rfl, 2, by decide, rfl⟩
    · exact ⟨_, rfl, 2, by decide, rfl⟩
    · exact ⟨_, rfl, 1, by decide, rfl⟩
  exact (permutation_restored (fun _ => 0) 0 (by decide) (by decide) (by decide)
    (show firstSeq shuffled = some 0xFFFFFFFE from rfl) hnumbers (by decide)).2.2.2

end

end Qdgz300.Pipeline
