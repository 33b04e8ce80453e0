import Qdgz300.Pipeline.Proof.ReorderStream

/-!
# In-order streams and the timeout scan

A stream inserted in exactly the order of its numbers never buffers anything, so the window is
described by two counts: the inserts `E` so far and the positions `c` consumed. They differ only by
the positions that `check_timeout` skipped: each firing check (`firings`) skips the awaited number,
with or without a later packet in the buffer.

* **`inOrder_run`**: every insert is emitted once and in order, except those whose number a firing
  check has skipped; without a firing check nothing is lost and nothing is zero-filled.
* `idlePause_loses`: a pause of the timeout between two inserts loses the second one.
-/

namespace Qdgz300.Pipeline

open Protocol

/-- Whether `check_timeout` skips a number. -/
def Reorderer.fires (clk : SteadyClock) (s : Reorderer) : ReorderOp → Bool
  | .checkTimeout => s.initialized && s.timeoutElapsed clk
  | _ => false

/-- The number of timeout checks of a run that skip a number. -/
def firings (clk : SteadyClock) : Reorderer → List ReorderOp → Nat
  | _, [] => 0
  | s, op :: ops => (s.fires clk op).toNat + firings clk (s.step clk op).1 ops

/-- The entries carry the numbers `s0 + m`, `s0 + m + 1`, … -/
def Numbered (s0 : BitVec 32) : Nat → List Entry → Prop
  | _, [] => True
  | m, e :: E => e.header.sequenceNumber = s0 + BitVec.ofNat 32 m ∧ Numbered s0 (m + 1) E

instance (s0 : BitVec 32) : ∀ (m : Nat) (E : List Entry), Decidable (Numbered s0 m E)
  | _, [] => isTrue trivial
  | m, _ :: E => @instDecidableAnd _ _ _ (instDecidableNumbered s0 (m + 1) E)

/-- The window of an in-order stream: nothing is buffered, and it is ahead of the inserts by at most
the numbers skipped. -/
structure Idle (cfg : ReorderConfig) (s0 : BitVec 32) (E : List Entry) (c : List (Option Entry))
    (s : Reorderer) : Prop where
  config : s.config = cfg
  init : s.initialized = true
  empty : ∀ i, s.occupancyBitmap.test i = false
  next : s.nextExpectedSeq = s0 + BitVec.ofNat 32 c.length
  behind : E.length ≤ c.length
  lag : c.length ≤ E.length + c.count none
  carried : ∀ (q : Nat) (e : Entry), (c)[q]? = some (some e) → E[q]? = some e

section
variable {cfg : ReorderConfig} {s0 : BitVec 32} {E : List Entry} {c : List (Option Entry)}
  {s s' : Reorderer} {op : ReorderOp} {e : Entry}

theorem Idle.frame (h : Idle cfg s0 E c s) (h1 : s'.config = s.config)
    (h2 : s'.initialized = s.initialized) (h3 : s'.occupancyBitmap = s.occupancyBitmap)
    (h4 : s'.nextExpectedSeq = s.nextExpectedSeq) : Idle cfg s0 E c s' :=
  ⟨h1.trans h.config, h2.trans h.init, by rw [h3]; exact h.empty, h4.trans h.next, h.behind, h.lag,
    h.carried⟩

theorem advanceWindow_empty (clk : SteadyClock) (h : ∀ i, s.occupancyBitmap.test i = false) :
    s.advanceWindow clk = (s, []) := by
  unfold Reorderer.advanceWindow
  cases s.ringSlots.length with
  | zero => rfl
  | succ fuel => rw [Reorderer.advanceLoop, if_pos (h _)]

/-- One position consumed: the awaited packet, or a skipped number. -/
theorem Idle.advance (h : Idle cfg s0 E c s) {o : Option Entry} {F : List Entry}
    (hbehind : (E ++ F).length ≤ c.length + 1)
    (hlag : c.length + 1 ≤ (E ++ F).length + (c ++ [o]).count none)
    (ho : ∀ e, o = some e → (E ++ F)[c.length]? = some e)
    (h1 : s'.config = s.config) (h2 : s'.initialized = s.initialized)
    (h3 : s'.occupancyBitmap = s.occupancyBitmap)
    (h4 : s'.nextExpectedSeq = s.nextExpectedSeq + 1) : Idle cfg s0 (E ++ F) (c ++ [o]) s' := by
  have hlen : (c ++ [o]).length = c.length + 1 := by simp
  refine ⟨h1.trans h.config, h2.trans h.init, by rw [h3]; exact h.empty, ?_, by rwa [hlen],
    by rwa [hlen], ?_⟩
  · rw [h4, h.next, seq_succ, hlen]
  · intro q e hq
    rcases Nat.lt_trichotomy q c.length with hlt | rfl | hgt
    · rw [List.getElem?_append_left hlt] at hq
      obtain ⟨hlt', -⟩ := List.getElem?_eq_some_iff.1 (h.carried q e hq)
      rw [List.getElem?_append_left hlt', h.carried q e hq]
    · rw [List.getElem?_concat_length] at hq
      exact ho e (Option.some.inj hq)
    · rw [List.getElem?_eq_none (by simp; omega)] at hq
      cases hq

/-- An insert whose position the window has passed counts as a duplicate. -/
theorem insertBody_late (clk : SteadyClock) {p m : Nat}
    (hnext : s.nextExpectedSeq = s0 + BitVec.ofNat 32 p) (hlt : m < p) (hnear : p ≤ m + 2 ^ 31)
    (he : e.header.sequenceNumber = s0 + BitVec.ofNat 32 m) :
    s.insertBody clk e.header e.payload e.payloadSize = (s.countDuplicate, []) := by
  obtain ⟨l, hl⟩ := Nat.exists_eq_add_of_le (Nat.le_of_lt hlt)
  -- the distance to the awaited number is `2^32 - l`, in the upper half
  have hdist : (e.header.sequenceNumber - s.nextExpectedSeq).toNat = 2 ^ 32 - l := by
    have hneg : e.header.sequenceNumber - s.nextExpectedSeq = - BitVec.ofNat 32 l := by
      rw [he, hnext, hl, BitVec.ofNat_add]
      generalize BitVec.ofNat 32 m = x
      generalize BitVec.ofNat 32 l = y
      clear hnext he hnear
      bv_omega
    rw [hneg, BitVec.toNat_neg, BitVec.toNat_ofNat, Nat.mod_eq_of_lt (show l < 2 ^ 32 by omega),
      Nat.mod_eq_of_lt (by omega)]
  have hne : e.header.sequenceNumber ≠ s.nextExpectedSeq := by
    intro heq
    rw [heq, BitVec.sub_self] at hdist
    simp only [BitVec.toNat_zero] at hdist
    omega
  have hold : isSequenceNewer e.header.sequenceNumber s.nextExpectedSeq = false := by
    simp only [isSequenceNewer, hdist, Bool.and_eq_false_iff, decide_eq_false_iff_not]
    omega
  unfold Reorderer.insertBody
  simp only
  rw [if_neg hne, if_pos hold]

theorem Idle.late (clk : SteadyClock) (h : Idle cfg s0 E c s) (hlt : E.length < c.length)
    (hbound : c.count none < 2 ^ 31)
    (he : e.header.sequenceNumber = s0 + BitVec.ofNat 32 E.length) :
    s.insertBody clk e.header e.payload e.payloadSize = (s.countDuplicate, []) := by
  have hlag := h.lag
  exact insertBody_late clk h.next hlt (by omega) he

/-- **One insert of the stream**: emitted, or late because its number was skipped. -/
theorem insertBody_idle (clk : SteadyClock) (zf : Bool) (h : Idle cfg s0 E c s)
    (hbound : c.count none < 2 ^ 31)
    (he : e.header.sequenceNumber = s0 + BitVec.ofNat 32 E.length) :
    ∃ d, Idle cfg s0 (E ++ [e]) (c ++ d) (s.insertBody clk e.header e.payload e.payloadSize).1 ∧
      (s.insertBody clk e.header e.payload e.payloadSize).2 = render zf s0 c.length d ∧
      d.count none = 0 := by
  rcases Nat.lt_or_ge E.length c.length with hlt | hge
  · rw [h.late clk hlt hbound he]
    refine ⟨[], ?_, rfl, rfl⟩
    rw [List.append_nil]
    refine ⟨h.config, h.init, h.empty, h.next, by simp; omega, ?_, ?_⟩
    · have := h.lag
      simp only [List.length_append, List.length_singleton]
      omega
    · intro q e' hq
      obtain ⟨hq', -⟩ := List.getElem?_eq_some_iff.1 (h.carried q e' hq)
      rw [List.getElem?_append_left hq', h.carried q e' hq]
  · have hlen : E.length = c.length := by have := h.behind; omega
    have hnext : e.header.sequenceNumber = s.nextExpectedSeq := by rw [he, h.next, hlen]
    unfold Reorderer.insertBody
    simp only
    rw [if_pos hnext, advanceWindow_empty clk (s := Reorderer.advanceNow clk s.countInOrder) h.empty]
    refine ⟨[some e], ?_, ?_, rfl⟩
    · refine h.advance ?_ ?_ ?_ rfl rfl rfl rfl
      · simp [hlen]
      · simp [hlen]
      · intro e' he'
        cases he'
        rw [← hlen, List.getElem?_concat_length]
    · rw [hnext, h.next]
      rfl

/-- **A firing check** skips the awaited number. -/
theorem skipExpected_idle (clk : SteadyClock) (h : Idle cfg s0 E c s) :
    Idle cfg s0 E (c ++ [none]) (s.skipExpected clk).1 ∧
      (s.skipExpected clk).2 = render cfg.enableZeroFill s0 c.length [none] := by
  have hnow : ∀ i, (Reorderer.advanceNow clk
      (if s.config.enableZeroFill then s.countZeroFilled else s)).occupancyBitmap.test i =
        false := by
    intro i
    split <;> exact h.empty i
  unfold Reorderer.skipExpected
  simp only
  rw [advanceWindow_empty clk hnow]
  constructor
  · have hadv : Idle cfg s0 (E ++ []) (c ++ [none]) (Reorderer.advanceNow clk
        (if s.config.enableZeroFill then s.countZeroFilled else s)).syncBuffered :=
      h.advance (by have := h.behind; simp; omega) (by have := h.lag; simp; omega) (by simp)
        (by split <;> rfl) (by split <;> rfl) (by split <;> rfl) (by split <;> rfl)
    rwa [List.append_nil] at hadv
  · rw [h.config, h.next]
    rfl

/-- **One call** of an in-order run. -/
theorem step_idle (clk : SteadyClock) (h : Idle cfg s0 E c s) (hop : op ≠ .flush)
    (hbound : c.count none < 2 ^ 31)
    (he : ∀ e, op.entry? = some e → e.header.sequenceNumber = s0 + BitVec.ofNat 32 E.length) :
    ∃ d, Idle cfg s0 (E ++ op.entry?.toList) (c ++ d) (s.step clk op).1 ∧
      (s.step clk op).2 = render cfg.enableZeroFill s0 c.length d ∧
      d.count none = (s.fires clk op).toNat := by
  cases hentry : op.entry? with
  | some e =>
    have hfires : s.fires clk op = false := by cases op <;> first | rfl | cases hentry
    rw [step_insert clk s hentry, Reorderer.initWith, if_pos h.init, hfires]
    exact insertBody_idle clk cfg.enableZeroFill h hbound (he e hentry)
  | none =>
    rw [Option.toList_none, List.append_nil]
    cases op with
    | insert packet => cases hentry
    | insertOwned header payload payloadSize => cases hentry
    | flush => exact absurd rfl hop
    | setTimeoutMs timeoutMs =>
      refine ⟨[], ?_, rfl, rfl⟩
      rw [List.append_nil]
      exact h.frame rfl rfl rfl rfl
    | checkTimeout =>
      have hfires : s.fires clk .checkTimeout = s.timeoutElapsed clk := by
        rw [Reorderer.fires, h.init, Bool.true_and]
      rw [Reorderer.step, Reorderer.checkTimeout, if_neg (by simp [h.init]), hfires]
      cases ht : s.timeoutElapsed clk with
      | false =>
        rw [if_pos rfl]
        refine ⟨[], ?_, rfl, rfl⟩
        rw [List.append_nil]
        exact h.frame rfl rfl rfl rfl
      | true =>
        rw [if_neg (by simp)]
        obtain ⟨h1, h2⟩ := skipExpected_idle clk h
        exact ⟨[none], h1, h2, rfl⟩

/-- **A run** of an opened window with in-order inserts. -/
theorem run_idle (clk : SteadyClock) :
    ∀ (ops : List ReorderOp) (E : List Entry) (c : List (Option Entry)) (s : Reorderer),
      Idle cfg s0 E c s → (∀ op ∈ ops, op ≠ .flush) → Numbered s0 E.length (inserted ops) →
      c.count none + firings clk s ops < 2 ^ 31 →
      ∃ d, Idle cfg s0 (E ++ inserted ops) (c ++ d) (s.run clk ops).1 ∧
        (s.run clk ops).2 = render cfg.enableZeroFill s0 c.length d ∧
        d.count none = firings clk s ops := by
  intro ops
  induction ops with
  | nil =>
    intro E c s h _ _ _
    exact ⟨[], by simpa [inserted, Reorderer.run] using h, rfl, rfl⟩
  | cons op ops ih =>
    intro E c s h hops hnum hbound
    rw [firings] at hbound
    rw [inserted_cons] at hnum
    have hhead : ∀ e, op.entry? = some e → e.header.sequenceNumber =
      s0 + BitVec.ofNat 32 E.length := by
      intro e hentry
      rw [hentry] at hnum
      exact hnum.1
    obtain ⟨d1, hd1, hout1, hcount1⟩ :=
      step_idle clk h (hops op List.mem_cons_self) (by omega) hhead
    have htail : Numbered s0 (E ++ op.entry?.toList).length (inserted ops) := by
      cases hentry : op.entry? with
      | none =>
        rw [hentry] at hnum
        simpa using hnum
      | some e =>
        rw [hentry] at hnum
        simpa using hnum.2
    obtain ⟨d2, hd2, hout2, hcount2⟩ := ih _ _ _ hd1
      (fun op' hm => hops op' (List.mem_cons_of_mem _ hm)) htail
      (by rw [List.count_append, hcount1]; omega)
    refine ⟨d1 ++ d2, ?_, ?_, ?_⟩
    · rw [inserted_cons]
      simpa [Reorderer.run, Machine.run] using hd2
    · rw [render_append, ← hout1, ← List.length_append, ← hout2]
      rfl
    · rw [List.count_append, hcount1, hcount2, firings]

/-! ## From the first insert on -/

theorem idle_new (cfg : ReorderConfig) (created : Int) (s0 : BitVec 32) :
    Idle cfg s0 [] [] ((Reorderer.new cfg created).initWith s0) := by
  refine ⟨rfl, rfl, fun i => Bitmap.test_zeros _ i, ?_, Nat.le_refl _, Nat.le_refl _, by simp⟩
  simp [Reorderer.initWith, Reorderer.new]

theorem firings_initWith (clk : SteadyClock) (s : Reorderer) (ops : List ReorderOp)
    (he : op.entry? = some e) :
    firings clk s (op :: ops) = firings clk (s.initWith e.header.sequenceNumber) (op :: ops) := by
  have hfires : ∀ s : Reorderer, s.fires clk op = false := by
    intro s
    cases op <;> first | rfl | cases he
  rw [firings, firings, hfires, hfires, step_insert clk _ he, step_insert clk _ he, initWith_idem]

/-- Without gaps, the consumed positions are the inserts. -/
theorem Idle.gapless (h : Idle cfg s0 E c s) (h0 : c.count none = 0) : c = E.map some := by
  have hlen : c.length = E.length := by
    have h1 := h.behind
    have h2 := h.lag
    omega
  refine List.ext_getElem? fun q => ?_
  cases hq : (c)[q]? with
  | none =>
    rw [List.getElem?_eq_none_iff] at hq
    rw [List.getElem?_eq_none (by simp; omega)]
  | some o =>
    cases o with
    | none => exact absurd (List.mem_of_getElem? hq) (List.count_eq_zero.1 h0)
    | some e => rw [List.getElem?_map, h.carried q e hq]; rfl

theorem render_map_some (zf : Bool) (s0 : BitVec 32) : ∀ (E : List Entry) (i : Nat),
    render zf s0 i (E.map some) = E.mapIdx fun j e => e.packet (s0 + BitVec.ofNat 32 (i + j))
  | [], i => rfl
  | e :: E, i => by
    rw [List.map_cons, render, render_map_some zf s0 E, List.mapIdx_cons]
    simp only [Nat.add_zero, Nat.add_assoc, Nat.add_comm 1]

/-- **A loss-free in-order stream.** The consumed positions `c` hold, for each insert in order, the
insert itself or a gap; there are as many gaps as firing checks. When no check fires, every insert
is emitted once, in order, and nothing else is. -/
theorem inOrder_run {op0 : ReorderOp} {ops : List ReorderOp} (clk : SteadyClock) (created : Int)
    (hops : ∀ op ∈ op0 :: ops, op ≠ .flush) (hfirst : op0.entry?.isSome = true)
    (hnum : Numbered s0 0 (inserted (op0 :: ops)))
    (hbound : firings clk (Reorderer.new cfg created) (op0 :: ops) < 2 ^ 31) :
    (∃ c, ((Reorderer.new cfg created).run clk (op0 :: ops)).2 =
        render cfg.enableZeroFill s0 0 c ∧
      c.count none = firings clk (Reorderer.new cfg created) (op0 :: ops) ∧
      (inserted (op0 :: ops)).length ≤ c.length ∧
      ∀ (q : Nat) (e : Entry), (c)[q]? = some (some e) → (inserted (op0 :: ops))[q]? = some e) ∧
    (firings clk (Reorderer.new cfg created) (op0 :: ops) = 0 →
      ((Reorderer.new cfg created).run clk (op0 :: ops)).2 =
        (inserted (op0 :: ops)).mapIdx fun i e => e.packet (s0 + BitVec.ofNat 32 i)) := by
  obtain ⟨e0, he0⟩ := Option.isSome_iff_exists.1 hfirst
  have hs0 : e0.header.sequenceNumber = s0 := by
    rw [inserted, List.filterMap_cons_some he0] at hnum
    simpa using hnum.1
  have hfire := firings_initWith clk (Reorderer.new cfg created) ops he0
  have hrun := (run_initWith clk 0 (Reorderer.new cfg created) ops he0).1
  rw [hs0] at hfire hrun
  rw [hfire] at hbound ⊢
  rw [hrun]
  obtain ⟨c, hc, hout, hcount⟩ := run_idle clk (op0 :: ops) [] [] _ (idle_new cfg created s0) hops
    hnum (by simpa using hbound)
  rw [List.nil_append, List.nil_append] at hc
  refine ⟨⟨c, hout, hcount, hc.behind, hc.carried⟩, fun h0 => ?_⟩
  rw [hout, hc.gapless (hcount.trans h0), render_map_some]
  simp

/-- Two inserts in order, with one timeout check after the first. -/
def idlePause : List ReorderOp :=
  [.insertOwned { sequenceNumber := 0 } (some [1]) 1, .checkTimeout,
    .insertOwned { sequenceNumber := 1 } (some [2]) 1]

/-- The check comes 10 ms after the first insert: it does not fire. -/
theorem idlePause_short :
    firings (fun k => 10000000 * k) (Reorderer.new { windowSize := 4 } 0) idlePause = 0 ∧
    ((Reorderer.new { windowSize := 4 } 0).run (fun k => 10000000 * k) idlePause).2 =
      (inserted idlePause).mapIdx fun i e => e.packet (0 + BitVec.ofNat 32 i) :=
  ⟨by decide, (inOrder_run (fun k => 10000000 * k) 0 (by simp) rfl (by decide) (by decide)).2
    (by decide)⟩

/-- The check comes 60 ms after the first insert, with nothing buffered: it skips number `1`, and
the packet with that number is dropped when it arrives. -/
theorem idlePause_loses :
    Numbered 0 0 (inserted idlePause) ∧
    ((Reorderer.new { windowSize := 4 } 0).run (fun k => 60000000 * k) idlePause).2 =
      [Entry.packet ⟨{ sequenceNumber := 0 }, some [1], 1⟩ 0,
        Reorderer.createZeroFilledPacket 1] :=
  ⟨by decide, by decide⟩

end

end Qdgz300.Pipeline
