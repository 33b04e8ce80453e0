import Qdgz300.Pipeline.Proof.ReorderBalance

/-!
# The ring of the reorderer

`ReorderRingOk n s`: the ring has `n` slots, the bitmap marks the occupied ones, each of them lies
`d` slots ahead of the base and holds the number `next_expected_seq + d`, the slot at the base is
free, and `current_buffer_size` is the number of marks. It is read off the window (`WinInv`: every
position in its own slot) and the account of the buffer (`Shelved`), which every call keeps together
(`Settled.step`).

The loop of `advance_window` is an iteration of `takeHead` (`advanceLoop_iterates`). A call ends
with the slot at the base free, so the loop stopped at one of its exits and did not use up its fuel:
`ring_invariant`.
-/

namespace Qdgz300.Pipeline

open Protocol

/-- The ring between calls, with a window of `n`. -/
structure ReorderRingOk (n : Nat) (s : Reorderer) : Prop where
  size : s.ringSlots.length = n
  base : s.baseIndex < n
  marked : ∀ j < n, s.occupancyBitmap.test j = true ↔ (s.slot j).occupied = true
  placed : ∀ j < n, (s.slot j).occupied = true →
    1 ≤ Circular.ahead n s.baseIndex j ∧ Circular.ahead n s.baseIndex j < n ∧
      (s.slot j).sequence = s.nextExpectedSeq + BitVec.ofNat 32 (Circular.ahead n s.baseIndex j)
  headFree : (s.slot s.baseIndex).occupied = false
  counted : s.stats.currentBufferSize = (List.range n).countP s.occupancyBitmap.test

/-- The two exits of the loop of `advance_window`. -/
def Reorderer.AtExit (s : Reorderer) : Prop :=
  s.occupancyBitmap.test s.baseIndex = false ∨
    (s.slot s.baseIndex).occupied = false ∨ (s.slot s.baseIndex).sequence ≠ s.nextExpectedSeq

instance (s : Reorderer) : Decidable s.AtExit :=
  inferInstanceAs (Decidable (_ ∨ _ ∨ _))

/-- The state in which a call enters the loop of `advance_window`, when it does. -/
def Reorderer.entersLoop (clk : SteadyClock) (s : Reorderer) (op : ReorderOp) : Option Reorderer :=
  match op.entry? with
  | some e =>
    let opened := s.initWith e.header.sequenceNumber
    if e.header.sequenceNumber = opened.nextExpectedSeq then
      some (advanceNow clk opened.countInOrder)
    else none
  | none =>
    match op with
    | .checkTimeout =>
      if s.initialized && s.timeoutElapsed clk then
        some (advanceNow clk (if s.config.enableZeroFill then s.countZeroFilled else s))
      else none
    | _ => none

/-- A state between calls: the window has not been opened, or it has been and its account
balances. -/
def Settled (cfg : ReorderConfig) (s : Reorderer) : Prop :=
  (Fresh cfg s ∧ Unopened s) ∨
    ∃ s0 A c calls outs, WinInv cfg s0 A c s ∧ Balanced s0 calls outs s

section
variable {cfg : ReorderConfig} {s0 : BitVec 32} {A : List Arrival} {c : List (Option Entry)}
  {s t : Reorderer} {op : ReorderOp}

/-! ## One call -/

theorem settled_insert (clk : SteadyClock) {calls outs : Nat} (e : Entry) (h : WinInv cfg s0 A c s)
    (hbal : Balanced s0 calls outs s) :
    Settled cfg (s.insertBody clk e.header e.payload e.payloadSize).1 := by
  obtain ⟨d, hwin, -⟩ := insertBody_inv clk cfg.enableZeroFill 0 e h
  exact .inr ⟨_, _, _, _, _, hwin, insertBody_balance clk e hbal⟩

/-- **Every call keeps the window and its account.** -/
theorem Settled.step (clk : SteadyClock) (op : ReorderOp) (h : Settled cfg s) :
    Settled cfg (s.step clk op).1 := by
  cases h with
  | inl h =>
    obtain ⟨hfresh, hclosed⟩ := h
    cases he : op.entry? with
    | none => exact .inl ⟨(hfresh.step clk he).1, (hclosed.step clk he).1⟩
    | some e =>
      rw [step_insert clk s he]
      exact settled_insert clk e (hfresh.opens _) (hclosed.opens _)
  | inr h =>
    obtain ⟨s0, A, c, calls, outs, hwin, hbal⟩ := h
    have hbal' := step_balance clk op hbal
    by_cases hop : op = .flush
    · subst hop
      exact .inr ⟨_, _, _, _, _, (flush_win hwin).1, hbal'⟩
    · obtain ⟨d, hwin', -⟩ := step_win clk 0 hwin hop
      exact .inr ⟨_, _, _, _, _, hwin', hbal'⟩

theorem settled_run (clk : SteadyClock) (created : Int) (h1 : 1 ≤ cfg.windowSize)
    (h2 : cfg.windowSize < 2 ^ 31) (ops : List ReorderOp) :
    Settled cfg ((Reorderer.new cfg created).run clk ops).1 :=
  Machine.run_inv (fun _ op _ h => h.step clk op)
    (.inl ⟨fresh_new h1 h2 created, unopened_new h1 h2 created⟩)

/-! ## The ring -/

/-- A slot of the window holds the number of its position, and the base holds none. -/
theorem WinInv.placed (h : WinInv cfg s0 A c s) {j : Nat} (hj : j < s.ringSlots.length)
    (hocc : (s.slot j).occupied = true) :
    1 ≤ Circular.ahead s.ringSlots.length s.baseIndex j ∧
      (s.slot j).sequence =
        s.nextExpectedSeq + BitVec.ofNat 32 (Circular.ahead s.ringSlots.length s.baseIndex j) := by
  have hbase : s.baseIndex < s.ringSlots.length := by rw [h.base]; exact Nat.mod_lt _ h.pos
  obtain ⟨d, hd, rfl⟩ := Circular.exists_turn hbase hj
  rw [Circular.ahead_turn hbase hd]
  -- the slot is the one of position `c.length + d`
  have hidx : (s.baseIndex + d) % s.ringSlots.length = (c.length + d) % s.ringSlots.length := by
    rw [h.base, Nat.mod_add_mod]
  rw [hidx] at hocc ⊢
  rcases Nat.eq_zero_or_pos d with rfl | hpos
  · have hfree : (s.slot (c.length % s.ringSlots.length)).occupied = false := h.head.2
    simp [hfree] at hocc
  · have hslot := h.slots (c.length + d) (by omega) (by omega)
    cases hheld : held A (c.length + d) with
    | none =>
      rw [hheld] at hslot
      have hfree : (s.slot ((c.length + d) % s.ringSlots.length)).occupied = false := hslot.2
      simp [hfree] at hocc
    | some e =>
      rw [hheld] at hslot
      have hstored : s.slot ((c.length + d) % s.ringSlots.length) =
        e.stored (s0 + BitVec.ofNat 32 (c.length + d)) := hslot.2
      refine ⟨hpos, ?_⟩
      rw [hstored, h.next, BitVec.add_assoc, ← BitVec.ofNat_add]
      rfl

/-- The window and the buffer give the ring. -/
theorem ringOk_of_win (h : WinInv cfg s0 A c s) (hs : Shelved s) :
    ReorderRingOk (max 1 cfg.windowSize) s := by
  rw [← h.size]
  constructor
  · rfl
  · exact hs.base
  · intro j hj
    rw [hs.marked j hj]
  · intro j hj hocc
    obtain ⟨hpos, hseq⟩ := h.placed hj hocc
    exact ⟨hpos, Nat.mod_lt _ hs.pos, hseq⟩
  · rw [← hs.marked _ hs.base]
    exact h.head_none
  · rw [hs.stock, occupied_eq_range]
    refine List.countP_congr fun j hj => ?_
    rw [hs.marked j (List.mem_range.1 hj)]

theorem ReorderRingOk.congr {n : Nat} (h : ReorderRingOk n s) (hring : t.ringSlots = s.ringSlots)
    (hbits : t.occupancyBitmap = s.occupancyBitmap) (hbase : t.baseIndex = s.baseIndex)
    (hnext : t.nextExpectedSeq = s.nextExpectedSeq)
    (hsize : t.stats.currentBufferSize = s.stats.currentBufferSize) : ReorderRingOk n t := by
  have hslot : t.slot = s.slot := by
    unfold Reorderer.slot
    rw [hring]
  obtain ⟨h1, h2, h3, h4, h5, h6⟩ := h
  constructor
  · rw [hring]; exact h1
  · rw [hbase]; exact h2
  · rw [hbits, hslot]; exact h3
  · rw [hslot, hbase, hnext]; exact h4
  · rw [hslot, hbase]; exact h5
  · rw [hsize, hbits]; exact h6

theorem Settled.ringOk (h : Settled cfg s) : ReorderRingOk (max 1 cfg.windowSize) s := by
  cases h with
  | inl h =>
    -- opened at the number it stands at, the window is the same
    have hopened := h.1.opens s.nextExpectedSeq
    have hclosed : s.initWith s.nextExpectedSeq = { s with initialized := true } := by
      rw [Reorderer.initWith, if_neg (by simp [h.1.uninit])]
    rw [hclosed] at hopened
    exact (ringOk_of_win hopened (h.2.shelved.frame rfl rfl rfl rfl)).congr rfl rfl rfl rfl rfl
  | inr h =>
    obtain ⟨s0, A, c, calls, outs, hwin, hbal⟩ := h
    exact ringOk_of_win hwin hbal.shelved

/-! ## The loop of `advance_window` -/

/-- The loop iterates `takeHead` until an exit, or as long as it has fuel. -/
theorem advanceLoop_iterates (clk : SteadyClock) : ∀ (fuel : Nat) (t : Reorderer),
    ∃ k ≤ fuel, (∀ i < k, ¬ ((Reorderer.takeHead clk)^[i] t).AtExit) ∧
      (Reorderer.advanceLoop clk fuel t).1 = (Reorderer.takeHead clk)^[k] t
  | 0, t => ⟨0, Nat.le_refl 0, by simp, rfl⟩
  | fuel + 1, t => by
    by_cases hexit : t.AtExit
    · refine ⟨0, Nat.zero_le _, by simp, ?_⟩
      unfold Reorderer.advanceLoop
      rcases hexit with hbit | hslot
      · rw [if_pos hbit]
        rfl
      · rw [if_pos hslot]
        split <;> rfl
    · obtain ⟨k, hk, hbefore, hloop⟩ := advanceLoop_iterates clk fuel (t.takeHead clk)
      refine ⟨k + 1, Nat.succ_le_succ hk, ?_, ?_⟩
      · intro i hi
        cases i with
        | zero => exact hexit
        | succ i => exact hbefore i (Nat.lt_of_succ_lt_succ hi)
      · have hbit : ¬ t.occupancyBitmap.test t.baseIndex = false := fun h => hexit (.inl h)
        have hslot : ¬ ((t.slot t.baseIndex).occupied = false ∨
          (t.slot t.baseIndex).sequence ≠ t.nextExpectedSeq) := fun h => hexit (.inr h)
        unfold Reorderer.advanceLoop
        rw [if_neg hbit, if_neg hslot]
        exact hloop

/-- An insert at the awaited number ends with the loop. -/
theorem insert_entersLoop {clk : SteadyClock} {e : Entry} (he : op.entry? = some e)
    (ht : s.entersLoop clk op = some t) :
    t.ringSlots = s.ringSlots ∧ (s.step clk op).1 = (t.advanceWindow clk).1.syncBuffered := by
  simp only [Reorderer.entersLoop, he] at ht
  obtain ⟨hexpected, ht⟩ := Option.ite_none_right_eq_some.1 ht
  obtain rfl := Option.some.inj ht
  refine ⟨?_, ?_⟩
  · show (s.initWith e.header.sequenceNumber).ringSlots = s.ringSlots
    unfold Reorderer.initWith
    split <;> rfl
  · rw [step_insert clk s he, Reorderer.insertBody]
    simp only
    rw [if_pos hexpected]

theorem checkTimeout_entersLoop {clk : SteadyClock} (ht : s.entersLoop clk .checkTimeout = some t) :
    t.ringSlots = s.ringSlots ∧ (s.checkTimeout clk).1 = (t.advanceWindow clk).1.syncBuffered := by
  obtain ⟨hfires, ht⟩ := Option.ite_none_right_eq_some.1 ht
  obtain rfl := Option.some.inj ht
  obtain ⟨hinit, helapsed⟩ := Bool.and_eq_true_iff.1 hfires
  refine ⟨?_, ?_⟩
  · show (if s.config.enableZeroFill then s.countZeroFilled else s).ringSlots = s.ringSlots
    split <;> rfl
  · rw [Reorderer.checkTimeout, if_neg (by simp [hinit]), if_neg (by simp [helapsed])]
    rfl

theorem step_entersLoop {clk : SteadyClock} (ht : s.entersLoop clk op = some t) :
    t.ringSlots = s.ringSlots ∧ (s.step clk op).1 = (t.advanceWindow clk).1.syncBuffered := by
  cases op with
  | insert packet => exact insert_entersLoop rfl ht
  | insertOwned header payload payloadSize => exact insert_entersLoop rfl ht
  | checkTimeout => exact checkTimeout_entersLoop ht
  | flush => exact nomatch ht
  | setTimeoutMs timeoutMs => exact nomatch ht

/-- **The ring invariant.** Between the calls of every run on a window of `n` slots,
`1 ≤ n < 2 ^ 31`: the bitmap marks exactly the occupied slots, an occupied slot is `d` slots ahead
of the base with `1 ≤ d < n` and holds the number `d` after the awaited one, the slot at the base is
free and `current_buffer_size` counts the marks. A call that enters the loop of `advance_window`
leaves it at one of its exits after at most `n` iterations. -/
theorem ring_invariant (clk : SteadyClock) (created : Int) (h1 : 1 ≤ cfg.windowSize)
    (h2 : cfg.windowSize < 2 ^ 31) (ops : List ReorderOp)
    (hrun : ((Reorderer.new cfg created).run clk ops).1 = s) :
    ReorderRingOk cfg.windowSize s ∧
    ∀ op t, s.entersLoop clk op = some t → ∃ k ≤ cfg.windowSize,
      (∀ i < k, ¬ ((Reorderer.takeHead clk)^[i] t).AtExit) ∧
      ((Reorderer.takeHead clk)^[k] t).AtExit ∧
      (s.step clk op).1 = ((Reorderer.takeHead clk)^[k] t).syncBuffered := by
  have hmax : max 1 cfg.windowSize = cfg.windowSize := Nat.max_eq_right h1
  have hsettled : Settled cfg s := hrun ▸ settled_run clk created h1 h2 ops
  have hring : ReorderRingOk cfg.windowSize s := hmax ▸ hsettled.ringOk
  refine ⟨hring, fun op t ht => ?_⟩
  obtain ⟨hslots, hstep⟩ := step_entersLoop ht
  obtain ⟨k, hk, hbefore, hloop⟩ := advanceLoop_iterates clk t.ringSlots.length t
  rw [Reorderer.advanceWindow, hloop] at hstep
  rw [hslots, hring.size] at hk
  refine ⟨k, hk, hbefore, ?_, hstep⟩
  -- the state after the call has a free slot at the base
  have hfree := (hsettled.step clk op).ringOk.headFree
  rw [hstep] at hfree
  exact .inr (.inl hfree)

/-- The packet in the gap that `gapWithRepeat` leaves. -/
def gapCloser : ReorderOp := .insertOwned { sequenceNumber := 2 } none 0

/-- The run of `gapWithRepeat` leaves one packet in the ring, behind a gap; the packet that closes
the gap enters the loop, which has the one behind it to take. -/
theorem gapWithRepeat_ring : ∃ s t,
    ((Reorderer.new { windowSize := 4 } 0).run (fun k => 60000000 * k) gapWithRepeat).1 = s ∧
    ReorderRingOk 4 s ∧ s.stats.currentBufferSize = 1 ∧
    s.entersLoop (fun k => 60000000 * k) gapCloser = some t ∧ ¬ t.AtExit ∧
    ∃ k ≤ 4, ((Reorderer.takeHead fun k => 60000000 * k)^[k] t).AtExit ∧
      (s.step (fun k => 60000000 * k) gapCloser).1 =
        ((Reorderer.takeHead fun k => 60000000 * k)^[k] t).syncBuffered := by
  obtain ⟨hring, hloop⟩ := @ring_invariant { windowSize := 4 } _ (fun k => 60000000 * k) 0
    (by decide)
    (by decide) gapWithRepeat rfl
  have henters : (((Reorderer.new { windowSize := 4 } 0).run (fun k => 60000000 * k)
      gapWithRepeat).1.entersLoop (fun k => 60000000 * k) gapCloser).map
        (fun t => decide t.AtExit) = some false := by
    decide
  obtain ⟨t, ht, htakes⟩ := Option.map_eq_some_iff.1 henters
  obtain ⟨k, hk, -, hexit, hstep⟩ := hloop gapCloser t ht
  exact ⟨_, t, rfl, hring, by decide, ht, of_decide_eq_false htakes, k, hk, hexit, hstep⟩

end

end Qdgz300.Pipeline
