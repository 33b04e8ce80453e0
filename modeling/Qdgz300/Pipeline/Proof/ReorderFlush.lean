import Qdgz300.Pipeline.Proof.ReorderInOrder
import Qdgz300.Pipeline.Proof.ReorderOrigin

/-!
# Flushing the reorder window

`flush` empties the slots and leaves the window where it is, so what follows a flush may hand out
positions before the flushed ones, and the flushed ones again; and it sorts the buffered numbers as
unsigned values, which is their order in the window unless the wrap lies between them.

`Tracked` is a reorderer together with the positions that flushes have handed out, and `Orderly` is
what a call must satisfy for the output to stay in order: it is a condition on the state before the
call and on its argument.

* `flush_win`: a flush keeps the window, without its buffered arrivals.
* **`run_increasing`**: along orderly calls no number is handed out twice or backwards, and a number
  that a flush has handed out is a duplicate afterwards.
* `wrapFlush_backwards`: two buffered numbers on the two sides of the wrap come out in the wrong
  order.
-/

namespace Qdgz300.Pipeline

open Protocol

/-- The positions that `flush` hands out. -/
def Reorderer.pendingPositions (s : Reorderer) : List Nat :=
  s.pending.filterMap fun x => s.position? x.1

/-- A reorderer and the positions that its flushes have handed out. -/
structure Tracked where
  reorderer : Reorderer
  flushed : List Nat

namespace Tracked

/-- The positions handed out by flushes after a call. -/
def flushedAfter (t : Tracked) : ReorderOp → List Nat
  | .flush => t.flushed ++ t.reorderer.pendingPositions
  | _ => t.flushed

def step (clk : SteadyClock) (t : Tracked) (op : ReorderOp) : Tracked × List OrderedPacket :=
  (⟨(t.reorderer.step clk op).1, t.flushedAfter op⟩, (t.reorderer.step clk op).2)

/-- The number `seq` is not one that a flush has handed out and that is still in the window; if it
is the awaited one, the window has passed everything that was flushed. -/
def InsertOrderly (t : Tracked) (seq : BitVec 32) : Prop :=
  ∀ q ∈ t.reorderer.position? seq, q ∉ t.flushed ∧
    (q = t.reorderer.stats.sequencesAdvanced → ∀ f ∈ t.flushed, f < q)

/-- A check that skips the awaited number shows nothing before what was flushed: neither the gap,
with zero-fill, nor the packet buffered behind it. -/
def SkipOrderly (t : Tracked) : Prop :=
  (t.reorderer.config.enableZeroFill = true →
    ∀ f ∈ t.flushed, f < t.reorderer.stats.sequencesAdvanced) ∧
  (t.reorderer.occupancyBitmap.test
      ((t.reorderer.baseIndex + 1) % t.reorderer.ringSlots.length) = true →
    ∀ f ∈ t.flushed, f ≤ t.reorderer.stats.sequencesAdvanced)

/-- The buffered numbers are beyond those flushed before, and their order as unsigned values is that
of their distances. -/
def FlushOrderly (t : Tracked) : Prop :=
  (∀ q ∈ t.reorderer.pendingPositions, ∀ f ∈ t.flushed, f < q) ∧
  ∀ x ∈ t.reorderer.pending, ∀ y ∈ t.reorderer.pending,
    x.1 - t.reorderer.nextExpectedSeq < y.1 - t.reorderer.nextExpectedSeq → x.1 < y.1

/-- What a call needs for the output to stay in order. -/
def Orderly (clk : SteadyClock) (t : Tracked) : ReorderOp → Prop
  | .insert packet => t.InsertOrderly packet.header.sequenceNumber
  | .insertOwned header _ _ => t.InsertOrderly header.sequenceNumber
  | .checkTimeout => t.reorderer.fires clk .checkTimeout = true → t.SkipOrderly
  | .flush => t.FlushOrderly
  | .setTimeoutMs _ => True

instance (t : Tracked) (seq : BitVec 32) : Decidable (t.InsertOrderly seq) :=
  inferInstanceAs (Decidable (∀ q ∈ t.reorderer.position? seq, _))

instance (t : Tracked) : Decidable t.SkipOrderly := inferInstanceAs (Decidable (_ ∧ _))

instance (t : Tracked) : Decidable t.FlushOrderly := inferInstanceAs (Decidable (_ ∧ _))

instance (clk : SteadyClock) (t : Tracked) : ∀ op, Decidable (t.Orderly clk op)
  | .insert packet => inferInstanceAs (Decidable (t.InsertOrderly packet.header.sequenceNumber))
  | .insertOwned header _ _ => inferInstanceAs (Decidable (t.InsertOrderly header.sequenceNumber))
  | .checkTimeout => inferInstanceAs (Decidable (_ → t.SkipOrderly))
  | .flush => inferInstanceAs (Decidable t.FlushOrderly)
  | .setTimeoutMs _ => isTrue trivial

end Tracked

section
variable {cfg : ReorderConfig} {s0 : BitVec 32} {A : List Arrival} {c : List (Option Entry)}
  {s s' : Reorderer} {t : Tracked} {op : ReorderOp} {e : Entry} {clk : SteadyClock}

/-! ## The loop of `flush` -/

/-- `s'` is `s` with the slots `slots` cleared. -/
structure Cleared (slots : List Nat) (s s' : Reorderer) : Prop where
  config : s'.config = s.config
  init : s'.initialized = s.initialized
  size : s'.ringSlots.length = s.ringSlots.length
  words : s'.occupancyBitmap.length = s.occupancyBitmap.length
  next : s'.nextExpectedSeq = s.nextExpectedSeq
  advanced : s'.stats.sequencesAdvanced = s.stats.sequencesAdvanced
  base : s'.baseIndex = s.baseIndex
  cleared : ∀ i ∈ slots, s'.occupancyBitmap.test i = false ∧ (s'.slot i).occupied = false
  kept : ∀ i, i ∉ slots → s'.occupancyBitmap.test i = s.occupancyBitmap.test i ∧
    s'.slot i = s.slot i

theorem slot_clearSlot_self {i : Nat} (hi : i < s.ringSlots.length) :
    ((s.clearSlot i).slot i).occupied = false := by
  unfold Reorderer.clearSlot Reorderer.slot
  rw [Circular.getD_set_self hi]

theorem slot_clearSlot_ne {i j : Nat} (hij : i ≠ j) : (s.clearSlot i).slot j = s.slot j :=
  Circular.getD_set_ne hij

/-- **The loop** clears its slots and hands out the numbers they hold. -/
theorem flushLoop_spec : ∀ (l : List (BitVec 32 × Nat)) (s : Reorderer),
    (∀ x ∈ l, x.2 < s.ringSlots.length ∧ x.2 / 64 < s.occupancyBitmap.length) →
    (∀ x ∈ l, (s.slot x.2).sequence = x.1) → (l.map Prod.snd).Nodup →
    Cleared (l.map Prod.snd) s (Reorderer.flushLoop l s).1 ∧
      (Reorderer.flushLoop l s).2.map (·.sequenceNumber) = l.map Prod.fst := by
  intro l
  induction l with
  | nil =>
    exact fun s _ _ _ => ⟨⟨rfl, rfl, rfl, rfl, rfl, rfl, rfl, nofun, fun _ _ => ⟨rfl, rfl⟩⟩, rfl⟩
  | cons x l ih =>
    intro s hin hseq hnodup
    obtain ⟨hfresh, hnodup⟩ := List.nodup_cons.1 hnodup
    obtain ⟨hx, hw⟩ := hin x List.mem_cons_self
    have hne : ∀ y ∈ l, x.2 ≠ y.2 := fun y hy heq => hfresh (heq ▸ List.mem_map_of_mem hy)
    obtain ⟨hc, hout⟩ := ih (s.clearSlot x.2).countInOrder
      (fun y hy => by
        simpa [Reorderer.clearSlot, Reorderer.countInOrder] using hin y (List.mem_cons_of_mem _ hy))
      (fun y hy => (congrArg StoredPacket.sequence (slot_clearSlot_ne (hne y hy))).trans
        (hseq y (List.mem_cons_of_mem _ hy))) hnodup
    have htest : ∀ j, (s.clearSlot x.2).occupancyBitmap.test j =
        (s.occupancyBitmap.test j && !decide (x.2 = j)) := Bitmap.test_clear hw
    constructor
    · constructor
      · exact hc.config
      · exact hc.init
      · exact hc.size.trans List.length_set
      · exact hc.words.trans (Bitmap.length_clear _ _)
      · exact hc.next
      · exact hc.advanced
      · exact hc.base
      · intro i hi
        by_cases hmem : i ∈ l.map Prod.snd
        · exact hc.cleared i hmem
        · obtain ⟨hbit, hslot⟩ := hc.kept i hmem
          obtain rfl : i = x.2 := (List.mem_cons.1 hi).resolve_right hmem
          refine ⟨hbit.trans ?_, (congrArg StoredPacket.occupied hslot).trans
            (slot_clearSlot_self hx)⟩
          exact (htest x.2).trans (by simp)
      · intro i hi
        obtain ⟨hix, hil⟩ := not_or.1 (mt List.mem_cons.2 hi)
        obtain ⟨hbit, hslot⟩ := hc.kept i hil
        refine ⟨hbit.trans ((htest i).trans (by simp [Ne.symm hix])), hslot.trans ?_⟩
        exact slot_clearSlot_ne (Ne.symm hix)
    · rw [Reorderer.flushLoop, List.map_cons, List.map_cons, hout]
      exact congrArg (· :: _) (hseq x List.mem_cons_self)

theorem flushLoop_length (l : List (BitVec 32 × Nat)) (s : Reorderer) :
    (Reorderer.flushLoop l s).2.length = l.length := by
  induction l generalizing s with
  | nil => rfl
  | cons x l ih => simp only [Reorderer.flushLoop, List.length_cons, ih]

/-- A slot that `flush` hands out. -/
theorem mem_pending {x : BitVec 32 × Nat} : x ∈ s.pending ↔
    x.2 < s.ringSlots.length ∧ s.occupancyBitmap.test x.2 = true ∧ (s.slot x.2).occupied = true ∧
      (s.slot x.2).sequence = x.1 := by
  unfold Reorderer.pending
  rw [List.mem_filterMap]
  constructor
  · rintro ⟨i, hi, hx⟩
    split at hx
    case isTrue h =>
      cases hx
      obtain ⟨hbit, hocc⟩ := Bool.and_eq_true_iff.1 h
      exact ⟨List.mem_range.1 hi, hbit, hocc, rfl⟩
    case isFalse => cases hx
  · rintro ⟨hi, hbit, hocc, hseq⟩
    refine ⟨x.2, List.mem_range.2 hi, ?_⟩
    rw [hbit, hocc, hseq]
    rfl

/-! ## A flush of the window -/

/-- A buffered number is that of its position. -/
theorem WinInv.pending_position (h : WinInv cfg s0 A c s) {x : BitVec 32 × Nat}
    (hx : x ∈ s.pending) : ∃ q, s.position? x.1 = some q ∧ c.length < q ∧
      q < c.length + s.ringSlots.length ∧ q % s.ringSlots.length = x.2 ∧ held A q ≠ none := by
  obtain ⟨hlt, hbit, hocc, hseq⟩ := mem_pending.1 hx
  obtain ⟨q, -, hq1, hq2, hmod⟩ :=
    Circular.exists_last h.pos (Nat.lt_of_lt_of_le hlt (Nat.le_add_left _ c.length))
  rw [Nat.mod_eq_of_lt hlt] at hmod
  have hlow : c.length < q := by
    rcases Nat.lt_or_ge c.length q with hlow | hge
    · exact hlow
    · -- the first slot is empty
      have hhead := h.head.1
      rw [show c.length = q by omega, hmod, hbit] at hhead
      cases hhead
  have hslot := h.slots q hlow hq1
  cases hheld : held A q with
  | none =>
    rw [hheld, SlotOk, hmod, hbit] at hslot
    cases hslot.1
  | some e =>
    rw [hheld, SlotOk, hmod] at hslot
    have hnum : x.1 = s0 + BitVec.ofNat 32 q := by
      rw [← hseq, Reorderer.slot, hslot.2]
      rfl
    refine ⟨q, (h.position?_iff x.1 q).2 ⟨?_, ?_, hnum⟩, hlow, hq1, hmod, ?_⟩
    · rw [h.advanced]
      exact Nat.le_of_lt hlow
    · rw [h.advanced]
      exact hq1
    · rw [hheld]
      exact Option.some_ne_none e

/-- The arrivals of the positions that are consumed. -/
def passed (A : List Arrival) (p : Nat) : List Arrival := A.filter fun a => a.position < p

theorem first_passed (A : List Arrival) (p q : Nat) :
    first (passed A p) q = if q < p then first A q else none := by
  unfold first passed
  rw [List.find?_filter]
  split
  case isTrue hlt =>
    congr 1
    funext a
    by_cases ha : a.position = q <;> simp [ha, hlt]
  case isFalse hge =>
    rw [List.find?_eq_none]
    intro a _ ha
    simp only [Bool.decide_and, Bool.and_eq_true, decide_eq_true_eq, beq_iff_eq] at ha
    omega

/-- A window without its buffered packets. -/
theorem WinInv.cleared (h : WinInv cfg s0 A c s) (hc : Cleared (s.pending.map Prod.snd) s s') :
    WinInv cfg s0 (passed A c.length) c s' := by
  have hempty : ∀ q, c.length ≤ q → q < c.length + s.ringSlots.length →
      SlotOk s'.ringSlots s'.occupancyBitmap s0 q none := by
    intro q h1 h2
    have hlt := Nat.mod_lt q h.pos
    have hslot : ∃ o, SlotOk s.ringSlots s.occupancyBitmap s0 q o := by
      rcases Nat.lt_or_ge c.length q with hlow | hge
      · exact ⟨_, h.slots q hlow h2⟩
      · rw [show q = c.length by omega]
        exact ⟨none, h.head⟩
    rw [SlotOk, hc.size]
    obtain ⟨o, ho⟩ := hslot
    by_cases hmem : q % s.ringSlots.length ∈ s.pending.map Prod.snd
    · exact hc.cleared _ hmem
    · obtain ⟨hbit, hkept⟩ := hc.kept _ hmem
      cases o with
      | none => exact ⟨hbit.trans ho.1, (congrArg StoredPacket.occupied hkept).trans ho.2⟩
      | some e =>
        -- an occupied slot is among those handed out
        refine absurd (List.mem_map.2 ⟨((s.slot (q % s.ringSlots.length)).sequence,
          q % s.ringSlots.length), mem_pending.2 ⟨hlt, ho.1, ?_, rfl⟩, rfl⟩) hmem
        exact (congrArg StoredPacket.occupied ho.2).trans rfl
  have hheld : ∀ q, c.length ≤ q → held (passed A c.length) q = none := by
    intro q hq
    rw [held, first_passed, if_neg (Nat.not_lt.2 hq)]
    rfl
  constructor
  · constructor
    · exact hc.config.trans h.config
    · exact hc.init.trans h.init
    · exact hc.size.trans h.size
    · rw [hc.size]
      exact h.small
    · rw [hc.words, hc.size]
      exact h.words
    · exact hc.next.trans h.next
    · exact hc.advanced.trans h.advanced
    · rw [hc.base, hc.size]
      exact h.base
    · intro a ha
      rw [hc.size]
      exact h.ahead a (List.mem_of_mem_filter ha)
    · intro q hq
      rw [h.past q hq, held, held, first_passed, if_pos hq]
    · have hpos := h.pos
      exact hempty c.length (Nat.le_refl _) (by omega)
    · intro q h1 h2
      rw [hc.size] at h2
      rw [hheld q (Nat.le_of_lt h1)]
      exact hempty q (Nat.le_of_lt h1) h2
  · rw [first_passed, if_neg (Nat.lt_irrefl _)]

/-- The slots in the order in which `flush` hands them out. -/
def Reorderer.flushOrder (s : Reorderer) : List (BitVec 32 × Nat) :=
  s.pending.mergeSort fun a b => decide (a.1 ≤ b.1)

theorem flushOrder_perm (s : Reorderer) : s.flushOrder.Perm s.pending := List.mergeSort_perm _ _

/-- **A flush** empties the window and hands out the numbers it held. -/
theorem flush_win (h : WinInv cfg s0 A c s) :
    WinInv cfg s0 (passed A c.length) c s.flush.1 ∧
      s.flush.2.map (·.sequenceNumber) = s.flushOrder.map Prod.fst := by
  have hperm := flushOrder_perm s
  obtain ⟨hc, hout⟩ := flushLoop_spec s.flushOrder s
    (fun x hx => by
      have hlt := (mem_pending.1 (hperm.subset hx)).1
      have hw := h.word_lt x.2
      rw [Nat.mod_eq_of_lt hlt] at hw
      exact ⟨hlt, hw⟩)
    (fun x hx => (mem_pending.1 (hperm.subset hx)).2.2.2)
    ((hperm.map Prod.snd).nodup_iff.2 (pending_nodup s))
  have hmem : ∀ i, i ∈ s.flushOrder.map Prod.snd ↔ i ∈ s.pending.map Prod.snd :=
    fun i => (hperm.map Prod.snd).mem_iff
  refine ⟨h.cleared ?_, hout⟩
  exact ⟨hc.config, hc.init, hc.size, hc.words, hc.next, hc.advanced, hc.base,
    fun i hi => hc.cleared i ((hmem i).2 hi), fun i hi => hc.kept i (mt (hmem i).1 hi)⟩

theorem flushOrder_sorted (s : Reorderer) :
    s.flushOrder.Pairwise fun a b => a.1 ≤ b.1 ∧ a.2 ≠ b.2 := by
  have hsorted : s.flushOrder.Pairwise fun a b => decide (a.1 ≤ b.1) = true := by
    apply List.pairwise_mergeSort
    · intro a b c hab hbc
      simp only [decide_eq_true_eq] at hab hbc ⊢
      exact BitVec.le_trans hab hbc
    · intro a b
      simp only [Bool.or_eq_true, decide_eq_true_eq]
      exact BitVec.le_total a.1 b.1
  have hnodup := ((flushOrder_perm s).map Prod.snd).nodup_iff.2 (pending_nodup s)
  refine (hsorted.and (List.pairwise_map.1 hnodup)).imp ?_
  rintro a b ⟨hle, hne⟩
  exact ⟨by simpa using hle, hne⟩

/-- The positions of a flush, in the order of its output. -/
theorem flush_positions (h : WinInv cfg s0 A c s)
    (horder : ∀ x ∈ s.pending, ∀ y ∈ s.pending,
      x.1 - s.nextExpectedSeq < y.1 - s.nextExpectedSeq → x.1 < y.1) :
    ∃ d : List Nat, d.Pairwise (· < ·) ∧
      s.flush.2.map (·.sequenceNumber) = d.map (fun q => s0 + BitVec.ofNat 32 q) ∧
      ∀ q ∈ d, q ∈ s.pendingPositions ∧ c.length < q := by
  have hmem : ∀ x ∈ s.flushOrder, x ∈ s.pending := fun x hx => (flushOrder_perm s).subset hx
  refine ⟨s.flushOrder.map fun x => c.length + (x.1 - s.nextExpectedSeq).toNat, ?_, ?_, ?_⟩
  · rw [List.pairwise_map]
    refine (flushOrder_sorted s).imp_of_mem ?_
    rintro x y hx hy ⟨hle, hne⟩
    rcases Nat.lt_trichotomy (x.1 - s.nextExpectedSeq).toNat (y.1 - s.nextExpectedSeq).toNat
      with hlt | heq | hgt
    · omega
    · -- equal numbers are in one slot
      have hxy : x.1 = y.1 := by rw [← h.seq_eq x.1, ← h.seq_eq y.1, heq]
      obtain ⟨q, hq, -, -, hxq, -⟩ := h.pending_position (hmem x hx)
      obtain ⟨r, hr, -, -, hyr, -⟩ := h.pending_position (hmem y hy)
      rw [hxy, hr] at hq
      cases hq
      exact absurd (hxq.symm.trans hyr) hne
    · have := horder y (hmem y hy) x (hmem x hx) (BitVec.lt_def.2 hgt)
      exact absurd hle (BitVec.not_le.2 this)
  · rw [(flush_win h).2, List.map_map]
    exact List.map_congr_left fun x _ => (h.seq_eq x.1).symm
  · intro q hq
    obtain ⟨x, hx, rfl⟩ := List.mem_map.1 hq
    obtain ⟨r, hr, hlow, -⟩ := h.pending_position (hmem x hx)
    have hr' := hr
    rw [h.position?] at hr'
    split at hr'
    · cases hr'
      exact ⟨List.mem_filterMap.2 ⟨x, hmem x hx, hr⟩, hlow⟩
    · cases hr'

/-! ## What is delivered -/

/-- The output so far, position by position: the window is at `p`, and flushes have handed out
`flushed`. -/
structure Delivered (s0 : BitVec 32) (p : Nat) (flushed : List Nat) (out : List OrderedPacket)
    (d : List Nat) : Prop where
  increasing : d.Pairwise (· < ·)
  numbers : out.map (·.sequenceNumber) = d.map fun q => s0 + BitVec.ofNat 32 q
  behind : ∀ q ∈ d, q < p ∨ ∃ f ∈ flushed, q ≤ f

theorem Delivered.append {p p' : Nat} {flushed flushed' d d' : List Nat}
    {out out' : List OrderedPacket}
    (h : Delivered s0 p flushed out d) (hp : p ≤ p') (hflushed : flushed ⊆ flushed')
    (hincreasing : d'.Pairwise (· < ·))
    (hnumbers : out'.map (·.sequenceNumber) = d'.map fun q => s0 + BitVec.ofNat 32 q)
    (hnew : ∀ q ∈ d', p ≤ q ∧ ∀ f ∈ flushed, f < q)
    (hbehind : ∀ q ∈ d', q < p' ∨ ∃ f ∈ flushed', q ≤ f) :
    Delivered s0 p' flushed' (out ++ out') (d ++ d') := by
  constructor
  · refine List.pairwise_append.2 ⟨h.increasing, hincreasing, fun q hq r hr => ?_⟩
    obtain ⟨hpr, hfr⟩ := hnew r hr
    rcases h.behind q hq with hqp | ⟨f, hf, hqf⟩
    · omega
    · have := hfr f hf
      omega
  · rw [List.map_append, List.map_append, h.numbers, hnumbers]
  · intro q hq
    rcases List.mem_append.1 hq with hq | hq
    · rcases h.behind q hq with hqp | ⟨f, hf, hqf⟩
      · exact .inl (Nat.lt_of_lt_of_le hqp hp)
      · exact .inr ⟨f, hflushed hf, hqf⟩
    · exact hbehind q hq

theorem render_numbers (zf : Bool) (s0 : BitVec 32) : ∀ (c : List (Option Entry)) (i : Nat),
    (render zf s0 i c).map (·.sequenceNumber) = (shown zf i c).map fun q => s0 + BitVec.ofNat 32 q
  | [], _ => rfl
  | some e :: c, i => by
    rw [render, shown, List.map_cons, List.map_cons, render_numbers zf s0 c (i + 1)]
    rfl
  | none :: c, i => by
    rw [render, shown, List.map_append, render_numbers zf s0 c (i + 1)]
    cases zf <;> rfl

theorem insertBody_silent (clk : SteadyClock) (e : Entry)
    (hne : e.header.sequenceNumber ≠ s.nextExpectedSeq) :
    (s.insertBody clk e.header e.payload e.payloadSize).2 = [] := by
  unfold Reorderer.insertBody
  simp only
  rw [if_neg hne]
  split
  · rfl
  · split
    · rfl
    · split <;> rfl

theorem skipExpected_silent (clk : SteadyClock) (h : WinInv cfg s0 A c s)
    (hzf : s.config.enableZeroFill = false)
    (hbit : s.occupancyBitmap.test ((s.baseIndex + 1) % s.ringSlots.length) = false) :
    (s.skipExpected clk).2 = [] := by
  unfold Reorderer.skipExpected
  simp only [hzf, Bool.false_eq_true, if_false, List.nil_append]
  unfold Reorderer.advanceWindow
  obtain ⟨n, hn⟩ := Nat.exists_eq_succ_of_ne_zero (Nat.ne_of_gt h.pos)
  have hfuel : (Reorderer.advanceNow clk s).ringSlots.length = n + 1 := hn
  rw [hfuel, Reorderer.advanceLoop, if_pos]
  exact hbit

/-! ## One call -/

theorem shown_of_silent {zf : Bool} {d : List (Option Entry)} {i : Nat} {out : List OrderedPacket}
    (hout : out = render zf s0 i d) (hsilent : out = []) : shown zf i d = [] := by
  have hmap := render_numbers zf s0 d i
  rw [← hout, hsilent] at hmap
  exact List.map_eq_nil_iff.1 hmap.symm

theorem insert_beyond (clk : SteadyClock) (h : WinInv cfg s0 A c t.reorderer)
    (he : op.entry? = some e) (hok : t.InsertOrderly e.header.sequenceNumber) :
    ∃ d, WinInv cfg s0 (A ++ t.reorderer.arrivalOf 0 op) (c ++ d) (t.reorderer.step clk op).1 ∧
      (t.reorderer.step clk op).2 = render cfg.enableZeroFill s0 c.length d ∧
      ∀ q ∈ shown cfg.enableZeroFill c.length d, ∀ f ∈ t.flushed, f < q := by
  have hop : op ≠ .flush := by
    rintro rfl
    cases he
  obtain ⟨d, hd, hout⟩ := step_win clk 0 h hop
  refine ⟨d, hd, hout, fun q hq f hf => ?_⟩
  by_cases heq : e.header.sequenceNumber = t.reorderer.nextExpectedSeq
  · -- the awaited number: everything it releases is at or after its position
    have hpos : t.reorderer.position? e.header.sequenceNumber =
        some t.reorderer.stats.sequencesAdvanced := by
      rw [h.position?, heq, BitVec.sub_self, if_pos (by simpa using h.pos), h.advanced]
      rfl
    have hflushed := (hok _ hpos).2 rfl f hf
    have hlow := (shown_bounds _ d _ q hq).1
    rw [h.advanced] at hflushed
    omega
  · have hsilent : (t.reorderer.step clk op).2 = [] := by
      rw [step_insert clk _ he, Reorderer.initWith, if_pos h.init]
      exact insertBody_silent clk e heq
    rw [shown_of_silent hout hsilent] at hq
    cases hq

theorem check_beyond (h : WinInv cfg s0 A c t.reorderer) (hok : t.Orderly clk .checkTimeout) :
    ∃ d, WinInv cfg s0 A (c ++ d) (t.reorderer.checkTimeout clk).1 ∧
      (t.reorderer.checkTimeout clk).2 = render cfg.enableZeroFill s0 c.length d ∧
      ∀ q ∈ shown cfg.enableZeroFill c.length d, ∀ f ∈ t.flushed, f < q := by
  obtain ⟨d, hd, hout⟩ := checkTimeout_inv clk h
  refine ⟨d, hd, hout, fun q hq f hf => ?_⟩
  have hlow := (shown_bounds _ d _ q hq).1
  cases helapsed : t.reorderer.timeoutElapsed clk with
  | false =>
    have hsilent : (t.reorderer.checkTimeout clk).2 = [] := by
      rw [Reorderer.checkTimeout, if_neg (by simp [h.init]), if_pos helapsed]
    rw [shown_of_silent hout hsilent] at hq
    cases hq
  | true =>
    have hskip : t.SkipOrderly := hok (by simp [Reorderer.fires, h.init, helapsed])
    rw [Tracked.SkipOrderly, h.advanced, h.config] at hskip
    cases hzf : cfg.enableZeroFill with
    | true =>
      have := hskip.1 hzf f hf
      omega
    | false =>
      cases hbit : t.reorderer.occupancyBitmap.test
          ((t.reorderer.baseIndex + 1) % t.reorderer.ringSlots.length) with
      | true =>
        have hf := hskip.2 hbit f hf
        -- the skipped position is not shown
        have hne : q ≠ c.length := by
          rintro rfl
          rw [hzf] at hq
          refine shown_filled (held A) d c.length (fun i hi => ?_) c.length hq ?_
          · rw [← hd.past (c.length + i) (by rw [List.length_append]; omega),
              List.getElem?_append_right (Nat.le_add_right _ _), Nat.add_sub_cancel_left]
          · rw [held, h.awaited]
            rfl
        omega
      | false =>
        have hsilent : (t.reorderer.checkTimeout clk).2 = [] := by
          rw [Reorderer.checkTimeout, if_neg (by simp [h.init]), if_neg (by simp [helapsed])]
          exact skipExpected_silent clk h (h.config ▸ hzf) hbit
        rw [shown_of_silent hout hsilent] at hq
        cases hq

/-- The output of a run of a tracked reorderer: the window, the flushed positions and what was
delivered. -/
def Ordered (cfg : ReorderConfig) (s0 : BitVec 32) (t : Tracked)
    (out : List OrderedPacket) : Prop :=
  ∃ A c d, WinInv cfg s0 A c t.reorderer ∧
    (∀ f ∈ t.flushed, f < c.length + t.reorderer.ringSlots.length) ∧
    Delivered s0 c.length t.flushed out d

/-- A call other than `flush`, once it shows nothing before what was flushed. -/
theorem Ordered.advance {out : List OrderedPacket} {A' : List Arrival} {d' : List (Option Entry)}
    {d : List Nat} (h : WinInv cfg s0 A c t.reorderer)
    (hreach : ∀ f ∈ t.flushed, f < c.length + t.reorderer.ringSlots.length)
    (hout : Delivered s0 c.length t.flushed out d) (hop : op ≠ .flush)
    (h' : WinInv cfg s0 A' (c ++ d') (t.reorderer.step clk op).1)
    (hrender : (t.reorderer.step clk op).2 = render cfg.enableZeroFill s0 c.length d')
    (hnew : ∀ q ∈ shown cfg.enableZeroFill c.length d', ∀ f ∈ t.flushed, f < q) :
    Ordered cfg s0 (t.step clk op).1 (out ++ (t.step clk op).2) := by
  have hflushed : t.flushedAfter op = t.flushed := by
    cases op with
    | flush => exact absurd rfl hop
    | _ => rfl
  have hsize : (t.reorderer.step clk op).1.ringSlots.length = t.reorderer.ringSlots.length :=
    h'.size.trans h.size.symm
  refine ⟨A', c ++ d', d ++ shown cfg.enableZeroFill c.length d', h', ?_, ?_⟩
  · intro f hf
    have := hreach f (hflushed ▸ hf)
    simp only [Tracked.step, hsize, List.length_append]
    omega
  · simp only [Tracked.step, hflushed, List.length_append]
    refine hout.append (Nat.le_add_right _ _) (List.Subset.refl _) (shown_pairwise _ _ _) ?_ ?_ ?_
    · rw [hrender, render_numbers]
    · exact fun q hq => ⟨(shown_bounds _ _ _ q hq).1, hnew q hq⟩
    · exact fun q hq => .inl (shown_bounds _ _ _ q hq).2

/-- **One orderly call.** -/
theorem Ordered.step {out : List OrderedPacket} (h : Ordered cfg s0 t out)
    (hok : t.Orderly clk op) : Ordered cfg s0 (t.step clk op).1 (out ++ (t.step clk op).2) := by
  obtain ⟨A, c, d, hwin, hreach, hd⟩ := h
  cases op with
  | insert packet =>
    have he : ReorderOp.entry? (.insert packet) = some _ := rfl
    obtain ⟨d', hd', hout, hnew⟩ := insert_beyond clk hwin he hok
    exact .advance hwin hreach hd nofun hd' hout hnew
  | insertOwned header payload payloadSize =>
    have he : ReorderOp.entry? (.insertOwned header payload payloadSize) = some _ := rfl
    obtain ⟨d', hd', hout, hnew⟩ := insert_beyond clk hwin he hok
    exact .advance hwin hreach hd nofun hd' hout hnew
  | checkTimeout =>
    obtain ⟨d', hd', hout, hnew⟩ := check_beyond hwin hok
    exact .advance hwin hreach hd nofun hd' hout hnew
  | setTimeoutMs timeoutMs =>
    have hwin' : WinInv cfg s0 A (c ++ []) (t.reorderer.setTimeoutMs timeoutMs) := by
      rw [List.append_nil]
      exact hwin.frame rfl rfl rfl rfl rfl rfl rfl
    exact .advance hwin hreach hd nofun hwin' rfl nofun
  | flush =>
    obtain ⟨hbeyond, horder⟩ := hok
    obtain ⟨hwin', -⟩ := flush_win hwin
    obtain ⟨d', hincreasing, hnumbers, hmem⟩ := flush_positions hwin horder
    have hsize : t.reorderer.flush.1.ringSlots.length = t.reorderer.ringSlots.length :=
      hwin'.size.trans hwin.size.symm
    refine ⟨_, c, d ++ d', hwin', fun f hf => ?_, ?_⟩
    · simp only [Tracked.step, Reorderer.step, hsize]
      rcases List.mem_append.1 hf with hf | hf
      · exact hreach f hf
      · obtain ⟨x, hx, hf⟩ := List.mem_filterMap.1 hf
        obtain ⟨q, hq, -, hlt, -⟩ := hwin.pending_position hx
        rw [hq] at hf
        cases hf
        exact hlt
    · refine hd.append (Nat.le_refl _) (List.subset_append_left _ _) hincreasing hnumbers ?_ ?_
      · exact fun q hq => ⟨Nat.le_of_lt (hmem q hq).2, hbeyond q (hmem q hq).1⟩
      · exact fun q hq => .inr ⟨q, List.mem_append_right _ (hmem q hq).1, Nat.le_refl _⟩

/-! ## Runs -/

theorem Fresh.pending (h : Fresh cfg s) : s.pending = [] := by
  rw [List.eq_nil_iff_forall_not_mem]
  intro x hx
  have hsame : (s.initWith 0).pending = s.pending := by
    unfold Reorderer.initWith
    split <;> rfl
  obtain ⟨q, -, -, -, -, hheld⟩ := (h.opens 0).pending_position (hsame ▸ hx)
  exact hheld rfl

/-- A call before the first insert. -/
theorem Fresh.step (clk : SteadyClock) (h : Fresh cfg s) (he : op.entry? = none) :
    Fresh cfg (s.step clk op).1 ∧ (s.step clk op).2 = [] := by
  by_cases hop : op = .flush
  · subst hop
    have hflush : s.flush =
        ({ s with stats := { s.stats with currentBufferSize := 0 }, bufferedPackets := 0 }, []) := by
      rw [Reorderer.flush, h.pending, List.mergeSort_nil, Reorderer.flushLoop]
    rw [Reorderer.step, hflush]
    refine ⟨⟨h.uninit, fun seq => (h.opens seq).frame ?_ ?_ ?_ ?_ ?_ ?_ ?_⟩, rfl⟩
    all_goals
      unfold Reorderer.initWith
      simp only [h.uninit, Bool.false_eq_true, if_false]
  · exact step_fresh clk h hop he

theorem run_fresh_flush (clk : SteadyClock) : ∀ (ops : List ReorderOp)
    (s : Reorderer), Fresh cfg s →
    firstSeq ops = none → Fresh cfg (s.run clk ops).1
  | [], _, h, _ => h
  | op :: ops, s, h, h0 => by
    have he : op.entry? = none := by
      cases he : op.entry? with
      | none => rfl
      | some e => simp [firstSeq, he] at h0
    exact run_fresh_flush clk ops _ (h.step clk he).1 (by simpa [firstSeq, he] using h0)

theorem run_tracked (clk : SteadyClock) : ∀ (ops : List ReorderOp) (t : Tracked),
    (Machine.run (Tracked.step clk) t ops).1.reorderer = (t.reorderer.run clk ops).1 ∧
      (Machine.run (Tracked.step clk) t ops).2 = (t.reorderer.run clk ops).2
  | [], _ => ⟨rfl, rfl⟩
  | op :: ops, t => by
    obtain ⟨hstate, hout⟩ := run_tracked clk ops (t.step clk op).1
    exact ⟨hstate, congrArg ((t.reorderer.step clk op).2 ++ ·) hout⟩

/-- **A run of orderly calls**, from its first insert on. -/
theorem run_ordered (clk : SteadyClock) : ∀ (ops : List ReorderOp) (s : Reorderer), Fresh cfg s →
    firstSeq ops = some s0 → Machine.RunAlong (Tracked.step clk) (Tracked.Orderly clk) ⟨s, []⟩ ops →
    Ordered cfg s0 (Machine.run (Tracked.step clk) ⟨s, []⟩ ops).1 (s.run clk ops).2 := by
  intro ops
  induction ops with
  | nil =>
    intro s _ h0
    cases h0
  | cons op ops ih =>
    intro s hfresh h0 hok
    cases he : op.entry? with
    | none =>
      obtain ⟨hfresh', hsilent⟩ := hfresh.step clk he
      have hflushed : (Tracked.step clk ⟨s, []⟩ op).1 = ⟨(s.step clk op).1, []⟩ := by
        cases op with
        | flush =>
          simp only [Tracked.step, Tracked.flushedAfter, Reorderer.pendingPositions, hfresh.pending,
            List.filterMap_nil, List.append_nil]
        | _ => rfl
      have hrest := ih _ hfresh' (by simpa [firstSeq, he] using h0) (hflushed ▸ hok.2)
      have hout : (s.run clk (op :: ops)).2 = ((s.step clk op).1.run clk ops).2 := by
        rw [Reorderer.run, Machine.run, hsilent, List.nil_append, Reorderer.run]
      rw [hout, Machine.run, hflushed]
      exact hrest
    | some e =>
      have hseq : e.header.sequenceNumber = s0 := by simpa [firstSeq, he] using h0
      have hopen : Ordered cfg s0 ⟨s.initWith s0, []⟩ [] :=
        ⟨[], [], [], hfresh.opens s0, fun _ h => absurd h List.not_mem_nil,
          ⟨List.Pairwise.nil, rfl, fun _ h => absurd h List.not_mem_nil⟩⟩
      have hsame : (Tracked.step clk ⟨s.initWith s0, []⟩ op) = Tracked.step clk ⟨s, []⟩ op := by
        have hop : op ≠ .flush := by
          rintro rfl
          cases he
        have hstep : (s.initWith s0).step clk op = s.step clk op := by
          rw [step_insert clk _ he, step_insert clk _ he, hseq, initWith_idem]
        unfold Tracked.step
        rw [hstep]
        cases op with
        | flush => exact absurd rfl hop
        | _ => rfl
      have hfirst : Tracked.Orderly clk ⟨s.initWith s0, []⟩ op := by
        cases op with
        | insert packet =>
          exact fun q _ => ⟨List.not_mem_nil, fun _ _ h => absurd h List.not_mem_nil⟩
        | insertOwned header payload payloadSize =>
          exact fun q _ => ⟨List.not_mem_nil, fun _ _ h => absurd h List.not_mem_nil⟩
        | _ => cases he
      have hstep := hopen.step hfirst
      rw [hsame] at hstep
      have hrun := Machine.runAlong_inv (Tracked.step clk) (I := Ordered cfg s0)
        (fun t out i h hC => h.step hC) _ hstep hok.2
      rw [(run_tracked clk ops _).2] at hrun
      exact hrun

/-- The window only moves forward. -/
theorem run_advanced (clk : SteadyClock) : ∀ (ops : List ReorderOp) (A : List Arrival)
    (c : List (Option Entry)) (s : Reorderer), WinInv cfg s0 A c s →
    s.stats.sequencesAdvanced ≤ (s.run clk ops).1.stats.sequencesAdvanced := by
  intro ops
  induction ops with
  | nil => exact fun A c s h => Nat.le_refl _
  | cons op ops ih =>
    intro A c s h
    by_cases hop : op = .flush
    · subst hop
      obtain ⟨h', -⟩ := flush_win h
      have hrest := ih _ _ _ h'
      rw [h'.advanced] at hrest
      rw [h.advanced]
      exact hrest
    · obtain ⟨d, h', -⟩ := step_win clk 0 h hop
      have hrest := ih _ _ _ h'
      rw [h'.advanced, List.length_append] at hrest
      rw [h.advanced]
      exact Nat.le_trans (Nat.le_add_right _ _) hrest

/-- A number that a flush has handed out is a duplicate. -/
theorem Ordered.duplicate (clk : SteadyClock) {out : List OrderedPacket} (h : Ordered cfg s0 t out)
    (hspan : t.reorderer.stats.sequencesAdvanced ≤ 2 ^ 31) (he : op.entry? = some e)
    (hok : t.InsertOrderly e.header.sequenceNumber) {f : Nat} (hf : f ∈ t.flushed)
    (hseq : e.header.sequenceNumber = s0 + BitVec.ofNat 32 f) :
    t.reorderer.step clk op = (t.reorderer.countDuplicate, []) := by
  obtain ⟨A, c, d, hwin, hreach, -⟩ := h
  have hpast : f < c.length := by
    by_contra hge
    have hpos : t.reorderer.position? e.header.sequenceNumber = some f := by
      refine (hwin.position?_iff _ f).2 ⟨?_, ?_, hseq⟩
      · rw [hwin.advanced]
        exact Nat.le_of_not_lt hge
      · rw [hwin.advanced]
        exact hreach f hf
    exact (hok f hpos).1 hf
  rw [step_insert clk _ he, Reorderer.initWith, if_pos hwin.init]
  rw [hwin.advanced] at hspan
  exact insertBody_late clk hwin.next hpast (by omega) hseq

theorem flush_recorded (clk : SteadyClock) {out : List OrderedPacket} (h : Ordered cfg s0 t out)
    {p : OrderedPacket} (hp : p ∈ t.reorderer.flush.2) :
    ∃ f ∈ (t.step clk .flush).1.flushed, p.sequenceNumber = s0 + BitVec.ofNat 32 f := by
  obtain ⟨A, c, d, hwin, -⟩ := h
  have hmem : p.sequenceNumber ∈ t.reorderer.flushOrder.map Prod.fst :=
    (flush_win hwin).2 ▸ List.mem_map_of_mem hp
  obtain ⟨x, hx, hnum⟩ := List.mem_map.1 hmem
  have hx := (flushOrder_perm _).subset hx
  obtain ⟨q, hq, -⟩ := hwin.pending_position hx
  refine ⟨q, List.mem_append_right _ (List.mem_filterMap.2 ⟨x, hx, hq⟩), ?_⟩
  rw [← hnum]
  exact ((hwin.position?_iff _ q).1 hq).2.2

theorem flushed_mono (clk : SteadyClock) : ∀ (ops : List ReorderOp) (t : Tracked),
    t.flushed ⊆ (Machine.run (Tracked.step clk) t ops).1.flushed
  | [], _ => List.Subset.refl _
  | op :: ops, t => by
    have hstep : t.flushed ⊆ (t.step clk op).1.flushed := by
      cases op with
      | flush => exact List.subset_append_left _ _
      | _ => exact List.Subset.refl _
    exact List.Subset.trans hstep (flushed_mono clk ops _)

/-- The distance of a packet from the first inserted number. -/
def OrderedPacket.distance (s0 : BitVec 32) (p : OrderedPacket) :
    Nat := (p.sequenceNumber - s0).toNat

/-- The distances of what was delivered are its positions, as long as these do not wrap. -/
theorem Delivered.distances {p : Nat} {flushed d : List Nat} {out : List OrderedPacket}
    (h : Delivered s0 p flushed out d) (hp : p ≤ 2 ^ 31) (hf : ∀ f ∈ flushed, f < 2 ^ 32) :
    out.map (OrderedPacket.distance s0) = d := by
  calc out.map (OrderedPacket.distance s0)
      = (out.map (·.sequenceNumber)).map fun x => (x - s0).toNat := by rw [List.map_map]; rfl
    _ = d.map fun q => (s0 + BitVec.ofNat 32 q - s0).toNat := by rw [h.numbers, List.map_map]; rfl
    _ = d.map id := by
      refine List.map_congr_left fun q hq => ?_
      have hq : q < 2 ^ 32 := by
        rcases h.behind q hq with hlt | ⟨f, hmem, hle⟩
        · omega
        · exact Nat.lt_of_le_of_lt hle (hf f hmem)
      rw [BitVec.add_comm, BitVec.add_sub_cancel, BitVec.toNat_ofNat, Nat.mod_eq_of_lt hq, id_eq]
    _ = d := List.map_id d

/-- **No number is handed out twice or backwards** along orderly calls: the distances of the output
from the first inserted number strictly increase, and an insert of a number that a flush has handed
out is a duplicate. -/
theorem run_increasing {ops : List ReorderOp} (clk : SteadyClock) (created : Int)
    (h1 : 1 ≤ cfg.windowSize) (h2 : cfg.windowSize < 2 ^ 31) (h0 : firstSeq ops = some s0)
    (hspan : ((Reorderer.new cfg created).run clk ops).1.stats.sequencesAdvanced ≤ 2 ^ 31)
    (hok : Machine.RunAlong (Tracked.step clk) (Tracked.Orderly clk)
      ⟨Reorderer.new cfg created, []⟩ ops) :
    (((Reorderer.new cfg created).run clk ops).2.map (OrderedPacket.distance s0)).Pairwise (· < ·) ∧
    ∀ pre mid post op e p, ops = (pre ++ .flush :: mid) ++ op :: post →
      p ∈ ((Reorderer.new cfg created).run clk pre).1.flush.2 →
      op.entry? = some e → e.header.sequenceNumber = p.sequenceNumber →
      ((Reorderer.new cfg created).run clk (pre ++ .flush :: mid)).1.step clk op =
        (((Reorderer.new cfg created).run clk (pre ++ .flush :: mid)).1.countDuplicate, []) := by
  have hfresh := fresh_new h1 h2 created
  constructor
  · obtain ⟨A, c, d, hwin, hreach, hd⟩ := run_ordered clk ops _ hfresh h0 hok
    have hsmall := hwin.small
    have hstate := (run_tracked clk ops ⟨Reorderer.new cfg created, []⟩).1
    have hp : c.length ≤ 2 ^ 31 := by
      rw [← hwin.advanced, hstate]
      exact hspan
    rw [hd.distances hp fun f hf => by have := hreach f hf; omega]
    exact hd.increasing
  · rintro pre mid post op e p rfl hp he hnum
    rw [Machine.runAlong_append, Machine.runAlong_append] at hok
    obtain ⟨⟨hpre, hflush, hmid⟩, hop, -⟩ := hok
    -- a flush before the first insert hands out nothing
    have hfirst : firstSeq pre = some s0 := by
      cases hnone : firstSeq pre with
      | some x => rw [firstSeq_append, firstSeq_append, hnone] at h0; exact h0
      | none =>
        have hempty := (run_fresh_flush clk pre _ hfresh hnone).pending
        rw [Reorderer.flush, hempty, List.mergeSort_nil, Reorderer.flushLoop] at hp
        cases hp
    have hbefore := run_ordered clk pre _ hfresh hfirst hpre
    rw [← (run_tracked clk pre ⟨Reorderer.new cfg created, []⟩).1] at hp
    obtain ⟨f, hf, hpf⟩ := flush_recorded clk hbefore hp
    have hat : Ordered cfg s0 (Machine.run (Tracked.step clk) ⟨Reorderer.new cfg created, []⟩
        (pre ++ .flush :: mid)).1
          ((Reorderer.new cfg created).run clk (pre ++ .flush :: mid)).2 := by
      apply run_ordered clk _ _ hfresh
      · rw [firstSeq_append, hfirst]
        rfl
      · rw [Machine.runAlong_append]
        exact ⟨hpre, hflush, hmid⟩
    have hstate := (run_tracked clk (pre ++ .flush :: mid) ⟨Reorderer.new cfg created, []⟩).1
    have hf' : f ∈ (Machine.run (Tracked.step clk) ⟨Reorderer.new cfg created, []⟩
        (pre ++ .flush :: mid)).1.flushed := by
      rw [Machine.run_append]
      exact flushed_mono clk mid _ hf
    have hle : ((Reorderer.new cfg created).run clk (pre ++ .flush :: mid)).1.stats.sequencesAdvanced
        ≤ 2 ^ 31 := by
      obtain ⟨A, c, d, hwin, -⟩ := hat
      have hmono := run_advanced clk (op :: post) A c _ (hstate ▸ hwin)
      rw [Reorderer.run, Machine.run_append] at hspan
      exact Nat.le_trans hmono hspan
    rw [← hstate] at hle ⊢
    refine hat.duplicate clk hle he ?_ hf' (hnum.trans hpf)
    cases op with
    | insert packet => cases he; exact hop
    | insertOwned header payload payloadSize => cases he; exact hop
    | _ => cases he

end

/-- Two flushes and an insert of the awaited number between them, past what was flushed. -/
def flushTwice : List ReorderOp :=
  [.insertOwned { sequenceNumber := 5 } none 0, .insertOwned { sequenceNumber := 7 } (some [7]) 1, .flush,
    .checkTimeout, .checkTimeout, .insertOwned { sequenceNumber := 8 } none 0,
    .insertOwned { sequenceNumber := 10 } none 0, .flush]

theorem flushTwice_increasing :
    (((Reorderer.new { windowSize := 4, enableZeroFill := false } 0).run (fun k => 60000000 * k)
      flushTwice).2.map (OrderedPacket.distance 5)) = [0, 2, 3, 5] ∧
    (((Reorderer.new { windowSize := 4, enableZeroFill := false } 0).run (fun k => 60000000 * k)
      flushTwice).2.map (OrderedPacket.distance 5)).Pairwise (· < ·) :=
  ⟨by decide +kernel, (run_increasing (fun k => 60000000 * k) 0 (by decide) (by decide) rfl
    (by decide +kernel) (by decide +kernel)).1⟩

/-- After the number `0xFFFFFFFD`, the numbers `0xFFFFFFFF` and `1` are buffered. -/
def acrossWrap : List ReorderOp :=
  [.insertOwned { sequenceNumber := 0xFFFFFFFD } none 0,
    .insertOwned { sequenceNumber := 0xFFFFFFFF } none 0,
    .insertOwned { sequenceNumber := 1 } none 0]

/-- The flush that follows hands out `1` before `0xFFFFFFFF`, in a window of the default size. -/
theorem wrapFlush_backwards :
    firstSeq (acrossWrap ++ [.flush]) = some 0xFFFFFFFD ∧
    ((Reorderer.new {} 0).run (fun _ => 0) (acrossWrap ++ [.flush])).1.stats.sequencesAdvanced = 1 ∧
    ¬ (((Reorderer.new {} 0).run (fun _ => 0) (acrossWrap ++ [.flush])).2.map
      (OrderedPacket.distance 0xFFFFFFFD)).Pairwise (· < ·) := by
  have hsort : ((Reorderer.new {} 0).run (fun _ => 0) acrossWrap).1.flushOrder =
      [(1, 4), (0xFFFFFFFF, 2)] := by
    have hpending : ((Reorderer.new {} 0).run (fun _ => 0) acrossWrap).1.pending =
        [(0xFFFFFFFF, 2), (1, 4)] := by decide +kernel
    rw [Reorderer.flushOrder, hpending]
    simp [List.mergeSort]
  have hflush : (Reorderer.new {} 0).run (fun _ => 0) (acrossWrap ++ [.flush]) =
      ((((Reorderer.new {} 0).run (fun _ => 0) acrossWrap).1.flush).1,
        ((Reorderer.new {} 0).run (fun _ => 0) acrossWrap).2 ++
          (((Reorderer.new {} 0).run (fun _ => 0) acrossWrap).1.flush).2) := by
    rw [Reorderer.run, Machine.run_append]
    simp only [Machine.run, Reorderer.step, List.append_nil]
    rfl
  rw [Reorderer.flushOrder] at hsort
  rw [hflush, Reorderer.flush, hsort]
  decide +kernel

end Qdgz300.Pipeline
