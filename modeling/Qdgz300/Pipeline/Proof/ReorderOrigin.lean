import Qdgz300.Pipeline.Proof.ReorderStream

/-!
# Where the packets of the reorderer come from

`Stocked E s`: every occupied slot buffers one of the inserts `E`, under its own sequence number.
The window, the timeout scan and `flush` then hand out inserts as they came, whatever the order of
the calls.

* **`run_origin`**: every packet of a run is zero-filled, or carries one of its inserts.
* **`step_zeroFilled`**: the zero-filled ones come from `check_timeout`, for the number expected
  next.
-/

namespace Qdgz300.Pipeline

open Protocol

/-- A packet is zero-filled, or carries one of the inserts `E`. -/
def Origin (E : List Entry) (p : OrderedPacket) : Prop :=
  p.isZeroFilled = true ∨ ∃ e ∈ E, p = e.packet e.header.sequenceNumber

/-- The occupied slots buffer inserts of `E`. -/
def Stocked (E : List Entry) (s : Reorderer) : Prop :=
  ∀ i, (s.slot i).occupied = true → ∃ e ∈ E, s.slot i = e.stored e.header.sequenceNumber

section
variable {E F : List Entry} {s s' : Reorderer} {op : ReorderOp} {p : OrderedPacket}

theorem Origin.mono (h : Origin E p) (hsub : E ⊆ F) : Origin F p := by
  rcases h with h | ⟨e, he, hp⟩
  · exact .inl h
  · exact .inr ⟨e, hsub he, hp⟩

theorem Stocked.mono (h : Stocked E s) (hsub : E ⊆ F) : Stocked F s := by
  intro i hi
  obtain ⟨e, he, hslot⟩ := h i hi
  exact ⟨e, hsub he, hslot⟩

theorem Stocked.frame (h : Stocked E s) (hring : s'.ringSlots = s.ringSlots) : Stocked E s' := by
  intro i hi
  rw [Reorderer.slot, hring] at hi ⊢
  exact h i hi

theorem stocked_new (cfg : ReorderConfig) (created : Int) :
    Stocked [] (Reorderer.new cfg created) := by
  intro i hi
  rw [Reorderer.slot, Reorderer.new, List.getD_eq_getElem?_getD, List.getElem?_replicate] at hi
  split at hi <;> cases hi

/-! ## Handing out -/

theorem slot_clearSlot (s : Reorderer) (i j : Nat) : (s.clearSlot i).slot j = s.slot j ∨
    j = i ∧ ((s.clearSlot i).slot j).occupied = false := by
  unfold Reorderer.clearSlot Reorderer.slot
  simp only [List.getD_eq_getElem?_getD, List.getElem?_set]
  by_cases hij : i = j
  · by_cases hi : i < s.ringSlots.length
    · exact .inr ⟨hij.symm, by simp [hij, hij ▸ hi]⟩
    · refine .inl ?_
      rw [if_pos hij, if_neg hi, List.getElem?_eq_none (by omega)]
  · exact .inl (by rw [if_neg hij])

theorem Stocked.clearSlot (h : Stocked E s) (i : Nat) : Stocked E (s.clearSlot i) := by
  intro j hj
  rcases slot_clearSlot s i j with hsame | ⟨-, hfree⟩
  · rw [hsame] at hj ⊢
    exact h j hj
  · rw [hfree] at hj
    cases hj

theorem Stocked.slot_origin (h : Stocked E s) {i : Nat} (hi : (s.slot i).occupied = true) :
    Origin E (Reorderer.orderedOf (s.slot i).header (s.slot i).payload (s.slot i).payloadSize
      (s.slot i).sequence) := by
  obtain ⟨e, he, hslot⟩ := h i hi
  exact .inr ⟨e, he, by rw [hslot]; rfl⟩

/-- The loop of `advance_window`. -/
theorem advanceLoop_origin (clk : SteadyClock) : ∀ (fuel : Nat) (s : Reorderer), Stocked E s →
    Stocked E (Reorderer.advanceLoop clk fuel s).1 ∧
      ∀ p ∈ (Reorderer.advanceLoop clk fuel s).2, Origin E p := by
  intro fuel
  induction fuel with
  | zero => exact fun s h => ⟨h, fun p hp => by cases hp⟩
  | succ fuel ih =>
    intro s h
    rw [Reorderer.advanceLoop]
    split
    · exact ⟨h, fun p hp => by cases hp⟩
    split
    · exact ⟨h, fun p hp => by cases hp⟩
    case isFalse hocc =>
      rw [not_or, not_not] at hocc
      obtain ⟨hocc, hseq⟩ := hocc
      have hnext : Stocked E (s.takeHead clk) := (h.clearSlot s.baseIndex).frame rfl
      obtain ⟨hend, hout⟩ := ih _ hnext
      refine ⟨hend, fun p hp => ?_⟩
      rcases List.mem_cons.1 hp with rfl | hp
      · rw [Reorderer.headPacket, ← hseq]
        exact h.slot_origin (by simpa using hocc)
      · exact hout p hp

/-- The loop of `flush`, over distinct occupied slots. -/
theorem flushLoop_origin : ∀ (slots : List (BitVec 32 × Nat)) (s : Reorderer), Stocked E s →
    (slots.map Prod.snd).Nodup → (∀ x ∈ slots, (s.slot x.2).occupied = true) →
    Stocked E (Reorderer.flushLoop slots s).1 ∧ ∀ p ∈ (Reorderer.flushLoop slots s).2,
    Origin E p := by
  intro slots
  induction slots with
  | nil => exact fun s h _ _ => ⟨h, fun p hp => by cases hp⟩
  | cons x slots ih =>
    intro s h hnodup hocc
    obtain ⟨seq, i⟩ := x
    obtain ⟨hnot, hnodup⟩ := List.nodup_cons.1 hnodup
    have hnext : Stocked E (s.clearSlot i).countInOrder := (h.clearSlot i).frame rfl
    -- the other slots stay occupied
    have hocc' : ∀ y ∈ slots, ((s.clearSlot i).countInOrder.slot y.2).occupied = true := by
      intro y hy
      rcases slot_clearSlot s i y.2 with hsame | ⟨heq, -⟩
      · change ((s.clearSlot i).slot y.2).occupied = true
        rw [hsame]
        exact hocc y (List.mem_cons_of_mem _ hy)
      · exact absurd (List.mem_map.2 ⟨y, hy, heq⟩) hnot
    obtain ⟨hend, hout⟩ := ih _ hnext hnodup hocc'
    rw [Reorderer.flushLoop]
    refine ⟨hend, fun p hp => ?_⟩
    rcases List.mem_cons.1 hp with rfl | hp
    · exact h.slot_origin (hocc _ List.mem_cons_self)
    · exact hout p hp

theorem pending_nodup (s : Reorderer) : (s.pending.map Prod.snd).Nodup := by
  have hsub : (s.pending.map Prod.snd).Sublist (List.range s.ringSlots.length) := by
    unfold Reorderer.pending
    induction List.range s.ringSlots.length with
    | nil => exact List.Sublist.slnil
    | cons i is ih =>
      rw [List.filterMap_cons]
      split
      case h_1 => exact ih.cons i
      case h_2 x hx =>
        split at hx
        · cases hx
          exact ih.cons_cons i
        · cases hx
  exact hsub.nodup List.nodup_range

theorem pending_occupied {s : Reorderer} {x : BitVec 32 × Nat} (hx : x ∈ s.pending) :
    (s.slot x.2).occupied = true := by
  obtain ⟨i, -, hi⟩ := List.mem_filterMap.1 hx
  split at hi
  case isTrue h =>
    cases hi
    exact (Bool.and_eq_true_iff.1 h).2
  case isFalse => cases hi

/-! ## Calls -/

theorem insertBody_origin (clk : SteadyClock) (h : Stocked E s) (e : Entry) :
    Stocked (E ++ [e]) (s.insertBody clk e.header e.payload e.payloadSize).1 ∧
      ∀ p ∈ (s.insertBody clk e.header e.payload e.payloadSize).2, Origin (E ++ [e]) p := by
  have hmono : Stocked (E ++ [e]) s := h.mono (List.subset_append_left _ _)
  have hmem : e ∈ E ++ [e] := List.mem_append_right _ (List.mem_singleton_self _)
  unfold Reorderer.insertBody
  simp only
  split
  · have hnow : Stocked (E ++ [e]) (Reorderer.advanceNow clk s.countInOrder) := hmono.frame rfl
    obtain ⟨hend, hout⟩ := advanceLoop_origin clk _ _ hnow
    refine ⟨hend.frame rfl, fun p hp => ?_⟩
    rcases List.mem_cons.1 hp with rfl | hp
    · exact .inr ⟨e, hmem, rfl⟩
    · exact hout p hp
  split
  · exact ⟨hmono.frame rfl, fun p hp => by cases hp⟩
  split
  · exact ⟨hmono.frame rfl, fun p hp => by cases hp⟩
  split
  · exact ⟨hmono.frame rfl, fun p hp => by cases hp⟩
  · refine ⟨?_, fun p hp => by cases hp⟩
    intro j hj
    rw [Reorderer.slot, List.getD_eq_getElem?_getD] at hj ⊢
    simp only [Reorderer.syncBuffered, Reorderer.storeAt, List.getElem?_set] at hj ⊢
    split at hj
    case isTrue heq =>
      rw [if_pos heq]
      split at hj
      case isTrue hlt =>
        rw [if_pos hlt]
        exact ⟨e, hmem, rfl⟩
      case isFalse => cases hj
    case isFalse hne =>
      rw [if_neg hne]
      rw [← List.getD_eq_getElem?_getD] at hj ⊢
      exact hmono j hj

theorem step_origin (clk : SteadyClock) (h : Stocked E s) (op : ReorderOp) :
    Stocked (E ++ op.entry?.toList) (s.step clk op).1 ∧
      ∀ p ∈ (s.step clk op).2, Origin (E ++ op.entry?.toList) p := by
  cases hentry : op.entry? with
  | some e =>
    rw [step_insert clk s hentry]
    have hinit : Stocked E (s.initWith e.header.sequenceNumber) := by
      refine h.frame ?_
      unfold Reorderer.initWith
      split <;> rfl
    exact insertBody_origin clk hinit e
  | none =>
    rw [Option.toList_none, List.append_nil]
    cases op with
    | insert packet => cases hentry
    | insertOwned header payload payloadSize => cases hentry
    | setTimeoutMs timeoutMs => exact ⟨h.frame rfl, fun p hp => by cases hp⟩
    | checkTimeout =>
      rw [Reorderer.step, Reorderer.checkTimeout]
      split
      · exact ⟨h, fun p hp => by cases hp⟩
      split
      · exact ⟨h.frame rfl, fun p hp => by cases hp⟩
      · unfold Reorderer.skipExpected
        simp only
        have hnow : Stocked E (Reorderer.advanceNow clk
            (if s.config.enableZeroFill then s.countZeroFilled else s)) := by
          refine h.frame ?_
          split <;> rfl
        obtain ⟨hend, hout⟩ := advanceLoop_origin clk _ _ hnow
        refine ⟨hend.frame rfl, fun p hp => ?_⟩
        rcases List.mem_append.1 hp with hp | hp
        · split at hp
          · rw [List.mem_singleton.1 hp]
            exact .inl rfl
          · cases hp
        · exact hout p hp
    | flush =>
      have hperm := List.mergeSort_perm s.pending fun a b => decide (a.1 ≤ b.1)
      obtain ⟨hend, hout⟩ :=
        flushLoop_origin _ s h ((hperm.map Prod.snd).nodup_iff.2 (pending_nodup s))
        fun x hx => pending_occupied (hperm.mem_iff.1 hx)
      exact ⟨hend.frame rfl, hout⟩

/-- **A run hands out its inserts as they came.** -/
theorem run_origin (clk : SteadyClock) : ∀ (ops : List ReorderOp) (E : List Entry) (s : Reorderer),
    Stocked E s → ∀ p ∈ (s.run clk ops).2, Origin (E ++ inserted ops) p := by
  intro ops
  induction ops with
  | nil => exact fun _ _ _ p hp => by cases hp
  | cons op ops ih =>
    intro E s h p hp
    obtain ⟨hnext, hout⟩ := step_origin clk h op
    rw [inserted_cons, ← List.append_assoc]
    rcases List.mem_append.1 hp with hp | hp
    · exact (hout p hp).mono (List.subset_append_left _ _)
    · exact ih _ _ hnext p hp

theorem advanceLoop_filled (clk : SteadyClock) : ∀ (fuel : Nat) (s : Reorderer),
    ∀ p ∈ (Reorderer.advanceLoop clk fuel s).2, p.isZeroFilled = false
  | 0, _, p, hp => by cases hp
  | fuel + 1, s, p, hp => by
    unfold Reorderer.advanceLoop at hp
    split at hp
    · cases hp
    · split at hp
      · cases hp
      · rcases List.mem_cons.1 hp with rfl | hp
        · rfl
        · exact advanceLoop_filled clk fuel _ p hp

theorem insertBody_filled (clk : SteadyClock) (s : Reorderer) (e : Entry) :
    ∀ p ∈ (s.insertBody clk e.header e.payload e.payloadSize).2, p.isZeroFilled = false := by
  intro p hp
  unfold Reorderer.insertBody at hp
  simp only at hp
  split at hp
  · rcases List.mem_cons.1 hp with rfl | hp
    · rfl
    · exact advanceLoop_filled clk _ _ p hp
  · split at hp
    · cases hp
    · split at hp
      · cases hp
      · split at hp <;> cases hp

theorem flushLoop_filled : ∀ (slots : List (BitVec 32 × Nat)) (s : Reorderer),
    ∀ p ∈ (Reorderer.flushLoop slots s).2, p.isZeroFilled = false
  | [], _, p, hp => by cases hp
  | (_, i) :: slots, s, p, hp => by
    rcases List.mem_cons.1 hp with rfl | hp
    · rfl
    · exact flushLoop_filled slots (s.clearSlot i).countInOrder p hp

/-- **A zero-filled packet** stands for the number expected next, when `check_timeout` skips it. -/
theorem step_zeroFilled (clk : SteadyClock) (hp : p ∈ (s.step clk op).2)
    (hz : p.isZeroFilled = true) :
    op = .checkTimeout ∧ p = Reorderer.createZeroFilledPacket s.nextExpectedSeq := by
  have hfilled : p.isZeroFilled ≠ false := by simp [hz]
  cases hentry : op.entry? with
  | some e =>
    rw [step_insert clk s hentry] at hp
    exact absurd (insertBody_filled clk _ e p hp) hfilled
  | none =>
    cases op with
    | insert packet => cases hentry
    | insertOwned header payload payloadSize => cases hentry
    | setTimeoutMs timeoutMs => cases hp
    | flush => exact absurd (flushLoop_filled _ s p hp) hfilled
    | checkTimeout =>
      refine ⟨rfl, ?_⟩
      rw [Reorderer.step, Reorderer.checkTimeout] at hp
      split at hp
      · cases hp
      split at hp
      · cases hp
      · rcases List.mem_append.1 hp with hp | hp
        · split at hp
          · exact List.mem_singleton.1 hp
          · cases hp
        · exact absurd (advanceLoop_filled clk _ _ p hp) hfilled

theorem run_zeroFilled (clk : SteadyClock) : ∀ (ops : List ReorderOp) (s : Reorderer),
    p ∈ (s.run clk ops).2 → p.isZeroFilled = true → .checkTimeout ∈ ops
  | [], _, hp, _ => by cases hp
  | op :: ops, s, hp, hz => by
    rcases List.mem_append.1 hp with hp | hp
    · rw [(step_zeroFilled clk hp hz).1]
      exact List.mem_cons_self
    · exact List.mem_cons_of_mem _ (run_zeroFilled clk ops _ hp hz)

theorem run_stocked (clk : SteadyClock) : ∀ (ops : List ReorderOp) (E : List Entry) (s : Reorderer),
    Stocked E s → Stocked (E ++ inserted ops) (s.run clk ops).1 := by
  intro ops
  induction ops with
  | nil => exact fun E s h => (List.append_nil E).symm ▸ h
  | cons op ops ih =>
    intro E s h
    rw [inserted_cons, ← List.append_assoc]
    exact ih _ _ (step_origin clk h op).1

end

end Qdgz300.Pipeline
