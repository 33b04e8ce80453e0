import Qdgz300.Pipeline.Proof.ReorderFlush

/-!
# The statistics of the reorderer

`Shelved s`: the bitmap marks the occupied slots and `current_buffer_size` counts them.
`Balance s0 calls outs s`: after `calls` inserts and `outs` callbacks the counters balance. Handing
out a buffered packet (`takeHead`), accepting, refusing or storing an inserted one, skipping a
number and flushing each keep the two; **`reorderer_balance`** follows for every run.
-/

namespace Qdgz300.Pipeline

open Protocol

/-- The number of occupied slots. -/
def Reorderer.occupied (s : Reorderer) : Nat := s.ringSlots.countP (·.occupied)

/-- The buffered packets are marked and counted. -/
structure Shelved (s : Reorderer) : Prop where
  pos : 0 < s.ringSlots.length
  small : s.ringSlots.length < 2 ^ 32
  words : s.occupancyBitmap.length = (s.ringSlots.length + 63) / 64
  base : s.baseIndex < s.ringSlots.length
  marked : ∀ i < s.ringSlots.length, s.occupancyBitmap.test i = (s.slot i).occupied
  stock : s.stats.currentBufferSize = s.occupied

/-- The counters after `calls` inserts and `outs` callbacks, counting from `s0`. -/
structure Balance (s0 : BitVec 32) (calls outs : Nat) (s : Reorderer) : Prop where
  init : s.initialized = true
  calls : calls = s.stats.packetsInOrder + s.stats.packetsDuplicate + s.stats.currentBufferSize
  outs : outs = s.stats.packetsInOrder + s.stats.packetsZeroFilled
  advanced : BitVec.ofNat 32 s.stats.sequencesAdvanced = s.nextExpectedSeq - s0
  backlog : s.stats.currentBufferSize ≤ s.stats.packetsOutOfOrder

section
variable {s s' : Reorderer} {s0 : BitVec 32} {calls outs : Nat} {op : ReorderOp}
  {out : List OrderedPacket}

/-! ## Slots -/

theorem Shelved.frame (h : Shelved s) (hring : s'.ringSlots = s.ringSlots)
    (hbits : s'.occupancyBitmap = s.occupancyBitmap) (hbase : s'.baseIndex = s.baseIndex)
    (hsize : s'.stats.currentBufferSize = s.stats.currentBufferSize) : Shelved s' := by
  obtain ⟨h1, h2, h3, h4, h5, h6⟩ := h
  constructor
  · rw [hring]; exact h1
  · rw [hring]; exact h2
  · rw [hring, hbits]; exact h3
  · rw [hring, hbase]; exact h4
  · intro i hi
    rw [hring] at hi
    rw [hbits, Reorderer.slot, hring]
    exact h5 i hi
  · rw [hsize, Reorderer.occupied, hring]; exact h6

theorem Shelved.word_lt (h : Shelved s) {i : Nat} (hi : i < s.ringSlots.length) :
    i / 64 < s.occupancyBitmap.length := by
  rw [h.words]
  omega

theorem Shelved.occupied_lt (h : Shelved s) : s.stats.currentBufferSize < 2 ^ 32 := by
  rw [h.stock]
  exact Nat.lt_of_le_of_lt List.countP_le_length h.small

theorem countP_set_slot {i : Nat} (hi : i < s.ringSlots.length) (p : StoredPacket) :
    (s.ringSlots.set i p).countP (·.occupied) =
      s.occupied - (if (s.slot i).occupied then 1 else 0) + (if p.occupied then 1 else 0) := by
  have hslot : s.ringSlots[i] = s.slot i := by
    rw [Reorderer.slot, List.getD_eq_getElem?_getD, List.getElem?_eq_getElem hi, Option.getD_some]
  rw [List.countP_set hi, hslot, Reorderer.occupied]

theorem Shelved.occupied_set {i j : Nat} (h : Shelved s) (hi : i < s.ringSlots.length)
    (hj : j < s.ringSlots.length) (p : StoredPacket) :
    ((s.ringSlots.set i p).getD j {}).occupied =
      if i = j then p.occupied else s.occupancyBitmap.test j := by
  split
  · subst j
    rw [Circular.getD_set_self hi]
  · rename_i hij
    rw [Circular.getD_set_ne hij, ← Reorderer.slot, h.marked j hj]

/-- A slot emptied and counted off. -/
theorem Shelved.clearSlot {i : Nat} (h : Shelved s) (hi : i < s.ringSlots.length)
    (hocc : (s.slot i).occupied = true) (stats : ReorderStatistics)
    (hstats : stats.currentBufferSize = s.stats.currentBufferSize - 1) :
    Shelved { s.clearSlot i with stats } := by
  constructor
  · simpa [Reorderer.clearSlot] using h.pos
  · simpa [Reorderer.clearSlot] using h.small
  · simpa [Reorderer.clearSlot] using h.words
  · simpa [Reorderer.clearSlot] using h.base
  · intro j hj
    rw [Reorderer.clearSlot, List.length_set] at hj
    refine Eq.trans ?_ (h.occupied_set hi hj _).symm
    show (s.occupancyBitmap.clear i).test j = _
    rw [Bitmap.test_clear (h.word_lt hi)]
    by_cases hij : i = j <;> simp [hij]
  · rw [Reorderer.occupied]
    simp only [Reorderer.clearSlot]
    rw [countP_set_slot hi, hocc, hstats, h.stock]
    rfl

/-- A free slot filled and counted. -/
theorem Shelved.storeAt {i : Nat} (h : Shelved s) (hi : i < s.ringSlots.length)
    (hfree : s.occupancyBitmap.test i = false) (seq : BitVec 32) (e : Entry) :
    Shelved (s.storeAt i seq e.header e.payload e.payloadSize) := by
  have hocc : (s.slot i).occupied = false := by rw [← h.marked i hi, hfree]
  constructor
  · simpa [Reorderer.storeAt] using h.pos
  · simpa [Reorderer.storeAt] using h.small
  · simpa [Reorderer.storeAt] using h.words
  · simpa [Reorderer.storeAt] using h.base
  · intro j hj
    rw [Reorderer.storeAt, List.length_set] at hj
    refine Eq.trans ?_ (h.occupied_set hi hj _).symm
    show (s.occupancyBitmap.set i).test j = _
    rw [Bitmap.test_set (h.word_lt hi)]
    by_cases hij : i = j <;> simp [hij]
  · rw [Reorderer.occupied]
    simp only [Reorderer.storeAt]
    rw [countP_set_slot hi, hocc, h.stock]
    rfl

/-! ## Parts of the calls -/

theorem seq_advance {n : Nat} {next : BitVec 32} (h : BitVec.ofNat 32 n = next - s0) :
    BitVec.ofNat 32 (n + 1) = next + 1 - s0 := by
  rw [BitVec.ofNat_add, h, BitVec.sub_eq_add_neg, BitVec.sub_eq_add_neg, BitVec.add_assoc,
    BitVec.add_comm (-s0), ← BitVec.add_assoc]
  rfl

theorem Shelved.advanceNow (clk : SteadyClock) (h : Shelved s) : Shelved (s.advanceNow clk) :=
  ⟨h.pos, h.small, h.words, Nat.mod_lt _ h.pos, h.marked, h.stock⟩

theorem Balance.advanceNow (clk : SteadyClock) (h : Balance s0 calls outs s) :
    Balance s0 calls outs (s.advanceNow clk) :=
  ⟨h.init, h.calls, h.outs, seq_advance h.advanced, h.backlog⟩

theorem Shelved.syncBuffered (h : Shelved s) : Shelved s.syncBuffered := by
  refine h.frame rfl rfl rfl ?_
  rw [Reorderer.syncBuffered]
  exact Nat.mod_eq_of_lt h.occupied_lt

theorem Balance.syncBuffered (hs : Shelved s) (h : Balance s0 calls outs s) :
    Balance s0 calls outs s.syncBuffered ∧
      s.syncBuffered.bufferedPackets.toNat = s.syncBuffered.stats.currentBufferSize := by
  have hsize : s.syncBuffered.stats.currentBufferSize = s.stats.currentBufferSize :=
    Nat.mod_eq_of_lt hs.occupied_lt
  refine ⟨⟨h.init, ?_, h.outs, h.advanced, ?_⟩, rfl⟩
  · rw [hsize]
    exact h.calls
  · rw [hsize]
    exact h.backlog

theorem Shelved.takeHead (clk : SteadyClock) (h : Shelved s)
    (hocc : (s.slot s.baseIndex).occupied = true) : Shelved (s.takeHead clk) :=
  (h.clearSlot h.base hocc { s.stats with
    packetsInOrder := s.stats.packetsInOrder + 1
    currentBufferSize := s.stats.currentBufferSize - 1 } rfl).advanceNow clk

theorem Balance.takeHead (clk : SteadyClock) (hs : Shelved s) (h : Balance s0 calls outs s)
    (hocc : (s.slot s.baseIndex).occupied = true) : Balance s0 calls (outs + 1)
      (s.takeHead clk) := by
  have hpos : 0 < s.stats.currentBufferSize := by
    rw [hs.stock, Reorderer.occupied, List.countP_pos_iff]
    refine ⟨s.slot s.baseIndex, ?_, hocc⟩
    rw [Reorderer.slot, List.getD_eq_getElem?_getD, List.getElem?_eq_getElem hs.base, Option.getD_some]
    exact List.getElem_mem hs.base
  have hcalls := h.calls
  have houts := h.outs
  have hbacklog := h.backlog
  refine ⟨h.init, ?_, ?_, seq_advance h.advanced, ?_⟩
  · show calls = s.stats.packetsInOrder + 1 + s.stats.packetsDuplicate + (s.stats.currentBufferSize - 1)
    omega
  · show outs + 1 = s.stats.packetsInOrder + 1 + s.stats.packetsZeroFilled
    omega
  · show s.stats.currentBufferSize - 1 ≤ s.stats.packetsOutOfOrder
    omega

/-- **The loop of `advance_window`**: every packet it hands out leaves the buffer. -/
theorem advanceLoop_balance (clk : SteadyClock) : ∀ (fuel outs : Nat) (s : Reorderer), Shelved s →
    Balance s0 calls outs s → Shelved (Reorderer.advanceLoop clk fuel s).1 ∧
      Balance s0 calls (outs + (Reorderer.advanceLoop clk fuel s).2.length)
        (Reorderer.advanceLoop clk fuel s).1
  | 0, _, _, hs, h => ⟨hs, h⟩
  | fuel + 1, outs, s, hs, h => by
    unfold Reorderer.advanceLoop
    split
    · exact ⟨hs, h⟩
    · split
      · exact ⟨hs, h⟩
      · rename_i hok
        have hocc : (s.slot s.baseIndex).occupied = true := by
          cases hocc : (s.slot s.baseIndex).occupied with
          | true => rfl
          | false => exact absurd (.inl hocc) hok
        obtain ⟨hs', h'⟩ := advanceLoop_balance clk fuel (outs + 1) (s.takeHead clk)
          (hs.takeHead clk hocc) (h.takeHead clk hs hocc)
        refine ⟨hs', ?_⟩
        rw [List.length_cons, Nat.add_comm _ 1, ← Nat.add_assoc]
        exact h'

theorem settle_balance (clk : SteadyClock) (hs : Shelved s) (h : Balance s0 calls outs s) :
    Shelved (s.advanceWindow clk).1.syncBuffered ∧
      Balance s0 calls (outs + (s.advanceWindow clk).2.length) (s.advanceWindow clk).1.syncBuffered ∧
      (s.advanceWindow clk).1.syncBuffered.bufferedPackets.toNat =
        (s.advanceWindow clk).1.syncBuffered.stats.currentBufferSize := by
  obtain ⟨hs', h'⟩ := advanceLoop_balance clk s.ringSlots.length outs s hs h
  exact ⟨hs'.syncBuffered, h'.syncBuffered hs'⟩

/-! ## Calls -/

/-- The account between calls. -/
structure Balanced (s0 : BitVec 32) (calls outs : Nat) (s : Reorderer) : Prop
    extends Balance s0 calls outs s where
  shelved : Shelved s
  buffered : s.bufferedPackets.toNat = s.stats.currentBufferSize

theorem Balanced.countDuplicate (h : Balanced s0 calls outs s) :
    Balanced s0 (calls + 1) outs s.countDuplicate := by
  have hcalls := h.calls
  refine ⟨⟨h.init, ?_, h.outs, h.advanced, h.backlog⟩, h.shelved.frame rfl rfl rfl rfl, h.buffered⟩
  show calls + 1 = s.stats.packetsInOrder + (s.stats.packetsDuplicate + 1) + s.stats.currentBufferSize
  omega

/-- **One insert** is handed out, refused or buffered. -/
theorem insertBody_balance (clk : SteadyClock) (e : Entry) (h : Balanced s0 calls outs s) :
    Balanced s0 (calls + 1) (outs + (s.insertBody clk e.header e.payload e.payloadSize).2.length)
      (s.insertBody clk e.header e.payload e.payloadSize).1 := by
  have hcalls := h.calls
  have houts := h.outs
  have hbacklog := h.backlog
  unfold Reorderer.insertBody
  simp only
  split
  · -- in order
    have haccept : Balance s0 (calls + 1) (outs + 1) s.countInOrder := by
      refine ⟨h.init, ?_, ?_, h.advanced, h.backlog⟩
      · show calls + 1 = s.stats.packetsInOrder + 1 + s.stats.packetsDuplicate +
          s.stats.currentBufferSize
        omega
      · show outs + 1 = s.stats.packetsInOrder + 1 + s.stats.packetsZeroFilled
        omega
    have hshelved : Shelved s.countInOrder := h.shelved.frame rfl rfl rfl rfl
    obtain ⟨hs', h', hb'⟩ := settle_balance clk (hshelved.advanceNow clk) (haccept.advanceNow clk)
    refine ⟨?_, hs', hb'⟩
    rw [List.length_cons, ← Nat.add_assoc outs, Nat.add_right_comm outs]
    exact h'
  · split
    · exact h.countDuplicate
    · split
      · exact h.countDuplicate
      · split
        · exact h.countDuplicate
        · rename_i hfree
          have hlt := Nat.mod_lt
            (s.baseIndex + (e.header.sequenceNumber - s.nextExpectedSeq).toNat) h.shelved.pos
          have hstored := h.shelved.storeAt hlt (by simpa using hfree) e.header.sequenceNumber e
          have hbal : Balance s0 (calls + 1) outs (s.storeAt
              ((s.baseIndex + (e.header.sequenceNumber - s.nextExpectedSeq).toNat) %
                s.ringSlots.length) e.header.sequenceNumber e.header e.payload e.payloadSize) := by
            refine ⟨h.init, ?_, h.outs, h.advanced, ?_⟩
            · show calls + 1 = s.stats.packetsInOrder + s.stats.packetsDuplicate +
                (s.stats.currentBufferSize + 1)
              omega
            · show s.stats.currentBufferSize + 1 ≤ s.stats.packetsOutOfOrder + 1
              omega
          obtain ⟨hsync, hb⟩ := hbal.syncBuffered hstored
          exact ⟨hsync, hstored.syncBuffered, hb⟩

/-- **One `check_timeout`**: a skipped number is a callback exactly with zero-fill. -/
theorem checkTimeout_balance (clk : SteadyClock) (h : Balanced s0 calls outs s) :
    Balanced s0 calls (outs + (s.checkTimeout clk).2.length) (s.checkTimeout clk).1 := by
  unfold Reorderer.checkTimeout
  split
  · exact h
  · split
    · exact ⟨⟨h.init, h.calls, h.outs, h.advanced, h.backlog⟩, h.shelved.frame rfl rfl rfl rfl, h.buffered⟩
    · unfold Reorderer.skipExpected
      simp only
      rw [List.length_append, ← Nat.add_assoc]
      have hskip : ∃ gaps, (if s.config.enableZeroFill then
            [Reorderer.createZeroFilledPacket s.nextExpectedSeq] else []).length = gaps ∧
          Balance s0 calls (outs + gaps) (if s.config.enableZeroFill then s.countZeroFilled else s) ∧
          Shelved (if s.config.enableZeroFill then s.countZeroFilled else s) := by
        cases s.config.enableZeroFill with
        | false => exact ⟨0, rfl, h.toBalance, h.shelved⟩
        | true =>
          refine ⟨1, rfl, ⟨h.init, h.calls, ?_, h.advanced, h.backlog⟩, h.shelved.frame rfl rfl rfl rfl⟩
          have houts := h.outs
          show outs + 1 = s.stats.packetsInOrder + (s.stats.packetsZeroFilled + 1)
          omega
      obtain ⟨gaps, hlen, hbal, hs⟩ := hskip
      rw [hlen]
      obtain ⟨hs', h', hb'⟩ := settle_balance clk (hs.advanceNow clk) (hbal.advanceNow clk)
      exact ⟨h', hs', hb'⟩

theorem flushLoop_stats : ∀ (l : List (BitVec 32 × Nat)) (s : Reorderer),
    (Reorderer.flushLoop l s).1.stats =
      { s.stats with packetsInOrder := s.stats.packetsInOrder + l.length }
  | [], s => rfl
  | x :: l, s => by
    rw [Reorderer.flushLoop, flushLoop_stats l, List.length_cons, Nat.add_comm l.length 1,
      ← Nat.add_assoc]
    rfl

theorem occupied_eq_range (s : Reorderer) :
    s.occupied = (List.range s.ringSlots.length).countP fun i => (s.slot i).occupied := by
  have hring : s.ringSlots = (List.range s.ringSlots.length).map s.slot := by
    apply List.ext_getElem?
    intro i
    rw [List.getElem?_map]
    rcases Nat.lt_or_ge i s.ringSlots.length with hi | hi
    · rw [List.getElem?_range hi, Option.map_some, Reorderer.slot, List.getD_eq_getElem?_getD,
        List.getElem?_eq_getElem hi, Option.getD_some]
    · rw [List.getElem?_eq_none hi, List.getElem?_eq_none (by simpa using hi), Option.map_none]
  rw [Reorderer.occupied, hring, List.countP_map, List.length_map, List.length_range]
  rfl

theorem Shelved.length_pending (h : Shelved s) : s.pending.length = s.occupied := by
  rw [occupied_eq_range, Reorderer.pending, List.length_filterMap_eq_countP]
  apply List.countP_congr
  intro i hi
  rw [h.marked i (List.mem_range.1 hi), Bool.and_self]
  cases (s.slot i).occupied <;> simp

theorem Shelved.flush_cleared (h : Shelved s) :
    Cleared (s.flushOrder.map Prod.snd) s (Reorderer.flushLoop s.flushOrder s).1 := by
  have hperm := flushOrder_perm s
  refine (flushLoop_spec s.flushOrder s (fun x hx => ?_) (fun x hx => ?_) ?_).1
  · have hlt := (mem_pending.1 (hperm.subset hx)).1
    exact ⟨hlt, h.word_lt hlt⟩
  · exact (mem_pending.1 (hperm.subset hx)).2.2.2
  · exact (hperm.map Prod.snd).nodup_iff.2 (pending_nodup s)

/-- No slot is occupied after a `flush`. -/
theorem Shelved.flush_empty (h : Shelved s) {i : Nat} (hi : i < s.ringSlots.length) :
    s.flush.1.occupancyBitmap.test i = false ∧ (s.flush.1.slot i).occupied = false := by
  by_cases hmem : i ∈ s.flushOrder.map Prod.snd
  · exact h.flush_cleared.cleared i hmem
  · -- a slot that is not handed out is not occupied
    obtain ⟨hbit, hslot⟩ := h.flush_cleared.kept i hmem
    have hfree : (s.slot i).occupied = false := by
      cases hocc : (s.slot i).occupied with
      | false => rfl
      | true =>
        refine absurd (List.mem_map.2 ⟨((s.slot i).sequence, i),
          (flushOrder_perm s).symm.subset ?_, rfl⟩) hmem
        exact mem_pending.2 ⟨hi, (h.marked i hi).trans hocc, hocc, rfl⟩
    exact ⟨hbit.trans ((h.marked i hi).trans hfree),
      (congrArg StoredPacket.occupied hslot).trans hfree⟩

theorem Shelved.flush (h : Shelved s) : Shelved s.flush.1 := by
  have hc := h.flush_cleared
  have hsize : s.flush.1.ringSlots.length = s.ringSlots.length := hc.size
  have hnone : s.flush.1.occupied = 0 := by
    rw [Reorderer.occupied, List.countP_eq_zero]
    intro p hp
    obtain ⟨i, hi, rfl⟩ := List.getElem_of_mem hp
    have hfree := (h.flush_empty (hsize ▸ hi)).2
    rw [Reorderer.slot, List.getD_eq_getElem?_getD, List.getElem?_eq_getElem hi,
      Option.getD_some] at hfree
    simp [hfree]
  refine ⟨?_, ?_, ?_, ?_, fun i hi => ?_, hnone.symm⟩
  · rw [hsize]
    exact h.pos
  · rw [hsize]
    exact h.small
  · rw [hsize]
    exact hc.words.trans h.words
  · rw [hsize]
    exact lt_of_eq_of_lt hc.base h.base
  · rw [(h.flush_empty (hsize ▸ hi)).1, (h.flush_empty (hsize ▸ hi)).2]

/-- **One `flush`** empties the buffer into the callback. -/
theorem flush_balance (h : Balanced s0 calls outs s) :
    Balanced s0 calls (outs + s.flush.2.length) s.flush.1 := by
  have hc := h.shelved.flush_cleared
  have hlen : s.flushOrder.length = s.stats.currentBufferSize := by
    rw [(flushOrder_perm s).length_eq, h.shelved.length_pending, h.shelved.stock]
  have hout : s.flush.2.length = s.stats.currentBufferSize :=
    (flushLoop_length s.flushOrder s).trans hlen
  have hstats := flushLoop_stats s.flushOrder s
  have hcalls := h.calls
  have houts := h.outs
  refine ⟨⟨hc.init.trans h.init, ?_, ?_, ?_, Nat.zero_le _⟩, h.shelved.flush, rfl⟩
  · show calls = (Reorderer.flushLoop s.flushOrder s).1.stats.packetsInOrder +
      (Reorderer.flushLoop s.flushOrder s).1.stats.packetsDuplicate + 0
    rw [hstats]
    show calls = s.stats.packetsInOrder + s.flushOrder.length + s.stats.packetsDuplicate + 0
    omega
  · rw [hout]
    show outs + s.stats.currentBufferSize = (Reorderer.flushLoop s.flushOrder s).1.stats.packetsInOrder +
      (Reorderer.flushLoop s.flushOrder s).1.stats.packetsZeroFilled
    rw [hstats]
    show outs + s.stats.currentBufferSize = s.stats.packetsInOrder + s.flushOrder.length +
      s.stats.packetsZeroFilled
    omega
  · exact (congrArg (BitVec.ofNat 32) hc.advanced).trans (h.advanced.trans
      (congrArg (· - s0) hc.next.symm))

/-- **One call.** -/
theorem step_balance (clk : SteadyClock) (op : ReorderOp) (h : Balanced s0 calls outs s) :
    Balanced s0 (calls + op.entry?.toList.length) (outs + (s.step clk op).2.length)
      (s.step clk op).1 := by
  cases he : op.entry? with
  | some e =>
    rw [step_insert clk s he, Reorderer.initWith, if_pos h.init]
    exact insertBody_balance clk e h
  | none =>
    cases op with
    | insert packet => cases he
    | insertOwned header payload payloadSize => cases he
    | checkTimeout => exact checkTimeout_balance clk h
    | flush => exact flush_balance h
    | setTimeoutMs timeoutMs =>
      exact ⟨⟨h.init, h.calls, h.outs, h.advanced, h.backlog⟩, h.shelved.frame rfl rfl rfl rfl,
        h.buffered⟩

/-! ## Runs -/

theorem run_balance (clk : SteadyClock) : ∀ (ops : List ReorderOp) (calls outs : Nat)
    (s : Reorderer),
    Balanced s0 calls outs s →
    Balanced s0 (calls + (inserted ops).length) (outs + (s.run clk ops).2.length) (s.run clk ops).1
  | [], _, _, _, h => h
  | op :: ops, calls, outs, s, h => by
    have hrest := run_balance clk ops _ _ _ (step_balance clk op h)
    rw [inserted_cons, List.length_append, ← Nat.add_assoc]
    rw [Nat.add_assoc outs, ← List.length_append] at hrest
    exact hrest

/-- Before the first insert. -/
structure Unopened (s : Reorderer) : Prop where
  uninit : s.initialized = false
  shelved : Shelved s
  stats : s.stats = {}
  buffered : s.bufferedPackets = 0

theorem unopened_new {cfg : ReorderConfig} (h1 : 1 ≤ cfg.windowSize) (h2 : cfg.windowSize < 2 ^ 31)
    (created : Int) : Unopened (Reorderer.new cfg created) := by
  have hlen : (Reorderer.new cfg created).ringSlots.length = cfg.windowSize := by
    rw [Reorderer.new, List.length_replicate, Nat.max_eq_right h1]
  refine ⟨rfl, ⟨?_, ?_, ?_, ?_, ?_, ?_⟩, rfl, rfl⟩
  · omega
  · omega
  · rw [hlen, Reorderer.new, Bitmap.length_zeros, Nat.max_eq_right h1]
  · rw [hlen]
    exact h1
  · intro i _
    rw [Reorderer.slot, List.getD_eq_getElem?_getD]
    simp only [Reorderer.new, List.getElem?_replicate, Bitmap.test_zeros]
    split <;> rfl
  · rw [Reorderer.occupied, Reorderer.new, List.countP_replicate]
    rfl

theorem Unopened.opens (h : Unopened s) (s0 : BitVec 32) : Balanced s0 0 0 (s.initWith s0) := by
  rw [Reorderer.initWith, if_neg (by simp [h.uninit])]
  refine ⟨⟨rfl, ?_, ?_, ?_, ?_⟩, h.shelved.frame rfl rfl rfl rfl, ?_⟩
  all_goals simp [h.stats, h.buffered]

theorem Unopened.step (clk : SteadyClock) (h : Unopened s) (he : op.entry? = none) :
    Unopened (s.step clk op).1 ∧ (s.step clk op).2 = [] := by
  cases op with
  | insert packet => cases he
  | insertOwned header payload payloadSize => cases he
  | checkTimeout =>
    rw [Reorderer.step, Reorderer.checkTimeout, if_pos h.uninit]
    exact ⟨h, rfl⟩
  | flush =>
    have hnone : s.pending = [] := by
      rw [← List.length_eq_zero_iff, h.shelved.length_pending, ← h.shelved.stock, h.stats]
    rw [Reorderer.step, Reorderer.flush, hnone, List.mergeSort_nil]
    refine ⟨⟨h.uninit, h.shelved.frame rfl rfl rfl ?_, ?_, rfl⟩, rfl⟩
    · rw [h.stats]
    · rw [Reorderer.flushLoop, h.stats]
  | setTimeoutMs timeoutMs =>
    exact ⟨⟨h.uninit, h.shelved.frame rfl rfl rfl rfl, h.stats, h.buffered⟩, rfl⟩

theorem run_unopened (clk : SteadyClock) : ∀ (ops : List ReorderOp) (s : Reorderer), Unopened s →
    firstSeq ops = some s0 →
    Balanced s0 (inserted ops).length (s.run clk ops).2.length (s.run clk ops).1 := by
  intro ops
  induction ops with
  | nil => exact fun s _ h0 => nomatch h0
  | cons op ops ih =>
    intro s h h0
    cases he : op.entry? with
    | none =>
      obtain ⟨h', hsilent⟩ := h.step clk he
      have hrest := ih _ h' (by simpa [firstSeq, he] using h0)
      rw [inserted_cons, he, Reorderer.run, Machine.run, hsilent]
      exact hrest
    | some e =>
      have hseq : e.header.sequenceNumber = s0 := by simpa [firstSeq, he] using h0
      rw [(run_initWith clk 0 s ops he).1, hseq]
      simpa using run_balance clk (op :: ops) 0 0 _ (h.opens s0)

/-- **The statistics balance.** After every run that has inserted, `s0` first: each insert was
handed out in order, refused as a duplicate or is buffered; the two copies of the buffer size count
the occupied slots; the window has advanced by the distance of the awaited number from `s0`; each
callback is an in-order or a zero-filled packet; and every buffered packet was counted as out of
order. -/
theorem reorderer_balance {cfg : ReorderConfig} {ops : List ReorderOp} (clk : SteadyClock)
    (created : Int) (h1 : 1 ≤ cfg.windowSize) (h2 : cfg.windowSize < 2 ^ 31)
    (h0 : firstSeq ops = some s0) (hrun : (Reorderer.new cfg created).run clk ops = (s, out)) :
    (inserted ops).length =
      s.stats.packetsInOrder + s.stats.packetsDuplicate + s.stats.currentBufferSize ∧
    s.stats.currentBufferSize = s.bufferedPackets.toNat ∧
    s.stats.currentBufferSize = s.occupied ∧
    s.stats.sequencesAdvanced % 2 ^ 32 = (s.nextExpectedSeq - s0).toNat ∧
    out.length = s.stats.packetsInOrder + s.stats.packetsZeroFilled ∧
    s.stats.currentBufferSize ≤ s.stats.packetsOutOfOrder := by
  have h := run_unopened clk ops _ (unopened_new h1 h2 created) h0
  rw [hrun] at h
  refine ⟨h.calls, h.buffered.symm, h.shelved.stock, ?_, h.outs, h.backlog⟩
  rw [← h.advanced, BitVec.toNat_ofNat]

/-- A repeat, and a gap closed by a timeout. -/
def gapWithRepeat : List ReorderOp :=
  [.insertOwned { sequenceNumber := 0xFFFFFFFF } none 0, .insertOwned { sequenceNumber := 1 } none 0,
    .insertOwned { sequenceNumber := 1 } none 0, .insertOwned { sequenceNumber := 3 } none 0,
    .checkTimeout]

theorem gapWithRepeat_balance : ∃ s out,
    (Reorderer.new { windowSize := 4 } 0).run (fun k => 60000000 * k) gapWithRepeat = (s, out) ∧
    s.stats = ⟨2, 2, 1, 1, 3, 1⟩ ∧ (inserted gapWithRepeat).length =
      s.stats.packetsInOrder + s.stats.packetsDuplicate + s.stats.currentBufferSize :=
  ⟨_, _, rfl, by decide, (reorderer_balance (fun k => 60000000 * k) 0 (by decide) (by decide)
    (show firstSeq gapWithRepeat = some 0xFFFFFFFF from rfl) rfl).1⟩

end

end Qdgz300.Pipeline
