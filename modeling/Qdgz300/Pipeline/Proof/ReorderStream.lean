import Mathlib.Data.List.Nodup
import Qdgz300.Pipeline.Proof.ReorderWindow

/-!
# The output of the reorderer as a stream

* `run_fresh`: along every run without `flush` the window invariant holds, with the arrivals of the
  run (`arrivals`) and what it emitted (`render`).
* **`reorderer_stream`**: the output is in order, gap-explicit when zero-fill is on, and every
  position carries its first arrival.
-/

namespace Qdgz300.Pipeline

open Protocol

/-- What a call inserts. -/
def ReorderOp.entry? : ReorderOp → Option Entry
  | .insert packet => some
      ⟨packet.header, (Reorderer.copiedPayload packet).1, (Reorderer.copiedPayload packet).2⟩
  | .insertOwned header payload payloadSize => some ⟨header, payload, payloadSize⟩
  | _ => none

/-- The inserts of a run. -/
def inserted (ops : List ReorderOp) : List Entry := ops.filterMap ReorderOp.entry?

/-- The sequence number of the first insert. -/
def firstSeq (ops : List ReorderOp) : Option (BitVec 32) :=
  (ops.findSome? ReorderOp.entry?).map (·.header.sequenceNumber)

/-- The arrival of the `k`-th call. -/
def Reorderer.arrivalOf (s : Reorderer) (k : Nat) (op : ReorderOp) : List Arrival :=
  op.entry?.elim [] (s.arrival k)

/-- The arrivals of a run whose first call has number `k`. -/
def arrivals (clk : SteadyClock) : Nat → Reorderer → List ReorderOp → List Arrival
  | _, _, [] => []
  | k, s, op :: ops => s.arrivalOf k op ++ arrivals clk (k + 1) (s.step clk op).1 ops

section
variable {cfg : ReorderConfig} {s0 : BitVec 32} {A : List Arrival} {c : List (Option Entry)}
  {s : Reorderer} {op : ReorderOp} {e : Entry}

theorem inserted_cons (op : ReorderOp) (ops : List ReorderOp) :
    inserted (op :: ops) = op.entry?.toList ++ inserted ops := by
  unfold inserted
  cases hentry : op.entry? with
  | none => rw [List.filterMap_cons_none hentry]; rfl
  | some e => rw [List.filterMap_cons_some hentry]; rfl

/-! ## Before the first insert -/

/-- A window that any sequence number can open. -/
structure Fresh (cfg : ReorderConfig) (s : Reorderer) : Prop where
  uninit : s.initialized = false
  opens : ∀ seq, WinInv cfg seq [] [] (s.initWith seq)

theorem fresh_new (h1 : 1 ≤ cfg.windowSize) (h2 : cfg.windowSize < 2 ^ 31) (created : Int) :
    Fresh cfg (Reorderer.new cfg created) := by
  have hmax : max 1 cfg.windowSize = cfg.windowSize := Nat.max_eq_right h1
  refine ⟨rfl, fun seq => ?_⟩
  have hslot : ∀ q, SlotOk (Reorderer.new cfg created).ringSlots
      (Reorderer.new cfg created).occupancyBitmap seq q none := by
    intro q
    refine ⟨Bitmap.test_zeros _ _, ?_⟩
    rw [List.getD_eq_getElem?_getD]
    simp only [Reorderer.new, List.getElem?_replicate]
    split <;> rfl
  constructor
  constructor
  all_goals simp only [Reorderer.initWith, Reorderer.new, Bool.false_eq_true, if_false,
    List.length_replicate, hmax, List.length_nil, Nat.zero_mod, Nat.zero_add]
  · exact h2
  · rw [Bitmap.length_zeros]
  · simp
  · simp
  · simp
  · simpa [Reorderer.new, hmax] using hslot 0
  · intro q _ _
    have := hslot q
    simpa [Reorderer.new, hmax, held, first] using this
  · rfl

theorem initWith_idem (s : Reorderer) (seq : BitVec 32) :
    (s.initWith seq).initWith seq = s.initWith seq := by
  unfold Reorderer.initWith
  split <;> simp_all

theorem step_insert (clk : SteadyClock) (s : Reorderer) (he : op.entry? = some e) :
    s.step clk op = (s.initWith e.header.sequenceNumber).insertBody clk e.header e.payload
      e.payloadSize := by
  cases op with
  | insert packet => cases he; rfl
  | insertOwned header payload payloadSize => cases he; rfl
  | checkTimeout => cases he
  | flush => cases he
  | setTimeoutMs timeoutMs => cases he

theorem arrival_initWith (s : Reorderer) (k : Nat) (e : Entry) :
    (s.initWith e.header.sequenceNumber).arrival k e = s.arrival k e := by
  have hring : (s.initWith e.header.sequenceNumber).ringSlots = s.ringSlots := by
    unfold Reorderer.initWith; split <;> rfl
  have hstats : (s.initWith e.header.sequenceNumber).stats = s.stats := by
    unfold Reorderer.initWith; split <;> rfl
  rw [Reorderer.arrival, Reorderer.arrival, Reorderer.position?, Reorderer.position?, hring, hstats,
    initWith_idem]

theorem step_fresh (clk : SteadyClock) (h : Fresh cfg s) (hop : op ≠ .flush)
    (he : op.entry? = none) : Fresh cfg (s.step clk op).1 ∧ (s.step clk op).2 = [] := by
  cases op with
  | insert packet => cases he
  | insertOwned header payload payloadSize => cases he
  | flush => exact absurd rfl hop
  | checkTimeout =>
    rw [Reorderer.step, Reorderer.checkTimeout, if_pos h.uninit]
    exact ⟨h, rfl⟩
  | setTimeoutMs timeoutMs =>
    refine ⟨⟨h.uninit, fun seq => (h.opens seq).frame ?_ ?_ ?_ ?_ ?_ ?_ ?_⟩, rfl⟩
    all_goals
      unfold Reorderer.step Reorderer.setTimeoutMs Reorderer.initWith
      simp only [h.uninit, Bool.false_eq_true, if_false]

/-! ## Runs -/

/-- **One call** keeps the window and emits the positions it consumed. -/
theorem step_win (clk : SteadyClock) (k : Nat) (h : WinInv cfg s0 A c s) (hop : op ≠ .flush) :
    ∃ d, WinInv cfg s0 (A ++ s.arrivalOf k op) (c ++ d) (s.step clk op).1 ∧
      (s.step clk op).2 = render cfg.enableZeroFill s0 c.length d := by
  cases he : op.entry? with
  | some e =>
    rw [step_insert clk s he, Reorderer.arrivalOf, he, Reorderer.initWith, if_pos h.init]
    exact insertBody_inv clk cfg.enableZeroFill k e h
  | none =>
    rw [Reorderer.arrivalOf, he, Option.elim_none, List.append_nil]
    cases op with
    | insert packet => cases he
    | insertOwned header payload payloadSize => cases he
    | flush => exact absurd rfl hop
    | checkTimeout => exact checkTimeout_inv clk h
    | setTimeoutMs timeoutMs =>
      refine ⟨[], ?_, rfl⟩
      rw [List.append_nil]
      exact h.frame rfl rfl rfl rfl rfl rfl rfl

/-- **A run of an opened window**: its arrivals are recorded and its output is what the consumed
positions render to. -/
theorem run_win (clk : SteadyClock) :
    ∀ (ops : List ReorderOp) (k : Nat) (A : List Arrival) (c : List (Option Entry)) (s : Reorderer),
      WinInv cfg s0 A c s → (∀ op ∈ ops, op ≠ .flush) →
      ∃ d, WinInv cfg s0 (A ++ arrivals clk k s ops) (c ++ d) (s.run clk ops).1 ∧
        (s.run clk ops).2 = render cfg.enableZeroFill s0 c.length d := by
  intro ops
  induction ops with
  | nil =>
    intro k A c s h _
    exact ⟨[], by simpa [arrivals, Reorderer.run] using h, rfl⟩
  | cons op ops ih =>
    intro k A c s h hops
    obtain ⟨d1, hd1, hout1⟩ := step_win clk k h (hops op List.mem_cons_self)
    obtain ⟨d2, hd2, hout2⟩ := ih (k + 1) _ _ _ hd1 fun op' hm =>
      hops op' (List.mem_cons_of_mem _ hm)
    refine ⟨d1 ++ d2, ?_, ?_⟩
    · simpa [arrivals, Reorderer.run, Machine.run] using hd2
    · rw [render_append, ← hout1, ← List.length_append, ← hout2]
      rfl

theorem run_initWith (clk : SteadyClock) (k : Nat) (s : Reorderer) (ops : List ReorderOp)
    (he : op.entry? = some e) :
    s.run clk (op :: ops) = (s.initWith e.header.sequenceNumber).run clk (op :: ops) ∧
      arrivals clk k s (op :: ops) =
        arrivals clk k (s.initWith e.header.sequenceNumber) (op :: ops) := by
  have hstep : s.step clk op = (s.initWith e.header.sequenceNumber).step clk op := by
    rw [step_insert clk _ he, step_insert clk _ he, initWith_idem]
  refine ⟨?_, ?_⟩
  · simp only [Reorderer.run, Machine.run, hstep]
  · simp only [arrivals, hstep, Reorderer.arrivalOf, he, Option.elim_some, arrival_initWith]

/-- **A run from a fresh window**, which its first insert opens. -/
theorem run_fresh (clk : SteadyClock) :
    ∀ (ops : List ReorderOp) (k : Nat) (s : Reorderer),
      Fresh cfg s → (∀ op ∈ ops, op ≠ .flush) → firstSeq ops = some s0 →
      ∃ d, WinInv cfg s0 (arrivals clk k s ops) d (s.run clk ops).1 ∧
        (s.run clk ops).2 = render cfg.enableZeroFill s0 0 d := by
  intro ops
  induction ops with
  | nil => intro k s _ _ h0; cases h0
  | cons op ops ih =>
    intro k s h hops h0
    cases he : op.entry? with
    | none =>
      obtain ⟨h1, h2⟩ := step_fresh clk h (hops op List.mem_cons_self) he
      obtain ⟨d, hd, hout⟩ := ih (k + 1) _ h1 (fun op' hm => hops op' (List.mem_cons_of_mem _ hm))
        (by simpa [firstSeq, he] using h0)
      refine ⟨d, ?_, ?_⟩
      · simpa [arrivals, Reorderer.arrivalOf, he, Reorderer.run, Machine.run] using hd
      · rw [← hout, Reorderer.run, Machine.run, h2]
        rfl
    | some e =>
      have hseq : e.header.sequenceNumber = s0 := by simpa [firstSeq, he] using h0
      obtain ⟨hrun, harr⟩ := run_initWith clk k s ops he
      rw [hrun, harr, hseq]
      simpa using run_win clk (op :: ops) k _ _ _ (h.opens s0) hops

/-! ## The emitted positions -/

/-- The positions that are shown in the output: all of them with zero-fill, else the filled ones. -/
def shown (zeroFill : Bool) : Nat → List (Option Entry) → List Nat
  | _, [] => []
  | i, some _ :: c => i :: shown zeroFill (i + 1) c
  | i, none :: c => if zeroFill then i :: shown zeroFill (i + 1) c else shown zeroFill (i + 1) c

/-- The packet shown for a position. -/
def shownPacket (s0 : BitVec 32) (q : Nat) : Option Entry → OrderedPacket
  | some e => e.packet (s0 + BitVec.ofNat 32 q)
  | none => Reorderer.createZeroFilledPacket (s0 + BitVec.ofNat 32 q)

theorem shown_bounds (zf : Bool) :
    ∀ (c : List (Option Entry)) (i q : Nat), q ∈ shown zf i c → i ≤ q ∧ q < i + c.length
  | [], i, q, h => by cases h
  | some e :: c, i, q, h => by
    rcases List.mem_cons.1 h with rfl | h
    · simp
    · have := shown_bounds zf c (i + 1) q h
      simp only [List.length_cons]
      omega
  | none :: c, i, q, h => by
    have htail : q ∈ shown zf (i + 1) c → i ≤ q ∧ q < i + (none :: c).length := by
      intro h
      have := shown_bounds zf c (i + 1) q h
      simp only [List.length_cons]
      omega
    cases zf with
    | false => exact htail h
    | true =>
      rcases List.mem_cons.1 h with rfl | h
      · simp
      · exact htail h

theorem shown_pairwise (zf : Bool) :
    ∀ (c : List (Option Entry)) (i : Nat), (shown zf i c).Pairwise (· < ·)
  | [], i => List.Pairwise.nil
  | some e :: c, i => List.pairwise_cons.2
      ⟨fun q hq => (shown_bounds zf c (i + 1) q hq).1, shown_pairwise zf c (i + 1)⟩
  | none :: c, i => by
    cases zf with
    | false => exact shown_pairwise false c (i + 1)
    | true =>
      refine List.pairwise_cons.2 ⟨fun q hq => ?_, shown_pairwise true c (i + 1)⟩
      exact (shown_bounds true c (i + 1) q hq).1

theorem shown_zeroFill :
    ∀ (c : List (Option Entry)) (i : Nat), shown true i c = List.range' i c.length
  | [], i => rfl
  | some e :: c, i => by simp only [shown, shown_zeroFill c, List.length_cons, List.range'_succ]
  | none :: c, i => by
    simp only [shown, shown_zeroFill c, List.length_cons, List.range'_succ, if_true]

/-- What is rendered is the shown positions, each with what was consumed there. -/
theorem render_eq_map (zf : Bool) (s0 : BitVec 32) (f : Nat → Option Entry) :
    ∀ (c : List (Option Entry)) (i : Nat), (∀ q < c.length, (c)[q]? = some (f (i + q))) →
      render zf s0 i c = (shown zf i c).map fun q => shownPacket s0 q (f q)
  | [], i, _ => rfl
  | o :: c, i, h => by
    have hhead : o = f i := by simpa using h 0 (by simp)
    have htail := render_eq_map zf s0 f c (i + 1) fun q hq => by
      have := h (q + 1) (by simpa using hq)
      rw [Nat.add_right_comm, Nat.add_assoc]
      simpa using this
    cases o with
    | some e => rw [render, shown, List.map_cons, ← hhead, htail]; rfl
    | none =>
      rw [render, shown, htail]
      cases zf with
      | false => simp
      | true => simp [← hhead, shownPacket]

/-- Without zero-fill only filled positions are shown. -/
theorem shown_filled (f : Nat → Option Entry) :
    ∀ (c : List (Option Entry)) (i : Nat), (∀ q < c.length, (c)[q]? = some (f (i + q))) →
      ∀ q ∈ shown false i c, f q ≠ none
  | [], i, _, q, hq => by cases hq
  | o :: c, i, h, q, hq => by
    have hhead : o = f i := by simpa using h 0 (by simp)
    have htail := shown_filled f c (i + 1) fun q hq => by
      have := h (q + 1) (by simpa using hq)
      rw [Nat.add_right_comm, Nat.add_assoc]
      simpa using this
    cases o with
    | none => exact htail q hq
    | some e =>
      rcases List.mem_cons.1 hq with rfl | hq
      · rw [← hhead]
        simp
      · exact htail q hq

/-! ## Which inserts arrive -/

theorem mem_arrivals (clk : SteadyClock) (a : Arrival) :
    ∀ (ops : List ReorderOp) (k : Nat) (s : Reorderer), a ∈ arrivals clk k s ops ↔
      ∃ j op, ops[j]? = some op ∧ a ∈ (s.run clk (ops.take j)).1.arrivalOf (k + j) op
  | [], k, s => by simp [arrivals]
  | op :: ops, k, s => by
    rw [arrivals, List.mem_append, mem_arrivals clk a ops (k + 1)]
    constructor
    · rintro (h | ⟨j, op', h1, h2⟩)
      · exact ⟨0, op, rfl, h⟩
      · refine ⟨j + 1, op', h1, ?_⟩
        rw [Nat.add_right_comm, Nat.add_assoc] at h2
        exact h2
    · rintro ⟨j, op', h1, h2⟩
      cases j with
      | zero =>
        cases h1
        exact .inl h2
      | succ j =>
        refine .inr ⟨j, op', h1, ?_⟩
        rw [Nat.add_right_comm, Nat.add_assoc]
        exact h2

theorem mem_arrivalOf {k : Nat} {a : Arrival} : a ∈ s.arrivalOf k op ↔
    op.entry? = some a.entry ∧ a.index = k ∧
      s.position? a.entry.header.sequenceNumber = some a.position := by
  obtain ⟨i, q, e⟩ := a
  cases he : op.entry? with
  | none => simp [Reorderer.arrivalOf, he]
  | some e' =>
    simp only [Reorderer.arrivalOf, he, Option.elim_some, Reorderer.arrival, Option.mem_toList,
      Option.map_eq_some_iff, Option.some.injEq]
    constructor
    · rintro ⟨q', h, heq⟩
      cases heq
      exact ⟨rfl, rfl, h⟩
    · rintro ⟨rfl, rfl, h⟩
      exact ⟨q, h, rfl⟩

/-- A number is in the window of `n` positions from `p` exactly at its own position. -/
theorem WinInv.position?_iff (h : WinInv cfg s0 A c s) (seq : BitVec 32) (q : Nat) :
    s.position? seq = some q ↔
      s.stats.sequencesAdvanced ≤ q ∧ q < s.stats.sequencesAdvanced + s.ringSlots.length ∧
        seq = s0 + BitVec.ofNat 32 q := by
  rw [h.position?, h.advanced]
  have hseq := h.seq_eq seq
  have hsmall := h.small
  constructor
  · intro hq
    split at hq
    · cases hq
      exact ⟨by omega, by omega, hseq.symm⟩
    · cases hq
  · rintro ⟨h1, h2, h3⟩
    have hdelta : seq - s.nextExpectedSeq = BitVec.ofNat 32 (q - c.length) := by
      rw [h.next, h3]
      obtain ⟨r, rfl⟩ := Nat.exists_eq_add_of_le h1
      rw [Nat.add_sub_cancel_left, BitVec.ofNat_add]
      generalize BitVec.ofNat 32 c.length = x
      generalize BitVec.ofNat 32 r = y
      rw [← BitVec.add_assoc, BitVec.add_comm (s0 + x), BitVec.add_sub_cancel]
    have hnat : (seq - s.nextExpectedSeq).toNat = q - c.length := by
      rw [hdelta, BitVec.toNat_ofNat, Nat.mod_eq_of_lt (by omega)]
    rw [hnat, if_pos (by omega)]
    congr 1
    omega

/-- Arrivals are listed in the order of their calls. -/
theorem arrivals_sorted (clk : SteadyClock) :
    ∀ (ops : List ReorderOp) (k : Nat) (s : Reorderer),
      (arrivals clk k s ops).Pairwise fun a b => a.index < b.index
  | [], k, s => List.Pairwise.nil
  | op :: ops, k, s => by
    rw [arrivals, List.pairwise_append]
    refine ⟨?_, arrivals_sorted clk ops (k + 1) _, ?_⟩
    · unfold Reorderer.arrivalOf Reorderer.arrival
      cases op.entry? with
      | none => exact List.Pairwise.nil
      | some e =>
        simp only [Option.elim_some]
        cases s.position? e.header.sequenceNumber with
        | none => exact List.Pairwise.nil
        | some q => exact List.pairwise_singleton _ _
    · intro a ha b hb
      obtain ⟨-, hk, -⟩ := mem_arrivalOf.1 ha
      obtain ⟨j, op', -, hj⟩ := (mem_arrivals clk b ops (k + 1) _).1 hb
      obtain ⟨-, hk', -⟩ := mem_arrivalOf.1 hj
      omega

theorem run_fresh_none (clk : SteadyClock) :
    ∀ (ops : List ReorderOp) (s : Reorderer), Fresh cfg s → (∀ op ∈ ops, op ≠ .flush) →
      firstSeq ops = none → Fresh cfg (s.run clk ops).1 := by
  intro ops
  induction ops with
  | nil => intro s h _ _; exact h
  | cons op ops ih =>
    intro s h hops h0
    cases he : op.entry? with
    | some e => simp [firstSeq, he] at h0
    | none =>
      exact ih _ (step_fresh clk h (hops op List.mem_cons_self) he).1
        (fun op' hm => hops op' (List.mem_cons_of_mem _ hm)) (by simpa [firstSeq, he] using h0)

theorem firstSeq_append (ops ops' : List ReorderOp) :
    firstSeq (ops ++ ops') = (firstSeq ops).or (firstSeq ops') := by
  rw [firstSeq, firstSeq, firstSeq, List.findSome?_append]
  cases ops.findSome? ReorderOp.entry? <;> rfl

/-- **The arrivals** of a run are the inserts whose number stands for a position of the window at
their call. -/
theorem mem_arrivals_iff {ops : List ReorderOp} (clk : SteadyClock) (h : Fresh cfg s)
    (hops : ∀ op ∈ ops, op ≠ .flush) (h0 : firstSeq ops = some s0) (a : Arrival) :
    a ∈ arrivals clk 0 s ops ↔ ∃ op, ops[a.index]? = some op ∧ op.entry? = some a.entry ∧
      (s.run clk (ops.take a.index)).1.stats.sequencesAdvanced ≤ a.position ∧
      a.position < (s.run clk (ops.take a.index)).1.stats.sequencesAdvanced + max 1 cfg.windowSize ∧
      a.entry.header.sequenceNumber = s0 + BitVec.ofNat 32 a.position := by
  -- the window before the call, or the one that the call opens
  have hpos : ∀ op, ops[a.index]? = some op → op.entry? = some a.entry →
      ((s.run clk (ops.take a.index)).1.position? a.entry.header.sequenceNumber = some a.position ↔
      (s.run clk (ops.take a.index)).1.stats.sequencesAdvanced ≤ a.position ∧
      a.position < (s.run clk (ops.take a.index)).1.stats.sequencesAdvanced + max 1 cfg.windowSize ∧
      a.entry.header.sequenceNumber = s0 + BitVec.ofNat 32 a.position) := by
    intro op hop he
    obtain ⟨hlt, hget⟩ := List.getElem?_eq_some_iff.1 hop
    have hsplit : firstSeq ops = (firstSeq (ops.take a.index)).or (firstSeq (ops.drop a.index)) := by
      rw [← firstSeq_append, List.take_append_drop]
    have hpre : ∀ op ∈ ops.take a.index, op ≠ .flush := fun op hm =>
      hops op (List.mem_of_mem_take hm)
    cases hf : firstSeq (ops.take a.index) with
    | some seq =>
      rw [hf, Option.some_or, h0] at hsplit
      cases hsplit
      obtain ⟨d, hd, -⟩ := run_fresh clk (ops.take a.index) 0 s h hpre hf
      rw [hd.position?_iff, hd.size]
    | none =>
      have hfresh := run_fresh_none clk (ops.take a.index) s h hpre hf
      have hs0 : a.entry.header.sequenceNumber = s0 := by
        rw [hf, Option.none_or, h0, List.drop_eq_getElem_cons hlt, hget] at hsplit
        simpa [firstSeq, he] using hsplit.symm
      have hopen := hfresh.opens s0
      have hstate : (s.run clk (ops.take a.index)).1.position? s0 =
          ((s.run clk (ops.take a.index)).1.initWith s0).position? s0 := by
        simp [Reorderer.position?, Reorderer.initWith, hfresh.uninit]
      have hadv : (s.run clk (ops.take a.index)).1.stats =
          ((s.run clk (ops.take a.index)).1.initWith s0).stats := by
        simp [Reorderer.initWith, hfresh.uninit]
      rw [hs0, hstate, hopen.position?_iff, hopen.size, hadv]
  rw [mem_arrivals]
  constructor
  · rintro ⟨j, op, hop, hmem⟩
    obtain ⟨he, hj, hq⟩ := mem_arrivalOf.1 hmem
    obtain rfl : j = a.index := by omega
    exact ⟨op, hop, he, (hpos op hop he).1 hq⟩
  · rintro ⟨op, hop, he, hq⟩
    exact ⟨a.index, op, hop, mem_arrivalOf.2 ⟨he, by omega, (hpos op hop he).2 hq⟩⟩

/-! ## The stream -/

/-- The output `out` shows the positions `d`, each with its first arrival or as a gap. -/
structure StreamOf (cfg : ReorderConfig) (s0 : BitVec 32) (A : List Arrival)
    (out : List OrderedPacket) (d : List Nat) : Prop where
  increasing : d.Pairwise (· < ·)
  length : d.length = out.length
  number : ∀ (i q : Nat) (p : OrderedPacket), d[i]? = some q → out[i]? = some p →
    p.sequenceNumber = s0 + BitVec.ofNat 32 q
  carries : ∀ (i q : Nat) (p : OrderedPacket), d[i]? = some q → out[i]? = some p →
    (∃ a, first A q = some a ∧ p = a.entry.packet (s0 + BitVec.ofNat 32 q)) ∨
    (first A q = none ∧ p = Reorderer.createZeroFilledPacket (s0 + BitVec.ofNat 32 q))
  dense : cfg.enableZeroFill = true → d = List.range out.length
  filled : cfg.enableZeroFill = false → ∀ q ∈ d, first A q ≠ none
  once : (d.filterMap fun q => (first A q).map (·.index)).Nodup

theorem first_mem {q : Nat} {a : Arrival} (h : first A q = some a) : a ∈ A ∧ a.position = q :=
  ⟨List.mem_of_find?_eq_some h, by simpa using List.find?_some h⟩

/-- Different positions have different first arrivals. -/
theorem first_index_nodup (hA : A.Pairwise fun a b => a.index < b.index) {d : List Nat}
    (hd : d.Pairwise (· < ·)) : (d.filterMap fun q => (first A q).map (·.index)).Nodup := by
  rw [List.Nodup, List.pairwise_filterMap]
  refine hd.imp ?_
  intro q r hqr i hi j hj hij
  obtain ⟨a, ha, rfl⟩ := Option.map_eq_some_iff.1 hi
  obtain ⟨b, hb, rfl⟩ := Option.map_eq_some_iff.1 hj
  obtain ⟨hma, hpa⟩ := first_mem ha
  obtain ⟨hmb, hpb⟩ := first_mem hb
  have hnodup : (A.map (·.index)).Nodup := List.pairwise_map.2 (hA.imp Nat.ne_of_lt)
  have hab : a = b := List.inj_on_of_nodup_map hnodup hma hmb hij
  rw [hab] at hpa
  omega

/-- **The output of a window**: the consumed positions, as a stream. -/
theorem WinInv.streamOf (h : WinInv cfg s0 A c s)
    (hA : A.Pairwise fun a b => a.index < b.index) :
    StreamOf cfg s0 A (render cfg.enableZeroFill s0 0 c) (shown cfg.enableZeroFill 0 c) := by
  have hpast : ∀ q < c.length, (c)[q]? = some (held A (0 + q)) := by simpa using h.past
  have hmap := render_eq_map cfg.enableZeroFill s0 (held A) c 0 hpast
  have hget : ∀ (i q : Nat) (p : OrderedPacket), (shown cfg.enableZeroFill 0 c)[i]? = some q →
      (render cfg.enableZeroFill s0 0 c)[i]? = some p → p = shownPacket s0 q (held A q) := by
    intro i q p hq hp
    rw [hmap, List.getElem?_map, hq] at hp
    exact (Option.some.inj hp).symm
  refine ⟨shown_pairwise _ c 0, by rw [hmap, List.length_map], ?_, ?_, ?_, ?_,
    first_index_nodup hA (shown_pairwise _ c 0)⟩
  · intro i q p hq hp
    rw [hget i q p hq hp]
    cases held A q <;> rfl
  · intro i q p hq hp
    rw [hget i q p hq hp, held]
    cases first A q with
    | none => exact .inr ⟨rfl, rfl⟩
    | some a => exact .inl ⟨a, rfl, rfl⟩
  · intro hz
    rw [hmap, hz, List.length_map, shown_zeroFill, List.length_range', List.range_eq_range']
  · intro hz q hq hnone
    rw [hz] at hq
    exact shown_filled (held A) c 0 hpast q hq (by rw [held, hnone]; rfl)

/-- **The reorderer's output is an in-order, gap-explicit stream.** For every run of inserts and
timeout checks, with `s0` the number of the first insert: the output shows increasing positions,
numbered from `s0`; each carries the first insert that arrived for it while it was in the window,
or is a gap packet when none did; gaps are shown exactly with zero-fill, and no insert is shown
twice. -/
theorem reorderer_stream {ops : List ReorderOp} (clk : SteadyClock) (created : Int)
    (h1 : 1 ≤ cfg.windowSize) (h2 : cfg.windowSize < 2 ^ 31)
    (hops : ∀ op ∈ ops, op ≠ .flush) (h0 : firstSeq ops = some s0) :
    (∃ d, StreamOf cfg s0 (arrivals clk 0 (Reorderer.new cfg created) ops)
      ((Reorderer.new cfg created).run clk ops).2 d) ∧
    (arrivals clk 0 (Reorderer.new cfg created) ops).Pairwise (fun a b => a.index < b.index) ∧
    ∀ a, a ∈ arrivals clk 0 (Reorderer.new cfg created) ops ↔
      ∃ op, ops[a.index]? = some op ∧ op.entry? = some a.entry ∧
        ((Reorderer.new cfg created).run clk (ops.take a.index)).1.stats.sequencesAdvanced
          ≤ a.position ∧
        a.position < ((Reorderer.new cfg created).run clk (ops.take a.index)).1.stats.sequencesAdvanced
          + cfg.windowSize ∧
        a.entry.header.sequenceNumber = s0 + BitVec.ofNat 32 a.position := by
  have hfresh := fresh_new h1 h2 created
  have hsorted := arrivals_sorted clk ops 0 (Reorderer.new cfg created)
  obtain ⟨c, hc, hout⟩ := run_fresh clk ops 0 _ hfresh hops h0
  refine ⟨⟨shown cfg.enableZeroFill 0 c, ?_⟩, hsorted, fun a => ?_⟩
  · rw [hout]
    exact hc.streamOf hsorted
  · rw [mem_arrivals_iff clk hfresh hops h0 a, Nat.max_eq_right h1]

/-- A gap across the wrap of the sequence numbers, closed by a timeout. -/
def wrapGapRun : List ReorderOp :=
  [.insertOwned { sequenceNumber := 0xFFFFFFFF } (some [7]) 1,
    .insertOwned { sequenceNumber := 1 } none 0, .checkTimeout]

theorem wrapGapRun_stream :
    (((Reorderer.new { windowSize := 4 } 0).run (fun k => 60000000 * k) wrapGapRun).2.map
      fun p => (p.sequenceNumber, p.isZeroFilled)) =
        [(0xFFFFFFFF, false), (0, true), (1, false)] ∧
    ∃ d, StreamOf { windowSize := 4 } 0xFFFFFFFF
      (arrivals (fun k => 60000000 * k) 0 (Reorderer.new { windowSize := 4 } 0) wrapGapRun)
      ((Reorderer.new { windowSize := 4 } 0).run (fun k => 60000000 * k) wrapGapRun).2 d :=
  ⟨by decide, (reorderer_stream (fun k => 60000000 * k) 0 (by decide) (by decide)
    (by simp [wrapGapRun]) rfl).1⟩

end

end Qdgz300.Pipeline
