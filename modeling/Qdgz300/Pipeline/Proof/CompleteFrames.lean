import Qdgz300.Pipeline.Proof.FrameLayout

/-!
# Which frames are reported complete

A context is completed by its count of accepted fragments; the flags of its frame are computed anew
from the data in its slots. A tail that carries no bytes is accepted and counted, and leaves its
slot without data: a frame with such a tail is completed and reported incomplete.

* `isComplete_iff`, `missing_zero_iff`: the flags of a frame.
* `reports_iff`: a step reports its frames right unless it completes a context with an empty tail.
* **`completion_reported_iff`**: so along every run. `emptyTail_not_reported` is the smallest run
  that goes wrong.
-/

namespace Qdgz300.Pipeline

open Protocol

/-- The number of fragments that the creator of the context announced. -/
def FragmentRecord.total (r : FragmentRecord) : Nat :=
  (r.creator.map fun c => c.specific.totalFrags.toNat).getD 0

/-- The frames of a call are reported complete exactly when each of their fragments was accepted,
and a frame that a packet completes is counted so. -/
def ReportsExactly (clk : SystemClock) (st : Reassembler × History) (op : ReassemblerOp) : Prop :=
  ∀ e ∈ (st.1.step clk op).2,
    (e.frame.isComplete = true ↔
      (st.1.record clk st.2 op e.frame.key).Full (st.1.record clk st.2 op e.frame.key).total) ∧
    (e.frame.missingFragmentsCount = 0 ↔
      (st.1.record clk st.2 op e.frame.key).Full (st.1.record clk st.2 op e.frame.key).total) ∧
    (op.packet?.isSome = true →
      ((st.1.step clk op).1.stats.framesCompleted = st.1.stats.framesCompleted + 1 ↔
        (st.1.record clk st.2 op e.frame.key).Full (st.1.record clk st.2 op e.frame.key).total))

instance (r : FragmentRecord) (n : Nat) : Decidable (r.Full n) :=
  inferInstanceAs (Decidable (∀ i < n, ∃ f ∈ r.accepted, f.index = i))

instance (clk : SystemClock) (st : Reassembler × History) (op : ReassemblerOp) :
    Decidable (ReportsExactly clk st op) :=
  inferInstanceAs (Decidable (∀ e ∈ (st.1.step clk op).2, _ ∧ _ ∧ (_ → _)))

/-- A tail that announces no bytes. -/
def Fragment.EmptyTail (f : Fragment) : Prop :=
  f.specific.isTailFragment = true ∧ f.specific.tailFragPayloadBytes = 0

/-- The packet that brings a context its last fragment is no empty tail, and none was accepted into
the context before. -/
def CompletesWithoutEmptyTail (clk : SystemClock) (st : Reassembler × History)
    (op : ReassemblerOp) :
    Prop :=
  ∀ frag ctx, Completing clk st.1 op frag ctx → ¬ frag.EmptyTail ∧
    ∀ f ∈ (st.1.begun st.2 frag).accepted, ¬ f.EmptyTail

section
variable {cfg : ReassemblerConfig} {ctx : ReassemblyContext} {r : FragmentRecord} {f : Fragment}
  {P : Fragment → Prop}

theorem Behind.total (h : Behind P ctx r) : r.total = ctx.totalFrags.toNat := by
  obtain ⟨c, -, hc, htotal, -⟩ := h.creator
  rw [FragmentRecord.total, hc, htotal]
  rfl

theorem Behind.nonempty_iff (h : Behind Fragment.TailSized ctx r) (hf : f ∈ r.accepted) :
    0 < f.payloadSize ↔ ¬ f.EmptyTail := by
  obtain ⟨hsized, -, -, -, hinner⟩ := h.checked f hf
  cases htail : f.specific.isTailFragment with
  | false => simp [Fragment.EmptyTail, htail, hinner htail]
  | true =>
    rw [hsized htail, Fragment.EmptyTail, ← BitVec.toNat_inj]
    simp only [htail, true_and, BitVec.ofNat_eq_ofNat, BitVec.toNat_ofNat, Nat.zero_mod]
    omega

/-! ## The flags of a frame -/

theorem isComplete_iff (cfg : ReassemblerConfig) (key : ReassemblyKey) :
    (Reassembler.assembleFrame cfg key ctx).isComplete = true ↔
      ∀ i < ctx.totalFrags.toNat, Reassembler.received ctx i = true := by
  simp [Reassembler.assembleFrame, List.isEmpty_iff, List.filter_eq_nil_iff]

theorem missing_zero_iff (cfg : ReassemblerConfig) (key : ReassemblyKey)
    (hmax : ctx.totalFrags.toNat ≤ 1024) :
    (Reassembler.assembleFrame cfg key ctx).missingFragmentsCount = 0 ↔
      (Reassembler.assembleFrame cfg key ctx).isComplete = true := by
  rw [← BitVec.toNat_inj, assembleFrame_count cfg key hmax]
  simp [Reassembler.assembleFrame, List.isEmpty_iff, List.length_eq_zero_iff]

theorem Behind.isComplete_open (h : Behind P ctx r) (hopen : ctx.checkComplete = false)
    (cfg : ReassemblerConfig) (key : ReassemblyKey) :
    (Reassembler.assembleFrame cfg key ctx).isComplete = false ∧ ¬ r.Full r.total := by
  have hnot : ¬ r.Full ctx.totalFrags.toNat := by
    rw [← h.checkComplete_iff, hopen]
    exact Bool.false_ne_true
  refine ⟨?_, by rwa [h.total]⟩
  rw [← Bool.not_eq_true, isComplete_iff]
  intro hall
  refine hnot fun i hi => ?_
  obtain ⟨f, hf, heq, -⟩ := (h.received_iff i).1 (hall i hi)
  exact ⟨f, hf, heq⟩

/-- **A context that misses none** is reported complete when no empty tail is among its
fragments. -/
theorem Behind.isComplete_done (h : Behind Fragment.TailSized ctx r)
    (hdone : ctx.checkComplete = true) (cfg : ReassemblerConfig) (key : ReassemblyKey) :
    ((Reassembler.assembleFrame cfg key ctx).isComplete = true ↔ ∀ f ∈ r.accepted, ¬ f.EmptyTail) ∧
      r.Full r.total := by
  have hfull : r.Full ctx.totalFrags.toNat := h.checkComplete_iff.1 hdone
  refine ⟨?_, by rwa [h.total]⟩
  rw [isComplete_iff]
  constructor
  · intro hall f hf
    obtain ⟨f', hf', heq, hpos⟩ := (h.received_iff f.index).1 (hall _ (h.checked f hf).2.1)
    obtain rfl : f' = f := List.inj_on_of_nodup_map h.nodup hf' hf heq
    exact (h.nonempty_iff hf).1 hpos
  · intro hnone i hi
    obtain ⟨f, hf, heq⟩ := hfull i hi
    exact (h.received_iff i).2 ⟨f, hf, heq, (h.nonempty_iff hf).2 (hnone f hf)⟩

end

/-! ## Runs -/

section
variable {clk : SystemClock} {cfg : ReassemblerConfig} {s : Reassembler} {h : History}
  {op : ReassemblerOp}

theorem Completing.unique {frag frag' : Fragment} {ctx ctx' : ReassemblyContext}
    (hc : Completing clk s op frag ctx) (hc' : Completing clk s op frag' ctx') :
    frag' = frag ∧ ctx' = ctx := by
  obtain ⟨storage, packet, hop, harr, -⟩ := hc.arrives
  have harr' := (hc'.arrival hop).1
  rw [harr] at harr'
  cases harr'
  exact ⟨rfl, rfl⟩

/-- **A step** reports its frames right exactly when it completes no context with an empty tail. -/
theorem reports_iff (hr : Recorded Fragment.TailSized cfg (s, h)) :
    ReportsExactly clk (s, h) op ↔ CompletesWithoutEmptyTail clk (s, h) op := by
  by_cases hc : ∃ frag ctx, Completing clk s op frag ctx
  · -- one frame, all of whose fragments were accepted
    obtain ⟨frag, ctx, hc⟩ := hc
    obtain ⟨storage, packet, hop, -, -⟩ := hc.arrives
    obtain ⟨hbehind, hdone, hmax, hrecord, hout, hcount⟩ :=
      hr.completed hop (fun _ hfrag => fragmentOf_tailSized hfrag) hc rfl
    obtain ⟨hiff, hfull⟩ := hbehind.isComplete_done hdone s.config frag.key
    have hzero := missing_zero_iff s.config frag.key hmax
    have hcond : CompletesWithoutEmptyTail clk (s, h) op ↔
        ∀ f ∈ ((s.begun h frag).add frag).accepted, ¬ f.EmptyTail := by
      constructor
      · intro hcond f hf
        obtain ⟨hlast, hbefore⟩ := hcond frag ctx hc
        rcases List.mem_append.1 hf with hf | hf
        · exact hbefore f hf
        · rw [List.mem_singleton.1 hf]
          exact hlast
      · intro hall frag' ctx'' hc'
        obtain ⟨rfl, rfl⟩ := hc.unique hc'
        exact ⟨hall _ (List.mem_append_right _ (List.mem_singleton_self _)),
          fun f hf => hall f (List.mem_append_left _ hf)⟩
    have hfull' : (s.record clk h op frag.key).Full (s.record clk h op frag.key).total := by
      rw [hrecord]
      exact hfull
    rw [hcond, ← hiff]
    constructor
    · intro hrep
      exact (hrep _ (hout ▸ List.mem_singleton_self _)).1.2 hfull'
    · intro hflag e he
      simp only [hout, List.mem_singleton] at he
      subst he
      refine ⟨iff_of_true hflag hfull', iff_of_true (hzero.2 hflag) hfull', fun _ => ?_⟩
      refine iff_of_true ?_ hfull'
      rw [hcount, if_pos (hzero.2 hflag)]
  · -- no frame, or frames of contexts that miss a fragment
    have hcond : CompletesWithoutEmptyTail clk (s, h) op :=
      fun frag ctx hc' => absurd ⟨frag, ctx, hc'⟩ hc
    refine iff_of_true (fun e he => ?_) hcond
    cases hop : op.packet? with
    | some sp =>
      obtain ⟨storage, packet⟩ := sp
      have hsilent : (s.step clk op).2 = [] :=
        step_silent hop fun frag ctx hc' => hc ⟨frag, ctx, hc'⟩
      rw [hsilent] at he
      cases he
    | none =>
      obtain ⟨ctx, -, hbehind, hopen, hmax, hframe⟩ := hr.drained hop he
      obtain ⟨hflag, hnot⟩ := hbehind.isComplete_open hopen s.config e.frame.key
      have hzero := missing_zero_iff s.config e.frame.key hmax
      rw [← hframe] at hflag hzero
      refine ⟨iff_of_false ?_ hnot, iff_of_false ?_ hnot, fun hsome => ?_⟩
      · rw [hflag]
        exact Bool.false_ne_true
      · rw [hzero, hflag]
        exact Bool.false_ne_true
      · cases hsome

/-- **A frame is reported complete exactly when every fragment was accepted**, in every run that
completes no context with an empty tail, and in no other. -/
theorem completion_reported_iff (clk : SystemClock) (cfg : ReassemblerConfig)
    (ops : List ReassemblerOp) :
    Machine.RunAlong (recordStep clk) (ReportsExactly clk) (Reassembler.new cfg, fun _ => {}) ops ↔
      Machine.RunAlong (recordStep clk) (CompletesWithoutEmptyTail clk)
        (Reassembler.new cfg, fun _ => {}) ops :=
  Machine.runAlong_iff (recordStep clk) (I := Recorded Fragment.TailSized cfg)
    (fun _ _ hr => reports_iff hr)
    (fun _ _ hr _ => recorded_step (fun _ _ _ _ hfrag => fragmentOf_tailSized hfrag) hr)
    (recorded_new _ cfg _)

end

/-- A frame of one fragment, a tail of no bytes. -/
def emptyTail : ParsedPacket := dataPacket 0 1 0 (List.replicate snapshotSize 0)

/-- Its only fragment is accepted, and its frame is reported incomplete. -/
theorem emptyTail_not_reported :
    ((Reassembler.new {}).run stepClock [.processPacket emptyTail]).2.map
        (fun e => (e.frame.isComplete, e.frame.missingFragIndices)) = [(false, [0])] ∧
    ¬ Machine.RunAlong (recordStep stepClock) (ReportsExactly stepClock)
        (Reassembler.new {}, fun _ => {}) [.processPacket emptyTail] := by
  refine ⟨?_, ?_⟩
  · decide +kernel
  · decide +kernel

end Qdgz300.Pipeline
