import Qdgz300.App.Proof.Shutdown

/-!
# The order of the RawBlocks

What every push, every action of the worker and `stop` keep of a RawBlock path, every step of every
thread keeps (`paths_step`). Two such facts:

* `RawBlockPath.InOrder`: the blocks processed, in the worker's hand and in the queue are among
  those pushed, in the order of their pushes, and the others are counted as dropped.
* `Counted`: the statistics of the worker are those of the blocks it has processed.
-/

namespace Qdgz300.Delivery

/-- The statistics of the blocks `processed`. -/
def statisticsOf (processed : List RawBlock) : StubConsumerStatistics where
  totalBlocks := processed.length
  completeFrames := processed.countP fun block => !block.hasFlag incompleteFrame
  incompleteFrames := processed.countP fun block => block.hasFlag incompleteFrame
  totalBytes := (processed.map fun block => block.dataSize.toNat).sum
  lastCpiSeq := processed.getLast?.elim 0 fun block => block.cpiSeq.toNat

/-- The worker's statistics are those of the blocks it has processed. -/
def Counted (consumer : StubConsumer) : Prop := consumer.stats = statisticsOf consumer.processed

theorem Counted.processBlock {consumer : StubConsumer} (h : Counted consumer) (block : RawBlock) :
    Counted (consumer.processBlock block) := by
  unfold Counted at h ⊢
  unfold StubConsumer.processBlock
  rw [h]
  cases hflag : block.hasFlag incompleteFrame <;> simp [statisticsOf, hflag]

end Qdgz300.Delivery

namespace Qdgz300.App

open Protocol Common Pipeline Delivery

/-- The blocks of `start` and those pushed since, in the order of their pushes: some are processed,
then comes the one in the worker's hand and then those in the queue; as many as are missing were
dropped. -/
def RawBlockPath.InOrder (start path : RawBlockPath) : Prop :=
  ∃ xs, Waiting path.queue xs ∧
    List.Sublist (path.consumer.processed ++ path.consumer.inHand ++ xs)
      (start.consumer.inHand ++ blocks start.queue ++ path.pushed) ∧
    (start.consumer.inHand ++ blocks start.queue ++ path.pushed).length + start.queue.dropCount =
      (path.consumer.processed ++ path.consumer.inHand ++ xs).length + path.queue.dropCount

section
variable {start path : RawBlockPath}

theorem RawBlockPath.InOrder.refl (hpushed : path.pushed = [])
    (hprocessed : path.consumer.processed = []) (hwait : ∃ xs, Waiting path.queue xs) :
    path.InOrder path := by
  obtain ⟨xs, hxs⟩ := hwait
  refine ⟨xs, hxs, ?_, ?_⟩ <;> simp [hpushed, hprocessed, hxs.blocks]

/-- **A push**: the new block is the last one, and what it drops is counted. -/
theorem RawBlockPath.InOrder.push (h : start.InOrder path) (arrayId : BitVec 8) (now : Int)
    (packet : OrderedPacket) : start.InOrder (path.push arrayId now packet) := by
  obtain ⟨xs, hxs, hsub, hlen⟩ := h
  obtain ⟨lost, kept, rfl, hkept, hdrops⟩ := hxs.adaptAndPush arrayId now packet
  refine ⟨_, hkept, ?_, ?_⟩
  · have hkeeps : List.Sublist (path.consumer.processed ++ path.consumer.inHand ++ kept)
        (start.consumer.inHand ++ blocks start.queue ++ path.pushed) :=
      ((List.sublist_append_right lost kept).append_left _).trans hsub
    simpa [RawBlockPath.push] using hkeeps.append (List.Sublist.refl [adapt arrayId now packet])
  · simp only [RawBlockPath.push, List.length_append, List.length_singleton] at hlen hdrops ⊢
    omega

/-- **An action of the worker.** -/
theorem RawBlockPath.InOrder.consume (h : start.InOrder path) {r : RawBlockQueue × StubConsumer}
    (hstep : path.consumer.step path.queue = some r) :
    start.InOrder { path with queue := r.1, consumer := r.2 } := by
  obtain ⟨xs, hxs, hsub, hlen⟩ := h
  obtain ⟨queue, consumer⟩ := r
  rcases hxs.step_cases hstep with ⟨hpc, rfl, rfl⟩ | ⟨hpc, rfl, rfl, rfl⟩ |
    ⟨hpc, block, rest, rfl, hrest, hdrops, rfl⟩ | ⟨block, hpc, rfl, rfl⟩
  · have hhand : path.consumer.inHand = [] := by rw [StubConsumer.inHand, hpc]
    rw [hhand] at hsub hlen
    have hnext : StubConsumer.inHand { path.consumer with
        pc := if path.consumer.running then .tryPop else .done } = [] := by
      cases hrun : path.consumer.running <;> simp [StubConsumer.inHand]
    refine ⟨xs, hxs, ?_, ?_⟩
    · simp only [hnext]
      exact hsub
    · simp only [hnext]
      exact hlen
  · have hhand : path.consumer.inHand = [] := by rw [StubConsumer.inHand, hpc]
    rw [hhand] at hsub hlen
    exact ⟨[], hxs, hsub, hlen⟩
  · have hhand : path.consumer.inHand = [] := by rw [StubConsumer.inHand, hpc]
    rw [hhand] at hsub hlen
    refine ⟨rest, hrest, ?_, ?_⟩
    · rw [List.append_nil] at hsub
      simp only [StubConsumer.inHand, List.append_assoc, List.singleton_append] at hsub ⊢
      exact hsub
    · simp only [StubConsumer.inHand, List.length_append, List.length_cons, List.length_nil] at hlen ⊢
      omega
  · have hhand : path.consumer.inHand = [block] := by rw [StubConsumer.inHand, hpc]
    rw [hhand] at hsub hlen
    refine ⟨xs, hxs, ?_, ?_⟩
    · simp only [StubConsumer.inHand, StubConsumer.processBlock, List.append_nil]
      exact hsub
    · simp only [StubConsumer.inHand, StubConsumer.processBlock, List.append_nil]
      exact hlen

theorem RawBlockPath.InOrder.all_processed (h : start.InOrder path)
    (hdrops : path.queue.dropCount = start.queue.dropCount) (hhand : path.consumer.inHand = [])
    (hempty : blocks path.queue = []) :
    path.consumer.processed = start.consumer.inHand ++ blocks start.queue ++ path.pushed := by
  obtain ⟨xs, hxs, hsub, hlen⟩ := h
  rw [hxs.blocks] at hempty
  subst hempty
  rw [hhand, List.append_nil, List.append_nil] at hsub hlen
  exact hsub.eq_of_length (by omega)

end

namespace ShutdownState

section
variable {clocks : Nat → FaceClocks} {s s' : ShutdownState} {l : ShutdownLabel}

/-- What the path of every face satisfies. -/
def AllPaths (R : Nat → RawBlockPath → Prop) (s : ShutdownState) : Prop :=
  ∀ i < s.numFaces, ∀ path ∈ (s.faces i).rawBlock, R i path

variable {R : Nat → RawBlockPath → Prop}

theorem AllPaths.deliverAll {i : Nat} {face : Face}
    (hpush : ∀ path arrayId now packet, R i path → R i (path.push arrayId now packet))
    (now : Nat → Int) (packets : List OrderedPacket) (h : ∀ path ∈ face.rawBlock, R i path) :
    ∀ path ∈ (face.deliverAll now packets).rawBlock, R i path := by
  induction packets generalizing face now with
  | nil => exact h
  | cons packet packets ih =>
    refine ih (fun n => now (n + 1)) fun path' hpath' => ?_
    obtain ⟨path, hpath, rfl⟩ := Option.map_eq_some_iff.1 (Option.mem_def.1 hpath')
    exact hpush path _ _ _ (h path hpath)

/-- **The rule for the paths**: what a push, an action of the worker and `stop` keep, every step of
every thread keeps. -/
theorem paths_step
    (hpush : ∀ i path arrayId now packet, R i path → R i (path.push arrayId now packet))
    (hconsume : ∀ i path r, path.consumer.step path.queue = some r → R i path →
      R i { path with queue := r.1, consumer := r.2 })
    (hstop : ∀ i path, R i path →
      R i { path with consumer := { path.consumer with running := false } })
    (h : AllPaths R s) (hstep : s.step clocks l = some s') : AllPaths R s' := by
  rcases step_cases hstep with ⟨i, raw, -, hi, rfl⟩ | ⟨i, now, face, -, hi, hface, rfl⟩ |
    ⟨i, face, -, hi, hface, rfl⟩ | ⟨now, pushTimes, order, -, hmain⟩
  · exact forall_update (P := fun i f => ∀ path ∈ f.rawBlock, R i path) h fun hi => h i hi
  · refine forall_update (P := fun i f => ∀ path ∈ f.rawBlock, R i path) h fun hi => ?_
    rcases Face.process_cases hface with ⟨packet, packets, draining, -, rfl⟩ | ⟨hpath, -, -⟩
    · intro path' hpath'
      obtain ⟨path, hpath, rfl⟩ := Option.map_eq_some_iff.1 (Option.mem_def.1 hpath')
      exact hpush i path _ _ _ (h i hi path hpath)
    · rw [hpath]
      exact h i hi
  · refine forall_update (P := fun i f => ∀ path ∈ f.rawBlock, R i path) h fun hi => ?_
    obtain ⟨path, r, hpath, hr, rfl⟩ := Face.consume_eq hface
    intro path' hpath'
    obtain rfl := Option.some.inj hpath'
    exact hconsume i path r hr (h i hi path hpath)
  · obtain ⟨hn, hcases⟩ := main_cases hmain
    unfold AllPaths
    rw [hn]
    rcases hcases with ⟨i, -, hi, heq⟩ | ⟨i, -, hi, -, heq⟩ | ⟨i, -, hi, heq⟩ | ⟨heq, -⟩
    · rw [heq]
      refine forall_update (P := fun i f => ∀ path ∈ f.rawBlock, R i path) h fun hi => ?_
      intro path' hpath'
      obtain ⟨path, hpath, rfl⟩ := Option.map_eq_some_iff.1 (Option.mem_def.1 hpath')
      exact hstop i path (h i hi path hpath)
    · rw [heq]
      refine forall_update (P := fun i f => ∀ path ∈ f.rawBlock, R i path) h fun hi => ?_
      exact AllPaths.deliverAll (hpush i) _ _ (h i hi)
    · rw [heq]
      refine forall_update (P := fun i f => ∀ path ∈ f.rawBlock, R i path) h fun hi => ?_
      exact AllPaths.deliverAll (hpush i) _ _ (h i hi)
    · rw [heq]
      exact h

/-- The blocks of face `i` are in order since `start`, and the statistics of its worker count
them. -/
def InOrderSince (start : ShutdownState) (i : Nat) (path : RawBlockPath) : Prop :=
  ∀ first ∈ (start.faces i).rawBlock, first.InOrder path ∧
    (Counted first.consumer → Counted path.consumer)

def Ordered (start s : ShutdownState) : Prop := AllPaths (InOrderSince start) s

theorem ordered_step {start : ShutdownState} (h : Ordered start s)
    (hstep : s.step clocks l = some s') :
    Ordered start s' := by
  refine paths_step ?_ ?_ ?_ h hstep
  · intro i path arrayId now packet h first hfirst
    exact ⟨(h first hfirst).1.push arrayId now packet, (h first hfirst).2⟩
  · intro i path r hr h first hfirst
    obtain ⟨horder, hcount⟩ := h first hfirst
    refine ⟨horder.consume hr, fun hfirst' => ?_⟩
    obtain ⟨xs, hxs, -⟩ := horder
    obtain ⟨queue, consumer⟩ := r
    rcases hxs.step_cases hr with ⟨-, -, rfl⟩ | ⟨-, -, -, rfl⟩ | ⟨-, -, -, -, -, -, rfl⟩ |
      ⟨block, -, -, rfl⟩
    · exact hcount hfirst'
    · exact hcount hfirst'
    · exact hcount hfirst'
    · exact (hcount hfirst').processBlock block
  · intro i path h first hfirst
    exact h first hfirst

theorem Ordered.paths {start : ShutdownState} (h : Ordered start s) {i : Nat} (hi : i < s.numFaces)
    (hacc : (start.faces i).Accounted (s.faces i)) :
    Option.Rel RawBlockPath.InOrder (start.faces i).rawBlock (s.faces i).rawBlock := by
  have hpaths := h i hi
  unfold Face.Accounted at hacc
  simp only [InOrderSince, Option.mem_def] at hpaths
  revert hpaths
  generalize (start.faces i).rawBlock = a, (s.faces i).rawBlock = b at hacc ⊢
  cases hacc with
  | none => exact fun _ => .none
  | some _ => exact fun hpaths => .some (hpaths _ rfl _ rfl).1

theorem AtEntry.ordered (h : AtEntry s) : Ordered s s := by
  intro i hi path hpath first hfirst
  obtain rfl := Option.mem_unique hpath hfirst
  obtain ⟨hpushed, hprocessed, hwait, -⟩ := h.paths i hi path hpath
  exact ⟨.refl hpushed hprocessed hwait, id⟩

end

end ShutdownState

end Qdgz300.App
