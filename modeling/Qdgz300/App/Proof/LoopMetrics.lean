import Qdgz300.App.MainLoop
import Qdgz300.Pipeline.Proof.CountersGrow
import Qdgz300.Pipeline.Proof.Provenance

/-!
# The metrics of the main loop

A drop metric is the sum, over the faces, of the counter of the face as it was read last: other
threads' calls between the reads make it late, never wrong. The gauge of the contexts is another
matter, for the counters of created and destroyed contexts are two loads: contexts that are
destroyed between them are missing from it, and where these are more than were live it wraps
(`reloadRound_runs`).

* `Later`: what a call on a pipeline does to its counters.
* `LoopFace.Ok`, `Truthful`: the invariant of a face and of the loop.
* **`metrics_truthful`**: every run.
-/

namespace Qdgz300.App

open Protocol Pipeline

/-! ## A pipeline later -/

/-- No counter of `face'` is behind that of `face`, and its counters of contexts are in balance if
those of `face` are. -/
structure Later (face face' : FacePipeline) : Prop where
  drops : ∀ reason, dropCount face reason ≤ dropCount face' reason
  missing : face.1.stats.totalMissingFragments ≤ face'.1.stats.totalMissingFragments
  created : face.1.stats.contextsCreated ≤ face'.1.stats.contextsCreated
  destroyed : face.1.stats.contextsDestroyed ≤ face'.1.stats.contextsDestroyed
  balanced : ContextsBalanced 0 face.1 → ContextsBalanced 0 face'.1

/-- The timeouts that a pipeline goes by. -/
def timeouts (face : FacePipeline) : BitVec 32 × BitVec 32 :=
  (face.1.timeoutMsRuntime, face.2.timeoutMsRuntime)

section
variable {face face' face'' : FacePipeline} {sysClk : SystemClock} {clk : SteadyClock}

theorem Later.refl (face : FacePipeline) : Later face face :=
  ⟨fun _ => Nat.le_refl _, Nat.le_refl _, Nat.le_refl _, Nat.le_refl _, id⟩

theorem Later.trans (h : Later face face') (h' : Later face' face'') : Later face face'' where
  drops := fun reason => (h.drops reason).trans (h'.drops reason)
  missing := h.missing.trans h'.missing
  created := h.created.trans h'.created
  destroyed := h.destroyed.trans h'.destroyed
  balanced := fun hb => h'.balanced (h.balanced hb)

theorem later_of_grown (hreasm : Reassembler.Grown face.1 face'.1)
    (hreord : Reorderer.Grown face.2 face'.2)
    (hbal : ContextsBalanced 0 face.1 → ContextsBalanced 0 face'.1) : Later face face' := by
  refine ⟨fun reason => ?_, hreasm.missing, hreasm.created, hreasm.destroyed, hbal⟩
  cases reason with
  | lateFragment => exact hreasm.late
  | reasmDuplicateFrag => exact hreasm.duplicate
  | reasmTimeout => exact hreasm.incomplete
  | maxContextsExceeded => exact hreasm.contextsOverflow
  | reasmBytesOverflow => exact hreasm.bytesOverflow
  | sequenceDuplicate => exact hreord.duplicate
  | timeout => exact hreord.zeroFilled
  | _ => exact Nat.le_refl 0

/-- **A call** on the reassembler, with the frames that it passes on. -/
theorem reassemblerCall_later (face : FacePipeline) (sysClk : SystemClock) (clk : SteadyClock)
    (op : ReassemblerOp) (hreset : op ≠ .resetStatistics)
    (hset : ∀ timeoutMs, op ≠ .setTimeoutMs timeoutMs) :
    Later face (face.step sysClk clk (.reassembler op)).1 ∧
      timeouts (face.step sysClk clk (.reassembler op)).1 = timeouts face := by
  have hreasm : Reassembler.Grown face.1 (face.1.step sysClk op).1 :=
    Reassembler.step_grown hreset hset
  have hreord : Reorderer.Grown face.2
      (Machine.run (onFrame clk) face.2 (face.1.step sysClk op).2).1 :=
    Machine.run_inv (I := Reorderer.Grown face.2)
      (fun _ _ _ h => h.trans (Reorderer.insertOwned_grown _ _ _)) (.refl face.2)
  refine ⟨later_of_grown hreasm hreord fun hb => step_balanced hb hreset, ?_⟩
  exact Prod.ext hreasm.timeout hreord.timeout

theorem dataCall_later (call : FragmentStorage × ParsedPacket) :
    Later face (Machine.feed (onData sysClk) (onFrame clk) face call).1 ∧
      timeouts (Machine.feed (onData sysClk) (onFrame clk) face call).1 = timeouts face := by
  rw [← FacePipeline.step_data]
  obtain ⟨storage, packet⟩ := call
  cases storage with
  | pool => exact reassemblerCall_later face sysClk clk _ (by simp) (by simp)
  | heap => exact reassemblerCall_later face sysClk clk _ (by simp) (by simp)

theorem checkTimeouts_later (clocks : FaceClocks) (order : IterOrder) :
    Later face (MainLoop.checkTimeouts clocks order face) ∧
      timeouts (MainLoop.checkTimeouts clocks order face) = timeouts face :=
  reassemblerCall_later face clocks.system clocks.steady (.checkTimeouts order) (by simp) (by simp)

theorem checkTimeout_later (clocks : FaceClocks) :
    Later face (MainLoop.checkTimeout clocks face) ∧
      timeouts (MainLoop.checkTimeout clocks face) = timeouts face := by
  have hcheck : Reorderer.Grown face.2 (MainLoop.checkTimeout clocks face).2 :=
    Reorderer.checkTimeout_grown
  exact ⟨later_of_grown (.refl _) hcheck id, Prod.ext rfl hcheck.timeout⟩

theorem setTimeouts_later (config : Config.ReceiverConfig) :
    Later face (setTimeouts config face) where
  drops := fun reason => by cases reason <;> exact Nat.le_refl _
  missing := Nat.le_refl _
  created := Nat.le_refl _
  destroyed := Nat.le_refl _
  balanced := id

end

/-! ## A face -/

/-- A face and the marks of its counters. -/
structure LoopFace.Ok (face : LoopFace) : Prop where
  marks : ∀ reason, face.last reason = dropCount (face.reported reason) reason
  drops : ∀ reason, Later (face.reported reason) face.pipeline
  created : Later face.createdRead face.pipeline
  destroyed : Later face.destroyedRead face.pipeline
  missing : Later face.missingRead face.pipeline
  balanced : ContextsBalanced 0 face.pipeline.1
  createdBalanced : ContextsBalanced 0 face.createdRead.1

/-- What a face adds to the gauge of the contexts: the difference of two loads, in 64 bits. -/
def LoopFace.contexts (face : LoopFace) : BitVec 64 :=
  BitVec.ofNat 64 face.createdRead.1.stats.contextsCreated -
    BitVec.ofNat 64 face.destroyedRead.1.stats.contextsDestroyed

def LoopFace.missingFragments (face : LoopFace) : BitVec 64 :=
  BitVec.ofNat 64 face.missingRead.1.stats.totalMissingFragments

section
variable {face : LoopFace}

theorem LoopFace.Ok.call (h : face.Ok) {pipeline : FacePipeline}
    (hlater : Later face.pipeline pipeline) : LoopFace.Ok { face with pipeline } where
  marks := h.marks
  drops := fun reason => (h.drops reason).trans hlater
  created := h.created.trans hlater
  destroyed := h.destroyed.trans hlater
  missing := h.missing.trans hlater
  balanced := hlater.balanced h.balanced
  createdBalanced := h.createdBalanced

theorem LoopFace.Ok.readCreated (h : face.Ok) :
    LoopFace.Ok { face with createdRead := face.pipeline } :=
  ⟨h.marks, h.drops, .refl _, h.destroyed, h.missing, h.balanced, h.balanced⟩

theorem LoopFace.Ok.readDestroyed (h : face.Ok) :
    LoopFace.Ok { face with destroyedRead := face.pipeline } :=
  ⟨h.marks, h.drops, h.created, .refl _, h.missing, h.balanced, h.createdBalanced⟩

theorem LoopFace.Ok.readMissing (h : face.Ok) :
    LoopFace.Ok { face with missingRead := face.pipeline } :=
  ⟨h.marks, h.drops, h.created, h.destroyed, .refl _, h.balanced, h.createdBalanced⟩

/-- A drop counter that has just been read. -/
theorem LoopFace.Ok.reportDrop (h : face.Ok) (reason : DropReasonIndex) : LoopFace.Ok
    { face with
      last := Function.update face.last reason
        (DeltaReport.mark (face.last reason) (dropCount face.pipeline reason))
      reported := Function.update face.reported reason face.pipeline } := by
  refine ⟨fun other => ?_, fun other => ?_, h.created, h.destroyed, h.missing, h.balanced,
    h.createdBalanced⟩
  · by_cases ho : other = reason
    · subst ho
      simp only [Function.update_self]
      rw [h.marks, DeltaReport.mark_of_le ((h.drops other).drops other)]
    · simp only [Function.update_of_ne ho]
      exact h.marks other
  · by_cases ho : other = reason
    · subst ho
      simp only [Function.update_self]
      exact .refl _
    · simp only [Function.update_of_ne ho]
      exact h.drops other

/-- **The difference of the two loads** is the number of contexts that were live at the load of
`contexts_created`, less those that were destroyed until the other load. -/
theorem LoopFace.Ok.contexts_eq (h : face.Ok) :
    face.contexts = BitVec.ofNat 64 (KeyMap.size face.createdRead.1.contexts) -
      (BitVec.ofNat 64 face.destroyedRead.1.stats.contextsDestroyed -
        BitVec.ofNat 64 face.createdRead.1.stats.contextsDestroyed) := by
  have hcreated : face.createdRead.1.stats.contextsCreated =
      face.createdRead.1.stats.contextsDestroyed + KeyMap.size face.createdRead.1.contexts := by
    have hbalanced := h.createdBalanced
    unfold ContextsBalanced at hbalanced
    omega
  rw [LoopFace.contexts, hcreated, BitVec.ofNat_add, sub_sub_eq_add_sub, add_comm]

end

namespace MainLoop

/-- The sums over the first `n` faces, of what was read last. -/
def activeSum (s : MainLoop) (n : Nat) : BitVec 64 := ∑ i ∈ Finset.range n, (s.faces i).contexts

def missingSum (s : MainLoop) (n : Nat) : BitVec 64 :=
  ∑ i ∈ Finset.range n, (s.faces i).missingFragments

/-- The main thread is within the reports of a round. -/
def reporting (s : MainLoop) : Bool :=
  match s.pc with
  | .contexts _ _ | .destroyed _ _ _ | .created _ _ _ | .missing _ _ | .drops _ _ _ => true
  | _ => false

/-- The sums so far within a round, and the gauges after it. -/
def Summed (s : MainLoop) : Prop :=
  match s.pc with
  | .contexts i sums =>
    i ≤ s.numFaces ∧ sums.activeContexts = s.activeSum i ∧ sums.missingFragments = s.missingSum i
  | .destroyed i sums created => i < s.numFaces ∧
    created = BitVec.ofNat 64 (s.faces i).createdRead.1.stats.contextsCreated ∧
    sums.activeContexts = s.activeSum i ∧ sums.missingFragments = s.missingSum i
  | .created i sums destroyed => i < s.numFaces ∧
    destroyed = BitVec.ofNat 64 (s.faces i).destroyedRead.1.stats.contextsDestroyed ∧
    sums.activeContexts = s.activeSum i ∧ sums.missingFragments = s.missingSum i
  | .missing i sums => i < s.numFaces ∧ sums.activeContexts = s.activeSum (i + 1) ∧
    sums.missingFragments = s.missingSum i
  | .drops i sums _ => i < s.numFaces ∧ sums.activeContexts = s.activeSum (i + 1) ∧
    sums.missingFragments = s.missingSum (i + 1)
  | _ => s.metrics.activeContexts = s.activeSum s.numFaces ∧
    s.metrics.missingFragmentsTotal = s.missingSum s.numFaces

/-- The metrics are those of what was read. -/
structure Truthful (s : MainLoop) : Prop where
  faces : ∀ i < s.numFaces, (s.faces i).Ok
  drops : ∀ reason, s.metrics.packetsByReason reason =
    ∑ i ∈ Finset.range s.numFaces, (s.faces i).last reason
  summed : s.Summed
  signals : ∀ signal, s.metrics.signalReceived signal = s.lastReceived signal ∧
    s.lastReceived signal ≤ s.flags.received signal

section
variable {N : Type} {clocks : Nat → FaceClocks} {s s' : MainLoop} {l : LoopLabel N} {i : Nat}
  {env : LoopEnv N} {face : LoopFace}

theorem truthful_start (config : Config.ConfigManager Unit) (created : Nat → Int) (starts : Bool)
    (numFaces : Nat) : Truthful (start config created starts numFaces) where
  faces := fun i _ => by
    refine ⟨fun reason => ?_, fun _ => .refl _, .refl _, .refl _, .refl _, rfl, rfl⟩
    cases reason <;> rfl
  drops := fun reason => by simp [start]
  summed := by
    refine ⟨?_, ?_⟩
    · exact (Finset.sum_eq_zero fun i _ => sub_self _).symm
    · refine (Finset.sum_eq_zero fun i _ => ?_).symm
      rfl
  signals := fun signal => ⟨rfl, Nat.le_refl _⟩

/-! ### One face changes -/

@[simp] theorem setFace_self (face : LoopFace) : (s.setFace i face).faces i = face :=
  Function.update_self ..

theorem setFace_of_ne {k : Nat} (hk : k ≠ i) (face : LoopFace) :
    (s.setFace i face).faces k = s.faces k := Function.update_of_ne hk ..

section
variable {β : Type} [AddCommMonoid β] (f : LoopFace → β)

theorem sum_setFace (face : LoopFace) :
    ∑ k ∈ Finset.range i, f ((s.setFace i face).faces k) = ∑ k ∈ Finset.range i, f (s.faces k) := by
  refine Finset.sum_congr rfl fun k hk => ?_
  rw [setFace_of_ne (Nat.ne_of_lt (Finset.mem_range.1 hk))]

theorem sum_setFace_of_eq (hface : f face = f (s.faces i)) (n : Nat) :
    ∑ k ∈ Finset.range n, f ((s.setFace i face).faces k) = ∑ k ∈ Finset.range n, f (s.faces k) := by
  refine Finset.sum_congr rfl fun k _ => ?_
  by_cases hk : k = i
  · subst hk
    rw [setFace_self, hface]
  · rw [setFace_of_ne hk]

theorem sum_setFace_succ (face : LoopFace) :
    ∑ k ∈ Finset.range (i + 1), f ((s.setFace i face).faces k) =
      (∑ k ∈ Finset.range i, f (s.faces k)) + f face := by
  rw [Finset.sum_range_succ, sum_setFace, setFace_self]

end

theorem Truthful.setFace (h : Truthful s) (hok : (s.faces i).Ok → face.Ok)
    (hlast : face.last = (s.faces i).last) {pc : LoopPc}
    (hsummed : { s.setFace i face with pc }.Summed) :
    Truthful { s.setFace i face with pc } := by
  refine ⟨fun k hk => ?_, fun reason => ?_, hsummed, h.signals⟩
  · by_cases hki : k = i
    · subst hki
      simpa using hok (h.faces k hk)
    · have hface := setFace_of_ne (s := s) hki face
      simpa [hface] using h.faces k hk
  · have hsum := sum_setFace_of_eq (fun face => face.last reason) (congrFun hlast reason) s.numFaces
    exact (h.drops reason).trans hsum.symm

theorem Summed.congr (h : s.Summed) {t : MainLoop} (hpc : t.pc = s.pc)
    (hn : t.numFaces = s.numFaces) (hactive : t.metrics.activeContexts = s.metrics.activeContexts)
    (hmissing : t.metrics.missingFragmentsTotal = s.metrics.missingFragmentsTotal)
    (hcreated : ∀ k, (t.faces k).createdRead = (s.faces k).createdRead)
    (hdestroyed : ∀ k, (t.faces k).destroyedRead = (s.faces k).destroyedRead)
    (hread : ∀ k, (t.faces k).missingRead = (s.faces k).missingRead) : t.Summed := by
  have hactiveSum : ∀ n, t.activeSum n = s.activeSum n := fun n => by
    simp only [activeSum, LoopFace.contexts, hcreated, hdestroyed]
  have hmissingSum : ∀ n, t.missingSum n = s.missingSum n := fun n => by
    simp only [missingSum, LoopFace.missingFragments, hread]
  simp only [Summed, hpc, hn, hactive, hmissing, hcreated, hdestroyed, hactiveSum, hmissingSum]
  exact h

theorem Truthful.setPipeline (h : Truthful s) {pipeline : FacePipeline}
    (hlater : Later (s.faces i).pipeline pipeline) {pc : LoopPc} (hpc : { s with pc }.Summed) :
    Truthful { s.setPipeline i pipeline with pc } := by
  refine h.setFace (fun hok => hok.call hlater) rfl (hpc.congr rfl rfl rfl rfl ?_ ?_ ?_)
  all_goals
    intro k
    by_cases hk : k = i
    · subst hk
      rw [setFace_self]
    · rw [setFace_of_ne hk]

theorem Truthful.frame (h : Truthful s) {t : MainLoop} (hfaces : t.faces = s.faces)
    (hn : t.numFaces = s.numFaces) (hdrops : t.metrics.packetsByReason = s.metrics.packetsByReason)
    (hsignals : ∀ signal, t.metrics.signalReceived signal = t.lastReceived signal ∧
      t.lastReceived signal ≤ t.flags.received signal) (hsummed : t.Summed) : Truthful t where
  faces := by rw [hfaces, hn]; exact h.faces
  drops := by rw [hfaces, hn, hdrops]; exact h.drops
  summed := hsummed
  signals := hsignals

/-! ### The reports -/

/-- The report of a signal. -/
theorem reportSignal_signals (h : Truthful s) (signal other : Signal) :
    (s.reportSignal signal).metrics.signalReceived other =
      (s.reportSignal signal).lastReceived other ∧
      (s.reportSignal signal).lastReceived other ≤ (s.reportSignal signal).flags.received
        other := by
  obtain ⟨htotal, hle⟩ := h.signals other
  unfold reportSignal
  simp only
  split
  · by_cases ho : other = signal
    · subst ho
      simp only [Function.update_self]
      omega
    · simp only [Function.update_of_ne ho]
      exact ⟨htotal, hle⟩
  · exact ⟨htotal, hle⟩

theorem Truthful.reportSignal (h : Truthful s) (signal : Signal) {pc : LoopPc}
    (hsummed : { s with pc }.Summed) : Truthful { s.reportSignal signal with pc } := by
  have hsame : (s.reportSignal signal).faces = s.faces ∧
      (s.reportSignal signal).numFaces = s.numFaces ∧
      (s.reportSignal signal).metrics.packetsByReason = s.metrics.packetsByReason ∧
      (s.reportSignal signal).metrics.activeContexts = s.metrics.activeContexts ∧
      (s.reportSignal signal).metrics.missingFragmentsTotal = s.metrics.missingFragmentsTotal := by
    unfold MainLoop.reportSignal
    simp only
    split <;> simp
  obtain ⟨hfaces, hn, hdrops, hactive, hmissing⟩ := hsame
  refine h.frame hfaces hn hdrops (reportSignal_signals h signal) ?_
  exact hsummed.congr rfl hn hactive hmissing (fun k => by rw [hfaces]) (fun k => by rw [hfaces])
    fun k => by rw [hfaces]

/-- The report of a drop counter. -/
theorem Truthful.reportDrop (h : Truthful s) (hi : i < s.numFaces) (reason : DropReasonIndex)
    {pc : LoopPc} (hpc : { s with pc }.Summed) : Truthful { s.reportDrop i reason with pc } := by
  have hok := h.faces i hi
  refine ⟨fun k hk => ?_, fun other => ?_, ?_, h.signals⟩
  · simp only [MainLoop.reportDrop]
    by_cases hki : k = i
    · subst hki
      rw [Function.update_self]
      exact hok.reportDrop reason
    · rw [Function.update_of_ne hki]
      exact h.faces k hk
  · simp only [MainLoop.reportDrop]
    by_cases ho : other = reason
    · subst ho
      rw [Function.update_self, h.drops other,
        DeltaReport.sum_add_delta hi (fun k => (s.faces k).last other)]
      refine Finset.sum_congr rfl fun k _ => ?_
      by_cases hki : k = i
      · subst hki
        simp
      · simp [Function.update_of_ne hki]
    · rw [Function.update_of_ne ho, h.drops other]
      refine Finset.sum_congr rfl fun k _ => ?_
      by_cases hki : k = i
      · subst hki
        simp [Function.update_of_ne ho]
      · simp [Function.update_of_ne hki]
  · refine hpc.congr rfl rfl rfl rfl ?_ ?_ ?_
    all_goals
      intro k
      simp only [MainLoop.reportDrop]
      by_cases hk : k = i
      · subst hk
        rw [Function.update_self]
      · rw [Function.update_of_ne hk]

section
variable {sums : RoundSums}

theorem Truthful.readCreated (h : Truthful s) {pc : LoopPc}
    (hsummed : { s.readCreated i with pc }.Summed) : Truthful { s.readCreated i with pc } :=
  h.setFace (fun hok => hok.readCreated) rfl hsummed

theorem Truthful.readDestroyed (h : Truthful s) {pc : LoopPc}
    (hsummed : { s.readDestroyed i with pc }.Summed) : Truthful { s.readDestroyed i with pc } :=
  h.setFace (fun hok => hok.readDestroyed) rfl hsummed

theorem Truthful.readMissing (h : Truthful s) {pc : LoopPc}
    (hsummed : { s.readMissing i with pc }.Summed) : Truthful { s.readMissing i with pc } :=
  h.setFace (fun hok => hok.readMissing) rfl hsummed

theorem summed_contexts (hactive : sums.activeContexts = s.activeSum i)
    (hmissing : sums.missingFragments = s.missingSum i) (face : LoopFace) :
    sums.activeContexts = (s.setFace i face).activeSum i ∧
      sums.missingFragments = (s.setFace i face).missingSum i :=
  ⟨hactive.trans (sum_setFace LoopFace.contexts face).symm,
    hmissing.trans (sum_setFace LoopFace.missingFragments face).symm⟩

/-- The first load of a face. -/
theorem Truthful.reportContexts (h : Truthful s) (hpc : s.pc = .contexts i sums)
    (createdFirst : Bool) :
    Truthful (s.report createdFirst) := by
  obtain ⟨hle, hactive, hmissing⟩ : i ≤ s.numFaces ∧ sums.activeContexts = s.activeSum i ∧
      sums.missingFragments = s.missingSum i := by simpa only [Summed, hpc] using h.summed
  unfold MainLoop.report
  rw [hpc]
  simp only
  split_ifs with hi hfirst
  · refine h.readCreated ⟨hi, ?_, summed_contexts hactive hmissing _⟩
    rw [MainLoop.readCreated, setFace_self]
    rfl
  · refine h.readDestroyed ⟨hi, ?_, summed_contexts hactive hmissing _⟩
    rw [MainLoop.readDestroyed, setFace_self]
    rfl
  · obtain rfl : i = s.numFaces := by omega
    exact h.frame rfl rfl rfl h.signals ⟨hactive, hmissing⟩

/-- The second load: the difference is added. -/
theorem Truthful.reportDestroyed (h : Truthful s) {created : BitVec 64}
    (hpc : s.pc = .destroyed i sums created) (createdFirst : Bool) :
    Truthful (s.report createdFirst) := by
  obtain ⟨hi, hcreated, hactive, hmissing⟩ : i < s.numFaces ∧
      created = BitVec.ofNat 64 (s.faces i).createdRead.1.stats.contextsCreated ∧
      sums.activeContexts = s.activeSum i ∧ sums.missingFragments = s.missingSum i := by
    simpa only [Summed, hpc] using h.summed
  unfold MainLoop.report
  rw [hpc]
  refine h.readDestroyed ⟨hi, ?_, (summed_contexts hactive hmissing _).2⟩
  simp only [hactive, hcreated]
  exact (sum_setFace_succ LoopFace.contexts
    { s.faces i with destroyedRead := (s.faces i).pipeline }).symm

theorem Truthful.reportCreated (h : Truthful s) {destroyed : BitVec 64}
    (hpc : s.pc = .created i sums destroyed) (createdFirst : Bool) :
    Truthful (s.report createdFirst) := by
  obtain ⟨hi, hdestroyed, hactive, hmissing⟩ : i < s.numFaces ∧
      destroyed = BitVec.ofNat 64 (s.faces i).destroyedRead.1.stats.contextsDestroyed ∧
      sums.activeContexts = s.activeSum i ∧ sums.missingFragments = s.missingSum i := by
    simpa only [Summed, hpc] using h.summed
  unfold MainLoop.report
  rw [hpc]
  refine h.readCreated ⟨hi, ?_, (summed_contexts hactive hmissing _).2⟩
  simp only [hactive, hdestroyed]
  exact (sum_setFace_succ LoopFace.contexts
    { s.faces i with createdRead := (s.faces i).pipeline }).symm

theorem Truthful.reportMissing (h : Truthful s) (hpc : s.pc = .missing i sums)
    (createdFirst : Bool) :
    Truthful (s.report createdFirst) := by
  obtain ⟨hi, hactive, hmissing⟩ : i < s.numFaces ∧ sums.activeContexts = s.activeSum (i + 1) ∧
      sums.missingFragments = s.missingSum i := by simpa only [Summed, hpc] using h.summed
  unfold MainLoop.report
  rw [hpc]
  refine h.readMissing ⟨hi, ?_, ?_⟩
  · have hkept : LoopFace.contexts { s.faces i with missingRead := (s.faces i).pipeline } =
        (s.faces i).contexts := rfl
    exact hactive.trans (sum_setFace_of_eq LoopFace.contexts hkept (i + 1)).symm
  · simp only [hmissing]
    exact (sum_setFace_succ LoopFace.missingFragments
      { s.faces i with missingRead := (s.faces i).pipeline }).symm

theorem Truthful.reportDrops (h : Truthful s) {rest : List DropReasonIndex}
    (hpc : s.pc = .drops i sums rest) (createdFirst : Bool) : Truthful (s.report createdFirst) := by
  have hsummed : i < s.numFaces ∧ sums.activeContexts = s.activeSum (i + 1) ∧
      sums.missingFragments = s.missingSum (i + 1) := by simpa only [Summed, hpc] using h.summed
  unfold MainLoop.report
  rw [hpc]
  cases rest with
  | nil => exact h.frame rfl rfl rfl h.signals hsummed
  | cons reason rest => exact h.reportDrop hsummed.1 reason hsummed

/-- **The reports**, one load after another. -/
theorem Truthful.report (h : Truthful s) (createdFirst : Bool) :
    Truthful (s.report createdFirst) := by
  cases hpc : s.pc with
  | contexts i sums => exact h.reportContexts hpc createdFirst
  | destroyed i sums created => exact h.reportDestroyed hpc createdFirst
  | created i sums destroyed => exact h.reportCreated hpc createdFirst
  | missing i sums => exact h.reportMissing hpc createdFirst
  | drops i sums rest => exact h.reportDrops hpc createdFirst
  | _ =>
    unfold MainLoop.report
    rw [hpc]
    exact h

end

theorem Truthful.settled (h : Truthful s) (hpc : s.reporting = false) :
    s.metrics.activeContexts = s.activeSum s.numFaces ∧
      s.metrics.missingFragmentsTotal = s.missingSum s.numFaces := by
  have hsummed := h.summed
  unfold Summed at hsummed
  unfold reporting at hpc
  split at hsummed <;> simp_all

/-- **The main thread.** -/
theorem Truthful.main (h : Truthful s) (hstep : s.main clocks env = some s') : Truthful s' := by
  unfold MainLoop.main at hstep
  split at hstep
  case h_1 hpc =>
    obtain rfl := Option.some.inj hstep
    refine h.frame rfl rfl rfl h.signals ?_
    have hsettled := h.settled (by simp [reporting, hpc])
    cases hrun : s.flags.running with
    | true => exact hsettled
    | false => exact hsettled
  case h_2 hpc =>
    obtain rfl := Option.some.inj hstep
    exact h.reportSignal .sigint (h.settled (by simp [reporting, hpc]))
  case h_3 hpc =>
    obtain rfl := Option.some.inj hstep
    exact h.reportSignal .sigterm (h.settled (by simp [reporting, hpc]))
  case h_4 hpc =>
    obtain rfl := Option.some.inj hstep
    exact h.reportSignal .sighup (h.settled (by simp [reporting, hpc]))
  case h_5 hpc =>
    have hsettled := h.settled (by simp [reporting, hpc])
    split at hstep
    · obtain rfl := Option.some.inj hstep
      unfold reload
      simp only
      split
      · exact h.frame rfl rfl rfl h.signals hsettled
      · exact h.frame rfl rfl rfl h.signals hsettled
      · exact h.frame rfl rfl rfl h.signals hsettled
    · obtain rfl := Option.some.inj hstep
      exact h.frame rfl rfl rfl h.signals hsettled
  case h_6 hpc =>
    obtain rfl := Option.some.inj hstep
    exact h.frame rfl rfl rfl h.signals (h.settled (by simp [reporting, hpc]))
  case h_7 config rest hpc =>
    obtain rfl := Option.some.inj hstep
    exact h.frame rfl rfl rfl h.signals (h.settled (by simp [reporting, hpc]))
  case h_8 config rest i hpc =>
    have hsettled := h.settled (by simp [reporting, hpc])
    split at hstep
    · obtain rfl := Option.some.inj hstep
      exact h.setPipeline (setTimeouts_later config) hsettled
    · obtain rfl := Option.some.inj hstep
      exact h.frame rfl rfl rfl h.signals hsettled
  case h_9 i hpc =>
    have hsettled := h.settled (by simp [reporting, hpc])
    split at hstep
    · obtain rfl := Option.some.inj hstep
      exact h.setPipeline (checkTimeouts_later _ _).1 hsettled
    · obtain rfl := Option.some.inj hstep
      exact h.frame rfl rfl rfl h.signals ⟨Nat.zero_le _, rfl, rfl⟩
  case h_10 i hpc =>
    obtain rfl := Option.some.inj hstep
    exact h.setPipeline (checkTimeout_later _).1 (h.settled (by simp [reporting, hpc]))
  case h_11 => cases hstep
  case h_12 => cases hstep
  case h_13 =>
    obtain rfl := Option.some.inj hstep
    exact h.report env.createdFirst

/-- **A step** of any party. -/
theorem Truthful.step (h : Truthful s) (hstep : s.step clocks l = some s') : Truthful s' := by
  cases l with
  | signal signal =>
    obtain rfl := Option.some.inj hstep
    refine h.frame rfl rfl rfl (fun other => ?_) h.summed
    obtain ⟨htotal, hle⟩ := h.signals other
    refine ⟨htotal, hle.trans ?_⟩
    by_cases ho : other = signal
    · subst ho
      simp [SignalFlags.count]
    · simp [SignalFlags.count, Function.update_of_ne ho]
  | publish k =>
    obtain ⟨signal, hk, rfl⟩ := Option.map_eq_some_iff.1 hstep
    refine h.frame rfl rfl rfl (fun other => ?_) h.summed
    cases signal <;> exact h.signals other
  | data i call =>
    obtain ⟨-, heq⟩ := Option.ite_none_right_eq_some.1 hstep
    obtain rfl := Option.some.inj heq
    have hsummed : { s with pc := s.pc }.Summed := h.summed
    exact h.setPipeline (dataCall_later call).1 hsummed
  | main env => exact h.main hstep

end

/-- **The metrics tell what the loop has loaded**: in every reachable state each drop metric is the
sum of the faces' counters as they were loaded last, which are not ahead of the counters themselves,
and so is the metric of each signal; outside the reports the gauge of the missing fragments is the
sum of what was loaded, and that of the contexts counts, for each face, the contexts that were live
at the load of `contexts_created`, less those that were destroyed from there to the load of
`contexts_destroyed`, in 64 bits. -/
theorem metrics_truthful {N : Type} (clocks : Nat → FaceClocks) (config : Config.ConfigManager Unit)
    (created : Nat → Int) (starts : Bool) (numFaces : Nat) {ls : List (LoopLabel N)} {s : MainLoop}
    (hrun : Machine.exec (step clocks) (start config created starts numFaces) ls = some s) :
    (∀ reason, s.metrics.packetsByReason reason =
        ∑ i ∈ Finset.range s.numFaces, dropCount ((s.faces i).reported reason) reason) ∧
      (∀ i < s.numFaces, (∀ reason, Later ((s.faces i).reported reason) (s.faces i).pipeline) ∧
        Later (s.faces i).createdRead (s.faces i).pipeline ∧
        Later (s.faces i).destroyedRead (s.faces i).pipeline ∧
        Later (s.faces i).missingRead (s.faces i).pipeline) ∧
      (∀ signal, s.metrics.signalReceived signal ≤ s.flags.received signal) ∧
      (s.reporting = false →
        s.metrics.activeContexts = ∑ i ∈ Finset.range s.numFaces,
          (BitVec.ofNat 64 (KeyMap.size (s.faces i).createdRead.1.contexts) -
            (BitVec.ofNat 64 (s.faces i).destroyedRead.1.stats.contextsDestroyed -
              BitVec.ofNat 64 (s.faces i).createdRead.1.stats.contextsDestroyed)) ∧
        s.metrics.missingFragmentsTotal = ∑ i ∈ Finset.range s.numFaces,
          BitVec.ofNat 64 (s.faces i).missingRead.1.stats.totalMissingFragments) := by
  have h : Truthful s := Machine.exec_inv (C := fun _ _ => True)
    (fun t l t' ht _ hstep => ht.step hstep) (truthful_start config created starts numFaces)
    (Machine.along_of_forall fun _ _ => trivial) hrun
  refine ⟨fun reason => ?_, fun i hi => ?_, fun signal => ?_, fun hpc => ?_⟩
  · rw [h.drops reason]
    exact Finset.sum_congr rfl fun i hi => (h.faces i (Finset.mem_range.1 hi)).marks reason
  · have hok := h.faces i hi
    exact ⟨hok.drops, hok.created, hok.destroyed, hok.missing⟩
  · rw [(h.signals signal).1]
    exact (h.signals signal).2
  · obtain ⟨hactive, hmissing⟩ := h.settled hpc
    refine ⟨hactive.trans ?_, hmissing⟩
    exact Finset.sum_congr rfl fun i hi => (h.faces i (Finset.mem_range.1 hi)).contexts_eq

/-- A document that gives no field. -/
def emptyDocument : Config.Yaml Unit where
  loadFile _ := some ()
  get _ _ := some none
  isSequence _ := false
  isScalar _ := false
  items _ := []
  asString _ := none
  asBool _ := none
  asInt _ := none
  asU16 _ := none
  asU32 _ := none
  asSize _ := none

/-- A manager whose file has changed. -/
def staleConfig : Config.ConfigManager Unit where
  currentConfig := { reassembly.timeoutMs := 7, reorder.timeoutMs := 9 }
  configFilePath := "receiver.yaml"

/-- The loop goes round once after `SIGHUP`; between its loads of `contexts_created` and of
`contexts_destroyed` the one packet of a frame arrives. -/
def reloadRound : List (LoopLabel Unit) :=
  [.signal .sighup, .publish 0] ++
    List.replicate 13 (.main ⟨emptyDocument, ⟨id, List.Perm.refl⟩, true, true⟩) ++
    .data 0 (.pool, dataPacket 0 1 3 (List.replicate 40 0 ++ [1, 2, 3])) ::
    List.replicate 11 (.main ⟨emptyDocument, ⟨id, List.Perm.refl⟩, true, true⟩)

def stillClocks (_ : Nat) : FaceClocks := ⟨fun _ => 0, fun _ => 0⟩

theorem reloadRound_runs : ∃ s : MainLoop,
    Machine.exec (step stillClocks) (start staleConfig (fun _ => 0) true 1) reloadRound = some s ∧
      s.reporting = false ∧ s.attempts = 1 ∧ s.metrics.configReloads = 1 ∧
      s.metrics.activeContexts = BitVec.allOnes 64 := by
  have hend : (Machine.exec (step stillClocks) (start staleConfig (fun _ => 0) true 1) reloadRound).map
      (fun s => (s.reporting, s.attempts, s.metrics.configReloads, s.metrics.activeContexts)) =
        some (false, 1, 1, BitVec.allOnes 64) := by decide +kernel
  obtain ⟨s, hrun, hs⟩ := Option.map_eq_some_iff.1 hend
  simp only [Prod.mk.injEq] at hs
  exact ⟨s, hrun, hs⟩

theorem reloadRound_truthful : ∃ s : MainLoop,
    Machine.exec (step stillClocks) (start staleConfig (fun _ => 0) true 1) reloadRound = some s ∧
    s.reporting = false ∧ s.metrics.activeContexts = BitVec.allOnes 64 ∧
    (∀ reason, s.metrics.packetsByReason reason =
        ∑ i ∈ Finset.range s.numFaces, dropCount ((s.faces i).reported reason) reason) ∧
    s.metrics.activeContexts = ∑ i ∈ Finset.range s.numFaces,
      (BitVec.ofNat 64 (KeyMap.size (s.faces i).createdRead.1.contexts) -
        (BitVec.ofNat 64 (s.faces i).destroyedRead.1.stats.contextsDestroyed -
          BitVec.ofNat 64 (s.faces i).createdRead.1.stats.contextsDestroyed)) := by
  obtain ⟨s, hrun, hreporting, -, -, hgauge⟩ := reloadRound_runs
  obtain ⟨hdrops, -, -, hgauges⟩ :=
    metrics_truthful stillClocks staleConfig (fun _ => 0) true 1 hrun
  exact ⟨s, hrun, hreporting, hgauge, hdrops, (hgauges hreporting).1⟩

end MainLoop

end Qdgz300.App
