import Qdgz300.SignalProc.Proof.GpuHistory

/-!
# The results of the pipeline: their order, and what the timeouts discard

A free slot is taken from the lowest index on, and so is a ready one when it is polled. Two batches
in flight are crossed when the older one is in the second slot; this happens when one of two is
polled and the next block submitted before the other one is. The polls return the submissions in
their order exactly when none comes while two are crossed (**`poll_order_iff`**).

`handle_timeout` looks at every slot in use, `has_timeout` only at those that have not completed.
The build without a GPU completes a submission at once, so whatever a sweep clears is a result that
was not polled (**`timeout_sweep_iff`**).
-/

namespace Qdgz300.SignalProc

variable {F : Type}

/-- A submission with memory for its batch, or a poll, on the stream `q`. -/
def PipelineCall.Plain (q : Nat) : PipelineCall → Prop
  | .submit env block r =>
    r = q ∧ block ≠ none ∧ env.batchAllocated = true ∧ env.plotsAllocated = true
  | .poll r => r = q
  | .handleTimeout _ _ => False

namespace History

/-! ## The order of the polls -/

/-- The polls of the stream returned the submissions from the first one on, each with its batch. -/
def InOrder (q : Nat) (h : History F) : Prop :=
  ∀ k (ret : Nat × Option (PlotBatch F)), (h.returned q)[k]? = some ret →
    ret.1 = k ∧ ∃ batch, ret.2 = some batch ∧ (h.submitted q)[k]? = some batch

/-- A submission is refused exactly when `GPU_INFLIGHT_MAX` earlier ones were not polled. -/
def RefusedWhenFull (ops : FloatOps F) (h : History F) : PipelineCall → Prop
  | .submit env block q => (h.pipeline.submitCpi ops env block q).2 ≠ .ok ↔
      (h.submitted q).length = (h.returned q).length + gpuInflightMax
  | _ => True

/-- A poll does not find the older of two batches in the second slot. -/
def Uncrossed (h : History F) : PipelineCall → Prop
  | .poll q => (h.pipeline.inflight q 0).occupied = true →
    (h.pipeline.inflight q 1).occupied = true →
      h.number q 0 < h.number q 1
  | _ => True

section
variable {ops : FloatOps F} {h : History F} {q : Nat}

/-- The order of the returned numbers is all there is to show. -/
theorem inOrder_iff (hkept : Kept h) :
    InOrder q h ↔ (h.returned q).map Prod.fst = List.range (h.returned q).length := by
  refine ⟨?_, ?_⟩
  · intro horder
    apply List.ext_getElem
    · rw [List.length_map, List.length_range]
    · intro k hk _
      rw [List.length_map] at hk
      rw [List.getElem_map, List.getElem_range]
      exact (horder k _ (List.getElem?_eq_getElem hk)).1
  · intro horder k ret hret
    obtain ⟨hk, heq⟩ := List.getElem?_eq_some_iff.1 hret
    have hnumber : ret.1 = k := by
      have hget : ((h.returned q).map Prod.fst)[k]? = some ret.1 := by
        rw [List.getElem?_map, hret]
        rfl
      rw [horder, List.getElem?_range hk] at hget
      exact (Option.some.inj hget).symm
    obtain ⟨batch, houtput, hsubmitted⟩ := hkept.returned q ret (heq ▸ List.getElem_mem hk)
    exact ⟨hnumber, batch, houtput, hnumber ▸ hsubmitted⟩

theorem map_range_snoc {l : List (Nat × Option (PlotBatch F))} {ret : Nat × Option (PlotBatch F)} :
    (l ++ [ret]).map Prod.fst = List.range (l ++ [ret]).length ↔
      l.map Prod.fst = List.range l.length ∧ ret.1 = l.length := by
  rw [List.map_append, List.length_append, List.length_singleton, List.range_succ, List.map_singleton]
  refine ⟨?_, ?_⟩
  · intro heq
    obtain ⟨hinit, hlast⟩ := List.append_inj heq (by rw [List.length_map, List.length_range])
    exact ⟨hinit, List.singleton_inj.1 hlast⟩
  · rintro ⟨hinit, hlast⟩
    rw [hinit, hlast]

theorem perm_range_rest {n m : Nat} {l : List Nat} (h : (List.range n ++ l).Perm (List.range m)) :
    l.Perm ((List.range l.length).map (n + ·)) := by
  have hlength := h.length_eq
  rw [List.length_append, List.length_range, List.length_range] at hlength
  rw [← hlength, List.range_add] at h
  exact (List.perm_append_left_iff _).1 h

theorem length_flight (hbalanced : Balanced h q) :
    (h.returned q).length + (h.flight q).length = (h.submitted q).length := by
  have hlength := hbalanced.length_eq
  rw [List.length_append, List.length_map, List.length_range] at hlength
  exact hlength

/-- The poll takes the oldest batch exactly when the two in flight are not crossed. -/
theorem oldest_iff (hkept : Kept h) (hbalanced : Balanced h q)
    (horder : (h.returned q).map Prod.fst = List.range (h.returned q).length) {s : Nat}
    (hslot : h.pipeline.readySlot q = some s) :
    h.number q s = (h.returned q).length ↔ h.Uncrossed (.poll q) := by
  have hrest : (h.flight q).Perm
      ((List.range (h.flight q).length).map ((h.returned q).length + ·)) := by
    unfold Balanced at hbalanced
    rw [horder] at hbalanced
    exact perm_range_rest hbalanced
  rw [readySlot_eq hkept] at hslot
  unfold flight at hrest
  unfold Uncrossed
  cases h0 : (h.pipeline.inflight q 0).occupied with
  | false =>
    rw [h0, if_neg Bool.false_ne_true] at hslot
    cases h1 : (h.pipeline.inflight q 1).occupied with
    | false =>
      rw [h1, if_neg Bool.false_ne_true] at hslot
      cases hslot
    | true =>
      rw [h1, if_pos rfl] at hslot
      obtain rfl := Option.some.inj hslot
      simp only [h0, h1, Bool.false_eq_true, if_false, if_true, List.nil_append] at hrest
      have honly := List.singleton_perm_singleton.1 hrest
      simp [h0, h1, honly]
  | true =>
    rw [h0, if_pos rfl] at hslot
    obtain rfl := Option.some.inj hslot
    cases h1 : (h.pipeline.inflight q 1).occupied with
    | false =>
      simp only [h0, h1, Bool.false_eq_true, if_false, if_true, List.append_nil] at hrest
      have honly := List.singleton_perm_singleton.1 hrest
      simp [h0, h1, honly]
    | true =>
      simp only [h0, h1, if_true, List.singleton_append] at hrest
      replace hrest : [h.number q 0, h.number q 1].Perm
          [(h.returned q).length, (h.returned q).length + 1] := hrest
      have hfirst := hrest.subset List.mem_cons_self
      have hsecond := hrest.subset (List.mem_cons_of_mem _ List.mem_cons_self)
      have hdistinct := hrest.nodup_iff.2 (by simp)
      simp only [List.mem_cons, List.not_mem_nil, or_false, List.nodup_cons, List.nodup_nil,
        not_false_eq_true, and_true] at hfirst hsecond hdistinct
      simp only [h0, h1, true_implies]
      omega

theorem submit_refused_iff {env : GpuPipeline.SubmitEnv} (hq : q < gpuStreamCount)
    (hbatch : env.batchAllocated = true) (hplots : env.plotsAllocated = true) (b : RawBlock) :
    (h.pipeline.submitCpi ops env (some b) q).2 ≠ .ok ↔ (h.flight q).length = gpuInflightMax := by
  have hlt : ¬gpuStreamCount ≤ q := Nat.not_le.2 hq
  rw [GpuPipeline.submitCpi]
  simp only [hlt, if_false, hbatch, hplots, findFreeSlot_eq h.pipeline hq]
  unfold flight
  cases h0 : (h.pipeline.inflight q 0).occupied <;>
    cases h1 : (h.pipeline.inflight q 1).occupied <;> simp [gpuInflightMax]

theorem Plain.noneLate {call : PipelineCall} (hplain : call.Plain q) : h.NoneLate call := by
  cases call with
  | submit env block r => trivial
  | poll r => trivial
  | handleTimeout r now => exact hplain.elim

/-- One call keeps the order exactly when it does not poll two crossed batches. -/
theorem inOrder_step {call : PipelineCall} (hq : q < gpuStreamCount) (hplain : call.Plain q)
    (hkept : Kept h) (hbalanced : Balanced h q) :
    InOrder q (h.step ops call).1 ↔ InOrder q h ∧ h.Uncrossed call := by
  rw [inOrder_iff hkept, inOrder_iff (hkept.step ops call)]
  cases call with
  | submit env block r =>
    have hany : h.Uncrossed (.submit env block r) := trivial
    rw [and_iff_left hany]
    obtain hfail | ⟨b, s, rfl, -, hslot, hok⟩ := submitCpi_cases ops env h.pipeline block r
    · rw [step_submit_failed hfail]
    · rw [step_submit_ok hslot (by rw [hok])]
  | poll r =>
    obtain rfl : r = q := hplain
    obtain ⟨hnone, hwhy⟩ | ⟨s, -, hslot, hpoll⟩ := pollCompletion_cases h.pipeline r
    · -- nothing is in flight
      have hempty : h.Uncrossed (.poll r) := by
        obtain hge | hready := hwhy
        · exact absurd hge (Nat.not_le.2 hq)
        · rw [readySlot_eq hkept] at hready
          intro h0
          rw [h0, if_pos rfl] at hready
          cases hready
      rw [step_poll_none hnone]
      exact (and_iff_left hempty).symm
    · rw [step_poll_some hslot hpoll]
      simp only [Function.update_self]
      rw [map_range_snoc]
      exact and_congr_right fun horder => oldest_iff hkept hbalanced horder hslot
  | handleTimeout r now => exact hplain.elim

theorem refused_step {call : PipelineCall} (hq : q < gpuStreamCount) (hplain : call.Plain q)
    (hbalanced : Balanced h q) : h.RefusedWhenFull ops call := by
  cases call with
  | submit env block r =>
    obtain ⟨rfl, hblock, hbatch, hplots⟩ := hplain
    obtain ⟨b, rfl⟩ := Option.ne_none_iff_exists'.1 hblock
    rw [RefusedWhenFull, submit_refused_iff hq hbatch hplots, ← length_flight hbalanced]
    omega
  | poll r => trivial
  | handleTimeout r now => trivial

/-- **The order of the results**, over any submissions and polls on one stream: every poll returns
the next submission and no submission is refused before the slots are full, exactly when no poll
comes while the older of two batches is in the second slot. -/
theorem poll_order_iff (ops : FloatOps F) (hq : q < gpuStreamCount) {calls : List PipelineCall}
    (hcalls : ∀ call ∈ calls, call.Plain q) :
    (InOrder q (Machine.run (step ops) {} calls).1 ∧
        Machine.RunAlong (step ops) (RefusedWhenFull ops) {} calls) ↔
      Machine.RunAlong (step ops) Uncrossed {} calls := by
  have hinv : ∀ (h : History F) call, call.Plain q → Kept h ∧ Balanced h q →
      Kept (h.step ops call).1 ∧ Balanced (h.step ops call).1 q := by
    intro h call hplain hI
    exact ⟨hI.1.step ops call, hI.2.step hI.1 ops call (Plain.noneLate hplain)⟩
  have hstart : Kept ({} : History F) ∧ Balanced ({} : History F) q := ⟨kept_new, balanced_new q⟩
  have hrefused : Machine.RunAlong (step ops) (RefusedWhenFull ops) ({} : History F) calls :=
    Machine.runAlong_of_inv (step ops) hinv
      (fun h call hplain hI => refused_step hq hplain hI.2) hstart hcalls
  have horder := Machine.run_along_iff (step ops) (G := InOrder q) (C := Uncrossed) hinv
    (fun h call hplain hI => inOrder_step hq hplain hI.1 hI.2) hstart hcalls
  have hnew : InOrder q ({} : History F) := fun _ _ hret => by cases hret
  rw [and_iff_left hrefused, horder, and_iff_right hnew]

end

/-- A block without samples. -/
def emptyBlock (cpiSeq : BitVec 32) : RawBlock where
  dataTs := 7
  arrayId := 2
  cpiSeq := cpiSeq
  dataSize := 0
  flags := 0
  payload := none

/-- A submission of it that gets memory. -/
def submitEmpty (cpiSeq : BitVec 32) : PipelineCall :=
  .submit { processTime := 0, submitTime := 0, batchAllocated := true, plotsAllocated := true }
    (some (emptyBlock cpiSeq)) 0

theorem submitEmpty_plain (cpiSeq : BitVec 32) : (submitEmpty cpiSeq).Plain 0 :=
  ⟨rfl, Option.some_ne_none _, rfl, rfl⟩

theorem twoInOrder : InOrder 0
    (Machine.run (step Dispatcher.noSamples) {}
      [submitEmpty 10, submitEmpty 11, .poll 0, .poll 0]).1 := by
  have hplain : ∀ call ∈ [submitEmpty 10, submitEmpty 11, .poll 0, .poll 0],
      PipelineCall.Plain 0 call := by
    simp only [List.forall_mem_cons]
    exact ⟨submitEmpty_plain 10, submitEmpty_plain 11, rfl, rfl, by simp⟩
  refine ((poll_order_iff Dispatcher.noSamples (by decide) hplain).2 ?_).1
  refine ⟨trivial, trivial, ?_, ?_, trivial⟩
  · exact fun _ _ => by decide +kernel
  · intro hfirst
    exact absurd hfirst (by decide +kernel)

/-- The second block waits in the second slot while the third one takes the first and is polled. -/
def crossedPolls : List PipelineCall :=
  [submitEmpty 10, submitEmpty 11, .poll 0, submitEmpty 12, .poll 0]

theorem crossedPolls_out_of_order :
    (∀ call ∈ crossedPolls, call.Plain 0) ∧
      ((Machine.run (step Dispatcher.noSamples) {} crossedPolls).1.returned 0).map
        (fun ret => (ret.1, ret.2.map PlotBatch.cpiSeq)) = [(0, some 10), (2, some 12)] ∧
      ¬InOrder 0 (Machine.run (step Dispatcher.noSamples) {} crossedPolls).1 := by
  have hreturned : ((Machine.run (step Dispatcher.noSamples) {} crossedPolls).1.returned 0).map
      (fun ret => (ret.1, ret.2.map PlotBatch.cpiSeq)) = [(0, some 10), (2, some 12)] := by
    decide +kernel
  refine ⟨?_, hreturned, ?_⟩
  · simp only [crossedPolls, List.forall_mem_cons]
    exact ⟨submitEmpty_plain 10, submitEmpty_plain 11, rfl, submitEmpty_plain 12, rfl, by simp⟩
  · intro horder
    have hsecond := congrArg (fun l => l[1]?) hreturned
    simp only [List.getElem?_map] at hsecond
    obtain ⟨ret, hret, heq⟩ := Option.map_eq_some_iff.1 hsecond
    have hnumber := (horder 1 ret hret).1
    rw [(Prod.mk.inj heq).1] at hnumber
    exact absurd hnumber (by decide)

/-! ## What the timeouts discard -/

/-- A sweep clears a slot only where `has_timeout` holds at its reading, because of that slot. -/
def ClearsTimedOut (h : History F) : PipelineCall → Prop
  | .handleTimeout q now => ∀ r s, (h.pipeline.inflight r s).occupied = true →
      ((h.pipeline.handleTimeout q now).inflight r s).occupied = false →
        h.pipeline.hasTimeout r now = true ∧
          GpuPipeline.slotTimedOut now (h.pipeline.inflight r s) = true
  | _ => True

section
variable {ops : FloatOps F} {h : History F} {q : Nat}

theorem hasTimeout_of_slot {p : GpuPipeline F} {s : Nat} {now : Int} (hq : q < gpuStreamCount)
    (hs : s < gpuInflightMax) (hslot : GpuPipeline.slotTimedOut now (p.inflight q s) = true) :
    p.hasTimeout q now = true := by
  rw [GpuPipeline.hasTimeout, if_neg (Nat.not_le.2 hq), List.any_eq_true]
  exact ⟨s, List.mem_range.2 hs, hslot⟩

/-- A sweep clears only what timed out exactly when no completed batch is late. -/
theorem clearsTimedOut_iff (call : PipelineCall) : h.ClearsTimedOut call ↔ h.NoneLate call := by
  cases call with
  | submit env block r => exact Iff.rfl
  | poll r => exact Iff.rfl
  | handleTimeout q now =>
    refine ⟨?_, ?_⟩
    · intro hclears hq s hs hocc hcompleted
      by_contra hage
      have hcleared : ((h.pipeline.handleTimeout q now).inflight q s).occupied = false := by
        rw [handleTimeout_slot, if_pos ⟨rfl, hq, hs, hocc, Int.lt_of_not_ge hage⟩]
      have hslot := (hclears q s hocc hcleared).2
      rw [GpuPipeline.slotTimedOut, hcompleted] at hslot
      simp at hslot
    · intro hlate r s hocc hcleared
      rw [handleTimeout_slot] at hcleared
      split at hcleared
      · next hsweep =>
        obtain ⟨rfl, hq, hs, -, hage⟩ := hsweep
        have hincomplete : (h.pipeline.inflight r s).completed = false := by
          by_contra hcompleted
          rw [Bool.not_eq_false] at hcompleted
          exact Int.not_lt.2 (hlate hq s hs hocc hcompleted) hage
        have hslot : GpuPipeline.slotTimedOut now (h.pipeline.inflight r s) = true := by
          simp [GpuPipeline.slotTimedOut, hocc, hincomplete, hage]
        exact ⟨hasTimeout_of_slot hq hs hslot, hslot⟩
      · rw [hocc] at hcleared
        cases hcleared

/-- A poll takes the first batch in flight, if there is one. -/
theorem flight_step_poll (ops : FloatOps F) (hq : q < gpuStreamCount) (hkept : Kept h) :
    (h.step ops (.poll q)).1.flight q = (h.flight q).tail ∧
      (h.step ops (.poll q)).1.submitted = h.submitted := by
  obtain ⟨hnone, hwhy⟩ | ⟨s, -, hslot, hpoll⟩ := pollCompletion_cases h.pipeline q
  · have hempty : h.flight q = [] := by
      obtain hge | hready := hwhy
      · exact absurd hge (Nat.not_le.2 hq)
      · rw [readySlot_eq hkept] at hready
        unfold flight
        cases h0 : (h.pipeline.inflight q 0).occupied <;>
          cases h1 : (h.pipeline.inflight q 1).occupied <;> simp_all
    rw [step_poll_none hnone, hempty]
    exact ⟨rfl, rfl⟩
  · rw [step_poll_some hslot hpoll, flight_poll hkept hslot (Function.update h.returned q
      (h.returned q ++ [(h.number q s, (h.pipeline.inflight q s).output)]))]
    exact ⟨rfl, rfl⟩

theorem length_flight_le (h : History F) (q : Nat) : (h.flight q).length ≤ gpuInflightMax := by
  unfold flight
  cases (h.pipeline.inflight q 0).occupied <;> cases (h.pipeline.inflight q 1).occupied <;>
    simp [gpuInflightMax]

/-- Two polls return whatever is in flight. -/
theorem polled_twice (ops : FloatOps F) (hq : q < gpuStreamCount) (hkept : Kept h)
    (hbalanced : Balanced h q) :
    (((Machine.run (step ops) h [.poll q, .poll q]).1.returned q).map Prod.fst).Perm
      (List.range (h.submitted q).length) := by
  obtain ⟨hfirst, hsame⟩ := flight_step_poll ops hq hkept
  have hkept' := hkept.step ops (.poll q)
  have hbalanced' := hbalanced.step hkept ops (.poll q) trivial
  obtain ⟨hsecond, hsame'⟩ := flight_step_poll ops hq hkept'
  have hend := hbalanced'.step hkept' ops (.poll q) trivial
  have hempty : (h.flight q).tail.tail = [] := by
    have hlength := length_flight_le h q
    rw [gpuInflightMax] at hlength
    rw [List.eq_nil_iff_length_eq_zero, List.length_tail, List.length_tail]
    omega
  unfold Balanced at hend
  rw [hsecond, hfirst, hempty, List.append_nil, hsame', hsame] at hend
  exact hend

end

/-- **What the timeouts discard**, over any calls at any readings: a sweep clears only what
`has_timeout` reports, and every successful submission is returned by a poll or waits in its slot
until one comes, exactly when no sweep finds a completed batch of its stream older than
`T_GPU_MAX_MS`. -/
theorem timeout_sweep_iff (ops : FloatOps F) (calls : List PipelineCall) :
    (Machine.RunAlong (step ops) ClearsTimedOut {} calls ∧
        ∀ q < gpuStreamCount, Balanced (Machine.run (step ops) {} calls).1 q ∧
          (((Machine.run (step ops) (Machine.run (step ops) {} calls).1
            [.poll q, .poll q]).1.returned q).map Prod.fst).Perm
              (List.range ((Machine.run (step ops) {} calls).1.submitted q).length)) ↔
      Machine.RunAlong (step ops) NoneLate {} calls := by
  have hsweeps : Machine.RunAlong (step ops) ClearsTimedOut ({} : History F) calls ↔
      Machine.RunAlong (step ops) NoneLate {} calls :=
    Machine.runAlong_iff (step ops) (I := fun _ => True) (fun h call _ => clearsTimedOut_iff call)
      (fun _ _ _ _ => trivial) trivial
  rw [hsweeps]
  refine and_iff_left_of_imp fun hlate => ?_
  have hkeeps := Machine.runAlong_inv (step ops) (I := fun h _ => Kept h ∧ ∀ q, Balanced h q)
    (C := NoneLate) (fun h _ call hI hC =>
      ⟨hI.1.step ops call, fun q => (hI.2 q).step hI.1 ops call hC⟩)
    [] ⟨kept_new, balanced_new⟩ hlate
  intro q hq
  exact ⟨hkeeps.2 q, polled_twice ops hq hkeeps.1 (hkeeps.2 q)⟩

/-- A result that waits for 51 ms. -/
def lateSweep : List PipelineCall := [submitEmpty 10, .handleTimeout 0 51000000]

theorem lateSweep_discards :
    ¬Machine.RunAlong (step Dispatcher.noSamples) ClearsTimedOut {} lateSweep ∧
      ((Machine.run (step Dispatcher.noSamples) {} lateSweep).1.submitted 0).length = 1 ∧
      ((Machine.run (step Dispatcher.noSamples) {} (lateSweep ++ [.poll 0])).1.returned 0).length =
        0 := by
  refine ⟨?_, by decide +kernel, by decide +kernel⟩
  rintro ⟨-, hsweep, -⟩
  have htimeout := (hsweep 0 0 (by decide +kernel) (by decide +kernel)).1
  exact absurd htimeout (by decide +kernel)

end History

end Qdgz300.SignalProc
