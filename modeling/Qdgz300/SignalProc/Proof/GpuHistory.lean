import Qdgz300.SignalProc.Proof.GpuDispatcher

/-!
# The history of the pipeline

`History` adds to the pipeline what was submitted on each stream and what the polls returned; a
submission is known by its number. `Kept` is what every call keeps. `Balanced` says of a stream that
its submissions were returned or are in a slot; submissions and polls keep it, and a sweep does when
no completed batch is late (`NoneLate`).
-/

namespace Qdgz300.SignalProc

variable {F : Type}

/-- The pipeline, the batches that were submitted on each stream, the number of the submission in
each slot, and the numbers with the batches that the polls returned. -/
structure History (F : Type) where
  pipeline : GpuPipeline F := .new
  submitted : Nat → List (PlotBatch F) := fun _ => []
  number : Nat → Nat → Nat := fun _ _ => 0
  returned : Nat → List (Nat × Option (PlotBatch F)) := fun _ => []

/-- The slot that a poll takes. -/
def GpuPipeline.readySlot (p : GpuPipeline F) (stream : Nat) : Option Nat :=
  (List.range gpuInflightMax).find? fun s =>
    (p.inflight stream s).occupied && (p.inflight stream s).completed

namespace History

/-- A call, with its record. -/
def step (ops : FloatOps F) (h : History F) (call : PipelineCall) :
    History F × List (PipelineAnswer F) :=
  let after := { h with pipeline := (h.pipeline.call ops call).1 }
  match call with
  | .submit env (some block) stream =>
    match h.pipeline.findFreeSlot stream, (h.pipeline.submitCpi ops env (some block) stream).2 with
    | some s, .ok =>
      ({ after with
          submitted := Function.update h.submitted stream
            (h.submitted stream ++ [plotBatch ops block env.processTime])
          number := Function.update h.number stream
            (Function.update (h.number stream) s (h.submitted stream).length) },
        (h.pipeline.call ops call).2)
    | _, _ => (after, (h.pipeline.call ops call).2)
  | .poll stream =>
    match h.pipeline.readySlot stream, (h.pipeline.pollCompletion stream).2 with
    | some s, some output =>
      ({ after with
          returned := Function.update h.returned stream
            (h.returned stream ++ [(h.number stream s, output)]) },
        (h.pipeline.call ops call).2)
    | _, _ => (after, (h.pipeline.call ops call).2)
  | _ => (after, (h.pipeline.call ops call).2)

/-- The numbers of the submissions in the slots of a stream, by the index of the slot. -/
def flight (h : History F) (q : Nat) : List Nat :=
  (if (h.pipeline.inflight q 0).occupied then [h.number q 0] else []) ++
    if (h.pipeline.inflight q 1).occupied then [h.number q 1] else []

/-- A slot in use has completed and holds the batch of its submission, and so does what was
returned. -/
structure Kept (h : History F) : Prop where
  completed : ∀ q s, (h.pipeline.inflight q s).occupied = true →
    (h.pipeline.inflight q s).completed = true
  output : ∀ q s, (h.pipeline.inflight q s).occupied = true → ∃ batch,
    (h.pipeline.inflight q s).output = some batch ∧ (h.submitted q)[h.number q s]? = some batch
  returned : ∀ q, ∀ r ∈ h.returned q, ∃ batch, r.2 = some batch ∧ (h.submitted q)[r.1]? = some batch

/-- Every submission on the stream was returned once or is in one slot. -/
def Balanced (h : History F) (q : Nat) : Prop :=
  ((h.returned q).map Prod.fst ++ h.flight q).Perm (List.range (h.submitted q).length)

section
variable {ops : FloatOps F} {h : History F} {env : GpuPipeline.SubmitEnv} {block : RawBlock}
    {q s : Nat}

theorem kept_new : Kept ({} : History F) :=
  ⟨fun _ _ hocc => absurd hocc Bool.false_ne_true, fun _ _ hocc => absurd hocc Bool.false_ne_true,
    fun _ _ hr => absurd hr List.not_mem_nil⟩

theorem balanced_new (q : Nat) : Balanced ({} : History F) q := List.Perm.refl _

/-! ## The searches over two slots -/

theorem findFreeSlot_eq (p : GpuPipeline F) (hq : q < gpuStreamCount) :
    p.findFreeSlot q =
      if (p.inflight q 0).occupied = false then some 0
      else if (p.inflight q 1).occupied = false then some 1 else none := by
  rw [GpuPipeline.findFreeSlot, if_neg (Nat.not_le.2 hq),
    show List.range gpuInflightMax = [0, 1] from rfl]
  cases h0 : (p.inflight q 0).occupied <;> cases h1 : (p.inflight q 1).occupied <;> simp [h0, h1]

theorem readySlot_eq (hkept : Kept h) :
    h.pipeline.readySlot q =
      if (h.pipeline.inflight q 0).occupied then some 0
      else if (h.pipeline.inflight q 1).occupied then some 1 else none := by
  have hready : ∀ s, ((h.pipeline.inflight q s).occupied && (h.pipeline.inflight q s).completed) =
      (h.pipeline.inflight q s).occupied := by
    intro s
    cases hocc : (h.pipeline.inflight q s).occupied with
    | false => rfl
    | true => rw [hkept.completed q s hocc]; rfl
  rw [GpuPipeline.readySlot, show List.range gpuInflightMax = [0, 1] from rfl]
  simp only [hready]
  cases h0 : (h.pipeline.inflight q 0).occupied <;> cases h1 :
    (h.pipeline.inflight q 1).occupied <;>
    simp [h0, h1]

/-- `submit_cpi` fails and changes nothing, or takes the free slot. -/
theorem submitCpi_cases (ops : FloatOps F) (env : GpuPipeline.SubmitEnv) (p : GpuPipeline F)
    (block : Option RawBlock) (q : Nat) :
    p.submitCpi ops env block q = (p, .gpuH2dFailed) ∨
      ∃ b s, block = some b ∧ q < gpuStreamCount ∧ p.findFreeSlot q = some s ∧
        p.submitCpi ops env block q =
          (p.setSlot q s
            { input := some b
              output := some (plotBatch ops b env.processTime)
              occupied := true
              completed := true
              submitTime := env.submitTime }, .ok) := by
  cases block with
  | none => exact Or.inl rfl
  | some b =>
    unfold GpuPipeline.submitCpi
    simp only
    split
    · exact Or.inl rfl
    · next hq =>
      split
      · exact Or.inl rfl
      · next s hs =>
        split
        · exact Or.inl rfl
        · split
          · exact Or.inl rfl
          · exact Or.inr ⟨b, s, rfl, Nat.lt_of_not_le hq, hs, rfl⟩

theorem pollCompletion_cases (p : GpuPipeline F) (q : Nat) :
    p.pollCompletion q = (p, none) ∧ (gpuStreamCount ≤ q ∨ p.readySlot q = none) ∨
      ∃ s, q < gpuStreamCount ∧ p.readySlot q = some s ∧
        p.pollCompletion q = (p.setSlot q s {}, some (p.inflight q s).output) := by
  unfold GpuPipeline.pollCompletion
  split
  · next hq => exact Or.inl ⟨rfl, Or.inl hq⟩
  · next hq =>
    split
    · next hnone => exact Or.inl ⟨rfl, Or.inr hnone⟩
    · next s hs => exact Or.inr ⟨s, Nat.lt_of_not_le hq, hs, rfl⟩

/-! ## The calls -/

theorem step_submit_failed {block : Option RawBlock}
    (hfail : h.pipeline.submitCpi ops env block q = (h.pipeline, .gpuH2dFailed)) :
    (h.step ops (.submit env block q)).1 = h := by
  cases block with
  | none => rfl
  | some b =>
    unfold step
    simp only [GpuPipeline.call, hfail]
    split
    · next heq => cases heq
    · rfl

theorem step_submit_ok (hslot : h.pipeline.findFreeSlot q = some s)
    (hok : (h.pipeline.submitCpi ops env (some block) q).2 = .ok) :
    (h.step ops (.submit env (some block) q)).1 =
      { h with
        pipeline := (h.pipeline.submitCpi ops env (some block) q).1
        submitted := Function.update h.submitted q
          (h.submitted q ++ [plotBatch ops block env.processTime])
        number := Function.update h.number q
          (Function.update (h.number q) s (h.submitted q).length) } := by
  simp only [step, hslot, hok, GpuPipeline.call]

theorem step_poll_none (hnone : h.pipeline.pollCompletion q = (h.pipeline, none)) :
    (h.step ops (.poll q)).1 = h := by
  unfold step
  simp only [GpuPipeline.call, hnone]
  split
  · next heq => cases heq
  · rfl

theorem step_poll_some (hslot : h.pipeline.readySlot q = some s) {output : Option (PlotBatch F)}
    (hpoll : h.pipeline.pollCompletion q = (h.pipeline.setSlot q s {}, some output)) :
    (h.step ops (.poll q)).1 =
      { h with
        pipeline := h.pipeline.setSlot q s {}
        returned := Function.update h.returned q (h.returned q ++ [(h.number q s, output)]) } := by
  simp only [step, hslot, hpoll, GpuPipeline.call]

/-- What a sweep leaves in a slot: nothing, or what was there. -/
theorem handleTimeout_slot (p : GpuPipeline F) (q : Nat) (now : Int) (r t : Nat) :
    (p.handleTimeout q now).inflight r t =
      if r = q ∧ q < gpuStreamCount ∧ t < gpuInflightMax ∧ (p.inflight q t).occupied = true ∧
          tGpuMaxMs < (now - (p.inflight q t).submitTime).tdiv 1000000 then {}
      else p.inflight r t := by
  have hsweep : ∀ (p : GpuPipeline F)
    (s r t : Nat), (GpuPipeline.sweepSlot now q p s).inflight r t =
      if r = q ∧ t = s ∧ (p.inflight q s).occupied = true ∧
          tGpuMaxMs < (now - (p.inflight q s).submitTime).tdiv 1000000 then {}
      else p.inflight r t := by
    intro p s r t
    unfold GpuPipeline.sweepSlot
    simp only
    split
    · next hocc => simp [hocc]
    · next hocc =>
      split
      · next hage => simp [Int.not_lt.2 hage]
      · next hage =>
        rw [Bool.not_eq_false] at hocc
        simp [GpuPipeline.setSlot, hocc, Int.lt_of_not_ge hage]
  unfold GpuPipeline.handleTimeout
  split
  · next hq => rw [if_neg (by omega)]
  · next hq =>
    rw [show List.range gpuInflightMax = [0, 1] from rfl, List.foldl_cons, List.foldl_cons,
      List.foldl_nil, hsweep, hsweep, hsweep]
    have hslots : t < gpuInflightMax ↔ t = 0 ∨ t = 1 := by
      rw [gpuInflightMax]
      omega
    simp only [hslots, Nat.lt_of_not_le hq, true_and]
    by_cases hr : r = q
    · subst hr
      by_cases h0 : t = 0
      · subst h0
        simp
      · by_cases h1 : t = 1
        · subst h1
          simp
        · simp [h0, h1]
    · simp [hr]

/-! ## What the calls keep -/

theorem ready_occupied (hslot : h.pipeline.readySlot q = some s) :
    (h.pipeline.inflight q s).occupied = true := by
  have hfound := List.find?_some hslot
  exact (Bool.and_eq_true_iff.1 hfound).1

theorem setSlot_inflight (p : GpuPipeline F) (q s r t : Nat) (slot : InflightSlot F) :
    (p.setSlot q s slot).inflight r t = if r = q ∧ t = s then slot else p.inflight r t := rfl

theorem getElem?_append_some {α : Type} {l : List α} {n : Nat} {a : α}
    (h : l[n]? = some a) (b : α) :
    (l ++ [b])[n]? = some a := by
  rw [List.getElem?_append_left (List.getElem?_eq_some_iff.1 h).1, h]

theorem Kept.submit (hkept : Kept h) (hslot : h.pipeline.findFreeSlot q = some s)
    (hok : h.pipeline.submitCpi ops env (some block) q =
      (h.pipeline.setSlot q s
        { input := some block
          output := some (plotBatch ops block env.processTime)
          occupied := true
          completed := true
          submitTime := env.submitTime }, .ok)) :
    Kept (h.step ops (.submit env (some block) q)).1 := by
  rw [step_submit_ok hslot (by rw [hok]), hok]
  refine ⟨?_, ?_, ?_⟩
  · intro r t hocc
    simp only [setSlot_inflight] at hocc ⊢
    split at hocc
    · next heq => rw [if_pos heq]
    · next hne =>
      rw [if_neg hne]
      exact hkept.completed r t hocc
  · intro r t hocc
    simp only [setSlot_inflight] at hocc ⊢
    split at hocc
    · next heq =>
      obtain ⟨rfl, rfl⟩ := heq
      refine ⟨_, by rw [if_pos ⟨rfl, rfl⟩], ?_⟩
      simp
    · next hne =>
      rw [if_neg hne]
      obtain ⟨batch, houtput, hsubmitted⟩ := hkept.output r t hocc
      refine ⟨batch, houtput, ?_⟩
      by_cases hr : r = q
      · subst hr
        have ht : t ≠ s := fun ht => hne ⟨rfl, ht⟩
        simp only [Function.update_self, Function.update_of_ne ht]
        exact getElem?_append_some hsubmitted _
      · simp only [Function.update_of_ne hr]
        exact hsubmitted
  · intro r ret hret
    obtain ⟨batch, houtput, hsubmitted⟩ := hkept.returned r ret hret
    refine ⟨batch, houtput, ?_⟩
    by_cases hr : r = q
    · subst hr
      simp only [Function.update_self]
      exact getElem?_append_some hsubmitted _
    · simp only [Function.update_of_ne hr]
      exact hsubmitted

/-- Slots that are cleared are no concern. -/
theorem Kept.vacate (hkept : Kept h) {p : GpuPipeline F}
    {returned : Nat → List (Nat × Option (PlotBatch F))}
    (hslots : ∀ r t, (p.inflight r t).occupied = true → p.inflight r t = h.pipeline.inflight r t)
    (hreturned : ∀ r, ∀ ret ∈ returned r, ∃ batch,
      ret.2 = some batch ∧ (h.submitted r)[ret.1]? = some batch) :
    Kept { h with pipeline := p, returned := returned } := by
  refine ⟨?_, ?_, hreturned⟩
  · intro r t hocc
    have heq := hslots r t hocc
    simp only at hocc ⊢
    rw [heq] at hocc ⊢
    exact hkept.completed r t hocc
  · intro r t hocc
    have heq := hslots r t hocc
    simp only at hocc ⊢
    rw [heq] at hocc ⊢
    exact hkept.output r t hocc

theorem Kept.poll (hkept : Kept h) (hslot : h.pipeline.readySlot q = some s)
    (hpoll : h.pipeline.pollCompletion q =
      (h.pipeline.setSlot q s {}, some (h.pipeline.inflight q s).output)) :
    Kept (h.step ops (.poll q)).1 := by
  rw [step_poll_some hslot hpoll]
  apply hkept.vacate
  · intro r t hocc
    rw [setSlot_inflight] at hocc ⊢
    split at hocc
    · exact absurd hocc Bool.false_ne_true
    · next hne => rw [if_neg hne]
  · intro r ret hret
    by_cases hr : r = q
    · subst hr
      simp only [Function.update_self, List.mem_append, List.mem_singleton] at hret
      obtain hret | rfl := hret
      · exact hkept.returned r ret hret
      · exact hkept.output r s (ready_occupied hslot)
    · simp only [Function.update_of_ne hr] at hret
      exact hkept.returned r ret hret

theorem Kept.sweep (hkept : Kept h) (now : Int) : Kept (h.step ops (.handleTimeout q now)).1 := by
  apply hkept.vacate _ hkept.returned
  intro r t hocc
  simp only [GpuPipeline.call, handleTimeout_slot] at hocc ⊢
  split at hocc
  · exact absurd hocc Bool.false_ne_true
  · next hne => rw [if_neg hne]

theorem Kept.step (hkept : Kept h) (ops : FloatOps F) (call : PipelineCall) :
    Kept (h.step ops call).1 := by
  cases call with
  | submit env block q =>
    obtain hfail | ⟨b, s, rfl, -, hslot, hok⟩ := submitCpi_cases ops env h.pipeline block q
    · rw [step_submit_failed hfail]
      exact hkept
    · exact hkept.submit hslot hok
  | poll q =>
    obtain ⟨hnone, -⟩ | ⟨s, -, hslot, hpoll⟩ := pollCompletion_cases h.pipeline q
    · rw [step_poll_none hnone]
      exact hkept
    · exact hkept.poll hslot hpoll
  | handleTimeout q now => exact hkept.sweep now

/-! ## The balance of a stream -/

/-- At a sweep no completed batch of the stream is older than `T_GPU_MAX_MS`. -/
def NoneLate (h : History F) : PipelineCall → Prop
  | .handleTimeout q now => q < gpuStreamCount → ∀ s < gpuInflightMax,
      (h.pipeline.inflight q s).occupied = true → (h.pipeline.inflight q s).completed = true →
        (now - (h.pipeline.inflight q s).submitTime).tdiv 1000000 ≤ tGpuMaxMs
  | _ => True

/-- A submission is in flight with the next number. -/
theorem flight_submit (hq : q < gpuStreamCount) (hslot : h.pipeline.findFreeSlot q = some s)
    (slot : InflightSlot F) (hslotOcc : slot.occupied = true) (submitted : Nat → List (PlotBatch F))
    (m : Nat) :
    (flight { h with
      pipeline := h.pipeline.setSlot q s slot
      submitted := submitted
      number := Function.update h.number q (Function.update (h.number q) s m) } q).Perm
        (h.flight q ++ [m]) := by
  rw [findFreeSlot_eq h.pipeline hq] at hslot
  unfold flight
  simp only [setSlot_inflight, Function.update_self]
  cases h0 : (h.pipeline.inflight q 0).occupied with
  | false =>
    rw [h0, if_pos rfl] at hslot
    obtain rfl := Option.some.inj hslot
    cases h1 : (h.pipeline.inflight q 1).occupied with
    | false => simp [hslotOcc, h1]
    | true =>
      simp only [true_and, if_true, hslotOcc, one_ne_zero, if_false, h1, Function.update_self,
        Function.update_of_ne Nat.one_ne_zero, Bool.false_eq_true, List.nil_append]
      exact List.Perm.swap _ _ _
  | true =>
    rw [h0, if_neg (by decide)] at hslot
    cases h1 : (h.pipeline.inflight q 1).occupied with
    | false =>
      rw [h1, if_pos rfl] at hslot
      obtain rfl := Option.some.inj hslot
      simp [hslotOcc, h0]
    | true =>
      rw [h1, if_neg (by decide)] at hslot
      cases hslot

/-- A poll takes the first number in flight. -/
theorem flight_poll (hkept : Kept h) (hslot : h.pipeline.readySlot q = some s)
    (returned : Nat → List (Nat × Option (PlotBatch F))) :
    h.flight q = h.number q s ::
      flight { h with pipeline := h.pipeline.setSlot q s {}, returned := returned } q := by
  rw [readySlot_eq hkept] at hslot
  unfold flight
  simp only [setSlot_inflight]
  cases h0 : (h.pipeline.inflight q 0).occupied with
  | true =>
    rw [h0, if_pos rfl] at hslot
    obtain rfl := Option.some.inj hslot
    simp
  | false =>
    rw [h0, if_neg Bool.false_ne_true] at hslot
    cases h1 : (h.pipeline.inflight q 1).occupied with
    | true =>
      rw [h1, if_pos rfl] at hslot
      obtain rfl := Option.some.inj hslot
      simp [h0]
    | false =>
      rw [h1, if_neg Bool.false_ne_true] at hslot
      cases hslot

theorem flight_other {p : GpuPipeline F} {number : Nat → Nat → Nat} {r : Nat}
    (hslots : p.inflight r = h.pipeline.inflight r) (hnumber : number r = h.number r)
    (submitted : Nat → List (PlotBatch F)) (returned : Nat → List (Nat × Option (PlotBatch F))) :
    flight { pipeline := p, submitted := submitted, number := number, returned := returned } r =
      h.flight r := by
  unfold flight
  simp only [hslots, hnumber]

theorem Balanced.submit {r : Nat} (hbalanced : Balanced h r) (hq : q < gpuStreamCount)
    (hslot : h.pipeline.findFreeSlot q = some s)
    (hok : h.pipeline.submitCpi ops env (some block) q =
      (h.pipeline.setSlot q s
        { input := some block
          output := some (plotBatch ops block env.processTime)
          occupied := true
          completed := true
          submitTime := env.submitTime }, .ok)) :
    Balanced (h.step ops (.submit env (some block) q)).1 r := by
  rw [step_submit_ok hslot (by rw [hok]), hok]
  unfold Balanced at *
  by_cases hr : r = q
  · subst hr
    simp only [Function.update_self, List.length_append, List.length_singleton]
    refine ((flight_submit hq hslot _ ?_ _ _).append_left _).trans ?_
    · rfl
    · rw [← List.append_assoc, List.range_succ]
      exact hbalanced.append_right _
  · rw [flight_other (setSlot_stream hr _) (Function.update_of_ne hr _ _)]
    simp only [Function.update_of_ne hr]
    exact hbalanced

theorem Balanced.poll {r : Nat} (hbalanced : Balanced h r) (hkept : Kept h)
    (hslot : h.pipeline.readySlot q = some s)
    (hpoll : h.pipeline.pollCompletion q =
      (h.pipeline.setSlot q s {}, some (h.pipeline.inflight q s).output)) :
    Balanced (h.step ops (.poll q)).1 r := by
  rw [step_poll_some hslot hpoll]
  unfold Balanced at *
  by_cases hr : r = q
  · subst hr
    rw [flight_poll hkept hslot (Function.update h.returned r
      (h.returned r ++ [(h.number r s, (h.pipeline.inflight r s).output)]))] at hbalanced
    simp only [Function.update_self, List.map_append, List.map_singleton, List.append_assoc,
      List.singleton_append]
    exact hbalanced
  · rw [flight_other (setSlot_stream hr _) rfl]
    simp only [Function.update_of_ne hr]
    exact hbalanced

theorem sweep_eq (hkept : Kept h) {now : Int} (hlate : h.NoneLate (.handleTimeout q now)) :
    h.pipeline.handleTimeout q now = h.pipeline := by
  have hslots : (h.pipeline.handleTimeout q now).inflight = h.pipeline.inflight := by
    funext r t
    rw [handleTimeout_slot, if_neg]
    rintro ⟨rfl, hq, ht, hocc, hage⟩
    exact Int.not_lt.2 (hlate hq t ht hocc (hkept.completed r t hocc)) hage
  exact congrArg GpuPipeline.mk hslots

theorem Balanced.step {r : Nat} (hbalanced : Balanced h r) (hkept : Kept h) (ops : FloatOps F)
    (call : PipelineCall) (hlate : h.NoneLate call) : Balanced (h.step ops call).1 r := by
  cases call with
  | submit env block q =>
    obtain hfail | ⟨b, s, rfl, hq, hslot, hok⟩ := submitCpi_cases ops env h.pipeline block q
    · rw [step_submit_failed hfail]
      exact hbalanced
    · exact hbalanced.submit hq hslot hok
  | poll q =>
    obtain ⟨hnone, -⟩ | ⟨s, -, hslot, hpoll⟩ := pollCompletion_cases h.pipeline q
    · rw [step_poll_none hnone]
      exact hbalanced
    · exact hbalanced.poll hkept hslot hpoll
  | handleTimeout q now =>
    have hsame : (h.step ops (.handleTimeout q now)).1 = h := by
      simp only [History.step, GpuPipeline.call, sweep_eq hkept hlate]
    rw [hsame]
    exact hbalanced

end

end History

end Qdgz300.SignalProc
