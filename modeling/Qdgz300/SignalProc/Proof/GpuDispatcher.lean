import Mathlib.Data.List.Forall2
import Qdgz300.Common.Proof.SpscContents
import Qdgz300.SignalProc.GpuDispatcher

/-!
# The dispatcher loses, repeats and reorders nothing

A block is submitted only after its stream was polled, so only the first slot of a stream is ever
occupied, and never when the timeouts are swept: however late a visit is, its poll comes first.
`StreamOk` describes one stream (its queue, its slots and its history); a visit changes one stream
and leaves the others alone. `Accounted` ties the histories to the queues and holds of every run.
-/

namespace Qdgz300.SignalProc

open Common

variable {F : Type}

/-- A batch is what the detector makes of a block, at some time. -/
def Image (ops : FloatOps F) (block : Option RawBlock) (batch : PlotBatch F) : Prop :=
  ∃ b now, block = some b ∧ batch = plotBatch ops b now

/-- The batches in a slot: none, or the output of a completed submission. -/
def InFlight (slot : InflightSlot F) (flight : List (PlotBatch F)) : Prop :=
  slot.occupied = false ∧ flight = [] ∨
    ∃ batch, slot.occupied = true ∧ slot.completed = true ∧ slot.output = some batch ∧
      flight = [batch]

/-- One stream: its input queue, its slots, what it popped and pushed, the block `hand` that the
dispatcher has popped and not yet submitted, and whether it is past the poll of its visit. -/
structure StreamOk (ops : FloatOps F) (queue : SPSCQueue (Option RawBlock))
    (slots : Nat → InflightSlot F) (popped : List (Option RawBlock)) (pushed : List (PlotBatch F))
    (hand : List (Option RawBlock)) (polled : Prop) : Prop where
  contents : ∃ contents, Holds rawcpiQCapacity queue contents ∧ none ∉ contents
  second : (slots 1).occupied = false
  nonnull : none ∉ hand
  flow : ∃ flight sent, InFlight (slots 0) flight ∧ (polled → flight = []) ∧
    popped = sent ++ hand ∧ List.Forall₂ (Image ops) sent (pushed ++ flight)

/-- The blocks that arrive are not null and the allocations succeed. -/
def DispatchLabel.Succeeds : DispatchLabel → Prop
  | .arrive _ block _ => block ≠ none
  | .dispatch _ env => env.batchAllocated = true ∧ env.plotsAllocated = true
  | _ => True

namespace Dispatcher

/-- The block of stream `q` that was popped and not yet submitted. -/
def hand (d : Dispatcher F) (q : Nat) : List (Option RawBlock) :=
  match d.pc with
  | .submit i block => if d.qIdx i = q then [block] else []
  | _ => []

/-- The dispatcher visits stream `q` and has polled it. -/
def polled (d : Dispatcher F) (q : Nat) : Prop :=
  match d.pc with
  | .sweep i | .pop i | .submit i _ => d.qIdx i = q
  | _ => False

/-- All occupied slots. -/
def occupied (p : GpuPipeline F) : Nat := ((List.range gpuStreamCount).map p.inflightCount).sum

structure Inv (ops : FloatOps F) (d : Dispatcher F) : Prop where
  streams : ∀ q, StreamOk ops (d.rawcpiQs q) (d.pipeline.inflight q) (d.popped q) (d.pushed q)
    (d.hand q) (d.polled q)
  counted : d.metrics.gpuFramesSubmitted = d.metrics.gpuFramesCompleted + occupied d.pipeline
  timeouts : d.metrics.gpuTimeoutTotal = 0

end Dispatcher

/-- The histories are those of the queues: what went in is in the queue, was taken or was
dropped. -/
structure Dispatcher.Accounted (d : Dispatcher F) : Prop where
  inputs : ∀ q, Passed rawcpiQCapacity (d.rawcpiQs q) (d.arrived q) (d.popped q)
  outputs : ∀ q, Passed plotsQCapacity (d.plotsQs q) ((d.pushed q).map some) (d.consumed q)

/-! ## The pipeline with its second slot free -/

section
variable {p : GpuPipeline F} {q : Nat}

theorem setSlot_self (p : GpuPipeline F) (q s : Nat) (slot : InflightSlot F) :
    (p.setSlot q s slot).inflight q s = slot := by
  simp [GpuPipeline.setSlot]

theorem setSlot_slot {s r : Nat} (hne : r ≠ s) (slot : InflightSlot F) :
    (p.setSlot q s slot).inflight q r = p.inflight q r := by
  simp [GpuPipeline.setSlot, hne]

theorem setSlot_stream {r s : Nat} (hne : r ≠ q) (slot : InflightSlot F) :
    (p.setSlot q s slot).inflight r = p.inflight r := by
  funext t
  simp [GpuPipeline.setSlot, hne]

theorem inflightCount_eq (hq : q < gpuStreamCount) (hsecond : (p.inflight q 1).occupied = false)
    {flight : List (PlotBatch F)} (hflight : InFlight (p.inflight q 0) flight) :
    p.inflightCount q = flight.length := by
  rw [GpuPipeline.inflightCount, if_neg (by omega), show List.range gpuInflightMax = [0, 1] from rfl]
  obtain ⟨hfree, rfl⟩ | ⟨batch, hocc, -, -, rfl⟩ := hflight
  · simp [hfree, hsecond]
  · simp [hocc, hsecond]

/-- The sum over the streams when one of them changes. -/
theorem occupied_update (p' : GpuPipeline F) (hq : q < gpuStreamCount)
    (hsame : ∀ r, r ≠ q → p'.inflightCount r = p.inflightCount r) :
    Dispatcher.occupied p' + p.inflightCount q = Dispatcher.occupied p + p'.inflightCount q := by
  simp only [Dispatcher.occupied, show List.range gpuStreamCount = [0, 1, 2] from rfl, List.map_cons,
    List.map_nil, List.sum_cons, List.sum_nil]
  obtain rfl | rfl | rfl : q = 0 ∨ q = 1 ∨ q = 2 := by
    rw [gpuStreamCount] at hq
    omega
  · rw [hsame 1 (by decide), hsame 2 (by decide)]
    omega
  · rw [hsame 0 (by decide), hsame 2 (by decide)]
    omega
  · rw [hsame 0 (by decide), hsame 1 (by decide)]
    omega

theorem inflightCount_congr {p' : GpuPipeline F} {r : Nat} (h : p'.inflight r = p.inflight r) :
    p'.inflightCount r = p.inflightCount r := by
  simp only [GpuPipeline.inflightCount, h]

theorem pollCompletion_eq (hq : q < gpuStreamCount) (hsecond : (p.inflight q 1).occupied = false)
    {flight : List (PlotBatch F)} (hflight : InFlight (p.inflight q 0) flight) :
    p.pollCompletion q = (p, none) ∧ flight = [] ∧ (p.inflight q 0).occupied = false ∨
      ∃ batch, p.pollCompletion q = (p.setSlot q 0 {}, some (some batch)) ∧ flight = [batch] := by
  rw [GpuPipeline.pollCompletion, if_neg (by omega), show List.range gpuInflightMax = [0, 1] from rfl]
  obtain ⟨hfree, rfl⟩ | ⟨batch, hocc, hcompleted, houtput, rfl⟩ := hflight
  · exact .inl ⟨by simp [hfree, hsecond], rfl, hfree⟩
  · exact .inr ⟨batch, by simp [hocc, hcompleted, houtput], rfl⟩

theorem handleTimeout_eq (hfirst : (p.inflight q 0).occupied = false)
    (hsecond : (p.inflight q 1).occupied = false) (now : Int) : p.handleTimeout q now = p := by
  rw [GpuPipeline.handleTimeout]
  split_ifs
  · rfl
  · simp [show List.range gpuInflightMax = [0, 1] from rfl, GpuPipeline.sweepSlot, hfirst, hsecond]

/-- `submit_cpi` takes the first slot. -/
theorem submitCpi_eq (ops : FloatOps F) {env : GpuPipeline.SubmitEnv} (hq : q < gpuStreamCount)
    (hfirst : (p.inflight q 0).occupied = false) (hbatch : env.batchAllocated = true)
    (hplots : env.plotsAllocated = true) (b : RawBlock) :
    p.submitCpi ops env (some b) q =
      (p.setSlot q 0
        { input := some b
          output := some (plotBatch ops b env.processTime)
          occupied := true
          completed := true
          submitTime := env.submitTime }, .ok) := by
  have hslot : p.findFreeSlot q = some 0 := by
    rw [GpuPipeline.findFreeSlot, if_neg (by omega), show List.range gpuInflightMax = [0, 1] from rfl]
    simp [hfirst]
  have hlt : ¬ gpuStreamCount ≤ q := by omega
  simp [GpuPipeline.submitCpi, hlt, hslot, hbatch, hplots]

end

/-! ## The steps of one stream -/

section
variable {ops : FloatOps F} {queue : SPSCQueue (Option RawBlock)} {slots : Nat → InflightSlot F}
  {popped hand : List (Option RawBlock)} {pushed : List (PlotBatch F)} {polled polled' : Prop}

theorem StreamOk.imp (h : StreamOk ops queue slots popped pushed hand polled)
    (himp : polled' → polled) : StreamOk ops queue slots popped pushed hand polled' := by
  obtain ⟨flight, sent, hflight, hpolled, hpopped, himages⟩ := h.flow
  exact ⟨h.contents, h.second, h.nonnull, flight, sent, hflight, fun hp => hpolled (himp hp), hpopped,
    himages⟩

/-- An arrival. -/
theorem StreamOk.arrive (h : StreamOk ops queue slots popped pushed hand polled) (b : RawBlock)
    (dropOldest : Bool) :
    StreamOk ops (if dropOldest then queue.dropOldestPush rawcpiQCapacity (some b)
      else queue.tryPush rawcpiQCapacity (some b)).1 slots popped pushed hand polled := by
  obtain ⟨contents, hholds, hnonnull⟩ := h.contents
  refine ⟨?_, h.second, h.nonnull, h.flow⟩
  cases dropOldest with
  | true =>
    rcases hholds.dropOldestPush (by decide) (some b) with
      ⟨-, hafter, -⟩ | ⟨x, rest, rfl, -, hafter, -⟩
    · exact ⟨contents ++ [some b], hafter, by simpa using hnonnull⟩
    · refine ⟨rest ++ [some b], hafter, ?_⟩
      simp only [List.mem_cons, not_or] at hnonnull
      simpa using hnonnull.2
  | false =>
    rcases hholds.tryPush (some b) with ⟨-, -, hafter⟩ | ⟨-, hfull⟩
    · exact ⟨contents ++ [some b], hafter, by simpa using hnonnull⟩
    · exact ⟨contents, by simpa [hfull] using hholds, hnonnull⟩

theorem StreamOk.first (h : StreamOk ops queue slots popped pushed hand polled) (hpolled : polled) :
    (slots 0).occupied = false := by
  obtain ⟨flight, sent, hflight, hempty, -⟩ := h.flow
  obtain ⟨hfree, -⟩ | ⟨batch, -, -, -, rfl⟩ := hflight
  · exact hfree
  · cases hempty hpolled

/-- A pop: the block is in the hand of the dispatcher. -/
theorem StreamOk.pop (h : StreamOk ops queue slots popped pushed [] polled) :
    (queue.tryPop rawcpiQCapacity id).2 = none ∨
      ∃ b, (queue.tryPop rawcpiQCapacity id).2 = some (some b) ∧
        StreamOk ops (queue.tryPop rawcpiQCapacity id).1 slots (popped ++ [some b]) pushed [some b]
          polled := by
  obtain ⟨contents, hholds, hnonnull⟩ := h.contents
  obtain ⟨flight, sent, hflight, hempty, hpopped, himages⟩ := h.flow
  cases contents with
  | nil => exact .inl (by rw [hholds.tryPop_nil])
  | cons front rest =>
    obtain ⟨hfront, hrest, -⟩ := hholds.tryPop_cons id
    simp only [List.mem_cons, not_or] at hnonnull
    cases front with
    | none => exact absurd rfl hnonnull.1
    | some b =>
      refine .inr ⟨b, hfront, ⟨rest, hrest, hnonnull.2⟩, h.second, by simp, flight, sent, hflight,
        hempty, ?_, himages⟩
      rw [hpopped, List.append_nil]

end

/-! ## The steps of the dispatcher -/

namespace Dispatcher

section
variable {ops : FloatOps F} {d : Dispatcher F} {i : Nat}

theorem qIdx_lt (d : Dispatcher F) (i : Nat) : d.qIdx i < gpuStreamCount := Nat.mod_lt _ (by decide)

theorem Inv.jump (h : Inv ops d) (rr : BitVec 8) {pc : DispatchPc}
    (hbefore : ∀ q, d.hand q = [])
    (hafter : ∀ q, ({ d with rrIndex := rr, pc } : Dispatcher F).hand q = [] ∧
      (({ d with rrIndex := rr, pc } : Dispatcher F).polled q → d.polled q)) :
    Inv ops { d with rrIndex := rr, pc } := by
  refine ⟨?_, h.counted, h.timeouts⟩
  intro q
  obtain ⟨hhand, hpolled⟩ := hafter q
  have hstream := (h.streams q).imp hpolled
  rw [hbefore q] at hstream
  rw [hhand]
  exact hstream

/-- A step leaves stream `r` alone. -/
def Untouched (d d' : Dispatcher F) (r : Nat) : Prop :=
  d'.rawcpiQs r = d.rawcpiQs r ∧ d'.pipeline.inflight r = d.pipeline.inflight r ∧
    d'.popped r = d.popped r ∧ d'.pushed r = d.pushed r ∧ d'.hand r = d.hand r ∧
    (d'.polled r → d.polled r)

/-- A step of one stream. -/
theorem Inv.visit (h : Inv ops d) {d' : Dispatcher F} {q : Nat} (hq : q < gpuStreamCount)
    (hothers : ∀ r, r ≠ q → Untouched d d' r)
    (hself : StreamOk ops (d'.rawcpiQs q) (d'.pipeline.inflight q) (d'.popped q) (d'.pushed q)
      (d'.hand q) (d'.polled q))
    (hcount : d'.metrics.gpuFramesSubmitted + d.metrics.gpuFramesCompleted +
        d.pipeline.inflightCount q =
      d.metrics.gpuFramesSubmitted + d'.metrics.gpuFramesCompleted + d'.pipeline.inflightCount q)
    (htimeouts : d'.metrics.gpuTimeoutTotal = 0) : Inv ops d' := by
  refine ⟨?_, ?_, htimeouts⟩
  · intro r
    by_cases hr : r = q
    · subst hr
      exact hself
    · obtain ⟨hqueue, hslots, hpopped, hpushed, hhand, hpolled⟩ := hothers r hr
      rw [hqueue, hslots, hpopped, hpushed, hhand]
      exact (h.streams r).imp hpolled
  · have hsum := occupied_update d'.pipeline hq
      fun r hr => inflightCount_congr (hothers r hr).2.1
    have hcounted := h.counted
    omega

/-- **The poll**: the batch in flight is pushed. -/
theorem Inv.pollVisit (h : Inv ops d) (hpc : d.pc = .poll i) : Inv ops (d.pollVisit i) := by
  have hq := d.qIdx_lt i
  have hstream := h.streams (d.qIdx i)
  obtain ⟨flight, sent, hflight, -, hpopped, himages⟩ := hstream.flow
  have hcount := inflightCount_eq hq hstream.second hflight
  rcases pollCompletion_eq hq hstream.second hflight with
    ⟨hpoll, rfl, hfree⟩ | ⟨batch, hpoll, rfl⟩
  · have heq : d.pollVisit i = { d with pc := .sweep i } := by
      simp only [Dispatcher.pollVisit, hpoll]
    rw [heq]
    refine h.visit hq ?_ ?_ rfl h.timeouts
    · intro r hr
      refine ⟨rfl, rfl, rfl, rfl, by simp [hand, hpc], fun hpolled => absurd hpolled.symm hr⟩
    · exact ⟨hstream.contents, hstream.second, by simp [hand], [], sent, .inl ⟨hfree, rfl⟩, fun _ => rfl,
        by simpa [hand, hpc] using hpopped, himages⟩
  · have heq : d.pollVisit i =
        { d with
          pipeline := d.pipeline.setSlot (d.qIdx i) 0 {}
          plotsQs := Function.update d.plotsQs (d.qIdx i)
            ((d.plotsQs (d.qIdx i)).dropOldestPush plotsQCapacity (some batch)).1
          metrics := { d.metrics with gpuFramesCompleted := d.metrics.gpuFramesCompleted + 1 }
          pushed := Function.update d.pushed (d.qIdx i) (d.pushed (d.qIdx i) ++ [batch])
          pc := .sweep i } := by
      simp only [Dispatcher.pollVisit, hpoll]
    have hfree : InFlight ((d.pipeline.setSlot (d.qIdx i) 0 {}).inflight (d.qIdx i) 0) [] :=
      .inl ⟨by rw [setSlot_self], rfl⟩
    have hsecond : ((d.pipeline.setSlot (d.qIdx i) 0 {}).inflight (d.qIdx i) 1).occupied =
      false := by
      rw [setSlot_slot (by decide)]
      exact hstream.second
    have hcount' := inflightCount_eq hq hsecond hfree
    rw [heq]
    refine h.visit hq ?_ ?_ ?_ h.timeouts
    · intro r hr
      exact ⟨rfl, setSlot_stream hr _, rfl, Function.update_of_ne hr _ _, by simp [hand, hpc],
        fun hpolled => absurd hpolled.symm hr⟩
    · refine ⟨hstream.contents, hsecond, by simp [hand], [], sent, hfree, fun _ => rfl,
        by simpa [hand, hpc] using hpopped, ?_⟩
      simp only [Function.update_self, List.append_nil]
      exact himages
    · simp only [hcount, hcount', List.length_singleton, List.length_nil]
      omega

/-- **The sweep** finds no slot to clear. -/
theorem Inv.sweep_eq (h : Inv ops d) (hpc : d.pc = .sweep i) (now : Int) :
    d.pipeline.handleTimeout (d.qIdx i) now = d.pipeline := by
  have hstream := h.streams (d.qIdx i)
  have hpolled : d.polled (d.qIdx i) := by simp [polled, hpc]
  exact handleTimeout_eq (hstream.first hpolled) hstream.second now

theorem Inv.sweepVisit (h : Inv ops d) (hpc : d.pc = .sweep i) (now : Int) :
    Inv ops (d.sweepVisit i now) := by
  have hq := d.qIdx_lt i
  have hstream := h.streams (d.qIdx i)
  have hpolled : d.polled (d.qIdx i) := by simp [polled, hpc]
  have hzero : d.pipeline.inflightCount (d.qIdx i) = 0 :=
    inflightCount_eq hq hstream.second (.inl ⟨hstream.first hpolled, rfl⟩)
  have hmax : ¬ gpuInflightMax ≤ 0 := by decide
  have heq : d.sweepVisit i now =
      { d with
        metrics := { d.metrics with
          gpuInflightCount := 0
          gpuQueueDepth := (d.rawcpiQs (d.qIdx i)).size rawcpiQCapacity }
        pc := .pop i } := by
    simp only [Dispatcher.sweepVisit, h.sweep_eq hpc now, hzero, hmax, if_false, Nat.sub_self,
      Nat.add_zero]
  rw [heq]
  refine h.visit hq ?_ ?_ rfl h.timeouts
  · intro r hr
    exact ⟨rfl, rfl, rfl, rfl, by simp [hand, hpc], fun hpolled => absurd hpolled.symm hr⟩
  · have hhand : d.hand (d.qIdx i) = [] := by simp [hand, hpc]
    rw [hhand] at hstream
    exact hstream.imp fun _ => hpolled

/-- **The pop.** -/
theorem Inv.popVisit (h : Inv ops d) (hpc : d.pc = .pop i) : Inv ops (d.popVisit i) := by
  have hq := d.qIdx_lt i
  have hstream := h.streams (d.qIdx i)
  have hhand : ∀ r, d.hand r = [] := fun r => by simp [hand, hpc]
  have hpolled : d.polled (d.qIdx i) := by simp [polled, hpc]
  rw [hhand] at hstream
  rcases hstream.pop with hnone | ⟨b, hsome, hafter⟩
  · have heq : d.popVisit i = { d with pc := nextVisit i } := by
      simp only [Dispatcher.popVisit, hnone]
    rw [heq]
    apply h.jump d.rrIndex hhand
    intro q
    simp only [hand, polled, nextVisit]
    split_ifs <;> simp
  · have heq : d.popVisit i =
        { d with
          rawcpiQs := Function.update d.rawcpiQs (d.qIdx i)
            ((d.rawcpiQs (d.qIdx i)).tryPop rawcpiQCapacity id).1
          popped := Function.update d.popped (d.qIdx i) (d.popped (d.qIdx i) ++ [some b])
          pc := .submit i (some b) } := by
      simp only [Dispatcher.popVisit, hsome]
    rw [heq]
    refine h.visit hq ?_ ?_ rfl h.timeouts
    · intro r hr
      refine ⟨Function.update_of_ne hr _ _, rfl, Function.update_of_ne hr _ _, rfl, ?_,
        fun hpolled => absurd hpolled.symm hr⟩
      rw [hhand]
      exact if_neg (Ne.symm hr)
    · simp only [Function.update_self]
      have hself : ({ d with
          rawcpiQs := Function.update d.rawcpiQs (d.qIdx i)
            ((d.rawcpiQs (d.qIdx i)).tryPop rawcpiQCapacity id).1
          popped := Function.update d.popped (d.qIdx i) (d.popped (d.qIdx i) ++ [some b])
          pc := .submit i (some b) } : Dispatcher F).hand (d.qIdx i) = [some b] := if_pos rfl
      rw [hself]
      exact hafter.imp fun _ => hpolled

/-- **The submission**: the block that was popped is in flight. -/
theorem Inv.submitVisit (h : Inv ops d) {block : Option RawBlock} (hpc : d.pc = .submit i block)
    {env : GpuPipeline.SubmitEnv} (hbatch : env.batchAllocated = true)
    (hplots : env.plotsAllocated = true) : Inv ops (d.submitVisit ops env i block) := by
  have hq := d.qIdx_lt i
  have hstream := h.streams (d.qIdx i)
  have hpolled : d.polled (d.qIdx i) := by simp [polled, hpc]
  have hhand : d.hand (d.qIdx i) = [block] := by simp [hand, hpc]
  rw [hhand] at hstream
  have hfirst := hstream.first hpolled
  obtain ⟨b, rfl⟩ : ∃ b, block = some b := by
    cases block with
    | none => exact absurd List.mem_cons_self hstream.nonnull
    | some b => exact ⟨b, rfl⟩
  obtain ⟨flight, sent, hflight, hempty, hpopped, himages⟩ := hstream.flow
  obtain rfl := hempty hpolled
  have hcount := inflightCount_eq hq hstream.second hflight
  have hsubmit := submitCpi_eq ops hq hfirst hbatch hplots b
  let slot : InflightSlot F :=
    { input := some b
      output := some (plotBatch ops b env.processTime)
      occupied := true
      completed := true
      submitTime := env.submitTime }
  have heq : d.submitVisit ops env i (some b) =
      { d with
        pipeline := d.pipeline.setSlot (d.qIdx i) 0 slot
        metrics := { d.metrics with
          gpuFramesSubmitted := d.metrics.gpuFramesSubmitted + 1
          gpuInflightCount := (d.pipeline.setSlot (d.qIdx i) 0 slot).inflightCount (d.qIdx i)
          gpuQueueDepth := (d.rawcpiQs (d.qIdx i)).size rawcpiQCapacity }
        pc := nextVisit i } := by
    simp only [Dispatcher.submitVisit, hsubmit, slot]
  have hbusy : InFlight ((d.pipeline.setSlot (d.qIdx i) 0 slot).inflight (d.qIdx i) 0)
      [plotBatch ops b env.processTime] := by
    rw [setSlot_self]
    exact .inr ⟨_, rfl, rfl, rfl, rfl⟩
  have hsecond : ((d.pipeline.setSlot (d.qIdx i) 0 slot).inflight (d.qIdx i) 1).occupied =
    false := by
    rw [setSlot_slot (by decide)]
    exact hstream.second
  have hcount' := inflightCount_eq hq hsecond hbusy
  have hnext : ∀ (d' : Dispatcher F) (q : Nat), d'.pc = nextVisit i → d'.hand q = [] ∧
    ¬ d'.polled q := by
    intro d' q hpc'
    simp only [hand, polled, hpc', nextVisit]
    split_ifs <;> simp
  rw [heq]
  refine h.visit hq ?_ ?_ ?_ h.timeouts
  · intro r hr
    have hothers : d.hand r = [] := by simp [hand, hpc, Ne.symm hr]
    exact ⟨rfl, setSlot_stream hr _, rfl, rfl, (hnext _ r rfl).1.trans hothers.symm,
      fun hpolled => absurd hpolled (hnext _ r rfl).2⟩
  · rw [(hnext _ (d.qIdx i) rfl).1]
    refine ⟨hstream.contents, hsecond, List.not_mem_nil, _, sent ++ [some b], hbusy,
      fun hpolled => absurd hpolled (hnext _ (d.qIdx i) rfl).2, ?_, ?_⟩
    · rw [List.append_nil]
      exact hpopped
    · rw [List.append_nil] at himages
      exact List.rel_append himages (.cons ⟨b, env.processTime, rfl, rfl⟩ .nil)
  · simp only [hcount, hcount', List.length_singleton, List.length_nil]
    omega

/-- **One step of the threads.** -/
theorem Inv.step (h : Inv ops d) {l : DispatchLabel} (hl : l.Succeeds) {d' : Dispatcher F}
    (hs : d.step ops l = some d') : Inv ops d' := by
  cases l with
  | arrive q block dropOldest =>
    obtain ⟨b, rfl⟩ := Option.ne_none_iff_exists'.1 hl
    obtain rfl := Option.some.inj hs
    refine ⟨?_, h.counted, h.timeouts⟩
    intro r
    by_cases hr : r = q
    · subst hr
      simp only [Function.update_self]
      exact (h.streams r).arrive b dropOldest
    · simp only [Function.update_of_ne hr]
      exact h.streams r
  | consume q =>
    obtain rfl := Option.some.inj hs
    exact ⟨h.streams, h.counted, h.timeouts⟩
  | stop =>
    obtain rfl := Option.some.inj hs
    exact ⟨h.streams, h.counted, h.timeouts⟩
  | dispatch now env =>
    simp only [Dispatcher.step, Dispatcher.dispatch] at hs
    cases hpc : d.pc with
    | check =>
      simp only [hpc, Option.some.injEq] at hs
      subst hs
      apply h.jump d.rrIndex (fun q => by simp [hand, hpc])
      intro q
      cases d.running <;> simp [hand, polled]
    | poll i =>
      simp only [hpc, Option.some.injEq] at hs
      subst hs
      exact h.pollVisit hpc
    | sweep i =>
      simp only [hpc, Option.some.injEq] at hs
      subst hs
      exact h.sweepVisit hpc now
    | pop i =>
      simp only [hpc, Option.some.injEq] at hs
      subst hs
      exact h.popVisit hpc
    | submit i block =>
      simp only [hpc, Option.some.injEq] at hs
      subst hs
      exact h.submitVisit hpc hl.1 hl.2
    | rotate =>
      simp only [hpc, Option.some.injEq] at hs
      subst hs
      apply h.jump _ (fun q => by simp [hand, hpc])
      intro q
      simp [hand, polled]
    | done =>
      rw [hpc] at hs
      cases hs

theorem inv_new (ops : FloatOps F) (rrIndex : BitVec 8) : Inv ops (.new rrIndex) := by
  refine ⟨?_, rfl, rfl⟩
  intro q
  exact ⟨⟨[], holds_new _, List.not_mem_nil⟩, rfl, List.not_mem_nil, [], [], .inl ⟨rfl, rfl⟩,
    fun _ => rfl, rfl, .nil⟩

theorem exec_inv {rrIndex : BitVec 8} {labels : List DispatchLabel}
    (hlabels : ∀ l ∈ labels, l.Succeeds)
    (hexec : Machine.exec (step ops) (.new rrIndex) labels = some d) : Inv ops d :=
  Machine.exec_inv (I := Inv ops)
  (C := fun _ l => l.Succeeds) (fun _ _ _ hinv hl hs => hinv.step hl hs)
    (inv_new ops rrIndex) (Machine.along_of_forall hlabels) hexec

/-- What was popped beyond what was pushed is one block at most: it is in the dispatcher's hand or
in flight, not both. -/
theorem Inv.pushed (h : Inv ops d) (q : Nat) :
    ∃ sent rest, d.popped q = sent ++ rest ∧ rest.length ≤ 1 ∧
      List.Forall₂ (Image ops) sent (d.pushed q) := by
  obtain ⟨flight, sent, hflight, hempty, hpopped, himages⟩ := (h.streams q).flow
  obtain ⟨-, rfl⟩ | ⟨batch, -, -, -, rfl⟩ := hflight
  · refine ⟨sent, d.hand q, hpopped, ?_, by simpa using himages⟩
    simp only [hand]
    split <;> try split_ifs
    all_goals simp
  · have hhand : d.hand q = [] := by
      by_contra hne
      have hpolled : d.polled q := by
        simp only [hand] at hne
        split at hne
        next i block hpc =>
          simp only [polled, hpc]
          by_contra hq
          exact hne (if_neg hq)
        next => exact absurd rfl hne
      cases hempty hpolled
    rw [hhand, List.append_nil] at hpopped
    have hfirst := List.forall₂_take_append sent (d.pushed q) [batch] himages
    have hlast := List.forall₂_drop_append sent (d.pushed q) [batch] himages
    exact ⟨_, _, hpopped.trans (List.take_append_drop (d.pushed q).length sent).symm,
      hlast.length_eq.le, hfirst⟩

theorem Inv.inflightCount_le (h : Inv ops d) (q : Nat) : d.pipeline.inflightCount q ≤ 1 := by
  by_cases hq : q < gpuStreamCount
  · obtain ⟨flight, -, hflight, -⟩ := (h.streams q).flow
    rw [inflightCount_eq hq (h.streams q).second hflight]
    obtain ⟨-, rfl⟩ | ⟨batch, -, -, -, rfl⟩ := hflight
    · exact Nat.zero_le 1
    · exact Nat.le_refl 1
  · rw [GpuPipeline.inflightCount, if_pos (Nat.le_of_not_lt hq)]
    exact Nat.zero_le 1

end

/-! ## The queues and their histories -/

section
variable {ops : FloatOps F} {d : Dispatcher F}

theorem accounted_new (rrIndex : BitVec 8) : Accounted (.new rrIndex : Dispatcher F) :=
  ⟨fun _ => passed_new _, fun _ => passed_new _⟩

theorem Accounted.arrive (h : Accounted d) (q : Nat) (block : Option RawBlock) (dropOldest : Bool)
    {d' : Dispatcher F} (hs : d.step ops (.arrive q block dropOldest) = some d') :
      Accounted d' := by
  obtain rfl := Option.some.inj hs
  refine ⟨fun r => ?_, h.outputs⟩
  by_cases hr : r = q
  · subst hr
    simp only [Function.update_self]
    cases dropOldest with
    | true => exact (h.inputs r).dropOldestPush (by decide) block
    | false => exact (h.inputs r).tryPush block
  · simp only [Function.update_of_ne hr]
    exact h.inputs r

theorem Accounted.consume (h : Accounted d) (q : Nat) {d' : Dispatcher F}
    (hs : d.step ops (.consume q) = some d') : Accounted d' := by
  obtain rfl := Option.some.inj hs
  refine ⟨h.inputs, fun r => ?_⟩
  by_cases hr : r = q
  · subst hr
    simp only [Function.update_self]
    exact (h.outputs r).tryPop id
  · simp only [Function.update_of_ne hr]
    exact h.outputs r

theorem Accounted.pollVisit (h : Accounted d) (i : Nat) : Accounted (d.pollVisit i) := by
  simp only [Dispatcher.pollVisit]
  split
  · refine ⟨h.inputs, fun r => ?_⟩
    by_cases hr : r = d.qIdx i
    · subst hr
      simp only [Function.update_self, List.map_append, List.map_singleton]
      exact (h.outputs _).dropOldestPush (by decide) _
    · simp only [Function.update_of_ne hr]
      exact h.outputs r
  · exact ⟨h.inputs, h.outputs⟩

theorem Accounted.popVisit (h : Accounted d) (i : Nat) : Accounted (d.popVisit i) := by
  have htaken := (h.inputs (d.qIdx i)).tryPop id
  simp only [Dispatcher.popVisit]
  split
  · exact ⟨h.inputs, h.outputs⟩
  next block hblock =>
    rw [hblock] at htaken
    refine ⟨fun r => ?_, h.outputs⟩
    by_cases hr : r = d.qIdx i
    · subst hr
      simp only [Function.update_self]
      exact htaken
    · simp only [Function.update_of_ne hr]
      exact h.inputs r

theorem Accounted.submitVisit (h : Accounted d) (env : GpuPipeline.SubmitEnv) (i : Nat)
    (block : Option RawBlock) : Accounted (d.submitVisit ops env i block) := by
  simp only [Dispatcher.submitVisit]
  split <;> exact ⟨h.inputs, h.outputs⟩

theorem Accounted.step (h : Accounted d) {l : DispatchLabel} {d' : Dispatcher F}
    (hs : d.step ops l = some d') : Accounted d' := by
  cases l with
  | arrive q block dropOldest => exact h.arrive q block dropOldest hs
  | consume q => exact h.consume q hs
  | stop =>
    obtain rfl := Option.some.inj hs
    exact ⟨h.inputs, h.outputs⟩
  | dispatch now env =>
    simp only [Dispatcher.step, Dispatcher.dispatch] at hs
    cases hpc : d.pc with
    | done =>
      rw [hpc] at hs
      cases hs
    | poll i =>
      simp only [hpc, Option.some.injEq] at hs
      subst hs
      exact h.pollVisit i
    | pop i =>
      simp only [hpc, Option.some.injEq] at hs
      subst hs
      exact h.popVisit i
    | submit i block =>
      simp only [hpc, Option.some.injEq] at hs
      subst hs
      exact h.submitVisit env i block
    | _ =>
      simp only [hpc, Option.some.injEq] at hs
      subst hs
      exact ⟨h.inputs, h.outputs⟩

theorem exec_accounted {rrIndex : BitVec 8} {labels : List DispatchLabel}
    (hexec : Machine.exec (step ops) (.new rrIndex) labels = some d) : Accounted d :=
  Machine.exec_inv (I := Accounted) (C := fun _ _ => True) (fun _ _ _ hinv _ hs => hinv.step hs)
    (accounted_new rrIndex) (Machine.along_of_forall fun _ _ => trivial) hexec

end

/-- **The dispatcher loses, repeats and reorders nothing**, from any start of the rotation, with any
arrivals and any clock readings: a stream never has two slots occupied, the sweep of a visit clears
none, what was pushed are the images of the blocks popped, in their order, except for the last one,
and the frames submitted and not completed are the occupied slots. What was popped came out of the
input queue, and what was pushed went into the output queue. -/
theorem dispatcher_flow (ops : FloatOps F) (rrIndex : BitVec 8) (labels : List DispatchLabel)
    (hlabels : ∀ l ∈ labels, l.Succeeds) (d : Dispatcher F)
    (hexec : Machine.exec (step ops) (.new rrIndex) labels = some d) :
    (∀ q, d.pipeline.inflightCount q ≤ 1) ∧
    (∀ i, d.pc = .sweep i → ∀ now, d.pipeline.handleTimeout (d.qIdx i) now = d.pipeline) ∧
    (∀ q, ∃ sent rest, d.popped q = sent ++ rest ∧ rest.length ≤ 1 ∧
      List.Forall₂ (Image ops) sent (d.pushed q)) ∧
    d.metrics.gpuFramesSubmitted = d.metrics.gpuFramesCompleted + occupied d.pipeline ∧
    (∀ q, Passed rawcpiQCapacity (d.rawcpiQs q) (d.arrived q) (d.popped q)) ∧
    (∀ q, Passed plotsQCapacity (d.plotsQs q) ((d.pushed q).map some) (d.consumed q)) := by
  have h := exec_inv hlabels hexec
  have haccounted := exec_accounted hexec
  exact ⟨h.inflightCount_le, fun i hpc now => h.sweep_eq hpc now, h.pushed, h.counted,
    haccounted.inputs, haccounted.outputs⟩

/-- A detector for blocks without samples. -/
def noSamples : FloatOps Unit where
  ofIndex := fun _ => ()
  amplitude := fun _ => ()
  atMostThreshold := fun _ => true
  snrDb := fun _ => ()

/-- A block without samples on the second stream; the visits after it are a second apart. -/
def lateVisits : List DispatchLabel :=
  .arrive 1 (some { dataTs := 7, arrayId := 2, cpiSeq := 9, dataSize := 0, flags := 1, payload := none })
    true ::
  (List.range 24).map fun k =>
    .dispatch (1000000000 * k)
      { processTime := 1000000000 * k, submitTime := 1000000000 * k, batchAllocated := true,
        plotsAllocated := true }

theorem lateVisits_exec :
    (Machine.exec (step noSamples) (.new 200) lateVisits).map
      (fun d => ((d.popped 1).length, (d.pushed 1).length)) = some (1, 1) := by decide

theorem lateVisits_flow :
    ∃ d, Machine.exec (step noSamples) (.new 200) lateVisits = some d ∧
      (d.popped 1).length = 1 ∧ (d.pushed 1).length = 1 ∧
      (∀ q, ∃ sent rest, d.popped q = sent ++ rest ∧ rest.length ≤ 1 ∧
        List.Forall₂ (Image noSamples) sent (d.pushed q)) ∧
      d.metrics.gpuFramesSubmitted = d.metrics.gpuFramesCompleted + occupied d.pipeline ∧
      Passed rawcpiQCapacity (d.rawcpiQs 1) (d.arrived 1) (d.popped 1) ∧
      Passed plotsQCapacity (d.plotsQs 1) ((d.pushed 1).map some) (d.consumed 1) := by
  obtain ⟨d, hd, hlengths⟩ := Option.map_eq_some_iff.1 lateVisits_exec
  have hsucceeds : ∀ l ∈ lateVisits, l.Succeeds := by
    intro l hl
    obtain rfl | hl := List.mem_cons.1 hl
    · exact Option.some_ne_none _
    · obtain ⟨k, -, rfl⟩ := List.mem_map.1 hl
      exact ⟨rfl, rfl⟩
  obtain ⟨-, -, hpushed, hcounted, hinputs, houtputs⟩ :=
    dispatcher_flow noSamples 200 lateVisits hsucceeds d hd
  exact ⟨d, hd, congrArg Prod.fst hlengths, congrArg Prod.snd hlengths, hpushed, hcounted, hinputs 1,
    houtputs 1⟩

end Dispatcher

end Qdgz300.SignalProc
