import Qdgz300.Common.SpscQueue
import Qdgz300.SignalProc.GpuPipeline

/-!
# The dispatcher thread (`src/m02_signal_proc/gpu_dispatcher.cpp`)

`GpuDispatcher::run` visits the streams in turn; a visit polls the stream, sweeps its timeouts, pops
a block and submits it. The pipeline is used by this thread alone. Other threads push blocks into
the input queues and pop batches from the output queues between its actions, one queue operation at
a time. The pause after a round without work has no effect on the state.

`arrived` and `popped`, `pushed` and `consumed` are history: what went into each input queue and
came out of it, and the same for each output queue. The entries of the queues are pointers, `none`
for null.
-/

namespace Qdgz300.SignalProc

open Common

theorem rawcpiQCapacity_log : 6 < 64 := by decide

/-- `RAWCPI_Q_CAPACITY`, 64. -/
def rawcpiQCapacity : Capacity := ⟨6, rawcpiQCapacity_log⟩

/-- `PLOTS_Q_CAPACITY`, 256. -/
def plotsQCapacity : Capacity := ⟨8, by decide⟩

/-- The metrics that the dispatcher sets. -/
structure SignalProcMetrics where
  gpuFramesSubmitted : Nat := 0
  gpuFramesCompleted : Nat := 0
  gpuTimeoutTotal : Nat := 0
  gpuInflightCount : Nat := 0
  gpuQueueDepth : Nat := 0

/-- Where `run` is; `i` is the loop variable. -/
inductive DispatchPc where
  /-- `running_.load`. -/
  | check
  | poll (i : Nat)
  | sweep (i : Nat)
  | pop (i : Nat)
  | submit (i : Nat) (block : Option RawBlock)
  | rotate
  | done

structure Dispatcher (F : Type) where
  rawcpiQs : Nat → SPSCQueue (Option RawBlock)
  plotsQs : Nat → SPSCQueue (Option (PlotBatch F))
  pipeline : GpuPipeline F
  metrics : SignalProcMetrics
  running : Bool
  rrIndex : BitVec 8
  pc : DispatchPc
  arrived : Nat → List (Option RawBlock)
  popped : Nat → List (Option RawBlock)
  pushed : Nat → List (PlotBatch F)
  consumed : Nat → List (Option (PlotBatch F))

/-- The threads around the dispatcher, and the dispatcher's next action with its clock reading and
the outcome of its allocations. -/
inductive DispatchLabel where
  | arrive (q : Nat) (block : Option RawBlock) (dropOldest : Bool)
  | consume (q : Nat)
  | stop
  | dispatch (now : Int) (env : GpuPipeline.SubmitEnv)

namespace Dispatcher

variable {F : Type}

/-- The dispatcher at the start of `run`. -/
def new (rrIndex : BitVec 8) : Dispatcher F where
  rawcpiQs := fun _ => .new fun _ => none
  plotsQs := fun _ => .new fun _ => none
  pipeline := .new
  metrics := {}
  running := true
  rrIndex
  pc := .check
  arrived := fun _ => []
  popped := fun _ => []
  pushed := fun _ => []
  consumed := fun _ => []

/-- `q_idx`: the sum is an `int`. -/
def qIdx (d : Dispatcher F) (i : Nat) : Nat := (d.rrIndex.toNat + i) % gpuStreamCount

/-- The end of a visit. -/
def nextVisit (i : Nat) : DispatchPc := if i + 1 < gpuStreamCount then .poll (i + 1) else .rotate

/-- `poll_completion` and the push of its result. -/
def pollVisit (d : Dispatcher F) (i : Nat) : Dispatcher F :=
  let q := d.qIdx i
  let polled := d.pipeline.pollCompletion q
  match polled.2 with
  | some (some result) =>
    { d with
      pipeline := polled.1
      plotsQs := Function.update d.plotsQs q
        ((d.plotsQs q).dropOldestPush plotsQCapacity (some result)).1
      metrics := { d.metrics with gpuFramesCompleted := d.metrics.gpuFramesCompleted + 1 }
      pushed := Function.update d.pushed q (d.pushed q ++ [result])
      pc := .sweep i }
  | _ => { d with pipeline := polled.1, pc := .sweep i }

/-- `handle_timeout` between the two counts. -/
def sweepVisit (d : Dispatcher F) (i : Nat) (now : Int) : Dispatcher F :=
  let q := d.qIdx i
  let before := d.pipeline.inflightCount q
  let pipeline := d.pipeline.handleTimeout q now
  let after := pipeline.inflightCount q
  { d with
    pipeline
    metrics := { d.metrics with
      gpuTimeoutTotal := d.metrics.gpuTimeoutTotal + (before - after)
      gpuInflightCount := after
      gpuQueueDepth := (d.rawcpiQs q).size rawcpiQCapacity }
    pc := if gpuInflightMax ≤ after then nextVisit i else .pop i }

/-- `try_pop`. -/
def popVisit (d : Dispatcher F) (i : Nat) : Dispatcher F :=
  let q := d.qIdx i
  let popped := (d.rawcpiQs q).tryPop rawcpiQCapacity id
  match popped.2 with
  | none => { d with pc := nextVisit i }
  | some block =>
    { d with
      rawcpiQs := Function.update d.rawcpiQs q popped.1
      popped := Function.update d.popped q (d.popped q ++ [block])
      pc := .submit i block }

/-- `submit_cpi` and the metrics after it. -/
def submitVisit (ops : FloatOps F) (env : GpuPipeline.SubmitEnv) (d : Dispatcher F) (i : Nat)
    (block : Option RawBlock) : Dispatcher F :=
  let q := d.qIdx i
  let submitted := d.pipeline.submitCpi ops env block q
  match submitted.2 with
  | .ok =>
    { d with
      pipeline := submitted.1
      metrics := { d.metrics with
        gpuFramesSubmitted := d.metrics.gpuFramesSubmitted + 1
        gpuInflightCount := submitted.1.inflightCount q
        gpuQueueDepth := (d.rawcpiQs q).size rawcpiQCapacity }
      pc := nextVisit i }
  | .gpuH2dFailed => { d with pipeline := submitted.1, pc := nextVisit i }

/-- The next action of `run`. -/
def dispatch (ops : FloatOps F) (now : Int) (env : GpuPipeline.SubmitEnv) (d : Dispatcher F) :
    Option (Dispatcher F) :=
  match d.pc with
  | .check => some { d with pc := if d.running then .poll 0 else .done }
  | .poll i => some (d.pollVisit i)
  | .sweep i => some (d.sweepVisit i now)
  | .pop i => some (d.popVisit i)
  | .submit i block => some (d.submitVisit ops env i block)
  | .rotate =>
    some { d with
      rrIndex := BitVec.ofNat 8 ((d.rrIndex.toNat + 1) % gpuStreamCount)
      pc := .check }
  | .done => none

/-- One step of the threads. -/
def step (ops : FloatOps F) (d : Dispatcher F) : DispatchLabel → Option (Dispatcher F)
  | .arrive q block dropOldest =>
    let queue := d.rawcpiQs q
    let pushed := if dropOldest then queue.dropOldestPush rawcpiQCapacity block
      else queue.tryPush rawcpiQCapacity block
    -- `drop_oldest_push` returns false when it made room
    let entered := if dropOldest || pushed.2 then [block] else []
    some { d with
      rawcpiQs := Function.update d.rawcpiQs q pushed.1
      arrived := Function.update d.arrived q (d.arrived q ++ entered) }
  | .consume q =>
    let popped := (d.plotsQs q).tryPop plotsQCapacity id
    some { d with
      plotsQs := Function.update d.plotsQs q popped.1
      consumed := Function.update d.consumed q (d.consumed q ++ popped.2.toList) }
  | .stop => some { d with running := false }
  | .dispatch now env => d.dispatch ops now env

end Dispatcher

end Qdgz300.SignalProc
