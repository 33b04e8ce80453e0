import Qdgz300.Lib.Bytes

/-!
# The signal-processing pipeline (`src/m02_signal_proc/gpu_pipeline.cpp`)

The build without a GPU: `submit_cpi` computes the plots at once and leaves the batch in a slot of
the stream, where `poll_completion` finds it. Times are readings of the steady clock in nanoseconds.
The floating-point arithmetic of the detector is a parameter (`FloatOps`).
-/

namespace Qdgz300.SignalProc

open Bytes

/-- `GPU_STREAM_COUNT`. -/
def gpuStreamCount : Nat := 3

/-- `GPU_INFLIGHT_MAX`. -/
def gpuInflightMax : Nat := 2

/-- `T_GPU_MAX_MS`. -/
def tGpuMaxMs : Int := 50

/-- `kMaxPlotsPerCpi`. -/
def maxPlotsPerCpi : Nat := 512

/-- `RawBlock::FLAG_INCOMPLETE_FRAME`. -/
def flagIncompleteFrame : BitVec 32 := 1

/-- `qdgz300::RawBlock`: one CPI as the pipeline reads it. -/
structure RawBlock where
  dataTs : BitVec 64
  arrayId : BitVec 8
  cpiSeq : BitVec 32
  dataSize : BitVec 32
  flags : BitVec 32
  payload : Option (List Byte)

/-- The arithmetic of the detector. -/
structure FloatOps (F : Type) where
  /-- `static_cast<double>(i)`. -/
  ofIndex : Nat → F
  /-- `std::sqrt(i * i + q * q)` of the two floats in 8 bytes. -/
  amplitude : List Byte → F
  /-- `amplitude <= kAmplitudeThreshold`. -/
  atMostThreshold : F → Bool
  /-- `20 * log10(amplitude / kAmplitudeThreshold)`. -/
  snrDb : F → F

/-- `Plot`; the angles, the Doppler velocity and the beam are zero. -/
structure Plot (F : Type) where
  rangeM : F
  snrDb : F
  amplitude : F
  arrayId : BitVec 8

/-- `PlotBatch`. -/
structure PlotBatch (F : Type) where
  dataTs : BitVec 64
  processTs : BitVec 64
  arrayId : BitVec 8
  cpiSeq : BitVec 32
  plotCount : BitVec 16
  flags : BitVec 32
  plots : Option (List (Plot F))

/-- `InflightSlot`. -/
structure InflightSlot (F : Type) where
  input : Option RawBlock := none
  output : Option (PlotBatch F) := none
  occupied : Bool := false
  completed : Bool := false
  submitTime : Int := 0

/-- `GpuPipeline`: the slots of each stream. -/
structure GpuPipeline (F : Type) where
  inflight : Nat → Nat → InflightSlot F

/-- What `submit_cpi` returns. -/
inductive ErrorCode where
  | ok
  | gpuH2dFailed
  deriving DecidableEq

variable {F : Type}

/-- The sample loop of `submit_cpi`: `n` samples from `i` on, until there are enough plots. -/
def detectFrom (ops : FloatOps F) (arrayId : BitVec 8) (iq : List Byte) :
    Nat → Nat → List (Plot F) → List (Plot F)
  | 0, _, detected => detected
  | n + 1, i, detected =>
    if detected.length < maxPlotsPerCpi then
      let amplitude := ops.amplitude (slice iq (8 * i) 8)
      if ops.atMostThreshold amplitude then detectFrom ops arrayId iq n (i + 1) detected
      else detectFrom ops arrayId iq n (i + 1)
        (detected ++ [{ rangeM := ops.ofIndex i, snrDb := ops.snrDb amplitude, amplitude, arrayId }])
    else detected

/-- The plots of a block. -/
def detect (ops : FloatOps F) (block : RawBlock) : List (Plot F) :=
  match block.payload with
  | none => []
  | some iq => detectFrom ops block.arrayId iq (block.dataSize.toNat / 8) 0 []

/-- The batch of a block that is processed at `now`. -/
def plotBatch (ops : FloatOps F) (block : RawBlock) (now : Int) : PlotBatch F :=
  let detected := detect ops block
  { dataTs := block.dataTs
    processTs := BitVec.ofInt 64 now
    arrayId := block.arrayId
    cpiSeq := block.cpiSeq
    plotCount := BitVec.ofNat 16 detected.length
    flags := if block.flags &&& flagIncompleteFrame ≠ 0 then flagIncompleteFrame else 0
    plots := if detected.isEmpty then none else some detected }

namespace GpuPipeline

/-- No slot is occupied. -/
def new : GpuPipeline F := ⟨fun _ _ => {}⟩

def setSlot (p : GpuPipeline F) (stream s : Nat) (slot : InflightSlot F) : GpuPipeline F :=
  ⟨fun q r => if q = stream ∧ r = s then slot else p.inflight q r⟩

/-- `find_free_slot`, `none` for -1. -/
def findFreeSlot (p : GpuPipeline F) (stream : Nat) : Option Nat :=
  if gpuStreamCount ≤ stream then none
  else (List.range gpuInflightMax).find? fun s => !(p.inflight stream s).occupied

/-- `inflight_count`. -/
def inflightCount (p : GpuPipeline F) (stream : Nat) : Nat :=
  if gpuStreamCount ≤ stream then 0
  else (List.range gpuInflightMax).countP fun s => (p.inflight stream s).occupied

/-- The clock readings of `submit_cpi` and whether its two allocations succeed. -/
structure SubmitEnv where
  processTime : Int
  submitTime : Int
  batchAllocated : Bool
  plotsAllocated : Bool

/-- `submit_cpi`. -/
def submitCpi (ops : FloatOps F) (env : SubmitEnv) (p : GpuPipeline F) (block : Option RawBlock)
    (stream : Nat) : GpuPipeline F × ErrorCode :=
  match block with
  | none => (p, .gpuH2dFailed)
  | some block =>
    if gpuStreamCount ≤ stream then (p, .gpuH2dFailed)
    else
      match p.findFreeSlot stream with
      | none => (p, .gpuH2dFailed)
      | some s =>
        if env.batchAllocated = false then (p, .gpuH2dFailed)
        else if (detect ops block).isEmpty = false ∧ env.plotsAllocated = false then
          (p, .gpuH2dFailed)
        else
          (p.setSlot stream s
            { input := some block
              output := some (plotBatch ops block env.processTime)
              occupied := true
              completed := true
              submitTime := env.submitTime }, .ok)

/-- `poll_completion`: the output of the first completed slot, which is freed; `none` for false. -/
def pollCompletion (p : GpuPipeline F) (stream : Nat) :
    GpuPipeline F × Option (Option (PlotBatch F)) :=
  if gpuStreamCount ≤ stream then (p, none)
  else
    match (List.range gpuInflightMax).find? fun s =>
      (p.inflight stream s).occupied && (p.inflight stream s).completed with
    | none => (p, none)
    | some s => (p.setSlot stream s {}, some (p.inflight stream s).output)

/-- The slot that `has_timeout` reports: an incomplete one that is too old. -/
def slotTimedOut (now : Int) (slot : InflightSlot F) : Bool :=
  slot.occupied && !slot.completed && decide (tGpuMaxMs < (now - slot.submitTime).tdiv 1000000)

/-- `has_timeout`. -/
def hasTimeout (p : GpuPipeline F) (stream : Nat) (now : Int) : Bool :=
  if gpuStreamCount ≤ stream then false
  else (List.range gpuInflightMax).any fun s => slotTimedOut now (p.inflight stream s)

/-- One slot of `handle_timeout`. `duration_cast` truncates. -/
def sweepSlot (now : Int) (stream : Nat) (p : GpuPipeline F) (s : Nat) : GpuPipeline F :=
  let slot := p.inflight stream s
  if slot.occupied = false then p
  else if (now - slot.submitTime).tdiv 1000000 ≤ tGpuMaxMs then p
  else p.setSlot stream s {}

/-- `handle_timeout`. -/
def handleTimeout (p : GpuPipeline F) (stream : Nat) (now : Int) : GpuPipeline F :=
  if gpuStreamCount ≤ stream then p
  else (List.range gpuInflightMax).foldl (sweepSlot now stream) p

end GpuPipeline

/-- A call at the pipeline, with the clock readings and the results of the allocations it gets. -/
inductive PipelineCall where
  | submit (env : GpuPipeline.SubmitEnv) (block : Option RawBlock) (stream : Nat)
  | poll (stream : Nat)
  | handleTimeout (stream : Nat) (now : Int)

/-- What a call returns. -/
inductive PipelineAnswer (F : Type) where
  | code (result : ErrorCode)
  | polled (result : Option (Option (PlotBatch F)))
  | nothing

/-- One call. -/
def GpuPipeline.call (ops : FloatOps F) (p : GpuPipeline F) :
    PipelineCall → GpuPipeline F × List (PipelineAnswer F)
  | .submit env block stream =>
    ((p.submitCpi ops env block stream).1, [.code (p.submitCpi ops env block stream).2])
  | .poll stream => ((p.pollCompletion stream).1, [.polled (p.pollCompletion stream).2])
  | .handleTimeout stream now => (p.handleTimeout stream now, [.nothing])

end Qdgz300.SignalProc
