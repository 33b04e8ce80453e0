import Qdgz300.Common.SpscQueue
import Qdgz300.Protocol.Validator

/-!
# The receive stage of a face (`src/m01_receiver/pipeline/rx_stage.cpp`)

`on_packet` parses and checks a datagram and pushes an envelope into the queue to the processing
thread. The two threads are taken one whole operation at a time; `Common.Sys` has the queue's
accesses one by one. Counters are numbers, `uint64_t` in the source.
-/

namespace Qdgz300.Pipeline

open Protocol Common

/-- `network::ReceivedPacket`: the bytes of a datagram, `none` for a null buffer. -/
structure ReceivedPacket where
  data : Option (List Byte)
  receiveTimestampNs : BitVec 64

/-- The envelope that crosses the queue (`rx_envelope.h`). -/
structure RxEnvelope where
  header : CommonHeader := {}
  arrayId : BitVec 8 := 0
  rxTimestampNs : BitVec 64 := 0
  packetLength : BitVec 32 := 0
  packetData : Option (List Byte) := none
  deriving DecidableEq, Repr

/-- An envelope that was moved from has lost its buffer. -/
def RxEnvelope.moved (env : RxEnvelope) : RxEnvelope := { env with packetData := none }

/-- `QUEUE_CAPACITY`, 65536. -/
def rxQueueCapacity : Capacity := ⟨16, by decide⟩

structure RxStage where
  arrayId : BitVec 8
  validator : Validator
  queue : SPSCQueue RxEnvelope
  rxTotal : Nat := 0
  parseOk : Nat := 0
  validateOk : Nat := 0
  enqueued : Nat := 0
  queueHighWatermark : Nat := 0

namespace RxStage

/-- The constructor. -/
def new (arrayId localDeviceId : BitVec 8) : RxStage where
  arrayId
  validator := { localDeviceId, scope := .dataAndHeartbeat }
  queue := .new fun _ => {}

/-- The push and the counters after it. -/
def enqueue (stage : RxStage) (env : RxEnvelope) : RxStage :=
  let queue := (stage.queue.dropOldestPush rxQueueCapacity env).1
  let depth := queue.size rxQueueCapacity
  { stage with
    queue
    enqueued := stage.enqueued + 1
    queueHighWatermark :=
      if stage.queueHighWatermark < depth then depth else stage.queueHighWatermark }

/-- `on_packet`. -/
def onPacket (stage : RxStage) (raw : ReceivedPacket) : RxStage :=
  let stage := { stage with rxTotal := stage.rxTotal + 1 }
  match parse raw.data with
  | none => stage
  | some parsed =>
    let stage := { stage with parseOk := stage.parseOk + 1 }
    if stage.validator.validate parsed ≠ .ok then stage
    else
      let stage := { stage with validateOk := stage.validateOk + 1 }
      stage.enqueue
        { header := parsed.header
          arrayId := stage.arrayId
          rxTimestampNs := raw.receiveTimestampNs
          packetLength := BitVec.ofNat 32 (raw.data.elim 0 List.length)
          packetData := raw.data }

/-- The processing thread's pop. -/
def pop (stage : RxStage) : RxStage × List RxEnvelope :=
  let popped := stage.queue.tryPop rxQueueCapacity RxEnvelope.moved
  ({ stage with queue := popped.1 }, popped.2.toList)

/-- `Stats`. -/
structure Stats where
  rxTotal : Nat
  parseOk : Nat
  validateOk : Nat
  enqueued : Nat
  queueDrops : Nat
  queueHighWatermark : Nat
  deriving DecidableEq, Repr

/-- `get_stats`. -/
def getStats (stage : RxStage) : Stats where
  rxTotal := stage.rxTotal
  parseOk := stage.parseOk
  validateOk := stage.validateOk
  enqueued := stage.enqueued
  queueDrops := stage.queue.dropCount
  queueHighWatermark := stage.queueHighWatermark

end RxStage

/-- One call at the stage. -/
inductive RxOp where
  | onPacket (raw : ReceivedPacket)
  | pop

/-- A call and the envelopes it pops. -/
def RxStage.step (stage : RxStage) : RxOp → RxStage × List RxEnvelope
  | .onPacket raw => (stage.onPacket raw, [])
  | .pop => stage.pop

/-- A run of calls. -/
def RxStage.run (stage : RxStage) (ops : List RxOp) : RxStage × List RxEnvelope :=
  Machine.run RxStage.step stage ops

/-- The sizes of the queue after the pushes of a run. -/
def RxStage.depths : RxStage → List RxOp → List Nat
  | _, [] => []
  | stage, op :: ops =>
    let after := (stage.step op).1
    (if stage.enqueued < after.enqueued then [after.queue.size rxQueueCapacity] else []) ++
      depths after ops

end Qdgz300.Pipeline
