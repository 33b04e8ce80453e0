import Qdgz300.App.Shutdown
import Qdgz300.Pipeline.Buffered

/-!
# The packet buffers on their way through a face

The receive path of `App/Shutdown.lean` once more, with the buffers that the packets are in. The
receive loop (`network/array_face_receiver.cpp`) takes buffers from the pool and has datagrams put
into them; `on_packet` (`pipeline/rx_stage.cpp`) moves a buffer into an envelope, and the envelope
into a slot of the queue; the processing thread (`app_run.cpp`) moves it out again, and
`process_packet_zero_copy` may keep it (`Pipeline.Buffered`). A `PacketBuffer` goes back to the pool
with its last owner, so the pool gives out buffers that nobody owns. An envelope that
`drop_oldest_push` skips stays in its slot, and keeps its buffer, until the slot is written again.

`step` lets one thread act on whole operations. `CopiedFace` is the abstract view.
-/

namespace Qdgz300.App

open Protocol Common Pipeline

/-- `RxEnvelope`; `packetData` is the buffer. -/
structure BufferedEnvelope where
  header : CommonHeader := {}
  arrayId : BitVec 8 := 0
  rxTimestampNs : BitVec 64 := 0
  packetLength : BitVec 32 := 0
  packetData : Option Nat := none
  deriving DecidableEq, Repr

def BufferedEnvelope.moved (env : BufferedEnvelope) : BufferedEnvelope :=
    { env with packetData := none }

/-- `RxStage`. -/
structure BufferedStage where
  arrayId : BitVec 8
  validator : Validator
  queue : SPSCQueue BufferedEnvelope
  rxTotal : Nat := 0
  parseOk : Nat := 0
  validateOk : Nat := 0
  enqueued : Nat := 0
  queueHighWatermark : Nat := 0

namespace BufferedStage

/-- The constructor. -/
def new (arrayId localDeviceId : BitVec 8) : BufferedStage where
  arrayId
  validator := { localDeviceId, scope := .dataAndHeartbeat }
  queue := .new fun _ => {}

/-- The push and the counters after it. -/
def enqueue (stage : BufferedStage) (env : BufferedEnvelope) : BufferedStage :=
  let queue := (stage.queue.dropOldestPush rxQueueCapacity env).1
  let depth := queue.size rxQueueCapacity
  { stage with
    queue
    enqueued := stage.enqueued + 1
    queueHighWatermark :=
      if stage.queueHighWatermark < depth then depth else stage.queueHighWatermark }

/-- `on_packet` for a datagram in `buffer`. -/
def onPacket (mem : Buffered.Memory) (stage : BufferedStage) (buffer : Nat)
    (receiveTimestampNs : BitVec 64) : BufferedStage :=
  let stage := { stage with rxTotal := stage.rxTotal + 1 }
  match parse (some (mem buffer)) with
  | none => stage
  | some parsed =>
    let stage := { stage with parseOk := stage.parseOk + 1 }
    if stage.validator.validate parsed ≠ .ok then stage
    else
      let stage := { stage with validateOk := stage.validateOk + 1 }
      stage.enqueue
        { header := parsed.header
          arrayId := stage.arrayId
          rxTimestampNs := receiveTimestampNs
          packetLength := BitVec.ofNat 32 (mem buffer).length
          packetData := some buffer }

/-- The processing thread's pop. -/
def pop (stage : BufferedStage) : BufferedStage × List BufferedEnvelope :=
  let popped := stage.queue.tryPop rxQueueCapacity BufferedEnvelope.moved
  ({ stage with queue := popped.1 }, popped.2.toList)

end BufferedStage

/-- The packet that the processing thread rebuilds from an envelope. -/
def bufferedPacket (env : BufferedEnvelope) : Buffered.ParsedPacket where
  header := env.header
  payload := env.packetData.map fun buffer => ⟨buffer, commonHeaderSize⟩
  totalSize := env.packetLength.toNat

/-- A face with its packet buffers. `receiving` are those that the receive loop has. -/
structure BufferedFace where
  memory : Buffered.Memory
  receiving : List Nat
  stage : BufferedStage
  reassembler : Buffered.Reassembler

/-- The operation of a thread: the receive loop takes a buffer or gives one back, `recvmmsg` fills
one, and the packet in one goes to `on_packet`; the processing thread pops and dispatches, in its
loop or when it drains; the timeouts are checked, or the contexts flushed. -/
inductive BufferLabel where
  | allocate (buffer : Nat)
  | giveBack (buffer : Nat)
  | recvmmsg (buffer : Nat) (datagram : List Byte)
  | onPacket (buffer : Nat) (receiveTimestampNs : BitVec 64)
  | process
  | drain
  | checkTimeouts (order : IterOrder)
  | flushAll (order : IterOrder)

namespace BufferedFace

def new (arrayId localDeviceId : BitVec 8) (cfg : ReassemblerConfig) (memory : Buffered.Memory) :
    BufferedFace where
  memory
  receiving := []
  stage := .new arrayId localDeviceId
  reassembler := .new cfg

/-- Slot `i` of the queue owns the buffer. -/
def SlotOwns (face : BufferedFace) (i buffer : Nat) : Prop :=
  (face.stage.queue.buffer i).packetData = some buffer

/-- Nobody owns the buffer. -/
def Unowned (face : BufferedFace) (buffer : Nat) : Prop :=
  buffer ∉ face.receiving ∧ (∀ i, ¬ face.SlotOwns i buffer) ∧ ¬ face.reassembler.Holds buffer

/-- The pool gives out a buffer that nobody owns, and the receive loop fills those that it has; what
it gives back may be a buffer that it has given away already. -/
def Allowed (face : BufferedFace) : BufferLabel → Prop
  | .allocate buffer => face.Unowned buffer
  | .recvmmsg buffer _ => buffer ∈ face.receiving
  | .onPacket buffer _ => buffer ∈ face.receiving
  | _ => True

/-- What a call of the reassembler leaves and emits. -/
def put (face : BufferedFace) (r : Buffered.Reassembler × List Emission) :
    BufferedFace × List Emission :=
  ({ face with reassembler := r.1 }, r.2)

/-- `try_pop`, and the dispatch of what it finds with the handler for `DATA`. What no handler takes
over is destroyed. -/
def popDispatch (face : BufferedFace)
    (handler : Buffered.ParsedPacket → Nat → Buffered.Reassembler × List Emission) :
    BufferedFace × List Emission :=
  let popped := face.stage.pop
  let face := { face with stage := popped.1 }
  match popped.2 with
  | [] => (face, [])
  | env :: _ =>
    if env.header.packetType = PacketType.data.toByte then
      -- `on_packet` pushes no envelope without a buffer
      face.put (handler (bufferedPacket env) (env.packetData.getD 0))
    else (face, [])

/-- One operation, with the frames that the reassembler passes to its callback. -/
def step (clk : SystemClock) (face : BufferedFace) : BufferLabel → BufferedFace × List Emission
  | .allocate buffer => ({ face with receiving := buffer :: face.receiving }, [])
  | .giveBack buffer => ({ face with receiving := face.receiving.erase buffer }, [])
  | .recvmmsg buffer datagram =>
    ({ face with memory := Function.update face.memory buffer datagram }, [])
  | .onPacket buffer receiveTimestampNs =>
    ({ face with
      receiving := face.receiving.erase buffer
      stage := face.stage.onPacket face.memory buffer receiveTimestampNs }, [])
  | .process => face.popDispatch (face.reassembler.processPacketZeroCopy clk face.memory)
  | .drain =>
    face.popDispatch fun packet _ => face.reassembler.processPacket clk face.memory packet
  | .checkTimeouts order => face.put (face.reassembler.checkTimeouts clk face.memory order)
  | .flushAll order => face.put (face.reassembler.flushAll clk face.memory order)

end BufferedFace

/-! ## A face that copies -/

/-- What the buffers are for: a face whose `on_packet` copies the datagram, and whose packets and
fragments are bytes from then on. -/
structure CopiedFace where
  memory : Buffered.Memory
  stage : RxStage
  reassembler : Reassembler

namespace CopiedFace

def new (arrayId localDeviceId : BitVec 8) (cfg : ReassemblerConfig) (memory : Buffered.Memory) :
    CopiedFace where
  memory
  stage := .new arrayId localDeviceId
  reassembler := .new cfg

def put (face : CopiedFace) (r : Reassembler × List Emission) : CopiedFace × List Emission :=
  ({ face with reassembler := r.1 }, r.2)

def popDispatch (clk : SystemClock) (face : CopiedFace) : CopiedFace × List Emission :=
  let popped := face.stage.pop
  let face := { face with stage := popped.1 }
  match popped.2 with
  | [] => (face, [])
  | env :: _ =>
    if env.header.packetType = PacketType.data.toByte then
      face.put (face.reassembler.processPacket clk (parsedPacket env))
    else (face, [])

/-- The same operations. -/
def step (clk : SystemClock) (face : CopiedFace) : BufferLabel → CopiedFace × List Emission
  | .allocate _ => (face, [])
  | .giveBack _ => (face, [])
  | .recvmmsg buffer datagram =>
    ({ face with memory := Function.update face.memory buffer datagram }, [])
  | .onPacket buffer receiveTimestampNs =>
    ({ face with stage := face.stage.onPacket ⟨some (face.memory buffer), receiveTimestampNs⟩ }, [])
  | .process => face.popDispatch clk
  | .drain => face.popDispatch clk
  | .checkTimeouts order => face.put (face.reassembler.checkTimeouts clk order)
  | .flushAll order => face.put (face.reassembler.flushAll clk order)

end CopiedFace

end Qdgz300.App
