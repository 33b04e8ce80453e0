import Qdgz300.Common.SpscQueue
import Qdgz300.Pipeline.Reorderer

/-!
# RawBlocks (`delivery/rawblock_adapter.cpp`, `delivery/stub_consumer.cpp` of `src/m01_receiver`)

`RawBlockAdapter` wraps a packet of the reorderer and pushes it into the queue of its face, and the
worker of a `StubConsumer` takes the blocks out. A queue operation is one step. The entries of the
queue are pointers, `none` for null; `app_init` gives the adapter and the consumer the same queue.

The worker's periodic log lines and the optional file have no effect on the queue and are left out.
-/

namespace Qdgz300.Delivery

open Common Pipeline

/-- `RawBlockFlags::INCOMPLETE_FRAME`. -/
def incompleteFrame : BitVec 32 := 0x01

/-- `RAW_BLOCK_PAYLOAD_SIZE`. -/
def rawBlockPayloadSize : Nat := 2 * 1024 * 1024

/-- `RAWCPI_Q_CAPACITY`, 64. -/
def rawBlockQCapacity : Capacity := ⟨6, by decide⟩

/-- `receiver::delivery::RawBlock`. The payload is the part that was written; zeros follow. -/
structure RawBlock where
  ingestTs : BitVec 64
  dataTs : BitVec 64
  arrayId : BitVec 8
  cpiSeq : BitVec 32
  fragmentCount : BitVec 16
  dataSize : BitVec 32
  flags : BitVec 32
  payload : List Byte
  deriving DecidableEq, Repr

def RawBlock.hasFlag (block : RawBlock) (flag : BitVec 32) : Bool := block.flags &&& flag != 0

/-- `RawBlockQueue`. -/
abbrev RawBlockQueue := SPSCQueue (Option RawBlock)

/-- The block that `adapt_and_push` builds at clock reading `now`. -/
def adapt (arrayId : BitVec 8) (now : Int) (packet : OrderedPacket) : RawBlock :=
  let incomplete : BitVec 32 :=
    if packet.isZeroFilled || packet.isIncompleteFrame then incompleteFrame else 0
  { ingestTs := BitVec.ofInt 64 now
    dataTs := packet.packet.header.timestamp * 1000000
    arrayId
    cpiSeq := packet.sequenceNumber
    fragmentCount := 1
    dataSize :=
      if rawBlockPayloadSize < packet.payloadSize then BitVec.ofNat 32 rawBlockPayloadSize
      else BitVec.ofNat 32 packet.payloadSize
    flags :=
      if rawBlockPayloadSize < packet.payloadSize then incomplete ||| incompleteFrame
      else incomplete
    payload := (packet.ownedPayload.getD []).take (min packet.payloadSize rawBlockPayloadSize) }

/-- `adapt_and_push`. -/
def adaptAndPush (arrayId : BitVec 8) (now : Int) (queue : RawBlockQueue) (packet : OrderedPacket) :
    RawBlockQueue × Bool :=
  queue.dropOldestPush rawBlockQCapacity (some (adapt arrayId now packet))

structure StubConsumerStatistics where
  totalBlocks : Nat := 0
  completeFrames : Nat := 0
  incompleteFrames : Nat := 0
  totalBytes : Nat := 0
  lastCpiSeq : Nat := 0
  deriving DecidableEq, Repr

/-- Where the worker is in `run`. -/
inductive StubPc where
  /-- `running_.load`. -/
  | check
  | tryPop
  | processBlock (block : RawBlock)
  | done
  deriving DecidableEq, Repr

/-- `StubConsumer`. `processed` is history: the blocks passed to `process_block`. -/
structure StubConsumer where
  running : Bool
  pc : StubPc
  stats : StubConsumerStatistics
  processed : List RawBlock

namespace StubConsumer

/-- `process_block`. -/
def processBlock (consumer : StubConsumer) (block : RawBlock) : StubConsumer :=
  let incomplete := block.hasFlag incompleteFrame
  { consumer with
    stats :=
      { totalBlocks := consumer.stats.totalBlocks + 1
        completeFrames := consumer.stats.completeFrames + if incomplete then 0 else 1
        incompleteFrames := consumer.stats.incompleteFrames + if incomplete then 1 else 0
        totalBytes := consumer.stats.totalBytes + block.dataSize.toNat
        lastCpiSeq := block.cpiSeq.toNat }
    processed := consumer.processed ++ [block] }

/-- The next action of `run`. -/
def step (queue : RawBlockQueue) (consumer : StubConsumer) :
    Option (RawBlockQueue × StubConsumer) :=
  match consumer.pc with
  | .check => some (queue, { consumer with pc := if consumer.running then .tryPop else .done })
  | .tryPop =>
    let popped := queue.tryPop rawBlockQCapacity fun _ => none
    match popped.2 with
    | some (some block) => some (popped.1, { consumer with pc := .processBlock block })
    | _ => some (popped.1, { consumer with pc := .check })
  | .processBlock block => some (queue, { consumer.processBlock block with pc := .check })
  | .done => none

/-- The block that the worker has taken out and not yet processed. -/
def inHand (consumer : StubConsumer) : List RawBlock :=
  match consumer.pc with
  | .processBlock block => [block]
  | _ => []

end StubConsumer

end Qdgz300.Delivery
