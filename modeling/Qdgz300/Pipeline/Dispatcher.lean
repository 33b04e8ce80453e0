import Qdgz300.Lib.Machine
import Qdgz300.Protocol.Validator

/-!
# The dispatcher (`src/m01_receiver/pipeline/dispatcher.cpp`)

`dispatch` hands a packet to the handler of its type; a heartbeat is checked and accounted for
first. The class keeps a second way from before `dispatch` became synchronous: `enqueuePacket`
copies a packet into one of two queues and `drainQueues` empties them, heartbeats first. Handlers
belong to the caller: the model says whether they are set, and a call yields the handler calls that
it makes. Counters are numbers, `uint64_t` in the source. `nowMs` is the reading of `now_ms_epoch`.
-/

namespace Qdgz300.Pipeline

open Protocol Bytes

/-- `Dispatcher::Statistics`. -/
structure DispatchStatistics where
  dataPackets : Nat := 0
  heartbeatPackets : Nat := 0
  droppedPackets : Nat := 0
  deriving DecidableEq, Repr

/-- `Dispatcher::HeartbeatStatistics`. -/
structure HeartbeatStatistics where
  receivedTotal : Nat := 0
  lossTotal : Nat := 0
  lastSeenMs : BitVec 64 := 0
  queuePriorityHits : Nat := 0
  starvedTotal : Nat := 0
  deriving DecidableEq, Repr

/-- `Dispatcher::QueuedPacket`. -/
structure QueuedPacket where
  type : BitVec 8
  header : CommonHeader
  payload : List Byte
  totalSize : Nat
  deriving DecidableEq, Repr

/-- A call of a handler. The buffer is the bytes it holds, `none` for a null pointer. -/
inductive HandlerCall where
  | data (packet : ParsedPacket)
  | zeroCopyData (packet : ParsedPacket) (buffer : Option (List Byte))
  | heartbeat (packet : ParsedPacket)
  deriving DecidableEq, Repr

structure Dispatcher where
  dataHandler : Bool
  zeroCopyDataHandler : Bool := false
  heartbeatHandler : Bool := false
  stats : DispatchStatistics := {}
  heartbeatStats : HeartbeatStatistics := {}
  highPriorityQueue : List QueuedPacket := []
  normalQueue : List QueuedPacket := []
  heartbeatMaxQueueDepth : Nat := 1000
  hasLastHeartbeatSeq : Bool := false
  lastHeartbeatSeq : BitVec 32 := 0
  deriving DecidableEq, Repr

namespace Dispatcher

/-- The constructors; the one without a heartbeat handler leaves it unset. -/
def new (dataHandler heartbeatHandler : Bool) : Dispatcher := { dataHandler, heartbeatHandler }

def setHeartbeatMaxQueueDepth (d : Dispatcher) (depth : Nat) : Dispatcher :=
  { d with heartbeatMaxQueueDepth := if depth = 0 then 1 else depth }

def setZeroCopyDataHandler (d : Dispatcher) (handler : Bool) : Dispatcher :=
  { d with zeroCopyDataHandler := handler }

/-- A packet that goes to no handler. -/
def countDropped (d : Dispatcher) : Dispatcher :=
  { d with stats := { d.stats with droppedPackets := d.stats.droppedPackets + 1 } }

/-- `handle_non_data_packet`: the type is not looked at. -/
def handleNonDataPacket (d : Dispatcher) : Dispatcher := d.countDropped

def countData (d : Dispatcher) : Dispatcher :=
  { d with stats := { d.stats with dataPackets := d.stats.dataPackets + 1 } }

/-! ## Heartbeats -/

/-- A heartbeat that is too short or fails its CRC counts as lost. -/
def refuseHeartbeat (d : Dispatcher) : Dispatcher :=
  { d.countDropped with
    heartbeatStats := { d.heartbeatStats with lossTotal := d.heartbeatStats.lossTotal + 1 } }

/-- What `loss_total` grows by for a heartbeat with the number `seq`. -/
def heartbeatGap (d : Dispatcher) (seq : BitVec 32) : Nat :=
  let delta := (seq - d.lastHeartbeatSeq).toNat
  if d.hasLastHeartbeatSeq ∧ 1 < delta ∧ delta < 2 ^ 31 then delta - 1 else 0

/-- The accounting of a heartbeat that passed its checks. -/
def acceptHeartbeat (d : Dispatcher) (nowMs : BitVec 64) (header : CommonHeader) : Dispatcher :=
  { d with
    heartbeatStats :=
      { d.heartbeatStats with
        lossTotal := d.heartbeatStats.lossTotal + d.heartbeatGap header.sequenceNumber
        receivedTotal := d.heartbeatStats.receivedTotal + 1
        lastSeenMs := nowMs }
    hasLastHeartbeatSeq := true
    lastHeartbeatSeq := header.sequenceNumber
    stats := { d.stats with heartbeatPackets := d.stats.heartbeatPackets + 1 } }

/-- The CRC check of both ways: a stored CRC of 0 is not compared. -/
def wireCrcFails (payload : List Byte) : Bool :=
  le32 payload 44 != 0 && le32 payload 44 != crc32c (payload.take 44)

/-- `dispatch_heartbeat_direct`. -/
def dispatchHeartbeatDirect (d : Dispatcher) (nowMs : BitVec 64) (packet : ParsedPacket) :
    Dispatcher × List HandlerCall :=
  match packet.payload with
  | none => (d.refuseHeartbeat, [])
  | some payload =>
    if packet.header.payloadLen.toNat < heartbeatPayloadSize then (d.refuseHeartbeat, [])
    else if wireCrcFails payload then (d.refuseHeartbeat, [])
    else
      (d.acceptHeartbeat nowMs packet.header,
        if d.heartbeatHandler then [.heartbeat packet] else [])

/-- `dispatch_heartbeat_packet`. -/
def dispatchHeartbeatPacket (d : Dispatcher) (nowMs : BitVec 64) (queued : QueuedPacket) :
    Dispatcher × List HandlerCall :=
  if queued.payload.length < heartbeatPayloadSize then (d.refuseHeartbeat, [])
  else if wireCrcFails queued.payload then (d.refuseHeartbeat, [])
  else
    (d.acceptHeartbeat nowMs queued.header,
      if d.heartbeatHandler then
        [.heartbeat { header := queued.header, payload := some queued.payload,
                      totalSize := queued.totalSize }]
      else [])

/-! ## The synchronous way -/

/-- `dispatch(packet)`. -/
def dispatch (d : Dispatcher) (nowMs : BitVec 64) (packet : ParsedPacket) :
    Dispatcher × List HandlerCall :=
  if packet.header.packetType = PacketType.data.toByte then
    (d.countData, if d.dataHandler then [.data packet] else [])
  else if packet.header.packetType = PacketType.heartbeat.toByte then
    d.dispatchHeartbeatDirect nowMs packet
  else (d.handleNonDataPacket, [])

/-- `dispatch(packet, buffer)`. -/
def dispatchOwned (d : Dispatcher) (nowMs : BitVec 64) (packet : ParsedPacket)
    (buffer : Option (List Byte)) : Dispatcher × List HandlerCall :=
  if packet.header.packetType = PacketType.data.toByte then
    (d.countData,
      if d.zeroCopyDataHandler then [.zeroCopyData packet buffer]
      else if d.dataHandler then [.data packet]
      else [])
  else if packet.header.packetType = PacketType.heartbeat.toByte then
    d.dispatchHeartbeatDirect nowMs packet
  else (d.handleNonDataPacket, [])

/-- `dispatch_with_priority`. -/
def dispatchWithPriority (d : Dispatcher) (nowMs : BitVec 64) (packet : ParsedPacket) :
    Dispatcher × List HandlerCall :=
  d.dispatch nowMs packet

/-- `dispatch_batch`: each packet with the clock reading of its turn. -/
def dispatchBatch (d : Dispatcher) (packets : List (BitVec 64 × ParsedPacket)) :
    Dispatcher × List HandlerCall :=
  Machine.run (fun d turn => d.dispatch turn.1 turn.2) d packets

/-! ## The queues -/

/-- The copy that `enqueue_packet` makes; a null payload is copied as zeros. -/
def queuedOf (packet : ParsedPacket) : QueuedPacket where
  type := packet.header.packetType
  header := packet.header
  totalSize := packet.totalSize
  payload :=
    match packet.payload with
    | some payload => payload.take packet.header.payloadLen.toNat
    | none => List.replicate packet.header.payloadLen.toNat 0

/-- The loop over `pop_front`: the queue below `depth`, and how many packets were popped. -/
def makeRoom (depth : Nat) : List QueuedPacket → List QueuedPacket × Nat
  | [] => ([], 0)
  | queued :: queue =>
    if depth ≤ (queued :: queue).length then
      ((makeRoom depth queue).1, (makeRoom depth queue).2 + 1)
    else (queued :: queue, 0)

/-- `enqueue_packet`. -/
def enqueuePacket (d : Dispatcher) (packet : ParsedPacket) : Dispatcher :=
  if packet.header.packetType ≠ PacketType.data.toByte ∧
      packet.header.packetType ≠ PacketType.heartbeat.toByte then d.handleNonDataPacket
  else if packet.header.packetType = PacketType.heartbeat.toByte then
    let room := makeRoom d.heartbeatMaxQueueDepth d.highPriorityQueue
    { d with
      highPriorityQueue := room.1 ++ [queuedOf packet]
      heartbeatStats :=
        { d.heartbeatStats with starvedTotal := d.heartbeatStats.starvedTotal + room.2 }
      stats := { d.stats with droppedPackets := d.stats.droppedPackets + room.2 } }
  else { d with normalQueue := d.normalQueue ++ [queuedOf packet] }

/-- `dispatch_queued_packet`. -/
def dispatchQueuedPacket (d : Dispatcher) (nowMs : BitVec 64) (queued : QueuedPacket) :
    Dispatcher × List HandlerCall :=
  if queued.type = PacketType.data.toByte then
    (d.countData,
      if d.dataHandler then
        [.data { header := queued.header
                 payload := if queued.payload.isEmpty then none else some queued.payload
                 totalSize := queued.totalSize }]
      else [])
  else if queued.type = PacketType.heartbeat.toByte then d.dispatchHeartbeatPacket nowMs queued
  else (d.handleNonDataPacket, [])

/-- The handlers and the queues are not touched by a queued packet. -/
theorem dispatchQueuedPacket_frame (d : Dispatcher) (nowMs : BitVec 64) (queued : QueuedPacket) :
    (d.dispatchQueuedPacket nowMs queued).1.highPriorityQueue = d.highPriorityQueue ∧
      (d.dispatchQueuedPacket nowMs queued).1.normalQueue = d.normalQueue ∧
      (d.dispatchQueuedPacket nowMs queued).1.dataHandler = d.dataHandler ∧
      (d.dispatchQueuedPacket nowMs queued).1.heartbeatHandler = d.heartbeatHandler := by
  unfold dispatchQueuedPacket dispatchHeartbeatPacket
  split
  · exact ⟨rfl, rfl, rfl, rfl⟩
  · split
    · split
      · exact ⟨rfl, rfl, rfl, rfl⟩
      · split
        · exact ⟨rfl, rfl, rfl, rfl⟩
        · exact ⟨rfl, rfl, rfl, rfl⟩
    · exact ⟨rfl, rfl, rfl, rfl⟩

/-- The next heartbeat is taken, ahead of the data packets if there are any. -/
def popHigh (d : Dispatcher) (queue : List QueuedPacket) : Dispatcher :=
  { d with
    highPriorityQueue := queue
    heartbeatStats :=
      { d.heartbeatStats with
        queuePriorityHits :=
          d.heartbeatStats.queuePriorityHits + if d.normalQueue.isEmpty then 0 else 1 } }

def popNormal (d : Dispatcher) (queue : List QueuedPacket) : Dispatcher :=
  { d with normalQueue := queue }

/-- `drain_queues`: a turn takes the next heartbeat, or a data packet when there is none. -/
def drainQueues (clock : Nat → BitVec 64) (d : Dispatcher) : Dispatcher × List HandlerCall :=
  match _hhigh : d.highPriorityQueue with
  | queued :: queue =>
    let first := (d.popHigh queue).dispatchQueuedPacket (clock 0) queued
    let rest := drainQueues (fun i => clock (i + 1)) first.1
    (rest.1, first.2 ++ rest.2)
  | [] =>
    match _hnormal : d.normalQueue with
    | queued :: queue =>
      let first := (d.popNormal queue).dispatchQueuedPacket (clock 0) queued
      let rest := drainQueues (fun i => clock (i + 1)) first.1
      (rest.1, first.2 ++ rest.2)
    | [] => (d, [])
termination_by d.highPriorityQueue.length + d.normalQueue.length
decreasing_by
  · rw [(dispatchQueuedPacket_frame _ _ _).1, (dispatchQueuedPacket_frame _ _ _).2.1, _hhigh]
    simp [popHigh]
  · rw [(dispatchQueuedPacket_frame _ _ _).1, (dispatchQueuedPacket_frame _ _ _).2.1, _hnormal]
    simp [popNormal, _hhigh]

end Dispatcher

end Qdgz300.Pipeline
