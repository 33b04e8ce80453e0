import Qdgz300.Lib.Ledger
import Qdgz300.Lib.Machine
import Qdgz300.Protocol.Types

/-!
# The receive loop of a face (`src/m01_receiver/network/array_face_receiver.cpp`)

`receive_loop` in its Linux version. A step is a load of `running_`, a call of `allocate`, or a
`recvmmsg` with all that the loop does up to its next such call. What these three return comes from
outside: any value of the flag, a null pointer or a buffer that nobody owns, and any result of the
system call.

`trace` and `packetBuffers` are history: the buffers as the loop takes them from the pool and
returns them, and those in a `PacketBuffer` that has not been destroyed. The capture hook, the
metrics and the prefetch hints are left out.
-/

namespace Qdgz300.Network

open Protocol

/-- The fields of `ArrayFaceReceiverConfig` that the loop reads. -/
structure ArrayFaceReceiverConfig where
  arrayId : BitVec 8 := 1
  expectedSourceId : BitVec 8 := 0x11
  sourceFilterEnabled : Bool := true
  recvDrainRounds : Nat := 4
  /-- `packet_handler_` is set. -/
  packetHandler : Bool := true

/-- `drain_rounds`. -/
def drainRounds (config : ArrayFaceReceiverConfig) : Nat := max 1 config.recvDrainRounds

/-- `PacketPriority`. -/
inductive PacketPriority where
  | normal | high
  deriving DecidableEq, Repr

/-- A `cmsghdr` with the first byte of its data. -/
structure ControlMessage where
  level : Nat
  type : Nat
  data : BitVec 8
  deriving DecidableEq, Repr

/-- `IPPROTO_IP`. -/
def ipprotoIp : Nat := 0

/-- `IP_TOS`. -/
def ipTos : Nat := 1

/-- What `recvmmsg` leaves of a datagram: the `msg_len` bytes in its buffer, and its control
messages. -/
structure Datagram where
  data : List Byte
  control : List ControlMessage
  deriving DecidableEq, Repr

/-- `extract_dscp_from_cmsg`. -/
def extractDscpFromCmsg (control : List ControlMessage) : BitVec 8 :=
  match control.find? fun c => c.level == ipprotoIp && c.type == ipTos with
  | some c => c.data >>> 2
  | none => 0

/-- `offsetof(CommonHeader, packet_type)`. -/
def packetTypeOffset : Nat := 18

/-- `offsetof(CommonHeader, source_id)`. -/
def sourceIdOffset : Nat := 20

/-- `classify_priority`. -/
def classifyPriority (data : List Byte) (dscp : BitVec 8) : PacketPriority :=
  if dscp = 48 then .high
  else if packetTypeOffset < data.length ∧
      data.getD packetTypeOffset 0 = PacketType.heartbeat.toByte then .high
  else .normal

structure PendingPacket where
  packetBuffer : Nat
  data : List Byte
  receiveTimestampNs : BitVec 64
  priority : PacketPriority
  deriving DecidableEq, Repr

/-- The counters of `ArrayFaceStatsSink` that the loop moves. -/
structure ReceiveStatistics where
  packetsReceived : Nat := 0
  packetsFiltered : Nat := 0
  bytesReceived : Nat := 0
  recvErrors : Nat := 0
  deriving DecidableEq, Repr

def ReceiveStatistics.error (stats : ReceiveStatistics) : ReceiveStatistics :=
  { stats with recvErrors := stats.recvErrors + 1 }

/-- `heartbeat_batch` and `data_batch`, with the counters. -/
structure Batch where
  heartbeatBatch : List PendingPacket
  dataBatch : List PendingPacket
  stats : ReceiveStatistics

/-- The source filter lets the datagram through. -/
def passesFilter (config : ArrayFaceReceiverConfig) (data : List Byte) : Bool :=
  !config.sourceFilterEnabled ||
    !(decide (data.length ≤ sourceIdOffset) || data.getD sourceIdOffset 0 != config.expectedSourceId)

/-- The loop body for a received datagram in its buffer. -/
def Batch.receive (config : ArrayFaceReceiverConfig) (timestampNs : BitVec 64) (batch : Batch)
    (received : Nat × Datagram) : Batch :=
  let data := received.2.data
  if passesFilter config data = false then
    { batch with stats := { batch.stats with packetsFiltered := batch.stats.packetsFiltered + 1 } }
  else
    let priority := classifyPriority data (extractDscpFromCmsg received.2.control)
    let pending :=
      { packetBuffer := received.1, data, receiveTimestampNs := timestampNs, priority }
    let stats := { batch.stats with
      packetsReceived := batch.stats.packetsReceived + 1
      bytesReceived := batch.stats.bytesReceived + data.length }
    match priority with
    | .high => { batch with heartbeatBatch := batch.heartbeatBatch ++ [pending], stats }
    | .normal => { batch with dataBatch := batch.dataBatch ++ [pending], stats }

/-- How the loop returns a buffer. -/
inductive BufferReturn where
  /-- Into a `PacketBuffer`. -/
  | moved
  | deallocated
  deriving DecidableEq, Repr

/-- Where the loop is; `i` is the index of the slot in the batch. -/
inductive ReceivePc where
  /-- The outer `running_.load`. -/
  | outer
  /-- The condition of the drain loop. -/
  | drain (drainRound : Nat)
  | allocate (drainRound i : Nat)
  | recvmmsg (drainRound : Nat)
  | done
  deriving DecidableEq, Repr

structure ReceiveLoop where
  pc : ReceivePc
  recvBuffers : List (Option Nat)
  stats : ReceiveStatistics
  /-- History: the calls of `packet_handler_`. -/
  handled : List PendingPacket
  trace : List (Ledger.Event Nat BufferReturn)
  packetBuffers : List Nat

/-- A result of `recvmmsg`: -1, with whether `errno` is one of the harmless ones, or the
datagrams. -/
inductive RecvResult where
  | failed (harmless : Bool)
  | datagrams (ds : List Datagram)

/-- The next call of the loop and what it returns, or the end of a `PacketBuffer` elsewhere. -/
inductive ReceiveLabel where
  | load (running : Bool)
  | allocate (buffer : Option Nat)
  | recvmmsg (result : RecvResult) (running : Bool) (timestampNs : BitVec 64)
  | drop (buffer : Nat)

namespace ReceiveLoop

/-- The start of `receive_loop`, for any batch size. -/
def init (batchSize : Nat) : ReceiveLoop where
  pc := .outer
  recvBuffers := List.replicate batchSize none
  stats := {}
  handled := []
  trace := []
  packetBuffers := []

def batchSize (s : ReceiveLoop) : Nat := s.recvBuffers.length

/-- The loop of the allocation at slot `i`. -/
def atSlot (s : ReceiveLoop) (drainRound i : Nat) : ReceivePc :=
  if i < s.batchSize then .allocate drainRound i else .recvmmsg drainRound

/-- `deallocate` of every buffer in `recv_buffers`; the pointers stay. -/
def releaseAll (s : ReceiveLoop) : ReceiveLoop :=
  { s with trace := s.trace ++ Ledger.gives s.recvBuffers.reduceOption BufferReturn.deallocated }

/-- Nobody owns the buffer. -/
def fresh (s : ReceiveLoop) (buffer : Nat) : Bool :=
  !(Ledger.held s.trace).contains buffer && !s.packetBuffers.contains buffer

/-- A call of `allocate` for slot `i`. -/
def allocated (s : ReceiveLoop) (drainRound i : Nat) : Option Nat → Option ReceiveLoop
  | some buffer =>
    if s.fresh buffer then
      some { s with
        recvBuffers := s.recvBuffers.set i (some buffer)
        trace := s.trace ++ [.take buffer]
        pc := s.atSlot drainRound (i + 1) }
    else none
  | none =>
    some { { s with
      recvBuffers := s.recvBuffers.set i none
      stats := s.stats.error }.releaseAll with pc := .outer }

/-- A batch of datagrams: the packets to the handler, and what is left of the buffers to the
pool. -/
def receive (config : ArrayFaceReceiverConfig) (timestampNs : BitVec 64) (drainRound : Nat)
    (s : ReceiveLoop) (ds : List Datagram) : ReceiveLoop :=
  let buffers := (s.recvBuffers.take ds.length).reduceOption
  let batch := (buffers.zip ds).foldl (Batch.receive config timestampNs)
    { heartbeatBatch := [], dataBatch := [], stats := s.stats }
  { { s with
      recvBuffers := List.replicate ds.length none ++ s.recvBuffers.drop ds.length
      stats := batch.stats
      handled := s.handled ++
        if config.packetHandler then batch.heartbeatBatch ++ batch.dataBatch else []
      trace := s.trace ++ Ledger.gives buffers BufferReturn.moved
      packetBuffers := s.packetBuffers ++ buffers }.releaseAll with
    pc := if ds.length < s.batchSize then .outer else .drain (drainRound + 1) }

/-- What follows `recvmmsg`. -/
def received (config : ArrayFaceReceiverConfig) (running : Bool) (timestampNs : BitVec 64)
    (drainRound : Nat) (s : ReceiveLoop) : RecvResult → Option ReceiveLoop
  | .failed harmless =>
    some { s.releaseAll with
      stats := if running && !harmless then s.stats.error else s.stats
      pc := .outer }
  | .datagrams ds =>
    if s.batchSize < ds.length then none
    else if ds.isEmpty then some { s.releaseAll with pc := .outer }
    else some (s.receive config timestampNs drainRound ds)

/-- One step of the loop. -/
def step (config : ArrayFaceReceiverConfig) (s : ReceiveLoop) : ReceiveLabel → Option ReceiveLoop
  | .load running =>
    match s.pc with
    | .outer => some { s with pc := if running then .drain 0 else .done }
    | .drain drainRound =>
      some { s with
        pc := if drainRound < drainRounds config ∧ running = true then s.atSlot drainRound 0
          else .outer }
    | _ => none
  | .allocate buffer =>
    match s.pc with
    | .allocate drainRound i => s.allocated drainRound i buffer
    | _ => none
  | .recvmmsg result running timestampNs =>
    match s.pc with
    | .recvmmsg drainRound => s.received config running timestampNs drainRound result
    | _ => none
  | .drop buffer =>
    if buffer ∈ s.packetBuffers then some { s with packetBuffers := s.packetBuffers.erase buffer }
    else none

end ReceiveLoop

end Qdgz300.Network
