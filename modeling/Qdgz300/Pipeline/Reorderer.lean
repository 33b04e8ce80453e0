import Qdgz300.Lib.Bitmap
import Qdgz300.Lib.Machine
import Qdgz300.Protocol.Types

/-!
# The reorderer (`src/m01_receiver/pipeline/reorderer.cpp`)

A ring of `window_size` slots with an occupancy bitmap. `base_index` is the slot of
`next_expected_seq`. Every operation returns the new state and the packets handed to the output
callback, in order.

`std::chrono::steady_clock` is an arbitrary sequence of readings in nanoseconds (`Clock`); the state
counts the readings made so far. The loop of `advance_window` runs on fuel, one unit for each slot:
an iteration clears the bit of its slot, so it cannot come back to it.
-/

namespace Qdgz300.Pipeline

open Protocol

structure ReorderConfig where
  windowSize : Nat := 512
  timeoutMs : BitVec 32 := 50
  enableZeroFill : Bool := true

structure OrderedPacket where
  packet : ParsedPacket
  ownedPayload : Option (List Byte)
  payloadSize : Nat
  isZeroFilled : Bool
  isIncompleteFrame : Bool
  sequenceNumber : BitVec 32
  deriving DecidableEq, Repr

structure StoredPacket where
  sequence : BitVec 32 := 0
  header : CommonHeader := {}
  payload : Option (List Byte) := none
  payloadSize : Nat := 0
  occupied : Bool := false
  deriving DecidableEq, Repr

structure ReorderStatistics where
  packetsInOrder : Nat := 0
  packetsOutOfOrder : Nat := 0
  packetsDuplicate : Nat := 0
  packetsZeroFilled : Nat := 0
  sequencesAdvanced : Nat := 0
  currentBufferSize : Nat := 0
  deriving DecidableEq, Repr

/-- `Reorderer` with its `Impl` and `ReorderWindow`. -/
structure Reorderer where
  config : ReorderConfig
  initialized : Bool
  nextExpectedSeq : BitVec 32
  bufferedPackets : BitVec 32
  lastAdvanceNs : BitVec 64
  baseIndex : Nat
  ringSlots : List StoredPacket
  occupancyBitmap : Bitmap
  lastAdvanceTime : Int
  stats : ReorderStatistics
  timeoutMsRuntime : BitVec 32
  reads : Nat

/-- The readings of `steady_clock`, in nanoseconds. -/
abbrev SteadyClock := Nat → Int

namespace Reorderer

/-- The constructor, at clock reading `created`. -/
def new (config : ReorderConfig) (created : Int) : Reorderer where
  config
  initialized := false
  nextExpectedSeq := 0
  bufferedPackets := 0
  lastAdvanceNs := 0
  baseIndex := 0
  ringSlots := List.replicate (max 1 config.windowSize) {}
  occupancyBitmap := Bitmap.zeros (max 1 config.windowSize)
  lastAdvanceTime := created
  stats := {}
  timeoutMsRuntime := config.timeoutMs
  reads := 0

def slot (s : Reorderer) (i : Nat) : StoredPacket := s.ringSlots.getD i {}

/-- The packet handed to the callback for a header and an owned payload. -/
def orderedOf (header : CommonHeader) (payload : Option (List Byte)) (payloadSize : Nat)
    (seq : BitVec 32) : OrderedPacket where
  packet :=
    { header
      payload := if payloadSize = 0 then none else payload
      totalSize := commonHeaderSize + payloadSize }
  ownedPayload := payload
  payloadSize
  isZeroFilled := false
  isIncompleteFrame := (header.extFlags &&& 0x01#8) != 0
  sequenceNumber := seq

def createZeroFilledPacket (seqNum : BitVec 32) : OrderedPacket where
  packet :=
    { header :=
        { magic := protocolMagic
          sequenceNumber := seqNum
          packetType := PacketType.data.toByte
          protocolVersion := protocolVersion
          payloadLen := 0 }
      payload := none
      totalSize := commonHeaderSize }
  ownedPayload := none
  payloadSize := 0
  isZeroFilled := true
  isIncompleteFrame := true
  sequenceNumber := seqNum

/-- One position forward: the counters, the base slot and the time of the advance. -/
def advanceBy (s : Reorderer) (now : Int) : Reorderer :=
  { s with
    stats := { s.stats with sequencesAdvanced := s.stats.sequencesAdvanced + 1 }
    nextExpectedSeq := s.nextExpectedSeq + 1
    baseIndex := (s.baseIndex + 1) % s.ringSlots.length
    lastAdvanceTime := now
    lastAdvanceNs := BitVec.ofInt 64 now }

/-- `advanceBy` at the next reading of the clock. -/
def advanceNow (clk : SteadyClock) (s : Reorderer) : Reorderer :=
  { s.advanceBy (clk s.reads) with reads := s.reads + 1 }

def countInOrder (s : Reorderer) : Reorderer :=
  { s with stats := { s.stats with packetsInOrder := s.stats.packetsInOrder + 1 } }

def countDuplicate (s : Reorderer) : Reorderer :=
  { s with stats := { s.stats with packetsDuplicate := s.stats.packetsDuplicate + 1 } }

def countZeroFilled (s : Reorderer) : Reorderer :=
  { s with stats := { s.stats with packetsZeroFilled := s.stats.packetsZeroFilled + 1 } }

/-- `window.buffered_packets` and `current_buffer_size` through their 32-bit copy. -/
def syncBuffered (s : Reorderer) : Reorderer :=
  { s with
    bufferedPackets := BitVec.ofNat 32 s.stats.currentBufferSize
    stats := { s.stats with
      currentBufferSize := (BitVec.ofNat 32 s.stats.currentBufferSize).toNat } }

/-- The packet of slot `i` moved out: what is emitted and the slot that stays. -/
def clearSlot (s : Reorderer) (i : Nat) : Reorderer :=
  { s with
    ringSlots := s.ringSlots.set i
      { s.slot i with sequence := 0, payload := none, payloadSize := 0, occupied := false }
    occupancyBitmap := s.occupancyBitmap.clear i }

/-- One iteration of `advance_window` past its two exits. -/
def takeHead (clk : SteadyClock) (s : Reorderer) : Reorderer :=
  let s1 := s.clearSlot s.baseIndex
  let s2 := { s1 with stats := { s1.stats with
    currentBufferSize := s1.stats.currentBufferSize - 1 } }
  advanceNow clk (countInOrder s2)

/-- The packet that an iteration of `advance_window` hands out. -/
def headPacket (s : Reorderer) : OrderedPacket :=
  orderedOf (s.slot s.baseIndex).header (s.slot s.baseIndex).payload
    (s.slot s.baseIndex).payloadSize s.nextExpectedSeq

/-- The loop of `advance_window`. -/
def advanceLoop (clk : SteadyClock) : Nat → Reorderer → Reorderer × List OrderedPacket
  | 0, s => (s, [])
  | fuel + 1, s =>
    if s.occupancyBitmap.test s.baseIndex = false then (s, [])
    else if (s.slot s.baseIndex).occupied = false ∨
        (s.slot s.baseIndex).sequence ≠ s.nextExpectedSeq then (s, [])
    else
      let r := advanceLoop clk fuel (s.takeHead clk)
      (r.1, s.headPacket :: r.2)

def advanceWindow (clk : SteadyClock) (s : Reorderer) : Reorderer × List OrderedPacket :=
  advanceLoop clk s.ringSlots.length s

/-- A packet buffered in slot `i`. -/
def storeAt (s : Reorderer) (i : Nat) (seq : BitVec 32) (header : CommonHeader)
    (payload : Option (List Byte)) (payloadSize : Nat) : Reorderer :=
  { s with
    ringSlots := s.ringSlots.set i { sequence := seq, header, payload, payloadSize, occupied := true }
    occupancyBitmap := s.occupancyBitmap.set i
    stats := { s.stats with
      packetsOutOfOrder := s.stats.packetsOutOfOrder + 1
      currentBufferSize := s.stats.currentBufferSize + 1 } }

/-- The first packet fixes `next_expected_seq`. -/
def initWith (s : Reorderer) (seq : BitVec 32) : Reorderer :=
  if s.initialized then s else { s with initialized := true, nextExpectedSeq := seq }

/-- The body that `insert` and `insert_owned` share, on an initialised window. -/
def insertBody (clk : SteadyClock) (s : Reorderer) (header : CommonHeader)
    (payload : Option (List Byte)) (payloadSize : Nat) : Reorderer × List OrderedPacket :=
  let seq := header.sequenceNumber
  let expected := s.nextExpectedSeq
  if seq = expected then
    let r := advanceWindow clk (advanceNow clk s.countInOrder)
    (r.1.syncBuffered, orderedOf header payload payloadSize seq :: r.2)
  else if isSequenceNewer seq expected = false then (s.countDuplicate, [])
  else
    let delta := seq - expected
    if BitVec.ofNat 32 s.ringSlots.length ≤ delta then (s.countDuplicate, [])
    else
      let slotIndex := (s.baseIndex + delta.toNat) % s.ringSlots.length
      if s.occupancyBitmap.test slotIndex then (s.countDuplicate, [])
      else ((s.storeAt slotIndex seq header payload payloadSize).syncBuffered, [])

/-- `insert_owned`. -/
def insertOwned (clk : SteadyClock) (s : Reorderer) (header : CommonHeader)
    (payload : Option (List Byte)) (payloadSize : Nat) : Reorderer × List OrderedPacket :=
  insertBody clk (s.initWith header.sequenceNumber) header payload payloadSize

/-- The payload that `insert` copies, with its size: nothing for a null pointer or a zero length. -/
def copiedPayload (packet : ParsedPacket) : Option (List Byte) × Nat :=
  match packet.payload with
  | some bytes =>
    if 0 < packet.header.payloadLen.toNat then
      (some (bytes.take packet.header.payloadLen.toNat), packet.header.payloadLen.toNat)
    else (none, 0)
  | none => (none, 0)

/-- `insert`: `insert_owned` of a copy. -/
def insert (clk : SteadyClock) (s : Reorderer) (packet : ParsedPacket) :
    Reorderer × List OrderedPacket :=
  insertBody clk (s.initWith packet.header.sequenceNumber) packet.header
    (copiedPayload packet).1 (copiedPayload packet).2

/-- The test of `check_timeout`: whole milliseconds since the last advance against the timeout. -/
def timeoutElapsed (clk : SteadyClock) (s : Reorderer) : Bool :=
  decide ((s.timeoutMsRuntime.toNat : Int) ≤ (clk s.reads - s.lastAdvanceTime).tdiv 1000000)

/-- `check_timeout` once the timeout has elapsed; the advance is dated by the reading of the
test. -/
def skipExpected (clk : SteadyClock) (s : Reorderer) : Reorderer × List OrderedPacket :=
  let s1 := if s.config.enableZeroFill then s.countZeroFilled else s
  let r := advanceWindow clk (advanceNow clk s1)
  (r.1.syncBuffered,
    (if s.config.enableZeroFill then [createZeroFilledPacket s.nextExpectedSeq] else []) ++ r.2)

def checkTimeout (clk : SteadyClock) (s : Reorderer) : Reorderer × List OrderedPacket :=
  if s.initialized = false then (s, [])
  else if s.timeoutElapsed clk = false then ({ s with reads := s.reads + 1 }, [])
  else s.skipExpected clk

/-- The slots that `flush` hands out, with their sequence numbers. -/
def pending (s : Reorderer) : List (BitVec 32 × Nat) :=
  (List.range s.ringSlots.length).filterMap fun i =>
    if s.occupancyBitmap.test i && (s.slot i).occupied then some ((s.slot i).sequence, i) else none

/-- The loop of `flush` over the sorted slots. -/
def flushLoop : List (BitVec 32 × Nat) → Reorderer → Reorderer × List OrderedPacket
  | [], s => (s, [])
  | (_, i) :: rest, s =>
    let out := orderedOf (s.slot i).header (s.slot i).payload (s.slot i).payloadSize
      (s.slot i).sequence
    let r := flushLoop rest (s.clearSlot i).countInOrder
    (r.1, out :: r.2)

/-- `flush`: `std::sort` compares the sequence numbers as unsigned values. -/
def flush (s : Reorderer) : Reorderer × List OrderedPacket :=
  let r := flushLoop (s.pending.mergeSort fun a b => decide (a.1 ≤ b.1)) s
  ({ r.1 with stats := { r.1.stats with currentBufferSize := 0 }, bufferedPackets := 0 }, r.2)

def setTimeoutMs (s : Reorderer) (timeoutMs : BitVec 32) : Reorderer :=
  { s with timeoutMsRuntime := timeoutMs }

end Reorderer

/-- The calls on a reorderer. -/
inductive ReorderOp where
  | insert (packet : ParsedPacket)
  | insertOwned (header : CommonHeader) (payload : Option (List Byte)) (payloadSize : Nat)
  | checkTimeout
  | flush
  | setTimeoutMs (timeoutMs : BitVec 32)

/-- One call. -/
def Reorderer.step (clk : SteadyClock) (s : Reorderer) : ReorderOp → Reorderer × List OrderedPacket
  | .insert packet => s.insert clk packet
  | .insertOwned header payload payloadSize => s.insertOwned clk header payload payloadSize
  | .checkTimeout => s.checkTimeout clk
  | .flush => s.flush
  | .setTimeoutMs timeoutMs => (s.setTimeoutMs timeoutMs, [])

/-- A run of calls. -/
def Reorderer.run (clk : SteadyClock) (s : Reorderer) (ops : List ReorderOp) :
    Reorderer × List OrderedPacket :=
  Machine.run (Reorderer.step clk) s ops

end Qdgz300.Pipeline
