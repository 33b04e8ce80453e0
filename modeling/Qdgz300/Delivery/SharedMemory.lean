import Qdgz300.Lib.Logged
import Qdgz300.Lib.RingBuffer
import Qdgz300.Pipeline.Reorderer

/-!
# Shared-memory delivery (`SharedMemoryDelivery` of `delivery/delivery_interface.cpp`)

A byte ring with a head and a tail. A packet is written as one record, a 16-byte header and the
payload; a record that does not fit before the end of the ring is written at offset `0`, after a
wrap marker at the head. Old records are dropped until the new one fits.

`deliver` is `none` when its eviction loop does not end: the loop only moves the tail, which has
fewer than `ring_size + 1` values, so an eviction that is not over after that many drops repeats.
-/

namespace Qdgz300.Delivery

open Protocol Pipeline Bytes

structure Statistics where
  deliveredPackets : Nat := 0
  deliveryErrors : Nat := 0
  bytesDelivered : Nat := 0
  deriving DecidableEq, Repr

def kRecordMarker : BitVec 32 := 0x52454344
def kWrapMarker : BitVec 32 := 0x57524150

/-- `sizeof(RecordHeader)`. -/
def recordHeaderSize : Nat := 16

structure RecordHeader where
  marker : BitVec 32 := 0
  payloadSize : BitVec 32 := 0
  sequenceNumber : BitVec 32 := 0
  isZeroFilled : Byte := 0
  deriving DecidableEq, Repr

/-- The bytes of a header; the last three are `reserved`. -/
def RecordHeader.encode (h : RecordHeader) : List Byte :=
  toLe 4 h.marker.toNat ++ toLe 4 h.payloadSize.toNat ++ toLe 4 h.sequenceNumber.toNat ++
    [h.isZeroFilled, 0, 0, 0]

def RecordHeader.decode (bs : List Byte) : RecordHeader where
  marker := le32 bs 0
  payloadSize := le32 bs 4
  sequenceNumber := le32 bs 8
  isZeroFilled := bs.getD 12 0

/-- `SharedMemoryDelivery::Impl` with its mapped header; `ring_size` is the length of `ring`. -/
structure SharedMemoryDelivery where
  ready : Bool
  ring : List Byte
  head : Nat
  tail : Nat
  stats : Statistics
  deriving DecidableEq

namespace SharedMemoryDelivery

/-- A freshly initialised mapping. -/
def init (ringSize : Nat) : SharedMemoryDelivery where
  ready := true
  ring := List.replicate ringSize 0
  head := 0
  tail := 0
  stats := {}

def usedSpace (head tail ringSize : Nat) : Nat :=
  if tail ≤ head then head - tail else ringSize - (tail - head)

def freeSpace (head tail ringSize : Nat) : Nat := ringSize - usedSpace head tail ringSize - 1

/-- A `memcpy` on the ring: its first byte and its length. -/
structure RingAccess where
  start : Nat
  nbytes : Nat
  deriving DecidableEq, Repr

/-- The access stays in a ring of `ringSize` bytes. -/
def RingAccess.Inside (ringSize : Nat) (a : RingAccess) : Prop := a.start + a.nbytes ≤ ringSize

/-- `write_ring` with its accesses to the ring. `offset + nbytes` does not wrap: the ring and the
block copied lie in one address space. -/
def writeRing (ring : List Byte) (offset : Nat) (src : List Byte) : Logged RingAccess (List Byte) :=
  if src.length = 0 then pure ring
  else if offset + src.length ≤ ring.length then do
    Logged.emit ⟨offset, src.length⟩
    return RingBuffer.memcpy ring offset src
  else do
    let first := ring.length - offset
    Logged.emit ⟨offset, first⟩
    let ring' := RingBuffer.memcpy ring offset (src.take first)
    Logged.emit ⟨0, src.length - first⟩
    return RingBuffer.memcpy ring' 0 (src.drop first)

/-- `read_ring` with its accesses to the ring. -/
def readRing (ring : List Byte) (offset nbytes : Nat) : Logged RingAccess (List Byte) :=
  if nbytes = 0 then pure []
  else if offset + nbytes ≤ ring.length then do
    Logged.emit ⟨offset, nbytes⟩
    return (ring.drop offset).take nbytes
  else do
    let first := ring.length - offset
    Logged.emit ⟨offset, first⟩
    let dst := (ring.drop offset).take first
    Logged.emit ⟨0, nbytes - first⟩
    return dst ++ ring.take (nbytes - first)

def dropOldestUnlocked (s : SharedMemoryDelivery) : SharedMemoryDelivery × Bool :=
  if s.head = s.tail then (s, false)
  else
    let rec_ := RecordHeader.decode (RingBuffer.read s.ring s.tail recordHeaderSize)
    if rec_.marker = kWrapMarker then ({ s with tail := 0 }, true)
    else if rec_.marker ≠ kRecordMarker then ({ s with tail := s.head }, false)
    else ({ s with tail := (s.tail + (recordHeaderSize + rec_.payloadSize.toNat)) % s.ring.length },
      true)

/-- The loop of `deliver` that makes room, and whether it succeeded. -/
def evict (required : Nat) : Nat → SharedMemoryDelivery → Option (SharedMemoryDelivery × Bool)
  | fuel, s =>
    if required ≤ freeSpace s.head s.tail s.ring.length then some (s, true)
    else match fuel with
      | 0 => none
      | fuel + 1 =>
        if s.dropOldestUnlocked.2 then evict required fuel s.dropOldestUnlocked.1
        else some (s.dropOldestUnlocked.1, false)

/-- The wrap marker at the head when the record does not fit before the end. -/
def wrapIfNeeded (s : SharedMemoryDelivery) (required : Nat) : SharedMemoryDelivery :=
  if s.ring.length < s.head + recordHeaderSize ∨ s.ring.length < s.head + required then
    { s with
      ring := RingBuffer.write s.ring s.head ({ marker := kWrapMarker } : RecordHeader).encode
      head := 0 }
  else s

/-- `payload_len` of the header, and not the size of the buffer, is what is delivered. -/
def payloadSize (packet : OrderedPacket) : Nat := packet.packet.header.payloadLen.toNat

def recordHeader (packet : OrderedPacket) : RecordHeader where
  marker := kRecordMarker
  payloadSize := packet.packet.header.payloadLen.setWidth 32
  sequenceNumber := packet.sequenceNumber
  isZeroFilled := if packet.isZeroFilled then 1 else 0

/-- The record of a packet written at the head. -/
def writeRecord (s : SharedMemoryDelivery) (packet : OrderedPacket) : SharedMemoryDelivery :=
  let s1 := { s with
    ring := RingBuffer.write s.ring s.head (recordHeader packet).encode
    head := (s.head + recordHeaderSize) % s.ring.length }
  match packet.packet.payload with
  | some bytes =>
    if 0 < payloadSize packet then
      { s1 with
        ring := RingBuffer.write s1.ring s1.head (bytes.take (payloadSize packet))
        head := (s1.head + payloadSize packet) % s1.ring.length }
    else s1
  | none => s1

def countError (s : SharedMemoryDelivery) : SharedMemoryDelivery :=
  { s with stats := { s.stats with deliveryErrors := s.stats.deliveryErrors + 1 } }

def countDelivered (s : SharedMemoryDelivery) (packet : OrderedPacket) : SharedMemoryDelivery :=
  { s with stats := { s.stats with
    deliveredPackets := s.stats.deliveredPackets + 1
    bytesDelivered := s.stats.bytesDelivered + payloadSize packet } }

def deliver (s : SharedMemoryDelivery) (packet : OrderedPacket) :
    Option (SharedMemoryDelivery × Bool) :=
  if s.ready = false then some (s.countError, false)
  else
    let required := recordHeaderSize + payloadSize packet
    if s.ring.length ≤ required then some (s.countError, false)
    else (evict required (s.ring.length + 1) s).map fun r =>
      if r.2 then (((r.1.wrapIfNeeded required).writeRecord packet).countDelivered packet, true)
      else (r.1.countError, false)

end SharedMemoryDelivery

/-! ## Reading the ring -/

/-- A record as a reader sees it. -/
structure Record where
  sequenceNumber : BitVec 32
  isZeroFilled : Bool
  payload : List Byte
  deriving DecidableEq, Repr

/-- The walk from `pos` to `head` with the rules of `drop_oldest_unlocked`: each record with its
offset. `none` when a marker is invalid or the fuel runs out before `head`. -/
def walk (ring : List Byte) (head : Nat) : Nat → Nat → Option (List (Nat × Record))
  | fuel, pos =>
    if pos = head then some []
    else match fuel with
      | 0 => none
      | fuel + 1 =>
        let rec_ := RecordHeader.decode (RingBuffer.read ring pos recordHeaderSize)
        if rec_.marker = kWrapMarker then walk ring head fuel 0
        else if rec_.marker ≠ kRecordMarker then none
        else
          (walk ring head fuel ((pos + (recordHeaderSize + rec_.payloadSize.toNat)) % ring.length)).map
            (⟨pos, rec_.sequenceNumber, rec_.isZeroFilled != 0, RingBuffer.read ring
              ((pos + recordHeaderSize) % ring.length) rec_.payloadSize.toNat⟩ :: ·)

/-- The records between tail and head, with their offsets. -/
def SharedMemoryDelivery.records (s : SharedMemoryDelivery) : Option (List (Nat × Record)) :=
  walk s.ring s.head (s.ring.length + 1) s.tail

/-- What a delivered packet leaves for the reader. -/
def recordOf (packet : OrderedPacket) : Record where
  sequenceNumber := packet.sequenceNumber
  isZeroFilled := packet.isZeroFilled
  payload := (packet.packet.payload.getD []).take (SharedMemoryDelivery.payloadSize packet)

end Qdgz300.Delivery
