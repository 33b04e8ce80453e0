import Qdgz300.Pipeline.Reorderer

/-!
# The two inserts of the reorderer, written out

`Reorderer::insert` copies the payload of a packet and `Reorderer::insert_owned` takes one over; the
source writes the two functions out one beside the other. They are written out here in the same way,
statement by statement, and `Written.step` is a call on a reorderer with these two.
-/

namespace Qdgz300.Pipeline.Written

open Protocol

/-- `Reorderer::insert`. -/
def insert (clk : SteadyClock) (s : Reorderer) (packet : ParsedPacket) :
    Reorderer × List OrderedPacket :=
  let seq := packet.header.sequenceNumber
  let s :=
    if s.initialized = false then { s with initialized := true, nextExpectedSeq := seq } else s
  let expected := s.nextExpectedSeq
  if seq = expected then
    let payloadLen := packet.header.payloadLen.toNat
    let ownedPayload : Option (List Byte) :=
      if 0 < payloadLen then packet.payload.map (·.take payloadLen) else none
    let payloadSize := if ownedPayload.isSome then payloadLen else 0
    let out : OrderedPacket :=
      { packet :=
          { header := packet.header
            payload := ownedPayload
            totalSize := commonHeaderSize + payloadSize }
        ownedPayload
        payloadSize
        isZeroFilled := false
        isIncompleteFrame := packet.header.extFlags &&& 0x01#8 != 0
        sequenceNumber := seq }
    let s := { s with
      stats := { s.stats with
        packetsInOrder := s.stats.packetsInOrder + 1
        sequencesAdvanced := s.stats.sequencesAdvanced + 1 }
      nextExpectedSeq := s.nextExpectedSeq + 1
      baseIndex := (s.baseIndex + 1) % s.ringSlots.length
      lastAdvanceTime := clk s.reads
      lastAdvanceNs := BitVec.ofInt 64 (clk s.reads)
      reads := s.reads + 1 }
    let r := s.advanceWindow clk
    let buffered := BitVec.ofNat 32 r.1.stats.currentBufferSize
    ({ r.1 with
      bufferedPackets := buffered
      stats := { r.1.stats with currentBufferSize := buffered.toNat } }, out :: r.2)
  else if isSequenceNewer seq expected = false then
    ({ s with stats := { s.stats with packetsDuplicate := s.stats.packetsDuplicate + 1 } }, [])
  else
    let delta := seq - expected
    if BitVec.ofNat 32 s.ringSlots.length ≤ delta then
      ({ s with stats := { s.stats with packetsDuplicate := s.stats.packetsDuplicate + 1 } }, [])
    else
      let slotIndex := (s.baseIndex + delta.toNat) % s.ringSlots.length
      if s.occupancyBitmap.test slotIndex then
        let existing := s.slot slotIndex
        if existing.occupied ∧ existing.sequence = seq then
          ({ s with stats := { s.stats with packetsDuplicate := s.stats.packetsDuplicate + 1 } }, [])
        else
          ({ s with stats := { s.stats with packetsDuplicate := s.stats.packetsDuplicate + 1 } }, [])
      else
        let payloadLen := packet.header.payloadLen.toNat
        let payload : Option (List Byte) :=
          if 0 < payloadLen then packet.payload.map (·.take payloadLen) else none
        let stored : StoredPacket :=
          { sequence := seq
            header := packet.header
            payload
            payloadSize := if payload.isSome then payloadLen else 0
            occupied := true }
        let buffered := BitVec.ofNat 32 (s.stats.currentBufferSize + 1)
        ({ s with
          ringSlots := s.ringSlots.set slotIndex stored
          occupancyBitmap := s.occupancyBitmap.set slotIndex
          bufferedPackets := buffered
          stats := { s.stats with
            packetsOutOfOrder := s.stats.packetsOutOfOrder + 1
            currentBufferSize := buffered.toNat } }, [])

/-- `Reorderer::insert_owned`. -/
def insertOwned (clk : SteadyClock) (s : Reorderer) (header : CommonHeader)
    (payload : Option (List Byte)) (payloadSize : Nat) : Reorderer × List OrderedPacket :=
  let seq := header.sequenceNumber
  let s :=
    if s.initialized = false then { s with initialized := true, nextExpectedSeq := seq } else s
  let expected := s.nextExpectedSeq
  if seq = expected then
    let out : OrderedPacket :=
      { packet :=
          { header
            payload := if payloadSize = 0 then none else payload
            totalSize := commonHeaderSize + payloadSize }
        ownedPayload := payload
        payloadSize
        isZeroFilled := false
        isIncompleteFrame := header.extFlags &&& 0x01#8 != 0
        sequenceNumber := seq }
    let s := { s with
      stats := { s.stats with
        packetsInOrder := s.stats.packetsInOrder + 1
        sequencesAdvanced := s.stats.sequencesAdvanced + 1 }
      nextExpectedSeq := s.nextExpectedSeq + 1
      baseIndex := (s.baseIndex + 1) % s.ringSlots.length
      lastAdvanceTime := clk s.reads
      lastAdvanceNs := BitVec.ofInt 64 (clk s.reads)
      reads := s.reads + 1 }
    let r := s.advanceWindow clk
    let buffered := BitVec.ofNat 32 r.1.stats.currentBufferSize
    ({ r.1 with
      bufferedPackets := buffered
      stats := { r.1.stats with currentBufferSize := buffered.toNat } }, out :: r.2)
  else if isSequenceNewer seq expected = false then
    ({ s with stats := { s.stats with packetsDuplicate := s.stats.packetsDuplicate + 1 } }, [])
  else
    let delta := seq - expected
    if BitVec.ofNat 32 s.ringSlots.length ≤ delta then
      ({ s with stats := { s.stats with packetsDuplicate := s.stats.packetsDuplicate + 1 } }, [])
    else
      let slotIndex := (s.baseIndex + delta.toNat) % s.ringSlots.length
      if s.occupancyBitmap.test slotIndex then
        let existing := s.slot slotIndex
        if existing.occupied ∧ existing.sequence = seq then
          ({ s with stats := { s.stats with packetsDuplicate := s.stats.packetsDuplicate + 1 } }, [])
        else
          ({ s with stats := { s.stats with packetsDuplicate := s.stats.packetsDuplicate + 1 } }, [])
      else
        let stored : StoredPacket :=
          { sequence := seq, header, payload, payloadSize, occupied := true }
        let buffered := BitVec.ofNat 32 (s.stats.currentBufferSize + 1)
        ({ s with
          ringSlots := s.ringSlots.set slotIndex stored
          occupancyBitmap := s.occupancyBitmap.set slotIndex
          bufferedPackets := buffered
          stats := { s.stats with
            packetsOutOfOrder := s.stats.packetsOutOfOrder + 1
            currentBufferSize := buffered.toNat } }, [])

/-- One call. -/
def step (clk : SteadyClock) (s : Reorderer) : ReorderOp → Reorderer × List OrderedPacket
  | .insert packet => insert clk s packet
  | .insertOwned header payload payloadSize => insertOwned clk s header payload payloadSize
  | .checkTimeout => s.checkTimeout clk
  | .flush => s.flush
  | .setTimeoutMs timeoutMs => (s.setTimeoutMs timeoutMs, [])

/-- A run of calls. -/
def run (clk : SteadyClock) (s : Reorderer) (ops : List ReorderOp) :
    Reorderer × List OrderedPacket :=
  Machine.run (step clk) s ops

end Qdgz300.Pipeline.Written
