import Qdgz300.Lib.Bytes

/-!
# Protocol types (`include/qdgz300/m01_receiver/protocol/protocol_types.h`)

The packed headers with the source's field widths, decoded from bytes at the offsets that the
packing gives them, and the key that identifies one frame.
-/

namespace Qdgz300.Protocol

open Bytes

/-- `PROTOCOL_MAGIC`. -/
def protocolMagic : BitVec 32 := 0x55AA55AA

/-- `PROTOCOL_VERSION`. -/
def protocolVersion : BitVec 8 := 0x31

/-- `COMMON_HEADER_SIZE`. -/
def commonHeaderSize : Nat := 32

/-- `MAX_PAYLOAD_SIZE`. -/
def maxPayloadSize : Nat := 65507 - commonHeaderSize

/-- `HEARTBEAT_PAYLOAD_SIZE`. -/
def heartbeatPayloadSize : Nat := 48

/-- `PROTOCOL_VERSION_MAJOR`. -/
def protocolVersionMajor : BitVec 8 := 3

/-- `DeviceID::BROADCAST`. -/
def deviceBroadcast : BitVec 8 := 0x10

/-- `DeviceID::RESERVED`. -/
def deviceReserved : BitVec 8 := 0xFF

/-- `PacketType`, the value of `CommonHeader.packet_type`. -/
inductive PacketType where
  | control | ack | data | heartbeat | rma
  deriving DecidableEq, Repr

/-- The wire value of a packet type. -/
def PacketType.toByte : PacketType → BitVec 8
  | .control => 0x01
  | .ack => 0x02
  | .data => 0x03
  | .heartbeat => 0x04
  | .rma => 0xFF

/-- `popcount16`. -/
def popcount16 (value : BitVec 16) : Nat := (List.range 16).countP fun i => value.getLsbD i

/-- The common header, 32 bytes. -/
structure CommonHeader where
  magic : BitVec 32 := 0
  sequenceNumber : BitVec 32 := 0
  timestamp : BitVec 64 := 0
  payloadLen : BitVec 16 := 0
  packetType : BitVec 8 := 0
  protocolVersion : BitVec 8 := 0
  sourceId : BitVec 8 := 0
  destId : BitVec 8 := 0
  controlEpoch : BitVec 16 := 0
  extFlags : BitVec 8 := 0
  reserved1 : BitVec 8 := 0
  reserved2 : BitVec 16 := 0
  reserved3 : BitVec 32 := 0
  deriving DecidableEq, Repr

/-- `memcpy(&header, buffer, sizeof(header))`. -/
def CommonHeader.decode (bs : List Byte) : CommonHeader where
  magic := le32 bs 0
  sequenceNumber := le32 bs 4
  timestamp := le64 bs 8
  payloadLen := le16 bs 16
  packetType := bs.getD 18 0
  protocolVersion := bs.getD 19 0
  sourceId := bs.getD 20 0
  destId := bs.getD 21 0
  controlEpoch := le16 bs 22
  extFlags := bs.getD 24 0
  reserved1 := bs.getD 25 0
  reserved2 := le16 bs 26
  reserved3 := le32 bs 28

/-- A parsed packet: its header and a view of its payload (`none` for a null pointer). -/
structure ParsedPacket where
  header : CommonHeader
  payload : Option (List Byte)
  totalSize : Nat
  deriving DecidableEq, Repr

/-- The view holds the `payload_len` bytes that the header announces. -/
def ParsedPacket.Holds (p : ParsedPacket) : Prop :=
  ∀ bs ∈ p.payload, p.header.payloadLen.toNat ≤ bs.length

/-- `sizeof(DataSpecificHeader)`. -/
def specificSize : Nat := 40

/-- `sizeof(ExecutionSnapshot)`. -/
def snapshotSize : Nat := 40

/-- The data-specific header, 40 bytes. -/
structure DataSpecificHeader where
  frameCounter : BitVec 32
  cpiCount : BitVec 32
  pulseIndex : BitVec 32
  sampleOffset : BitVec 32
  sampleCount : BitVec 32
  dataTimestamp : BitVec 64
  healthSummary : BitVec 16
  reservedHealth : BitVec 16
  beamId : BitVec 16
  fragIndex : BitVec 16
  totalFrags : BitVec 16
  tailFragPayloadBytes : BitVec 16
  deriving DecidableEq, Repr

/-- `memcpy(&header, payload, sizeof(header))`. -/
def DataSpecificHeader.decode (bs : List Byte) : DataSpecificHeader where
  frameCounter := le32 bs 0
  cpiCount := le32 bs 4
  pulseIndex := le32 bs 8
  sampleOffset := le32 bs 12
  sampleCount := le32 bs 16
  dataTimestamp := le64 bs 20
  healthSummary := le16 bs 28
  reservedHealth := le16 bs 30
  beamId := le16 bs 32
  fragIndex := le16 bs 34
  totalFrags := le16 bs 36
  tailFragPayloadBytes := le16 bs 38

/-- `is_tail_fragment`: the comparison is made in `int`, so `total_frags = 0` has no tail. -/
def DataSpecificHeader.isTailFragment (h : DataSpecificHeader) : Bool :=
  h.fragIndex.toNat + 1 == h.totalFrags.toNat

/-- `get_channel_mask`: bits 0 to 11 of `reserved_health`. -/
def DataSpecificHeader.channelMask (h : DataSpecificHeader) : BitVec 16 :=
  h.reservedHealth &&& 0x0FFF#16

/-- `get_data_type_raw`: bits 12 to 15 of `reserved_health`. -/
def DataSpecificHeader.dataTypeRaw (h : DataSpecificHeader) : BitVec 8 :=
  ((h.reservedHealth &&& 0xF000#16) >>> 12).setWidth 8

/-- The execution snapshot that precedes the tail's payload, 40 bytes. -/
structure ExecutionSnapshot where
  azimuthAngle : BitVec 16 := 0
  elevationAngle : BitVec 16 := 0
  workFreqIndex : BitVec 8 := 0
  reserved : BitVec 8 := 0
  mgcGain : BitVec 16 := 0
  signalBandwidth : BitVec 16 := 0
  pulseWidth : BitVec 16 := 0
  pulsePeriod : BitVec 16 := 0
  accumulationCount : BitVec 16 := 0
  tiltSensorX : BitVec 32 := 0
  tiltSensorY : BitVec 32 := 0
  headingAngle : BitVec 32 := 0
  bdsLongitude : BitVec 32 := 0
  bdsLatitude : BitVec 32 := 0
  bdsAltitude : BitVec 32 := 0
  deriving DecidableEq, Repr

/-- `memcpy(&snapshot, bytes, sizeof(snapshot))`. -/
def ExecutionSnapshot.decode (bs : List Byte) : ExecutionSnapshot where
  azimuthAngle := le16 bs 0
  elevationAngle := le16 bs 2
  workFreqIndex := bs.getD 4 0
  reserved := bs.getD 5 0
  mgcGain := le16 bs 6
  signalBandwidth := le16 bs 8
  pulseWidth := le16 bs 10
  pulsePeriod := le16 bs 12
  accumulationCount := le16 bs 14
  tiltSensorX := le32 bs 16
  tiltSensorY := le32 bs 20
  headingAngle := le32 bs 24
  bdsLongitude := le32 bs 28
  bdsLatitude := le32 bs 32
  bdsAltitude := le32 bs 36

/-- The identity of a frame. -/
structure ReassemblyKey where
  controlEpoch : BitVec 16 := 0
  sourceId : BitVec 8 := 0
  frameCounter : BitVec 32 := 0
  beamId : BitVec 16 := 0
  cpiCount : BitVec 32 := 0
  pulseIndex : BitVec 32 := 0
  channelMask : BitVec 16 := 0
  dataType : BitVec 8 := 0
  deriving DecidableEq, Repr

/-- `is_sequence_newer`: ahead by less than half the number space. -/
def isSequenceNewer (seqNew seqOld : BitVec 32) : Bool :=
  0 < (seqNew - seqOld).toNat && (seqNew - seqOld).toNat < 2 ^ 31

end Qdgz300.Protocol
