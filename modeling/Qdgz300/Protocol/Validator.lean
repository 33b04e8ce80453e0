import Qdgz300.Protocol.Crc32c
import Qdgz300.Protocol.Types

/-!
# Parsing and checking a datagram

`PacketParser` (`src/m01_receiver/protocol/packet_parser.cpp`) and `Validator`
(`src/m01_receiver/protocol/validator.cpp`). A buffer is the bytes it holds, `none` for a null
pointer. The two repeat some of each other's checks, in the order of the source.
-/

namespace Qdgz300.Protocol

open Bytes

/-! ## The parser -/

/-- `CommonHeader::get_major_version`. -/
def CommonHeader.majorVersion (header : CommonHeader) : BitVec 8 := header.protocolVersion >>> 4

/-- `basic_validation`. -/
def basicValidation (header : CommonHeader) (totalLength : Nat) : Bool :=
  if header.magic ≠ protocolMagic then false
  else if header.majorVersion ≠ protocolVersionMajor then false
  else if maxPayloadSize < header.payloadLen.toNat then false
  else if commonHeaderSize + header.payloadLen.toNat ≠ totalLength then false
  else true

/-- `PacketParser::parse`. -/
def parse (buffer : Option (List Byte)) : Option ParsedPacket :=
  match buffer with
  | none => none
  | some bs =>
    if bs.length < commonHeaderSize then none
    else if basicValidation (CommonHeader.decode bs) bs.length = false then none
    else some
      { header := CommonHeader.decode bs
        payload := some (bs.drop commonHeaderSize)
        totalSize := bs.length }

/-! ## The validator -/

inductive ValidationResult where
  | ok
  | invalidMagic
  | invalidVersion
  | invalidDestId
  | payloadLenMismatch
  | unsupportedPacketType
  | crcMismatch
  | malformedPayload
  | reservedFieldWarning
  deriving DecidableEq, Repr

/-- `Validator::Scope`. -/
inductive Scope where
  | dataPlaneOnly
  | dataAndHeartbeat
  deriving DecidableEq, Repr

structure Validator where
  localDeviceId : BitVec 8
  scope : Scope := .dataAndHeartbeat

/-- `verify_heartbeat_crc`. -/
def verifyHeartbeatCrc (payload : Option (List Byte)) (payloadLen : Nat) : Bool :=
  match payload with
  | none => false
  | some bs =>
    if payloadLen < heartbeatPayloadSize then false
    else le32 bs 44 == crc32c (bs.take 44)

namespace Validator

def checkDestId (v : Validator) (destId : BitVec 8) : Bool :=
  if destId = deviceReserved then false
  else destId == v.localDeviceId || destId == deviceBroadcast

/-- `validate_payload_by_type`. -/
def validatePayloadByType (packet : ParsedPacket) : ValidationResult :=
  if packet.header.packetType ≠ PacketType.data.toByte ∧
      packet.header.packetType ≠ PacketType.heartbeat.toByte then .unsupportedPacketType
  else if packet.header.packetType = PacketType.data.toByte then .ok
  else if verifyHeartbeatCrc packet.payload packet.header.payloadLen.toNat then .ok
  else .crcMismatch

/-- `validate`. The result of `check_reserved_fields` is not used. -/
def validate (v : Validator) (packet : ParsedPacket) : ValidationResult :=
  if packet.header.magic ≠ protocolMagic then .invalidMagic
  else if packet.header.majorVersion ≠ protocolVersionMajor then .invalidVersion
  else if v.checkDestId packet.header.destId = false then .invalidDestId
  else if v.scope = .dataPlaneOnly ∧ packet.header.packetType ≠ PacketType.data.toByte then
    .unsupportedPacketType
  else if v.scope = .dataAndHeartbeat ∧ packet.header.packetType ≠ PacketType.data.toByte ∧
      packet.header.packetType ≠ PacketType.heartbeat.toByte then .unsupportedPacketType
  else if packet.totalSize ≠ commonHeaderSize + packet.header.payloadLen.toNat then
    .payloadLenMismatch
  else validatePayloadByType packet

end Validator

end Qdgz300.Protocol
