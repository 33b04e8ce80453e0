import Qdgz300.Lib.Codec
import Qdgz300.Protocol.Types

/-!
# The packed headers in memory

What a sender copies into a packet: the images of the headers of `protocol_types.h`. A receiver that
decodes the front of such bytes gets the header back.
-/

namespace Qdgz300.Protocol

open Bytes

def commonHeader : Image CommonHeader :=
  (u32.pair <| u32.pair <| u64.pair <| u16.pair <| u8.pair <| u8.pair <| u8.pair <| u8.pair <|
    u16.pair <| u8.pair <| u8.pair <| u16.pair u32).iso {
      toFun := fun (magic, sequenceNumber, timestamp, payloadLen, packetType, protocolVersion,
          sourceId, destId, controlEpoch, extFlags, reserved1, reserved2, reserved3) =>
        { magic, sequenceNumber, timestamp, payloadLen, packetType, protocolVersion, sourceId,
          destId, controlEpoch, extFlags, reserved1, reserved2, reserved3 }
      invFun := fun h => (h.magic, h.sequenceNumber, h.timestamp, h.payloadLen, h.packetType,
        h.protocolVersion, h.sourceId, h.destId, h.controlEpoch, h.extFlags, h.reserved1,
        h.reserved2, h.reserved3)
      left_inv := fun _ => rfl
      right_inv := fun _ => rfl }

def dataSpecificHeader : Image DataSpecificHeader :=
  (u32.pair <| u32.pair <| u32.pair <| u32.pair <| u32.pair <| u64.pair <| u16.pair <| u16.pair <|
    u16.pair <| u16.pair <| u16.pair u16).iso {
      toFun := fun (frameCounter, cpiCount, pulseIndex, sampleOffset, sampleCount, dataTimestamp,
          healthSummary, reservedHealth, beamId, fragIndex, totalFrags, tailFragPayloadBytes) =>
        { frameCounter, cpiCount, pulseIndex, sampleOffset, sampleCount, dataTimestamp,
          healthSummary, reservedHealth, beamId, fragIndex, totalFrags, tailFragPayloadBytes }
      invFun := fun h => (h.frameCounter, h.cpiCount, h.pulseIndex, h.sampleOffset, h.sampleCount,
        h.dataTimestamp, h.healthSummary, h.reservedHealth, h.beamId, h.fragIndex, h.totalFrags,
        h.tailFragPayloadBytes)
      left_inv := fun _ => rfl
      right_inv := fun _ => rfl }

def executionSnapshot : Image ExecutionSnapshot :=
  (u16.pair <| u16.pair <| u8.pair <| u8.pair <| u16.pair <| u16.pair <| u16.pair <| u16.pair <|
    u16.pair <| u32.pair <| u32.pair <| u32.pair <| u32.pair <| u32.pair u32).iso {
      toFun := fun (azimuthAngle, elevationAngle, workFreqIndex, reserved, mgcGain,
          signalBandwidth, pulseWidth, pulsePeriod, accumulationCount, tiltSensorX, tiltSensorY,
          headingAngle, bdsLongitude, bdsLatitude, bdsAltitude) =>
        { azimuthAngle, elevationAngle, workFreqIndex, reserved, mgcGain, signalBandwidth,
          pulseWidth, pulsePeriod, accumulationCount, tiltSensorX, tiltSensorY, headingAngle,
          bdsLongitude, bdsLatitude, bdsAltitude }
      invFun := fun h => (h.azimuthAngle, h.elevationAngle, h.workFreqIndex, h.reserved, h.mgcGain,
        h.signalBandwidth, h.pulseWidth, h.pulsePeriod, h.accumulationCount, h.tiltSensorX,
        h.tiltSensorY, h.headingAngle, h.bdsLongitude, h.bdsLatitude, h.bdsAltitude)
      left_inv := fun _ => rfl
      right_inv := fun _ => rfl }

theorem commonHeader_value (bs : List Byte) :
    commonHeader.value (slice bs 0 32) = CommonHeader.decode bs := by
  simp only [CommonHeader.decode, ← u8_value]
  simp only [commonHeader, Image.pair, Image.iso, Equiv.coe_fn_mk]
  simp only [u8, u16, u32, u64, Image.word, slice_slice, Nat.reduceAdd, Nat.reduceLeDiff]
  rfl

theorem commonHeader_front (h : CommonHeader) (rest : List Byte) :
    CommonHeader.decode (commonHeader.bytes h ++ rest) = h := by
  rw [← commonHeader_value]
  exact commonHeader.value_front h rest

theorem dataSpecificHeader_value (bs : List Byte) :
    dataSpecificHeader.value (slice bs 0 40) = DataSpecificHeader.decode bs := by
  simp only [dataSpecificHeader, Image.pair, Image.iso, Equiv.coe_fn_mk]
  simp only [u32, u16, u64, Image.word, slice_slice, Nat.reduceAdd, Nat.reduceLeDiff]
  rfl

theorem dataSpecificHeader_front (h : DataSpecificHeader) (rest : List Byte) :
    DataSpecificHeader.decode (dataSpecificHeader.bytes h ++ rest) = h := by
  rw [← dataSpecificHeader_value]
  exact dataSpecificHeader.value_front h rest

end Qdgz300.Protocol
