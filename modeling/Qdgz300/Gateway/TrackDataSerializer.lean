import Qdgz300.Common.Types

/-!
# The track frame codec (`m04_gateway/trackdata_serializer.cpp`)

The fields of a frame one after the other as they lie in memory (a little-endian machine), then the
counted tracks, each the 96 bytes of its object.
-/

namespace Qdgz300.Gateway

open Bytes

/-- The fields of a track in the order of its declaration. -/
def trackFields : BitVec 64 × BitVec 64 × BitVec 64 × BitVec 64 × BitVec 64 × BitVec 64 ×
    BitVec 64 × BitVec 64 × BitVec 32 × Byte × Byte × Byte × Byte × BitVec 32 × BitVec 32 ×
    BitVec 64 × BitVec 64 ≃ Track where
  toFun := fun (trackId, posX, posY, posZ, velX, velY, velZ, headingDeg, confidence, lifecycleState,
      sourceArrayId, handoverFlag, handoverFrom, coastFrames, padding, createTs, updateTs) =>
    { trackId, posX, posY, posZ, velX, velY, velZ, headingDeg, confidence, lifecycleState,
      sourceArrayId, handoverFlag, handoverFrom, coastFrames, padding, createTs, updateTs }
  invFun t := (t.trackId, t.posX, t.posY, t.posZ, t.velX, t.velY, t.velZ, t.headingDeg, t.confidence,
    t.lifecycleState, t.sourceArrayId, t.handoverFlag, t.handoverFrom, t.coastFrames, t.padding,
    t.createTs, t.updateTs)
  left_inv _ := rfl
  right_inv _ := rfl

/-- A `Track` object in memory. -/
def track : Image Track :=
  (u64.pair <| u64.pair <| u64.pair <| u64.pair <| u64.pair <| u64.pair <| u64.pair <| u64.pair <|
    u32.pair <| u8.pair <| u8.pair <| u8.pair <| u8.pair <| u32.pair <| u32.pair <| u64.pair u64).iso
    trackFields

/-- `append_bytes`. -/
def appendBytes {α : Type} (I : Image α) (out : List Byte) (value : α) : List Byte :=
  out ++ I.bytes value

/-- `read_bytes`. -/
def readBytes {α : Type} (I : Image α) (data : List Byte) : Reader String α := do
  let c ← get
  if data.length < c.offset + I.size then throw "buffer underflow" else copy I data

/-- `TrackDataSerializer::serialize`. -/
def serialize (frame : TrackFrame) : List Byte :=
  let out := appendBytes u64 [] frame.frameSeq
  let out := appendBytes u64 out frame.dataTimestampNs
  let out := appendBytes u64 out frame.backendInstanceId
  let out := appendBytes u8 out frame.clockDomain
  let out := appendBytes u8 out frame.coverageMask
  let out := appendBytes u16 out frame.trackCount
  let out := appendBytes u32 out frame.systemQualityFlags
  let out := appendBytes .bool out frame.isTruncated
  let out := appendBytes u16 out frame.droppedCount
  (frame.tracks.take frame.trackCount.toNat).foldl (appendBytes track) out

/-- The loop of `deserialize` over the tracks. -/
def readTracks (data : List Byte) : (n : Nat) → Reader String (List.Vector Track n)
  | 0 => return .nil
  | n + 1 => do
    let t ← readBytes track data
    let ts ← readTracks data n
    return t ::ᵥ ts

/-- `TrackDataSerializer::deserialize`. -/
def deserialize (data : List Byte) : Reader String TrackFrame := do
  let frameSeq ← readBytes u64 data
  let dataTimestampNs ← readBytes u64 data
  let backendInstanceId ← readBytes u64 data
  let clockDomain ← readBytes u8 data
  let coverageMask ← readBytes u8 data
  let trackCount ← readBytes u16 data
  let systemQualityFlags ← readBytes u32 data
  let isTruncated ← readBytes .bool data
  let droppedCount ← readBytes u16 data
  let tracks ← readTracks data trackCount.toNat
  return {
    frameSeq, dataTimestampNs, backendInstanceId, clockDomain, coverageMask, trackCount,
    systemQualityFlags, isTruncated, droppedCount
    tracks := tracks.toList
    counted := (List.Vector.toList_length tracks).ge }

end Qdgz300.Gateway
