import Qdgz300.Lib.Codec

/-!
# Tracks and track frames (`common/types.h`)

The records that the tracker hands to the gateway. A `double` or a `float` is its bit pattern.
-/

namespace Qdgz300

/-- `Track`, with the four bytes of padding that align `create_ts`. The flag is the byte that
holds it, since the gateway copies a track as raw bytes. -/
@[ext]
structure Track where
  trackId : BitVec 64
  posX : BitVec 64
  posY : BitVec 64
  posZ : BitVec 64
  velX : BitVec 64
  velY : BitVec 64
  velZ : BitVec 64
  headingDeg : BitVec 64
  confidence : BitVec 32
  lifecycleState : Byte
  sourceArrayId : Byte
  handoverFlag : Byte
  handoverFrom : Byte
  coastFrames : BitVec 32
  padding : BitVec 32
  createTs : BitVec 64
  updateTs : BitVec 64
  deriving DecidableEq, Repr

/-- `TrackFrame`. The array behind `tracks` holds the counted tracks (a null pointer none). -/
@[ext]
structure TrackFrame where
  frameSeq : BitVec 64
  dataTimestampNs : BitVec 64
  backendInstanceId : BitVec 64
  clockDomain : Byte
  coverageMask : Byte
  trackCount : BitVec 16
  systemQualityFlags : BitVec 32
  isTruncated : Bool
  droppedCount : BitVec 16
  tracks : List Track
  counted : trackCount.toNat ≤ tracks.length
  deriving DecidableEq

end Qdgz300
