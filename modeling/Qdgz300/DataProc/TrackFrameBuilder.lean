import Qdgz300.Common.Types

/-!
# The frame builder (`m03_data_proc/track_frame_builder.cpp`)
-/

namespace Qdgz300.DataProc

/-- `TrackFrameBuilder::build`. The array holds a copy of every track; the count is the number of
them cast to 16 bits. -/
def build (frameSeq : BitVec 64) (tracks : List Track) (coverageMask : BitVec 32) : TrackFrame where
  frameSeq
  dataTimestampNs := match tracks with
    | [] => 0
    | front :: _ => front.updateTs
  backendInstanceId := 1
  clockDomain := 0
  coverageMask := (coverageMask &&& 0xFF).setWidth 8
  trackCount := BitVec.ofNat 16 tracks.length
  systemQualityFlags := 0
  isTruncated := false
  droppedCount := 0
  tracks
  counted := by
    rw [BitVec.toNat_ofNat]
    exact Nat.mod_le _ _

end Qdgz300.DataProc
