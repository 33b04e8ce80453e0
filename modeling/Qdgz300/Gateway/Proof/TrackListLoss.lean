import Qdgz300.DataProc.TrackFrameBuilder
import Qdgz300.Gateway.Proof.TrackCodec

/-!
# Which track lists survive the output path

A frame is built, serialized and read back. The bytes hold the tracks that the frame counts
(`deserialize_serialize`), and the count is the number of tracks modulo `2 ^ 16`, with the flag of a
truncated frame down.
-/

namespace Qdgz300.Gateway

open DataProc (build)

/-- The frame without the tracks behind its count. -/
def trim (frame : TrackFrame) : TrackFrame :=
  { frame with
    tracks := frame.tracks.take frame.trackCount.toNat
    counted := (List.length_take_of_le frame.counted).ge }

theorem serialize_trim (frame : TrackFrame) : serialize (trim frame) = serialize frame := by
  simp [serialize_eq, trim, headerOf, List.take_take]

/-- **Any frame** reads back as what it counts. -/
theorem deserialize_serialize (frame : TrackFrame) :
    ((deserialize (serialize frame)).exec {}).1 = .ok (trim frame) := by
  rw [← serialize_trim]
  exact trackFrame_codec.1 (trim frame) (List.length_take_of_le frame.counted)

section
variable {frameSeq : BitVec 64} {tracks : List Track} {coverageMask : BitVec 32}

variable (frameSeq tracks coverageMask) in
theorem trim_build_tracks :
    (trim (build frameSeq tracks coverageMask)).tracks = tracks.take (tracks.length % 2 ^ 16) := by
  simp [trim, build]

/-- The loss of a track shows in its frame. -/
def LossVisible (frame : TrackFrame) (total : Nat) : Prop :=
  frame.isTruncated = true ∧ frame.trackCount.toNat + frame.droppedCount.toNat = total

theorem not_lossVisible_build :
    ¬ LossVisible (trim (build frameSeq tracks coverageMask)) tracks.length :=
  nofun

theorem take_mod_eq_iff : tracks.take (tracks.length % 2 ^ 16) = tracks ↔
    tracks.length < 2 ^ 16 := by
  refine ⟨fun heq => ?_, fun hlt => by rw [Nat.mod_eq_of_lt hlt, List.take_length]⟩
  have hlength := congrArg List.length heq
  rw [List.length_take] at hlength
  omega

end

/-- **Which lists survive**: the tracks come out as they went in, or their loss is visible, exactly
when there are fewer than `2 ^ 16`. -/
theorem tracks_survive_iff (frameSeq : BitVec 64) (tracks : List Track) (coverageMask : BitVec 32) :
    (∃ frame, ((deserialize (serialize (build frameSeq tracks coverageMask))).exec {}).1 = .ok frame ∧
      (frame.tracks = tracks ∨ LossVisible frame tracks.length)) ↔ tracks.length < 2 ^ 16 := by
  rw [deserialize_serialize, ← take_mod_eq_iff, ← trim_build_tracks frameSeq tracks coverageMask]
  refine ⟨?_, fun hsame => ⟨_, rfl, .inl hsame⟩⟩
  rintro ⟨frame, ⟨⟩, hsame | hvisible⟩
  · exact hsame
  · exact absurd hvisible not_lossVisible_build

/-- `2 ^ 16` tracks: the frame counts none of them and says that nothing is missing. -/
theorem full_list_lost :
    ¬ ∃ frame, ((deserialize (serialize
        (build 1 (List.replicate (2 ^ 16) sampleTrack) 7))).exec {}).1 = .ok frame ∧
      (frame.tracks = List.replicate (2 ^ 16) sampleTrack ∨
        LossVisible frame (List.replicate (2 ^ 16) sampleTrack).length) := by
  rw [deserialize_serialize]
  rintro ⟨frame, ⟨⟩, hsame | hvisible⟩
  · have hlength := congrArg List.length hsame
    rw [trim_build_tracks, List.length_take, List.length_replicate] at hlength
    exact absurd hlength (by decide)
  · exact absurd hvisible not_lossVisible_build

end Qdgz300.Gateway
