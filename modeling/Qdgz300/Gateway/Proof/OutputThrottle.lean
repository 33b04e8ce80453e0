import Qdgz300.Gateway.OutputThrottle
import Qdgz300.Lib.TopK

/-!
# Truncation keeps the best tracks

Either way, the confidences of a truncated frame are the largest of the frame (`isTop_truncate`);
from there the composition is that of the selections. `kept_dropped` is the same of the tracks.
-/

namespace Qdgz300.Gateway

open TopK

variable {α : Type*} [LinearOrder α] {value : BitVec 32 → α} (std : ConfidenceSort value)

/-- What the tracks are compared by. -/
def confidences (value : BitVec 32 → α) (tracks : List Track) : List α :=
  tracks.map fun track => value track.confidence

theorem truncate_fits {frame : TrackFrame} {maxTracks : Nat}
    (h : frame.trackCount.toNat ≤ maxTracks) :
    (truncate std frame maxTracks).tracks = countedTracks frame ∧
      (truncate std frame maxTracks).trackCount = frame.trackCount := by
  simp [truncate, h]

theorem truncate_cuts {frame : TrackFrame} {maxTracks : Nat}
    (h : maxTracks < frame.trackCount.toNat) :
    (truncate std frame maxTracks).tracks = (std.sort (countedTracks frame)).take maxTracks ∧
      (truncate std frame maxTracks).trackCount.toNat = maxTracks ∧
      (truncate std frame maxTracks).isTruncated = true ∧
      (truncate std frame maxTracks).droppedCount.toNat = frame.trackCount.toNat - maxTracks := by
  have hcount := frame.trackCount.isLt
  simp only [truncate, Nat.not_le.2 h, dite_false, BitVec.toNat_ofNat, true_and]
  omega

theorem truncate_count (frame : TrackFrame) (maxTracks : Nat) :
    (truncate std frame maxTracks).trackCount.toNat = min frame.trackCount.toNat maxTracks := by
  rcases Nat.lt_or_ge maxTracks frame.trackCount.toNat with hcut | hfit
  · rw [(truncate_cuts std hcut).2.1, Nat.min_eq_right hcut.le]
  · rw [(truncate_fits std hfit).2, Nat.min_eq_left hfit]

theorem truncate_counted (frame : TrackFrame) (maxTracks : Nat) :
    (truncate std frame maxTracks).tracks.length =
      (truncate std frame maxTracks).trackCount.toNat := by
  rcases Nat.lt_or_ge maxTracks frame.trackCount.toNat with hcut | hfit
  · have hsorted := (std.perm (countedTracks frame)).length_eq
    rw [length_countedTracks] at hsorted
    rw [(truncate_cuts std hcut).1, (truncate_cuts std hcut).2.1, List.length_take, hsorted,
      Nat.min_eq_left hcut.le]
  · rw [(truncate_fits std hfit).1, (truncate_fits std hfit).2, length_countedTracks]

theorem countedTracks_truncate (frame : TrackFrame) (maxTracks : Nat) :
    countedTracks (truncate std frame maxTracks) = (truncate std frame maxTracks).tracks := by
  rw [countedTracks, ← truncate_counted, List.take_length]

/-- The kept tracks and the dropped ones. -/
theorem kept_dropped (frame : TrackFrame) (maxTracks : Nat) :
    ∃ dropped, ((truncate std frame maxTracks).tracks ++ dropped).Perm (countedTracks frame) ∧
      ∀ kept ∈ (truncate std frame maxTracks).tracks, ∀ lost ∈ dropped,
        value lost.confidence ≤ value kept.confidence := by
  rcases Nat.lt_or_ge maxTracks frame.trackCount.toNat with hcut | hfit
  · have hsorted := std.sorted (countedTracks frame)
    rw [← List.take_append_drop maxTracks (std.sort (countedTracks frame))] at hsorted
    refine ⟨(std.sort (countedTracks frame)).drop maxTracks, ?_, ?_⟩
    · rw [(truncate_cuts std hcut).1, List.take_append_drop]
      exact std.perm _
    · rw [(truncate_cuts std hcut).1]
      exact (List.pairwise_append.1 hsorted).2.2
  · refine ⟨[], ?_, by simp⟩
    rw [(truncate_fits std hfit).1, List.append_nil]

/-- **The selection**: the confidences that are kept are the largest. -/
theorem isTop_truncate (frame : TrackFrame) (maxTracks : Nat) :
    IsTop maxTracks (confidences value (countedTracks frame))
      (confidences value (truncate std frame maxTracks).tracks) := by
  rcases Nat.lt_or_ge maxTracks frame.trackCount.toNat with hcut | hfit
  · rw [(truncate_cuts std hcut).1, confidences, confidences, List.map_take]
    exact isTop_take ((std.perm _).map _) (List.pairwise_map.2 (std.sorted _))
  · rw [(truncate_fits std hfit).1]
    refine isTop_of_le ?_
    rwa [confidences, List.length_map, length_countedTracks]

/-- **Truncations compose.** -/
theorem truncate_truncate (std₁ std₂ std₃ : ConfidenceSort value) (frame : TrackFrame) (a b : Nat) :
    (confidences value (truncate std₂ (truncate std₁ frame a) b).tracks).Perm
      (confidences value (truncate std₃ frame (min a b)).tracks) := by
  have hsecond := isTop_truncate std₂ (truncate std₁ frame a) b
  rw [countedTracks_truncate] at hsecond
  exact ((isTop_truncate std₁ frame a).trans hsecond).unique (isTop_truncate std₃ frame (min a b))

/-- **Truncation keeps the best tracks and counts the rest**, however the sort places tracks of
equal confidence, also when a frame is truncated twice. -/
theorem truncate_keeps_best (frame : TrackFrame) (maxTracks : Nat) :
    (truncate std frame maxTracks).tracks.length = min frame.trackCount.toNat maxTracks ∧
    (truncate std frame maxTracks).trackCount.toNat = min frame.trackCount.toNat maxTracks ∧
    (∃ dropped, ((truncate std frame maxTracks).tracks ++ dropped).Perm (countedTracks frame) ∧
      (∀ kept ∈ (truncate std frame maxTracks).tracks, ∀ lost ∈ dropped,
        value lost.confidence ≤ value kept.confidence) ∧
      (dropped ≠ [] → (truncate std frame maxTracks).isTruncated = true ∧
        (truncate std frame maxTracks).trackCount.toNat +
          (truncate std frame maxTracks).droppedCount.toNat = frame.trackCount.toNat) ∧
      (dropped = [] → (truncate std frame maxTracks).tracks = countedTracks frame)) ∧
    ∀ (std₁ std₂ : ConfidenceSort value) (a b : Nat),
      (confidences value (truncate std₂ (truncate std₁ frame a) b).tracks).Perm
        (confidences value (truncate std frame (min a b)).tracks) := by
  have hcount := truncate_count std frame maxTracks
  have hlength := (truncate_counted std frame maxTracks).trans hcount
  obtain ⟨dropped, hperm, hbest⟩ := kept_dropped std frame maxTracks
  have htotal := hperm.length_eq
  rw [List.length_append, hlength, length_countedTracks] at htotal
  refine ⟨hlength, hcount, ⟨dropped, hperm, hbest, fun hlost => ?_, fun hnone => ?_⟩,
    fun std₁ std₂ a b => truncate_truncate std₁ std₂ std frame a b⟩
  · have hsome := List.length_pos_iff.2 hlost
    have hcut : maxTracks < frame.trackCount.toNat := by omega
    obtain ⟨-, hkept, htruncated, hdropped⟩ := truncate_cuts std hcut
    exact ⟨htruncated, by omega⟩
  · rw [hnone, List.length_nil] at htotal
    exact (truncate_fits std (by omega)).1

/-! ## Equal confidences -/

/-- A sort that turns the tracks of equal confidence around. -/
def ConfidenceSort.reversing (std : ConfidenceSort value) : ConfidenceSort value where
  sort := fun tracks => std.sort tracks.reverse
  perm := fun tracks => (std.perm tracks.reverse).trans (List.reverse_perm tracks)
  sorted := fun tracks => std.sorted tracks.reverse

theorem stable_sort_of_equal {tracks : List Track} {confidence : BitVec 32}
    (h : ∀ track ∈ tracks, track.confidence = confidence) :
    (ConfidenceSort.stable value).sort tracks = tracks := by
  refine List.mergeSort_of_pairwise (List.Pairwise.imp_of_mem ?_ (List.pairwise_of_forall fun _ _ => trivial))
  intro lhs rhs hlhs hrhs _
  rw [h lhs hlhs, h rhs hrhs]
  exact decide_eq_true (le_refl _)

/-- A track of confidence `0.5`. -/
def halfSure (trackId : BitVec 64) : Track where
  trackId
  posX := 0
  posY := 0
  posZ := 0
  velX := 0
  velY := 0
  velZ := 0
  headingDeg := 0
  confidence := 0x3F000000
  lifecycleState := 1
  sourceArrayId := 1
  handoverFlag := 0
  handoverFrom := 0
  coastFrames := 0
  padding := 0
  createTs := 0
  updateTs := 0

/-- Three tracks of equal confidence. -/
def tied : TrackFrame where
  frameSeq := 1
  dataTimestampNs := 0
  backendInstanceId := 0
  clockDomain := 0
  coverageMask := 0x01
  trackCount := 3
  systemQualityFlags := 0
  isTruncated := false
  droppedCount := 0
  tracks := [halfSure 1, halfSure 2, halfSure 3]
  counted := by decide

/-- **Which of the tied tracks is kept is the sort's choice**, also over two truncations; the
confidences are the same either way. -/
theorem tied_truncated :
    (truncate (.stable BitVec.toNat) tied 1).tracks = [halfSure 1] ∧
    (truncate (.stable BitVec.toNat) (truncate (.reversing (.stable BitVec.toNat)) tied 2) 1).tracks =
      [halfSure 3] ∧
    (confidences BitVec.toNat (truncate (.stable BitVec.toNat)
      (truncate (.reversing (.stable BitVec.toNat)) tied 2) 1).tracks).Perm
        (confidences BitVec.toNat (truncate (.stable BitVec.toNat) tied 1).tracks) := by
  have hhalf : ∀ tracks ⊆ tied.tracks, (ConfidenceSort.stable BitVec.toNat).sort tracks =
    tracks := by
    intro tracks hsub
    have hequal : ∀ track ∈ tracks, track.confidence = 0x3F000000 := by
      intro track hmem
      have htied := hsub hmem
      simp only [tied, List.mem_cons, List.not_mem_nil, or_false] at htied
      rcases htied with rfl | rfl | rfl <;> rfl
    exact stable_sort_of_equal hequal
  have hfirst : (truncate (.reversing (.stable BitVec.toNat)) tied 2).tracks =
      [halfSure 3, halfSure 2] := by
    rw [(truncate_cuts _ (by decide)).1]
    exact congrArg (List.take 2) (hhalf [halfSure 3, halfSure 2, halfSure 1] (by simp [tied]))
  refine ⟨?_, ?_, (truncate_keeps_best (.stable BitVec.toNat) tied 1).2.2.2 _ _ 2 1⟩
  · rw [(truncate_cuts _ (by decide)).1]
    exact congrArg (List.take 1) (hhalf tied.tracks (List.Subset.refl _))
  · rw [(truncate_cuts _ (by rw [(truncate_cuts _ (by decide)).2.1]; decide)).1, countedTracks_truncate,
      hfirst]
    exact congrArg (List.take 1) (hhalf [halfSure 3, halfSure 2] (by simp [tied]))

end Qdgz300.Gateway
