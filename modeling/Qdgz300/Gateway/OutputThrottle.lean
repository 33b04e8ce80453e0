import Mathlib.Data.List.Sort
import Qdgz300.Common.Types

/-!
# The output throttle (`m04_gateway/output_throttle.cpp`)

`truncate` bounds the tracks of a frame. A confidence is a `float`; `value` is what `>` compares.
-/

namespace Qdgz300.Gateway

variable {α : Type*} [LinearOrder α] {value : BitVec 32 → α}

/-- `std::sort` with `lhs.confidence > rhs.confidence`. Where tracks of equal confidence end up is
left open. -/
structure ConfidenceSort (value : BitVec 32 → α) where
  sort : List Track → List Track
  perm : ∀ tracks, (sort tracks).Perm tracks
  sorted : ∀ tracks, (sort tracks).Pairwise fun lhs rhs =>
    value rhs.confidence ≤ value lhs.confidence

/-- The sort that keeps tracks of equal confidence in their order. -/
def ConfidenceSort.stable (value : BitVec 32 → α) : ConfidenceSort value where
  sort := fun tracks => tracks.mergeSort fun lhs rhs =>
    decide (value rhs.confidence ≤ value lhs.confidence)
  perm := fun tracks => List.mergeSort_perm _ _
  sorted := fun tracks => by
    have htrans : ∀ a b c : Track, decide (value b.confidence ≤ value a.confidence) →
        decide (value c.confidence ≤ value b.confidence) →
        decide (value c.confidence ≤ value a.confidence) := by
      simp only [decide_eq_true_eq]
      exact fun a b c hab hbc => hbc.trans hab
    have htotal : ∀ a b : Track, (decide (value b.confidence ≤ value a.confidence) ||
        decide (value a.confidence ≤ value b.confidence)) := by
      simp only [Bool.or_eq_true, decide_eq_true_eq]
      exact fun a b => le_total _ _
    simpa using List.pairwise_mergeSort htrans htotal tracks

instance : Inhabited (ConfidenceSort value) := ⟨.stable value⟩

/-- The tracks that a frame counts. -/
def countedTracks (frame : TrackFrame) : List Track := frame.tracks.take frame.trackCount.toNat

theorem length_countedTracks (frame : TrackFrame) :
    (countedTracks frame).length = frame.trackCount.toNat :=
  List.length_take_of_le frame.counted

/-- `OutputThrottle::truncate`. -/
def truncate (std : ConfidenceSort value) (frame : TrackFrame) (maxTracks : Nat) : TrackFrame :=
  let tracks := countedTracks frame
  if h : frame.trackCount.toNat ≤ maxTracks then
    { frame with
      tracks
      counted := (length_countedTracks frame).ge }
  else
    { frame with
      tracks := (std.sort tracks).take maxTracks
      trackCount := BitVec.ofNat 16 maxTracks
      isTruncated := true
      droppedCount := BitVec.ofNat 16 (frame.trackCount.toNat - maxTracks)
      counted := by
        have hlength := (std.perm tracks).length_eq.trans (length_countedTracks frame)
        rw [List.length_take, hlength, min_eq_left (Nat.le_of_not_le h), BitVec.toNat_ofNat]
        exact Nat.mod_le _ _ }

end Qdgz300.Gateway
