import Mathlib.Data.List.Basic

/-!
# Buckets of a histogram

A value falls into the bucket of the first bound that it does not exceed, or into a last one behind
all bounds. Where the bounds ascend, the buckets up to one of them hold the values that are at most
its bound (`below_succ_eq_atMost`).
-/

namespace Buckets

/-- The bucket of a value. -/
def bucketOf (bounds : List Nat) (v : Nat) : Nat := bounds.findIdx fun b => decide (v ≤ b)

/-- How many values fall into a bucket before `i`. -/
def below (bounds : List Nat) (i : Nat) (vs : List Nat) : Nat :=
  vs.countP fun v => decide (bucketOf bounds v < i)

/-- How many values are at most the bound of bucket `i`; the last bucket has none. -/
def atMost (bounds : List Nat) (i : Nat) (vs : List Nat) : Nat :=
  vs.countP fun v => bounds[i]?.all fun b => decide (v ≤ b)

variable {bounds : List Nat} {v i : Nat} {vs ws : List Nat}

theorem bucketOf_le_iff (hsorted : bounds.Pairwise (· ≤ ·)) (hi : i < bounds.length) :
    bucketOf bounds v ≤ i ↔ v ≤ bounds[i] := by
  have hlt : i < bucketOf bounds v ↔ bounds[i] < v := by
    rw [bucketOf, List.lt_findIdx_iff]
    refine ⟨?_, fun h => ⟨hi, fun j hj => ?_⟩⟩
    · rintro ⟨_, h⟩
      simpa using h i (Nat.le_refl i)
    · have hmono : bounds[j] ≤ bounds[i] := by
        rcases Nat.lt_or_eq_of_le hj with hj | rfl
        · exact List.pairwise_iff_getElem.1 hsorted j i (by omega) hi hj
        · exact Nat.le_refl _
      simp
      omega
  omega

theorem bucketOf_le_length (bounds : List Nat) (v : Nat) : bucketOf bounds v ≤ bounds.length :=
  List.findIdx_le_length

/-- **The buckets** up to a bound hold the values up to it. -/
theorem below_succ_eq_atMost (hsorted : bounds.Pairwise (· ≤ ·)) (i : Nat) (vs : List Nat) :
    below bounds (i + 1) vs = atMost bounds i vs := by
  refine List.countP_congr fun v _ => ?_
  by_cases hi : i < bounds.length
  · rw [decide_eq_true_iff, Nat.lt_succ_iff, bucketOf_le_iff hsorted hi]
    simp [hi]
  · have hle := bucketOf_le_length bounds v
    simp [List.getElem?_eq_none (Nat.not_lt.1 hi)]
    omega

@[simp] theorem below_zero : below bounds 0 vs = 0 := by simp [below]

theorem below_succ : below bounds (i + 1) vs =
    below bounds i vs + vs.countP fun v => decide (bucketOf bounds v = i) := by
  induction vs with
  | nil => rfl
  | cons v vs ih =>
    simp only [below, List.countP_cons, decide_eq_true_eq] at ih ⊢
    rw [ih]
    split <;> split <;> split <;> omega

theorem below_mono (h : vs.Sublist ws) : below bounds i vs ≤ below bounds i ws := h.countP_le

end Buckets
