import Mathlib.Algebra.BigOperators.Group.Finset.Piecewise
import Mathlib.Algebra.Order.BigOperators.Group.Finset

/-!
# Reporting counters by their growth

A reporter keeps, for each counter that it watches, a mark at the last value it has seen, and adds
the growth since then to a total that the counters share.

* `last_add_delta`, `mark_eq_max`: one report.
* `sum_add_delta`: the total stays the sum of the marks.
-/

namespace DeltaReport

/-- What a report adds for a counter that stands at `now`. -/
def delta (last now : Nat) : Nat := if last < now then now - last else 0

/-- The mark after a report. -/
def mark (last now : Nat) : Nat := if last < now then now else last

theorem mark_eq_max (last now : Nat) : mark last now = max last now := by
  unfold mark
  split <;> omega

theorem last_add_delta (last now : Nat) : last + delta last now = mark last now := by
  unfold delta mark
  split <;> omega

/-- A counter that did not go back is reported in full. -/
theorem mark_of_le {last now : Nat} (h : last ≤ now) : mark last now = now := by
  rw [mark_eq_max, Nat.max_eq_right h]

/-- **The total** of `n` counters is the sum of their marks, and a report keeps it so. -/
theorem sum_add_delta {n i : Nat} (hi : i < n) (last : Nat → Nat) (now : Nat) :
    (∑ k ∈ Finset.range n, last k) + delta (last i) now =
      ∑ k ∈ Finset.range n, Function.update last i (mark (last i) now) k := by
  have hmem : i ∈ Finset.range n := Finset.mem_range.2 hi
  rw [Finset.sum_update_of_mem hmem, ← Finset.add_sum_erase _ _ hmem, ← last_add_delta,
    Finset.sdiff_singleton_eq_erase]
  omega

end DeltaReport
