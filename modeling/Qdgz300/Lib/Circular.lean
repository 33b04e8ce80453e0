import Mathlib.Algebra.GroupWithZero.Nat
import Mathlib.Data.Nat.ModEq

/-!
# Circular indices

An unbounded counter `i` seen through its remainder `i % c`: within a window of `c` consecutive
counters the remainder determines the counter (`mod_inj`), and every slot of the ring holds exactly
one counter of the last `c` (`exists_last`).

`getD_set_self` and `getD_set_ne` read a slot after a write to one.
-/

namespace Circular

/-- Two counters of one window with the same remainder are the same. -/
theorem mod_inj {c a i j : Nat} (hi : a ≤ i) (hi' : i < a + c) (hj : a ≤ j) (hj' : j < a + c)
    (h : i % c = j % c) : i = j := by
  rcases Nat.le_total i j with hle | hle
  · have h0 := Nat.eq_zero_of_dvd_of_lt (Nat.dvd_of_mod_eq_zero (Nat.sub_mod_eq_zero_of_mod_eq h.symm))
      (show j - i < c by omega)
    omega
  · have h0 := Nat.eq_zero_of_dvd_of_lt (Nat.dvd_of_mod_eq_zero (Nat.sub_mod_eq_zero_of_mod_eq h))
      (show i - j < c by omega)
    omega

/-- Counters at most `c - 1` apart have different remainders. -/
theorem mod_ne {c i j : Nat} (hij : i < j) (hj : j < i + c) : i % c ≠ j % c := fun h =>
  absurd (mod_inj (Nat.le_refl i) (by omega) (Nat.le_of_lt hij) hj h) (Nat.ne_of_lt hij)

/-- The successor of a remainder. -/
theorem succ_mod (c i : Nat) : (i % c + 1) % c = (i + 1) % c := by
  rw [Nat.add_mod, Nat.mod_mod, ← Nat.add_mod]

/-- Among the counters below `n` that share the slot of `j`, one is in the last window. -/
theorem exists_last {c j n : Nat} (hc : 0 < c) (hj : j < n) :
    ∃ i, j ≤ i ∧ i < n ∧ n ≤ i + c ∧ i % c = j % c := by
  refine ⟨j + c * ((n - 1 - j) / c), Nat.le_add_right _ _, ?_, ?_, Nat.add_mul_mod_self_left _ _ _⟩
  · have := Nat.mul_div_le (n - 1 - j) c
    omega
  · have := Nat.lt_mul_div_succ (n - 1 - j) hc
    rw [Nat.mul_add] at this
    omega

/-- Every slot is met on a round that starts at slot `p`. -/
theorem exists_turn {c p i : Nat} (hp : p < c) (hi : i < c) : ∃ j < c, (p + j) % c = i := by
  rcases Nat.lt_or_ge i p with h | h
  · refine ⟨i + c - p, by omega, ?_⟩
    rw [show p + (i + c - p) = i + c by omega, Nat.add_mod_right, Nat.mod_eq_of_lt hi]
  · refine ⟨i - p, by omega, ?_⟩
    rw [show p + (i - p) = i by omega, Nat.mod_eq_of_lt hi]

/-! ## Slots -/

theorem getD_set_self {α : Type*} {l : List α} {i : Nat} {x d : α} (hi : i < l.length) :
    (l.set i x).getD i d = x := by
  rw [List.getD_eq_getElem?_getD, List.getElem?_set_self hi, Option.getD_some]

theorem getD_set_ne {α : Type*} {l : List α} {i j : Nat} {x d : α} (h : i ≠ j) :
    (l.set i x).getD j d = l.getD j d := by
  rw [List.getD_eq_getElem?_getD, List.getElem?_set_ne h, List.getD_eq_getElem?_getD]

/-! ## Distances -/

/-- The number of steps from slot `n` forward to slot `j`. -/
def ahead (c n j : Nat) : Nat := (j + c - n) % c

theorem ahead_self {c n : Nat} : ahead c n n = 0 := by
  unfold ahead
  rw [Nat.add_sub_cancel_left, Nat.mod_self]

/-- The distance travelled from slot `n`. -/
theorem ahead_turn {c n d : Nat} (hn : n < c) (hd : d < c) : ahead c n ((n + d) % c) = d := by
  unfold ahead
  rcases Nat.lt_or_ge (n + d) c with h | h
  · rw [Nat.mod_eq_of_lt h, show n + d + c - n = d + c by omega, Nat.add_mod_right,
      Nat.mod_eq_of_lt hd]
  · rw [Nat.mod_eq_sub_mod h, Nat.mod_eq_of_lt (show n + d - c < c by omega),
      show n + d - c + c - n = d by omega, Nat.mod_eq_of_lt hd]

/-- A step towards `j` shortens the distance. -/
theorem ahead_succ {c n j : Nat} (hn : n < c) (hj : j < c) (hne : j ≠ n) :
    ahead c ((n + 1) % c) j + 1 = ahead c n j := by
  unfold ahead
  rcases Nat.lt_or_ge (n + 1) c with h | h
  · rw [Nat.mod_eq_of_lt h]
    rcases Nat.lt_or_ge j n with hjn | hjn
    · rw [Nat.mod_eq_of_lt (by omega), Nat.mod_eq_of_lt (by omega)]
      omega
    · rw [show j + c - (n + 1) = j - (n + 1) + c by omega, show j + c - n = j - n + c by omega,
        Nat.add_mod_right, Nat.add_mod_right, Nat.mod_eq_of_lt (by omega),
        Nat.mod_eq_of_lt (by omega)]
      omega
  · rw [show n + 1 = c by omega, Nat.mod_self, Nat.sub_zero, Nat.add_mod_right, Nat.mod_eq_of_lt hj,
      Nat.mod_eq_of_lt (by omega)]
    omega

/-- Just behind `n`, a whole round is ahead. -/
theorem ahead_round {c n : Nat} (hn : n < c) : ahead c ((n + 1) % c) n = c - 1 := by
  unfold ahead
  rcases Nat.lt_or_ge (n + 1) c with h | h
  · rw [Nat.mod_eq_of_lt h, Nat.mod_eq_of_lt (by omega)]
    omega
  · rw [show n + 1 = c by omega, Nat.mod_self, Nat.sub_zero, Nat.add_mod_right, Nat.mod_eq_of_lt hn]
    omega

end Circular
