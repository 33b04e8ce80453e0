import Mathlib.Algebra.GroupWithZero.Nat
import Mathlib.Data.List.Basic
import Mathlib.Data.List.Range

/-!
# Lists made of blocks

`(List.range n).flatMap g` is the blocks `g 0`, …, `g (n - 1)` one after the other. Where every
block but the last has length `L`, block `i` begins at `i * L`.
-/

namespace Blocks

variable {α : Type*} {g : Nat → List α} {L n i : Nat}

theorem length_flatMap_range (h : ∀ j < n, (g j).length = L) :
    ((List.range n).flatMap g).length = n * L := by
  induction n with
  | zero => simp
  | succ n ih =>
    rw [List.range_succ, List.flatMap_append, List.length_append, ih fun j hj => h j (by omega),
      List.flatMap_singleton, h n (Nat.lt_succ_self n), Nat.succ_mul]

/-- The blocks in front of block `i`, block `i`, and the rest. -/
theorem flatMap_range_split (g : Nat → List α) (hi : i < n) :
    ∃ rest, (List.range n).flatMap g = (List.range i).flatMap g ++ (g i ++ rest) := by
  obtain ⟨k, rfl⟩ := Nat.exists_eq_add_of_lt hi
  refine ⟨((List.range k).map fun j => i + 1 + j).flatMap g, ?_⟩
  rw [Nat.add_right_comm, List.range_add, List.flatMap_append, List.range_succ, List.flatMap_append,
    List.flatMap_singleton, List.append_assoc]

/-- A position within block `i`. -/
theorem getElem?_block (h : ∀ j, j + 1 < n → (g j).length = L) (hi : i < n) {k : Nat}
    (hk : k < (g i).length) : ((List.range n).flatMap g)[i * L + k]? = (g i)[k]? := by
  obtain ⟨rest, hsplit⟩ := flatMap_range_split g hi
  have hlen : ((List.range i).flatMap g).length = i * L :=
    length_flatMap_range fun j hj => h j (by omega)
  rw [hsplit, List.getElem?_append_right (by omega), hlen, Nat.add_sub_cancel_left,
    List.getElem?_append_left hk]

/-- Block `i`, cut out. -/
theorem take_drop_block (h : ∀ j, j + 1 < n → (g j).length = L) (hi : i < n) :
    (((List.range n).flatMap g).drop (i * L)).take (g i).length = g i := by
  obtain ⟨rest, hsplit⟩ := flatMap_range_split g hi
  have hlen : ((List.range i).flatMap g).length = i * L :=
    length_flatMap_range fun j hj => h j (by omega)
  rw [hsplit, ← hlen, List.drop_left, List.take_left]

/-- The length of the whole. -/
theorem length_blocks (h : ∀ j, j + 1 < n → (g j).length = L) (hn : 0 < n) :
    ((List.range n).flatMap g).length = (n - 1) * L + (g (n - 1)).length := by
  obtain ⟨m, rfl⟩ := Nat.exists_eq_succ_of_ne_zero (Nat.pos_iff_ne_zero.1 hn)
  rw [Nat.succ_eq_add_one, Nat.add_sub_cancel, List.range_succ, List.flatMap_append,
    List.length_append, length_flatMap_range fun j hj => h j (by omega), List.flatMap_singleton]

/-- The block that a position falls into; the last block has length `T`. -/
theorem exists_position {T p : Nat} (hn : 0 < n) (hL : 0 < L) (hp : p < (n - 1) * L + T) :
    ∃ i < n, ∃ k < if i + 1 = n then T else L, p = i * L + k := by
  by_cases hlt : p < (n - 1) * L
  · have hdiv : p / L < n - 1 := Nat.div_lt_of_lt_mul (by rwa [Nat.mul_comm])
    refine ⟨p / L, by omega, p % L, ?_, ?_⟩
    · rw [if_neg (by omega)]
      exact Nat.mod_lt _ hL
    · rw [Nat.mul_comm, Nat.div_add_mod]
  · refine ⟨n - 1, by omega, p - (n - 1) * L, ?_, by omega⟩
    rw [if_pos (by omega)]
    omega

end Blocks
