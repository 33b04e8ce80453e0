import Mathlib.Algebra.GroupWithZero.Nat
import Mathlib.Data.List.Sort

/-!
# The largest elements of a list

`IsTop k l top`: `top` has, in some order, the `k` first elements of `l` sorted downwards. What is
selected does not depend on how equal elements were sorted (`IsTop.unique`), a whole list is its own
selection when it is short (`isTop_of_le`), and selections compose (`IsTop.trans`).
-/

namespace TopK

variable {α : Type*} [LinearOrder α] {k m : Nat} {l l' top top' : List α}

def IsTop (k : Nat) (l top : List α) : Prop :=
  ∃ sorted : List α, sorted.Perm l ∧ sorted.Pairwise (· ≥ ·) ∧ top.Perm (sorted.take k)

/-- Lists of the same elements, both sorted downwards. -/
theorem sorted_unique {s s' : List α} (hperm : s.Perm s') (hs : s.Pairwise (· ≥ ·))
    (hs' : s'.Pairwise (· ≥ ·)) : s = s' :=
  hperm.eq_of_pairwise' hs hs'

theorem isTop_take (hperm : l'.Perm l) (hsorted : l'.Pairwise (· ≥ ·)) : IsTop k l (l'.take k) :=
  ⟨l', hperm, hsorted, List.Perm.refl _⟩

theorem isTop_of_le (h : l.length ≤ k) : IsTop k l l := by
  have hperm : (l.insertionSort (· ≥ ·)).Perm l := List.perm_insertionSort _ l
  refine ⟨l.insertionSort (· ≥ ·), hperm, List.pairwise_insertionSort _ l, ?_⟩
  rw [List.take_of_length_le (hperm.length_eq.trans_le h)]
  exact hperm.symm

theorem IsTop.unique (h : IsTop k l top) (h' : IsTop k l top') : top.Perm top' := by
  obtain ⟨s, hperm, hs, htop⟩ := h
  obtain ⟨s', hperm', hs', htop'⟩ := h'
  obtain rfl := sorted_unique (hperm.trans hperm'.symm) hs hs'
  exact htop.trans htop'.symm

theorem IsTop.trans (h : IsTop k l top) (h' : IsTop m top top') : IsTop (min k m) l top' := by
  obtain ⟨s, hperm, hs, htop⟩ := h
  obtain ⟨s', hperm', hs', htop'⟩ := h'
  -- what was selected first is sorted already
  obtain rfl := sorted_unique (hperm'.trans htop) hs' (hs.sublist (List.take_sublist k s))
  refine ⟨s, hperm, hs, ?_⟩
  rwa [List.take_take, min_comm] at htop'

end TopK
