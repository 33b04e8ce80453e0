import Mathlib.Algebra.GroupWithZero.Nat
import Mathlib.Data.List.Basic
import Mathlib.Logic.Function.Basic

/-!
# Linked stacks under several threads

`Chain next head l`: the nodes from `head` along `next` are `l`. A push and a pop are steps at its
front (`Chain.push`, `Chain.pop`), and a write to a node that is not on it leaves it alone
(`Chain.update`).

`total f ts` adds up a quantity over the threads `ts`, each given by its program counter. One
thread's step changes it by that thread's share (`total_set`), and two threads have their shares
side by side (`add_le_total`): a node that only one can hold is not held by the other. A counter
that several threads update is a 64-bit word that wraps (`toNat_add_one`, `toNat_sub_one`).
-/

namespace LockFree

section
variable {ν : Type*} {next : ν → Option ν} {head : Option ν} {a : ν} {l : List ν}

/-- The nodes from `head` along `next`, up to the one without a successor. -/
def Chain (next : ν → Option ν) : Option ν → List ν → Prop
  | head, [] => head = none
  | head, a :: l => head = some a ∧ Chain next (next a) l

/-- The front of a chain. -/
theorem Chain.pop (h : Chain next (some a) l) : ∃ rest, l = a :: rest ∧ Chain next
    (next a) rest := by
  cases l with
  | nil => cases h
  | cons b rest =>
    obtain ⟨heq, hrest⟩ := h
    obtain rfl := Option.some.inj heq
    exact ⟨rest, rfl, hrest⟩

theorem Chain.mem_head (h : Chain next (some a) l) : a ∈ l := by
  obtain ⟨rest, rfl, -⟩ := h.pop
  exact List.mem_cons_self

/-- A node in front of a chain. -/
theorem Chain.push (h : Chain next head l) (hnext : next a = head) :
    Chain next (some a) (a :: l) := ⟨rfl, hnext ▸ h⟩

theorem Chain.congr {next' : ν → Option ν} : ∀ {l : List ν} {head : Option ν},
    Chain next head l → (∀ a ∈ l, next' a = next a) → Chain next' head l
  | [], _, h, _ => h
  | a :: l, _, h, hsame => by
    refine ⟨h.1, ?_⟩
    rw [hsame a List.mem_cons_self]
    exact h.2.congr fun b hb => hsame b (List.mem_cons_of_mem _ hb)

/-- A write to a node that is not on the chain. -/
theorem Chain.update [DecidableEq ν] (h : Chain next head l) (hnot : a ∉ l) (v : Option ν) :
    Chain (Function.update next a v) head l := by
  apply h.congr
  intro b hb
  apply Function.update_of_ne
  rintro rfl
  exact hnot hb

end

section
variable {π : Type*} {f : π → Nat} {ts : List π} {i j : Nat} {p q : π}

/-- A quantity added up over threads. -/
def total (f : π → Nat) (ts : List π) : Nat := (ts.map f).sum

theorem total_replicate (n : Nat) (h : f p = 0) : total f (List.replicate n p) = 0 := by
  simp [total, h]

/-- One thread's step. -/
theorem total_set (h : ts[i]? = some p) (q : π) :
    total f (ts.set i q) + f p = total f ts + f q := by
  induction ts generalizing i with
  | nil => cases h
  | cons t ts ih =>
    cases i with
    | zero =>
      obtain rfl : t = p := Option.some.inj h
      simp only [total, List.set_cons_zero, List.map_cons, List.sum_cons]
      omega
    | succ i =>
      have := ih (i := i) h
      simp only [total, List.set_cons_succ, List.map_cons, List.sum_cons] at this ⊢
      omega

/-- A step that does not change the thread's share. -/
theorem total_set_eq (h : ts[i]? = some p) (q : π) (hf : f q = f p) :
    total f (ts.set i q) = total f ts := by
  have := total_set (f := f) h q
  omega

theorem le_total (h : ts[i]? = some p) : f p ≤ total f ts := by
  induction ts generalizing i with
  | nil => cases h
  | cons t ts ih =>
    rw [total, List.map_cons, List.sum_cons]
    cases i with
    | zero =>
      obtain rfl : t = p := Option.some.inj h
      exact Nat.le_add_right _ _
    | succ i => exact Nat.le_trans (ih (i := i) h) (Nat.le_add_left _ _)

/-- Two threads. -/
theorem add_le_total (hi : ts[i]? = some p) (hj : ts[j]? = some q) (hne : i ≠ j) :
    f p + f q ≤ total f ts := by
  induction ts generalizing i j with
  | nil => cases hi
  | cons t ts ih =>
    cases i with
    | zero =>
      cases j with
      | zero => exact absurd rfl hne
      | succ j =>
        obtain rfl : t = p := Option.some.inj hi
        have := le_total (f := f) (show ts[j]? = some q from hj)
        simp only [total, List.map_cons, List.sum_cons] at this ⊢
        omega
    | succ i =>
      cases j with
      | zero =>
        obtain rfl : t = q := Option.some.inj hj
        have := le_total (f := f) (show ts[i]? = some p from hi)
        simp only [total, List.map_cons, List.sum_cons] at this ⊢
        omega
      | succ j =>
        have := ih (i := i) (j := j) hi hj (by omega)
        simp only [total, List.map_cons, List.sum_cons] at this ⊢
        omega

/-- Every thread has nothing left to add. -/
theorem total_eq_zero (h : ∀ p ∈ ts, f p = 0) : total f ts = 0 := by
  induction ts with
  | nil => rfl
  | cons t ts ih =>
    rw [total, List.map_cons, List.sum_cons, h t List.mem_cons_self]
    have := ih fun p hp => h p (List.mem_cons_of_mem _ hp)
    rw [total] at this
    omega

/-- What the threads hold, node by node. -/
theorem count_flatMap {α : Type*} [DecidableEq α] (held : π → List α) (a : α) (ts : List π) :
    (ts.flatMap held).count a = total (fun p => (held p).count a) ts := by
  rw [List.count_flatMap]
  rfl

/-- A node that leaves a list. -/
theorem count_erase_add {α : Type*} [DecidableEq α] {a : α} {l : List α} (h : a ∈ l) (i : α) :
    (l.erase a).count i + [a].count i = l.count i := by
  rw [(List.perm_cons_erase h).count_eq i, List.count_singleton, List.count_cons]

/-- What a thread has after one of them took a step. -/
theorem of_set {P : π → Prop} (h : ∀ (j : Nat) p, ts[j]? = some p → j ≠ i → P p) (hq : P q) :
    ∀ (j : Nat) p, (ts.set i q)[j]? = some p → P p := by
  intro j p hj
  by_cases hji : i = j
  · subst hji
    obtain ⟨hlt, hget⟩ := List.getElem?_eq_some_iff.1 hj
    rw [List.getElem_set_self] at hget
    exact hget ▸ hq
  · rw [List.getElem?_set_ne hji] at hj
    exact h j p hj (Ne.symm hji)

end

theorem toNat_add_one (x : BitVec 64) : (x + 1).toNat = (x.toNat + 1) % 2 ^ 64 :=
  BitVec.toNat_add x 1

theorem toNat_sub_one (x : BitVec 64) : (x - 1).toNat = (2 ^ 64 - 1 + x.toNat) % 2 ^ 64 :=
  BitVec.toNat_sub x 1

end LockFree
