import Mathlib.Algebra.GroupWithZero.Nat
import Mathlib.Data.List.AList

/-!
# Counting in association lists

`entries_perm` splits a key off an association list; from it follow the sizes and counts of entries
after an insertion and an erasure. `map` changes the values, and goes through every operation.
-/

namespace KeyMap

variable {α : Type*} {β : Type*} [DecidableEq α] {m : AList fun _ : α => β} {a : α} {b c : β}
  (p : β → Bool)

/-- The number of entries that satisfy `p`. -/
def count (m : AList fun _ : α => β) : Nat := m.entries.countP fun e => p e.2

def size (m : AList fun _ : α => β) : Nat := m.entries.length

theorem entries_insert (m : AList fun _ : α => β) (a : α) (b : β) :
    (m.insert a b).entries = ⟨a, b⟩ :: (m.erase a).entries := rfl

/-- A key split off. -/
theorem entries_perm (h : m.lookup a = some b) :
    m.entries.Perm (⟨a, b⟩ :: (m.erase a).entries) := by
  rw [← entries_insert]
  refine List.lookup_ext m.nodupKeys (m.insert a b).nodupKeys fun x y => ?_
  change y ∈ m.lookup x ↔ y ∈ (m.insert a b).lookup x
  by_cases hx : x = a
  · rw [hx, h, AList.lookup_insert]
  · rw [AList.lookup_insert_ne hx]

theorem erase_of_lookup_none (h : m.lookup a = none) : m.erase a = m :=
  AList.ext (List.kerase_of_notMem_keys (AList.lookup_eq_none.1 h))

theorem erase_insert (m : AList fun _ : α => β) (a : α) (b : β) :
    (m.insert a b).erase a = m.erase a :=
  AList.ext (List.kerase_cons_eq rfl)

theorem mem_of_lookup (h : m.lookup a = some b) : a ∈ m :=
  AList.lookup_isSome.1 (by rw [h]; rfl)

theorem lookup_insert_cases {x : α} {y : β} (h : (m.insert a b).lookup x = some y) :
    x = a ∧ y = b ∨ x ≠ a ∧ m.lookup x = some y := by
  by_cases hx : x = a
  · subst hx
    rw [AList.lookup_insert] at h
    exact .inl ⟨rfl, (Option.some.inj h).symm⟩
  · rw [AList.lookup_insert_ne hx] at h
    exact .inr ⟨hx, h⟩

theorem lookup_erase_some {x : α} {y : β} (h : (m.erase a).lookup x = some y) :
    x ≠ a ∧ m.lookup x = some y := by
  by_cases hx : x = a
  · subst hx
    rw [AList.lookup_erase] at h
    cases h
  · rw [AList.lookup_erase_ne hx] at h
    exact ⟨hx, h⟩

/-! ## Sizes -/

theorem size_erase (h : m.lookup a = some b) : size (m.erase a) + 1 = size m := by
  rw [size, size, (entries_perm h).length_eq, List.length_cons]

theorem size_erase_le (m : AList fun _ : α => β) (a : α) : size (m.erase a) ≤ size m := by
  cases h : m.lookup a with
  | none => rw [erase_of_lookup_none h]
  | some b => have := size_erase h; omega

theorem size_insert_of_some (h : m.lookup a = some b) (c : β) : size (m.insert a c) = size m := by
  rw [size, entries_insert, List.length_cons, ← size, size_erase h]

theorem size_insert_of_none (h : m.lookup a = none) (c : β) : size (m.insert a c) = size m + 1 := by
  rw [size, entries_insert, List.length_cons, ← size, erase_of_lookup_none h]

omit [DecidableEq α] in
theorem size_eq_zero (h : ∀ a, a ∉ m) : size m = 0 := by
  rw [size, List.length_eq_zero_iff, List.eq_nil_iff_forall_not_mem]
  exact fun e he => h e.1 (AList.mem_keys.2 (List.mem_keys_of_mem he))

/-! ## Counts -/

theorem count_split (h : m.lookup a = some b) : count p m = count p (m.erase a) + (p b).toNat := by
  rw [count, (entries_perm h).countP_eq, List.countP_cons, count]
  cases p b <;> rfl

theorem count_insert (m : AList fun _ : α => β) (a : α) (c : β) :
    count p (m.insert a c) = count p (m.erase a) + (p c).toNat := by
  rw [count, entries_insert, List.countP_cons, count]
  cases p c <;> rfl

theorem count_insert_of_same (h : m.lookup a = some b) (hp : p c = p b) :
    count p (m.insert a c) = count p m := by
  rw [count_insert, count_split p h, hp]

theorem count_insert_of_none (h : m.lookup a = none) (hp : p c = false) :
    count p (m.insert a c) = count p m := by
  rw [count_insert, erase_of_lookup_none h, hp]
  rfl

theorem count_erase_le (m : AList fun _ : α => β) (a : α) : count p (m.erase a) ≤ count p m := by
  cases h : m.lookup a with
  | none => rw [erase_of_lookup_none h]
  | some b => rw [count_split p h]; omega

omit [DecidableEq α] in
theorem count_le_size (m : AList fun _ : α => β) : count p m ≤ size m := List.countP_le_length

/-! ## Changed values -/

section
variable {γ : Type*} (f : β → γ)

/-- The association list with every value changed by `f`. -/
def map (m : AList fun _ : α => β) : AList fun _ : α => γ :=
  ⟨m.entries.map fun e => ⟨e.1, f e.2⟩, m.nodupKeys.map₂ (fun _ => f) m.entries⟩

omit [DecidableEq α] in
@[simp] theorem keys_map (m : AList fun _ : α => β) : (map f m).keys = m.keys :=
  List.map₂_keys (fun _ => f) m.entries

omit [DecidableEq α] in
@[simp] theorem mem_map (m : AList fun _ : α => β) (a : α) : a ∈ map f m ↔ a ∈ m := by
  rw [AList.mem_keys, keys_map, AList.mem_keys]

omit [DecidableEq α] in
@[simp] theorem size_map (m : AList fun _ : α => β) : size (map f m) = size m := List.length_map _

@[simp] theorem lookup_map (m : AList fun _ : α => β) (a : α) :
    (map f m).lookup a = (m.lookup a).map f :=
  List.dlookup_map₂ (l := m.entries) (f := fun _ => f) a

variable {f} in
theorem map_congr {g : β → γ} (h : ∀ a b, m.lookup a = some b → f b = g b) : map f m = map g m := by
  refine AList.ext (List.map_congr_left fun e he => ?_)
  rw [h e.1 e.2 (AList.mem_lookup_iff.2 he)]

@[simp] theorem map_erase (m : AList fun _ : α => β) (a : α) :
    map f (m.erase a) = (map f m).erase a := by
  refine AList.ext ?_
  change (List.kerase a m.entries).map _ = List.kerase a (m.entries.map _)
  induction m.entries with
  | nil => rfl
  | cons e es ih =>
    have hhead : a = e.1 ↔ a = (⟨e.1, f e.2⟩ : (_ : α) × γ).1 := Iff.rfl
    by_cases h : a = e.1
    · rw [List.kerase_cons_eq h, List.map_cons, List.kerase_cons_eq (hhead.1 h)]
    · rw [List.kerase_cons_ne h, List.map_cons, List.map_cons,
        List.kerase_cons_ne (mt hhead.2 h), ih]

@[simp] theorem map_insert (m : AList fun _ : α => β) (a : α) (b : β) :
    map f (m.insert a b) = (map f m).insert a (f b) := by
  refine AList.ext ?_
  rw [entries_insert, ← map_erase]
  rfl

end

end KeyMap
