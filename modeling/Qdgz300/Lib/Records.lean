import Mathlib.Data.List.Flatten
import Qdgz300.Lib.Codec

/-!
# Files of records

A `Format` is a header of fixed size that tells the size of the body behind it. `read` takes whole
records from the front of a file as long as there are any.

* `read_append`: records that were written are read back, whatever follows them.
* `flatMap_read`: what is read is what the file begins with.
* `eq_of_read`: a file no longer than the records read from it holds nothing else.
-/

namespace Records

open Bytes

/-- How records lie in a file. -/
structure Format (H : Type) where
  header : Image H
  bodySize : H → Nat
  size_pos : 0 < header.size
  faithful : ∀ bs : List Byte, bs.length = header.size → header.Faithful bs

variable {H : Type} (F : Format H)

/-- The header, and the body behind it. -/
def bytes (r : H × List Byte) : List Byte := F.header.bytes r.1 ++ r.2

/-- The body is as long as the header says. -/
def Whole (r : H × List Byte) : Prop := r.2.length = F.bodySize r.1

/-- The record at the front of a file, and what follows it. -/
def next? (file : List Byte) : Option ((H × List Byte) × List Byte) :=
  if file.length < F.header.size then none
  else
    let h := F.header.value (file.take F.header.size)
    let rest := file.drop F.header.size
    if rest.length < F.bodySize h then none
    else some ((h, rest.take (F.bodySize h)), rest.drop (F.bodySize h))

/-- At most `n` records from the front. -/
def readUpTo : Nat → List Byte → List (H × List Byte)
  | 0, _ => []
  | n + 1, file => (next? F file).elim [] fun r => r.1 :: readUpTo n r.2

/-- The records of a file; there are no more of them than bytes. -/
def read (file : List Byte) : List (H × List Byte) := readUpTo F file.length file

variable {F} {r : H × List Byte} {rs : List (H × List Byte)} {file rest : List Byte}

@[simp] theorem length_bytes : (bytes F r).length = F.header.size + r.2.length := by simp [bytes]

/-! ## One record -/

theorem next?_bytes (h : Whole F r) : next? F (bytes F r ++ rest) = some (r, rest) := by
  have htake : (bytes F r ++ rest).take F.header.size = F.header.bytes r.1 := by
    rw [bytes, List.append_assoc, List.take_left' (F.header.length_bytes r.1)]
  have hdrop : (bytes F r ++ rest).drop F.header.size = r.2 ++ rest := by
    rw [bytes, List.append_assoc, List.drop_left' (F.header.length_bytes r.1)]
  have hbody : F.bodySize r.1 = r.2.length := h.symm
  simp [next?, htake, hdrop, hbody]
  omega

theorem eq_of_next? (h : next? F file = some (r, rest)) : file = bytes F r ++ rest ∧ Whole F r := by
  unfold next? at h
  split at h
  · cases h
  · rename_i hsize
    dsimp only at h
    split at h
    · cases h
    · rename_i hbody
      simp only [Option.some.injEq, Prod.mk.injEq] at h
      obtain ⟨rfl, rfl⟩ := h
      have hhead : F.header.bytes (F.header.value (file.take F.header.size)) =
          file.take F.header.size := F.faithful _ (List.length_take_of_le (by omega))
      refine ⟨?_, List.length_take_of_le (by omega)⟩
      rw [bytes, hhead, List.append_assoc, List.take_append_drop, List.take_append_drop]

theorem length_rest_lt (h : next? F file = some (r, rest)) : rest.length < file.length := by
  have hpos := F.size_pos
  rw [(eq_of_next? h).1]
  simp
  omega

/-! ## A file -/

theorem next?_nil : next? F [] = none := if_pos F.size_pos

/-- The bound does not matter where it is at least the length. -/
theorem readUpTo_eq : ∀ {n m : Nat} {file : List Byte}, file.length ≤ n → file.length ≤ m →
    readUpTo F n file = readUpTo F m file
  | 0, m, file, hn, _ => by
    obtain rfl := List.length_eq_zero_iff.1 (Nat.le_zero.1 hn)
    cases m <;> simp [readUpTo, next?_nil]
  | n + 1, 0, file, _, hm => by
    obtain rfl := List.length_eq_zero_iff.1 (Nat.le_zero.1 hm)
    simp [readUpTo, next?_nil]
  | n + 1, m + 1, file, hn, hm => by
    cases hnext : next? F file with
    | none => simp [readUpTo, hnext]
    | some r =>
      have hlt := length_rest_lt hnext
      have hrest : readUpTo F n r.2 = readUpTo F m r.2 := readUpTo_eq (by omega) (by omega)
      simp [readUpTo, hnext, hrest]

theorem read_nil : read F [] = [] := rfl

theorem read_cons (h : next? F file = some (r, rest)) : read F file = r :: read F rest := by
  have hlt := length_rest_lt h
  rw [read, readUpTo_eq (Nat.le_refl _) (Nat.le_succ _)]
  simp only [readUpTo, h, Option.elim_some]
  rw [read, readUpTo_eq (Nat.le_of_lt hlt) (Nat.le_refl _)]

theorem read_of_none (h : next? F file = none) : read F file = [] := by
  rw [read, readUpTo_eq (Nat.le_refl _) (Nat.le_succ _)]
  simp [readUpTo, h]

/-- **Round trip**: the records in front of anything are read back. -/
theorem read_append (h : ∀ r ∈ rs, Whole F r) (rest : List Byte) :
    read F (rs.flatMap (bytes F) ++ rest) = rs ++ read F rest := by
  induction rs with
  | nil => simp
  | cons r rs ih =>
    have htail := ih fun r hr => h r (List.mem_cons_of_mem _ hr)
    rw [List.flatMap_cons, List.append_assoc, read_cons (next?_bytes (h r List.mem_cons_self)), htail,
      List.cons_append]

theorem read_flatMap (h : ∀ r ∈ rs, Whole F r) : read F (rs.flatMap (bytes F)) = rs := by
  have hread := read_append h []
  rwa [List.append_nil, read_nil, List.append_nil] at hread

/-- **What is read** is what the file begins with. -/
theorem flatMap_read (file : List Byte) : (read F file).flatMap (bytes F) <+: file := by
  induction hn : file.length using Nat.strong_induction_on generalizing file with
  | _ n ih =>
    cases hnext : next? F file with
    | none => simp [read_of_none hnext]
    | some r =>
      have hlt := length_rest_lt hnext
      have hrest := ih r.2.length (by omega) r.2 rfl
      rw [read_cons hnext, List.flatMap_cons, (eq_of_next? hnext).1]
      exact (List.prefix_append_right_inj _).2 hrest

theorem length_read_le (file : List Byte) :
    ((read F file).flatMap (bytes F)).length ≤ file.length := (flatMap_read file).length_le

theorem length_flatMap_le {α β : Type} {xs ys : List α} (h : xs.Subperm ys) (f : α → List β) :
    (xs.flatMap f).length ≤ (ys.flatMap f).length := by
  obtain ⟨zs, hperm, hsub⟩ := h
  rw [← (hperm.flatMap_right f).length_eq]
  exact (hsub.flatMap f).length_le

/-- Records found in a file, in any order, need room in it. -/
theorem length_le_of_subperm (h : rs.Subperm (read F file)) :
    (rs.flatMap (bytes F)).length ≤ file.length :=
  (length_flatMap_le h _).trans (length_read_le file)

/-- A file that is no longer than the records read from it. -/
theorem eq_of_read (h : read F file = rs) (hlen : file.length ≤ (rs.flatMap (bytes F)).length) :
    file = rs.flatMap (bytes F) := by
  have hread := flatMap_read (F := F) file
  rw [h] at hread
  exact (hread.eq_of_length (Nat.le_antisymm hread.length_le hlen)).symm

end Records
