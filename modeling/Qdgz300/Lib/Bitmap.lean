import Mathlib.Algebra.GroupWithZero.Nat
import Mathlib.Data.List.Basic

/-!
# Bitmaps in 64-bit words

A bitmap is an array of words; bit `i` is bit `i % 64` of word `i / 64`. `test_set` and `test_clear`
say what an update does to every bit, `count_set` what it does to the number of set bits.
-/

/-- The words of a bitmap. -/
abbrev Bitmap := List (BitVec 64)

namespace Bitmap

/-- A bitmap of `n` clear bits. -/
def zeros (n : Nat) : Bitmap := List.replicate ((n + 63) / 64) 0#64

/-- The word that holds bit `i`. -/
def word (b : Bitmap) (i : Nat) : BitVec 64 := b.getD (i / 64) 0#64

/-- Whether bit `i` is set. -/
def test (b : Bitmap) (i : Nat) : Bool := (b.word i &&& (1#64 <<< (i % 64))) != 0#64

/-- Set bit `i`. -/
def set (b : Bitmap) (i : Nat) : Bitmap := List.set b (i / 64) (b.word i ||| (1#64 <<< (i % 64)))

/-- Clear bit `i`. -/
def clear (b : Bitmap) (i : Nat) : Bitmap :=
  List.set b (i / 64) (b.word i &&& ~~~(1#64 <<< (i % 64)))

/-- A word masked by one bit. -/
theorem and_bit_ne_zero (w : BitVec 64) {k : Nat} (hk : k < 64) :
    ((w &&& (1#64 <<< k)) != 0#64) = w.getLsbD k := by
  rw [← BitVec.twoPow_eq, BitVec.and_twoPow]
  cases h : w.getLsbD k with
  | false => simp
  | true =>
    simp only [↓reduceIte, bne_iff_ne, ne_eq]
    intro h0
    have := congrArg (fun v => v.getLsbD k) h0
    simp [hk] at this

theorem test_eq (b : Bitmap) (i : Nat) : b.test i = (b.word i).getLsbD (i % 64) :=
  and_bit_ne_zero _ (Nat.mod_lt _ (by decide))

@[simp] theorem length_set (b : Bitmap) (i : Nat) : (b.set i).length = b.length :=
  List.length_set

@[simp] theorem length_clear (b : Bitmap) (i : Nat) : (b.clear i).length = b.length :=
  List.length_set

@[simp] theorem length_zeros (n : Nat) : (zeros n).length = (n + 63) / 64 := List.length_replicate

theorem test_zeros (n i : Nat) : (zeros n).test i = false := by
  rw [test_eq, word, zeros, List.getD_eq_getElem?_getD, List.getElem?_replicate]
  split <;> simp

theorem word_listSet (b : Bitmap) {i : Nat} (hi : i / 64 < b.length) (w : BitVec 64) (j : Nat) :
    word (List.set b (i / 64) w) j = if i / 64 = j / 64 then w else b.word j := by
  unfold word
  rw [List.getD_eq_getElem?_getD, List.getElem?_set, List.getD_eq_getElem?_getD, if_pos hi]
  split <;> rfl

/-- A single-bit word, bit by bit. -/
theorem getLsbD_bit {k l : Nat} (hk : k < 64) : (1#64 <<< k).getLsbD l = decide (k = l) := by
  rw [← BitVec.twoPow_eq, BitVec.getLsbD_twoPow]
  simp [hk]

/-- What `set` does to every bit. -/
theorem test_set {b : Bitmap} {i : Nat} (hi : i / 64 < b.length) (j : Nat) :
    (b.set i).test j = (b.test j || decide (i = j)) := by
  rw [test_eq, test_eq, set, word_listSet b hi]
  have hk := Nat.mod_lt i (show 0 < 64 by decide)
  split
  · rename_i h
    rw [BitVec.getLsbD_or, getLsbD_bit hk, show b.word i = b.word j by simp [word, h]]
    congr 1
    rw [decide_eq_decide]
    omega
  · rename_i h
    have : i ≠ j := fun he => h (by rw [he])
    simp [this]

/-- What `clear` does to every bit. -/
theorem test_clear {b : Bitmap} {i : Nat} (hi : i / 64 < b.length) (j : Nat) :
    (b.clear i).test j = (b.test j && !decide (i = j)) := by
  rw [test_eq, test_eq, clear, word_listSet b hi]
  have hk := Nat.mod_lt i (show 0 < 64 by decide)
  have hj := Nat.mod_lt j (show 0 < 64 by decide)
  split
  · rename_i h
    rw [BitVec.getLsbD_and, BitVec.getLsbD_not, getLsbD_bit hk,
      show b.word i = b.word j by simp [word, h]]
    have : decide (i % 64 = j % 64) = decide (i = j) := by
      rw [decide_eq_decide]
      omega
    simp [this, hj]
  · rename_i h
    have : i ≠ j := fun he => h (by rw [he])
    simp [this]

/-! ## The number of set bits -/

/-- The number of set bits. -/
def count (b : Bitmap) : Nat := (List.range (64 * b.length)).countP b.test

theorem count_zeros (n : Nat) : (zeros n).count = 0 := by
  rw [count, List.countP_eq_zero]
  intro i _
  rw [test_zeros]
  exact Bool.false_ne_true

/-- A predicate that comes to hold of one more element. -/
theorem countP_or_eq {p : Nat → Bool} {i : Nat} (hp : p i = false) :
    ∀ {l : List Nat}, l.Nodup → i ∈ l → l.countP (fun j => p j || decide (i = j)) = l.countP p + 1
  | [], _, hi => absurd hi List.not_mem_nil
  | a :: l, hl, hi => by
    obtain ⟨ha, hl⟩ := List.nodup_cons.1 hl
    rw [List.countP_cons, List.countP_cons]
    rcases List.mem_cons.1 hi with rfl | hi
    · have hsame : l.countP (fun j => p j || decide (i = j)) = l.countP p := by
        refine List.countP_congr fun j hj => ?_
        have : i ≠ j := fun h => ha (h ▸ hj)
        simp [this]
      rw [hsame, hp]
      simp
    · have hne : i ≠ a := fun h => ha (h ▸ hi)
      rw [countP_or_eq hp hl hi]
      simp only [hne, decide_false, Bool.or_false]
      omega

/-- Setting a clear bit. -/
theorem count_set {b : Bitmap} {i : Nat} (hi : i / 64 < b.length) (hclear : b.test i = false) :
    (b.set i).count = b.count + 1 := by
  have hmem : i ∈ List.range (64 * b.length) := List.mem_range.2 (by omega)
  rw [count, length_set, show (b.set i).test = fun j => b.test j || decide (i = j) from
    funext (test_set hi)]
  exact countP_or_eq hclear List.nodup_range hmem

end Bitmap
