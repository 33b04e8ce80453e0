import Mathlib.Algebra.GroupWithZero.Nat
import Mathlib.Data.List.Basic

/-!
# Block copies in a ring

`memcpy` replaces a block of a list; `write` and `read` copy a block that may run over the end of
the ring and go on at its start. `Holds ring a xs` says that `xs` stands in the ring from index `a`
on, without running over the end. `write_get` gives every element of the ring after a copy and
`read_get` every element of a block read; `read_write` reads a block back and `write_frame` keeps
what is out of its way; `holds_memcpy_self`, `holds_memcpy_of_disjoint` and
`holds_write_of_disjoint` say which blocks a copy writes and keeps.
-/

namespace RingBuffer

variable {α : Type*}

/-- The elements of `dst` from `off` on replaced by `src`. -/
def memcpy (dst : List α) (off : Nat) (src : List α) : List α :=
  dst.take off ++ src ++ dst.drop (off + src.length)

/-- A copy into the ring, in two pieces when it runs over the end. -/
def write (ring : List α) (off : Nat) (src : List α) : List α :=
  if src.length = 0 then ring
  else if off + src.length ≤ ring.length then memcpy ring off src
  else
    memcpy (memcpy ring off (src.take (ring.length - off))) 0 (src.drop (ring.length - off))

/-- A copy out of the ring, in two pieces when it runs over the end. -/
def read (ring : List α) (off n : Nat) : List α :=
  if n = 0 then []
  else if off + n ≤ ring.length then (ring.drop off).take n
  else (ring.drop off).take (ring.length - off) ++ ring.take (n - (ring.length - off))

/-- `xs` stands in `ring` from index `a` on. -/
def Holds (ring : List α) (a : Nat) (xs : List α) : Prop :=
  ∀ i < xs.length, ring[a + i]? = xs[i]?

section
variable {ring src xs ys : List α} {off a n : Nat}

theorem length_memcpy (h : off + src.length ≤ ring.length) :
    (memcpy ring off src).length = ring.length := by
  simp only [memcpy, List.length_append, List.length_take, List.length_drop]
  omega

theorem memcpy_get (h : off + src.length ≤ ring.length) (i : Nat) :
    (memcpy ring off src)[i]? =
      if off ≤ i ∧ i < off + src.length then src[i - off]? else ring[i]? := by
  have hlen : (ring.take off).length = off := by rw [List.length_take]; omega
  unfold memcpy
  rw [List.append_assoc]
  rcases Nat.lt_or_ge i off with hi | hi
  · rw [List.getElem?_append_left (by omega), List.getElem?_take_of_lt hi, if_neg (by omega)]
  · rw [List.getElem?_append_right (by omega), hlen]
    rcases Nat.lt_or_ge i (off + src.length) with hi' | hi'
    · rw [List.getElem?_append_left (by omega), if_pos ⟨hi, hi'⟩]
    · rw [List.getElem?_append_right (by omega), List.getElem?_drop, if_neg (by omega)]
      congr 1
      omega

@[simp] theorem length_write (hoff : off < ring.length) (hsrc : src.length ≤ ring.length) :
    (write ring off src).length = ring.length := by
  unfold write
  split
  · rfl
  split
  case isTrue h => exact length_memcpy h
  case isFalse h =>
    have h1 : (memcpy ring off (src.take (ring.length - off))).length = ring.length := by
      rw [length_memcpy (by rw [List.length_take]; omega)]
    rw [length_memcpy (by rw [h1, List.length_drop]; omega), h1]

/-- **Every element after a copy**: index `i` is the `(i - off)`-th element past the offset, counted
around the ring. -/
theorem write_get (hoff : off < ring.length) (hsrc : src.length ≤ ring.length) (i : Nat)
    (hi : i < ring.length) :
    (write ring off src)[i]? =
      if off ≤ i ∧ i < off + src.length then src[i - off]?
      else if i + ring.length < off + src.length then src[i + ring.length - off]?
      else ring[i]? := by
  unfold write
  split
  case isTrue h0 => rw [if_neg (by omega), if_neg (by omega)]
  split
  case isTrue h =>
    rw [memcpy_get h]
    split
    · rfl
    · rw [if_neg (by omega)]
  case isFalse h =>
    have hfirst : (src.take (ring.length - off)).length = ring.length - off := by
      rw [List.length_take]; omega
    have h1 : off + (src.take (ring.length - off)).length ≤ ring.length := by omega
    have h2 : 0 + (src.drop (ring.length - off)).length ≤
        (memcpy ring off (src.take (ring.length - off))).length := by
      rw [length_memcpy h1, List.length_drop]; omega
    rw [memcpy_get h2, memcpy_get h1, hfirst, List.length_drop]
    rcases Nat.lt_or_ge i off with hlt | hge
    · rw [if_neg (show ¬ (off ≤ i ∧ i < off + (ring.length - off)) by omega),
        if_neg (show ¬ (off ≤ i ∧ i < off + src.length) by omega)]
      by_cases hw : i + ring.length < off + src.length
      · rw [if_pos (by omega), if_pos hw, List.getElem?_drop]
        congr 1
        omega
      · rw [if_neg (by omega), if_neg hw]
    · rw [if_neg (by omega), if_pos (by omega), if_pos (by omega), List.getElem?_take_of_lt (by omega)]

/-- **Every element of a block read.** -/
theorem read_get (hoff : off < ring.length) (i : Nat) (hi : i < n) :
    (read ring off n)[i]? =
      if off + i < ring.length then ring[off + i]? else ring[off + i - ring.length]? := by
  unfold read
  rw [if_neg (by omega)]
  split
  case isTrue h =>
    rw [List.getElem?_take_of_lt hi, List.getElem?_drop, if_pos (by omega)]
  case isFalse h =>
    have hlen : ((ring.drop off).take (ring.length - off)).length = ring.length - off := by
      rw [List.length_take, List.length_drop]; omega
    rcases Nat.lt_or_ge i (ring.length - off) with hlt | hge
    · rw [List.getElem?_append_left (by omega), List.getElem?_take_of_lt hlt, List.getElem?_drop,
        if_pos (by omega)]
    · rw [List.getElem?_append_right (by omega), hlen, List.getElem?_take_of_lt (by omega),
        if_neg (by omega)]
      congr 1
      omega

theorem length_read (hoff : off < ring.length) (hn : n ≤ ring.length) :
    (read ring off n).length = n := by
  unfold read
  split
  case isTrue h0 => simp [h0]
  split
  case isTrue h => rw [List.length_take, List.length_drop]; omega
  case isFalse h =>
    rw [List.length_append, List.length_take, List.length_take, List.length_drop]
    omega

/-- **A block is read back** where it was written, also over the end of the ring. -/
theorem read_write (hoff : off < ring.length) (hsrc : src.length ≤ ring.length) :
    read (write ring off src) off src.length = src := by
  have hlen : (write ring off src).length = ring.length := length_write hoff hsrc
  have hoff' : off < (write ring off src).length := hlen.symm ▸ hoff
  refine List.ext_getElem? fun i => ?_
  rcases Nat.lt_or_ge i src.length with hi | hi
  · rw [read_get hoff' i hi, hlen]
    split
    case isTrue h =>
      rw [write_get hoff hsrc _ h, if_pos (by omega), Nat.add_sub_cancel_left]
    case isFalse h =>
      rw [write_get hoff hsrc _ (by omega), if_neg (by omega), if_pos (by omega)]
      congr 1
      omega
  · rw [List.getElem?_eq_none (by rw [length_read hoff' (by omega)]; exact hi),
      List.getElem?_eq_none hi]

/-- **Every element out of the way** of a copy is kept. -/
theorem write_frame (hoff : off < ring.length) (hsrc : src.length ≤ ring.length) {j : Nat}
    (hj : j < ring.length) (hout : ∀ i < src.length, j ≠ (off + i) % ring.length) :
    (write ring off src)[j]? = ring[j]? := by
  have hbefore : ¬ (off ≤ j ∧ j < off + src.length) := by
    intro h
    refine hout (j - off) (by omega) ?_
    rw [show off + (j - off) = j by omega, Nat.mod_eq_of_lt hj]
  have hwrapped : ¬ j + ring.length < off + src.length := by
    intro h
    refine hout (j + ring.length - off) (by omega) ?_
    rw [show off + (j + ring.length - off) = j + ring.length by omega, Nat.add_mod_right,
      Nat.mod_eq_of_lt hj]
  rw [write_get hoff hsrc j hj, if_neg hbefore, if_neg hwrapped]

/-! ## Blocks -/

theorem holds_append : Holds ring a (xs ++ ys) ↔ Holds ring a xs ∧ Holds ring
    (a + xs.length) ys := by
  constructor
  · intro h
    refine ⟨fun i hi => ?_, fun i hi => ?_⟩
    · have := h i (by rw [List.length_append]; omega)
      rwa [List.getElem?_append_left hi] at this
    · have := h (xs.length + i) (by rw [List.length_append]; omega)
      rw [List.getElem?_append_right (by omega), Nat.add_sub_cancel_left, ← Nat.add_assoc] at this
      exact this
  · rintro ⟨h1, h2⟩ i hi
    rcases Nat.lt_or_ge i xs.length with hlt | hge
    · rw [List.getElem?_append_left hlt, h1 i hlt]
    · have := h2 (i - xs.length) (by rw [List.length_append] at hi; omega)
      rw [List.getElem?_append_right hge, ← this]
      congr 1
      omega

theorem holds_memcpy_self (h : off + src.length ≤ ring.length) :
    Holds (memcpy ring off src) off src := by
  intro i hi
  rw [memcpy_get h, if_pos (by omega), Nat.add_sub_cancel_left]

theorem holds_memcpy_of_disjoint (h : off + src.length ≤ ring.length) (hxs : Holds ring a xs)
    (hd : a + xs.length ≤ off ∨ off + src.length ≤ a) : Holds (memcpy ring off src) a xs := by
  intro i hi
  rw [memcpy_get h, if_neg (by omega), hxs i hi]

/-- A copy that may run over the end keeps a block behind its start that it does not reach again. -/
theorem holds_write_of_disjoint (hoff : off < ring.length) (hsrc : src.length ≤ ring.length)
    (hxs : Holds ring a xs) (hend : a + xs.length ≤ off) (hd : off + src.length ≤ a + ring.length) :
    Holds (write ring off src) a xs := by
  intro i hi
  rw [write_get hoff hsrc _ (by omega), if_neg (by omega), if_neg (by omega), hxs i hi]

/-- The part of a copy before the end stands where it was written. -/
theorem holds_write_left (hsrc : (xs ++ ys).length ≤ ring.length)
    (hend : off + xs.length ≤ ring.length)
    (hoff : off < ring.length) : Holds (write ring off (xs ++ ys)) off xs := by
  intro i hi
  rw [write_get hoff hsrc _ (by omega), if_pos (by rw [List.length_append]; omega),
    Nat.add_sub_cancel_left, List.getElem?_append_left hi]

/-- Two copies in a row are one. -/
theorem memcpy_append (h : off + (xs ++ ys).length ≤ ring.length) :
    memcpy (memcpy ring off xs) (off + xs.length) ys = memcpy ring off (xs ++ ys) := by
  rw [List.length_append] at h
  have h1 : off + xs.length ≤ ring.length := by omega
  refine List.ext_getElem? fun i => ?_
  rw [memcpy_get (by rw [length_memcpy h1]; omega), memcpy_get h1,
    memcpy_get (by rw [List.length_append]; omega), List.length_append]
  rcases Nat.lt_or_ge i (off + xs.length) with hlt | hge
  · rw [if_neg (by omega)]
    by_cases hi : off ≤ i
    · rw [if_pos ⟨hi, hlt⟩, if_pos (by omega), List.getElem?_append_left (by omega)]
    · rw [if_neg (by omega), if_neg (by omega)]
  · rw [if_neg (show ¬ (off ≤ i ∧ i < off + xs.length) by omega)]
    by_cases hi : i < off + xs.length + ys.length
    · rw [if_pos ⟨hge, hi⟩, if_pos (by omega), List.getElem?_append_right (by omega)]
      congr 1
      omega
    · rw [if_neg (by omega), if_neg (by omega)]

theorem write_eq_memcpy (h : off + src.length ≤ ring.length) (h0 : src.length ≠ 0) :
    write ring off src = memcpy ring off src := by
  rw [write, if_neg h0, if_pos h]

/-- Reading back a block that does not run over the end. -/
theorem Holds.read_eq (h : Holds ring a xs) (hend : a + xs.length ≤ ring.length) :
    read ring a xs.length = xs := by
  unfold RingBuffer.read
  split
  case isTrue h0 => exact (List.length_eq_zero_iff.1 h0).symm
  refine List.ext_getElem? fun i => ?_
  rcases Nat.lt_or_ge i xs.length with hlt | hge
  · rw [List.getElem?_take_of_lt hlt, List.getElem?_drop, h i hlt]
  · rw [List.getElem?_eq_none hge, List.getElem?_eq_none (by rw [List.length_take]; omega)]

end

end RingBuffer
