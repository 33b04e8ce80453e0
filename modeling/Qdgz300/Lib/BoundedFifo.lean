import Mathlib.Algebra.GroupWithZero.Nat
import Mathlib.Data.List.Basic

/-!
# A bounded queue that gives up its oldest element

A list of at most `n` elements, oldest first, with the number of elements given up so far. `push`
refuses an element when `n` are stored, `pushDropping` gives the oldest one up for it.
-/

/-- At most `n` elements, oldest first. -/
structure BoundedFifo (α : Type*) (n : Nat) where
  items : List α
  fits : items.length ≤ n
  dropped : Nat

namespace BoundedFifo

variable {α : Type*} {n : Nat}

def empty : BoundedFifo α n := { items := [], fits := Nat.zero_le n, dropped := 0 }

/-- Whether `n` elements are stored. -/
def full (b : BoundedFifo α n) : Bool := b.items.length == n

/-- The element at the end, when there is room. -/
def append (b : BoundedFifo α n) (x : α) (room : b.items.length < n) : BoundedFifo α n :=
  { items := b.items ++ [x], fits := by simpa [Nat.succ_le_iff] using room, dropped := b.dropped }

/-- The element at the end, or refused. -/
def push (b : BoundedFifo α n) (x : α) : BoundedFifo α n × Bool :=
  if room : b.items.length < n then (b.append x room, true) else (b, false)

/-- The element at the end, the oldest one given up when `n` are stored. -/
def pushDropping (hn : 0 < n) (b : BoundedFifo α n) (x : α) : BoundedFifo α n × Bool :=
  if room : b.items.length < n then (b.append x room, true)
  else
    ({ items := b.items.tail ++ [x]
       fits := by
        have := b.fits
        simp only [List.length_append, List.length_tail, List.length_singleton]
        omega
       dropped := b.dropped + 1 }, false)

/-- The oldest element, taken off. -/
def pop (b : BoundedFifo α n) : BoundedFifo α n × Option α :=
  ({ items := b.items.tail
     fits := Nat.le_trans (by simp) b.fits
     dropped := b.dropped }, b.items.head?)

section
variable (b : BoundedFifo α n) (x : α)

theorem push_room (room : b.items.length < n) : b.push x = (b.append x room, true) := dif_pos room

theorem push_full (h : b.items.length = n) : b.push x = (b, false) := dif_neg (by omega)

theorem pushDropping_room (hn : 0 < n) (room : b.items.length < n) :
    b.pushDropping hn x = (b.append x room, true) := dif_pos room

theorem pushDropping_full (hn : 0 < n) (h : b.items.length = n) :
    (b.pushDropping hn x).1.items = b.items.tail ++ [x] ∧
      (b.pushDropping hn x).1.dropped = b.dropped + 1 ∧ (b.pushDropping hn x).2 = false := by
  simp [pushDropping, h]

end

end BoundedFifo
