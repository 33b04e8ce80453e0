import Qdgz300.Delivery.SharedMemory

/-!
# The circular copies of the shared-memory ring

`write_ring` and `read_ring` copy a block in one `memcpy`, or in two when it runs over the end of
the ring.

* `value_writeRing`, `value_readRing`: they are the copies of `RingBuffer`.
* `writeRing_inside`, `readRing_inside`: no `memcpy` leaves the ring.
* **`circular_copy`**: these, and the used and the free space of the ring.
-/

namespace Qdgz300.Delivery.SharedMemoryDelivery

open Logged

section
variable {ring src : List Byte} {offset : Nat}

theorem value_writeRing : (writeRing ring offset src).value = RingBuffer.write ring offset src := by
  unfold writeRing RingBuffer.write
  split
  · rfl
  · split <;> rfl

theorem value_readRing {n : Nat} :
    (readRing ring offset n).value = RingBuffer.read ring offset n := by
  unfold readRing RingBuffer.read
  split
  · rfl
  · split <;> rfl

theorem writeRing_inside (hoff : offset < ring.length) (hsrc : src.length ≤ ring.length) :
    All (RingAccess.Inside ring.length) (writeRing ring offset src) := by
  unfold writeRing
  split
  · exact all_pure src
  split
  case isTrue h => simpa [RingAccess.Inside] using h
  case isFalse h =>
    simp only [all_bind, all_emit, all_pure, and_true, RingAccess.Inside]
    omega

theorem readRing_inside {n : Nat} (hoff : offset < ring.length) (hn : n ≤ ring.length) :
    All (RingAccess.Inside ring.length) (readRing ring offset n) := by
  unfold readRing
  split
  · exact all_pure _
  split
  case isTrue h => simpa [RingAccess.Inside] using h
  case isFalse h =>
    simp only [all_bind, all_emit, all_pure, and_true, RingAccess.Inside]
    omega

/-! ## Space -/

theorem usedSpace_lt {head tail ringSize : Nat} (hhead : head < ringSize) :
    usedSpace head tail ringSize < ringSize := by
  unfold usedSpace
  split <;> omega

theorem usedSpace_mod {head tail ringSize : Nat} (hhead : head < ringSize)
    (htail : tail < ringSize) :
    (usedSpace head tail ringSize : Int) = ((head : Int) - tail) % ringSize := by
  have hlt := @usedSpace_lt head tail ringSize hhead
  refine (Int.emod_eq_of_lt (by omega) (by omega) : (usedSpace head tail ringSize : Int) %
    ringSize = _).symm.trans ?_
  unfold usedSpace
  split
  case isTrue h => rw [Int.ofNat_sub h]
  case isFalse h =>
    rw [show ((ringSize - (tail - head) : Nat) : Int) = (head : Int) - tail + ringSize by omega,
      Int.add_emod_right]

theorem usedSpace_add_freeSpace {head tail ringSize : Nat} (hhead : head < ringSize)
    (htail : tail < ringSize) :
    usedSpace head tail ringSize + freeSpace head tail ringSize = ringSize - 1 := by
  have hlt := @usedSpace_lt head tail ringSize hhead
  unfold freeSpace
  omega

end

/-- **Circular copies.** In every ring, a block no longer than the ring that is written at an offset
is read back there, every byte that is not on its way around the ring is kept, no access leaves the
ring, and the used and the free space add up to all bytes but one. -/
theorem circular_copy (ring : List Byte) :
    (∀ offset < ring.length, ∀ s : List Byte, s.length ≤ ring.length →
      (readRing (writeRing ring offset s).value offset s.length).value = s ∧
      (writeRing ring offset s).value.length = ring.length ∧
      (∀ j < ring.length, (∀ i < s.length, j ≠ (offset + i) % ring.length) →
        (writeRing ring offset s).value[j]? = ring[j]?) ∧
      All (RingAccess.Inside ring.length) (writeRing ring offset s) ∧
      All (RingAccess.Inside ring.length)
        (readRing (writeRing ring offset s).value offset s.length)) ∧
    ∀ head < ring.length, ∀ tail < ring.length,
      (usedSpace head tail ring.length : Int) = ((head : Int) - tail) % ring.length ∧
      usedSpace head tail ring.length + freeSpace head tail ring.length = ring.length - 1 := by
  refine ⟨fun offset hoff s hs => ?_, fun head hhead tail htail => ?_⟩
  · have hlen : (RingBuffer.write ring offset s).length = ring.length :=
      RingBuffer.length_write hoff hs
    simp only [value_readRing, value_writeRing]
    refine ⟨RingBuffer.read_write hoff hs, hlen, fun j hj hout => RingBuffer.write_frame hoff hs hj hout,
      writeRing_inside hoff hs, ?_⟩
    have hread := @readRing_inside (RingBuffer.write ring offset s) offset s.length
    rw [hlen] at hread
    exact hread hoff hs
  · exact ⟨usedSpace_mod hhead htail, usedSpace_add_freeSpace hhead htail⟩

/-- Five bytes at the sixth of eight: three of them stand at the start of the ring. -/
theorem circular_copy_over_the_end :
    (writeRing (List.replicate 8 0) 6 [1, 2, 3, 4, 5]).value = [3, 4, 5, 0, 0, 0, 1, 2] ∧
    (readRing (writeRing (List.replicate 8 0) 6 [1, 2, 3, 4, 5]).value 6 5).value =
      [1, 2, 3, 4, 5] :=
  ⟨by decide, ((circular_copy (List.replicate 8 0)).1 6 (by decide) [1, 2, 3, 4, 5]
    (by decide)).1⟩

end Qdgz300.Delivery.SharedMemoryDelivery
