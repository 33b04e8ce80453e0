import Mathlib.Data.Vector.Basic
import Qdgz300.Lib.Bytes

/-!
# Images of values, and readers of a buffer

An `Image` says how the values of a type lie in memory: `word` is a fixed-width number, `pair` and
`iso` build the image of a record from those of its fields, `vector` that of an array. A `Reader`
copies values out of a buffer one after the other; its `Cursor` keeps what memory was copied. The
rules of `Takes` say for a reader where it ends, what it makes and that every copy lies in the
buffer, also when it throws.
-/

namespace Bytes

variable {α β ε : Type} {data : List Byte}

theorem slice_slice {off n off' n' : Nat} (h : off' + n' ≤ n) :
    slice (slice data off n) off' n' = slice data (off + off') n' := by
  rw [slice, slice, slice, List.drop_take, List.take_take, List.drop_drop, Nat.min_eq_left]
  omega

theorem length_slice {off n : Nat} (h : off + n ≤ data.length) : (slice data off n).length = n := by
  rw [slice, List.length_take, List.length_drop]
  omega

/-- Neighbouring slices. -/
theorem slice_append {off n m : Nat} :
    slice data off n ++ slice data (off + n) m = slice data off (n + m) := by
  rw [slice, slice, slice, List.take_add, List.drop_drop]

/-! ## Images -/

/-- `size` is the `sizeof` of the type, `bytes` the object representation of a value, and `value`
what copying that many bytes into an object makes of it. -/
structure Image (α : Type) where
  size : Nat
  bytes : α → List Byte
  value : List Byte → α
  length_bytes : ∀ a, (bytes a).length = size
  value_bytes : ∀ a, value (bytes a) = a

namespace Image

attribute [simp] length_bytes value_bytes

/-- The bytes are those of some value. -/
def Faithful (I : Image α) (bs : List Byte) : Prop := I.bytes (I.value bs) = bs

/-- A number of `k` bytes, least significant first. -/
def word (k : Nat) : Image (BitVec (8 * k)) where
  size := k
  bytes x := toLe k x.toNat
  value bs := BitVec.ofNat (8 * k) (leNat bs)
  length_bytes _ := length_toLe k _
  value_bytes x := by
    apply BitVec.eq_of_toNat_eq
    rw [BitVec.toNat_ofNat, leNat_toLe, show (256 : Nat) ^ k = 2 ^ (8 * k) by rw [Nat.pow_mul],
      Nat.mod_mod, Nat.mod_eq_of_lt x.isLt]

theorem word_faithful {k off : Nat} (h : off + k ≤ data.length) :
    (word k).Faithful (slice data off k) := by
  have hlen : (slice data off k).length = k := length_slice h
  have hlt := leNat_lt (slice data off k)
  rw [hlen, show (256 : Nat) ^ k = 2 ^ (8 * k) by rw [Nat.pow_mul]] at hlt
  have hback := toLe_leNat (slice data off k)
  rw [hlen] at hback
  rw [Faithful]
  simp only [word]
  rw [BitVec.toNat_ofNat, Nat.mod_eq_of_lt hlt, hback]

/-- A truth value is a byte; the byte of `true` is 1. -/
def bool : Image Bool where
  size := 1
  bytes b := [if b then 1 else 0]
  value bs := bs != [0]
  length_bytes _ := rfl
  value_bytes b := by cases b <;> rfl

theorem bool_faithful {bs : List Byte} (h : bs = [0] ∨ bs = [1]) : bool.Faithful bs := by
  rcases h with rfl | rfl <;> rfl

/-- Two fields, the second behind the first. -/
def pair (I : Image α) (J : Image β) : Image (α × β) where
  size := I.size + J.size
  bytes p := I.bytes p.1 ++ J.bytes p.2
  value bs := (I.value (slice bs 0 I.size), J.value (slice bs I.size J.size))
  length_bytes p := by simp
  value_bytes p := by
    have hfst : slice (I.bytes p.1 ++ J.bytes p.2) 0 I.size = I.bytes p.1 :=
      List.take_left' (I.length_bytes p.1)
    have hsnd : slice (I.bytes p.1 ++ J.bytes p.2) I.size J.size = J.bytes p.2 := by
      rw [slice_at (I.length_bytes p.1)]
      exact List.take_of_length_le (J.length_bytes p.2).le
    rw [hfst, hsnd, I.value_bytes, J.value_bytes]

theorem pair_faithful {I : Image α} {J : Image β} {off : Nat}
    (hI : I.Faithful (slice data off I.size)) (hJ : J.Faithful (slice data (off + I.size) J.size)) :
    (I.pair J).Faithful (slice data off (I.size + J.size)) := by
  have hfst : slice (slice data off (I.size + J.size)) 0 I.size = slice data off I.size :=
    slice_slice (by omega)
  have hsnd : slice (slice data off (I.size + J.size)) I.size J.size =
      slice data (off + I.size) J.size := slice_slice (by omega)
  rw [Faithful] at hI hJ ⊢
  simp only [pair]
  rw [hfst, hsnd, hI, hJ, slice_append]

/-- The same fields under other names. -/
def iso (I : Image α) (e : α ≃ β) : Image β where
  size := I.size
  bytes b := I.bytes (e.symm b)
  value bs := e (I.value bs)
  length_bytes b := I.length_bytes _
  value_bytes b := by simp

theorem iso_faithful {I : Image α} {e : α ≃ β} {bs : List Byte} (h : I.Faithful bs) :
    (I.iso e).Faithful bs := by
  rw [Faithful] at h ⊢
  simp only [iso, Equiv.symm_apply_apply]
  exact h

/-- Consecutive values from an offset on. -/
def values (I : Image α) (data : List Byte) : Nat → (n : Nat) → List.Vector α n
  | _, 0 => .nil
  | off, n + 1 => I.value (slice data off I.size) ::ᵥ values I data (off + I.size) n

/-- The values of an array read back where it was written. -/
theorem values_bytes (I : Image α) :
    ∀ (as : List α) (pre : List Byte),
      (I.values (pre ++ as.flatMap I.bytes) pre.length as.length).toList = as
  | [], _ => rfl
  | a :: as, pre => by
    have hhead : slice (pre ++ (a :: as).flatMap I.bytes) pre.length I.size = I.bytes a := by
      rw [slice_at rfl, List.flatMap_cons]
      exact List.take_left' (I.length_bytes a)
    have htail := values_bytes I as (pre ++ I.bytes a)
    rw [List.length_append, I.length_bytes, List.append_assoc] at htail
    rw [List.length_cons, values, hhead, I.value_bytes, List.Vector.toList_cons, List.flatMap_cons,
      htail]

/-- The bytes of values that were read. -/
theorem bytes_values {I : Image α} (hI : ∀ bs : List Byte, bs.length = I.size → I.Faithful bs) :
    ∀ (n off : Nat), off + I.size * n ≤ data.length →
      (I.values data off n).toList.flatMap I.bytes = slice data off (I.size * n)
  | 0, off, _ => by simp [values, slice]
  | n + 1, off, h => by
    rw [Nat.mul_succ] at h
    have hhead : I.Faithful (slice data off I.size) := hI _ (length_slice (by omega))
    have htail := bytes_values hI n (off + I.size) (by omega)
    rw [values, List.Vector.toList_cons, List.flatMap_cons, htail, hhead, slice_append,
      Nat.mul_succ, Nat.add_comm I.size]

end Image

/-- The fixed-width numbers. -/
def u8 : Image Byte := .word 1
def u16 : Image (BitVec 16) := .word 2
def u32 : Image (BitVec 32) := .word 4
def u64 : Image (BitVec 64) := .word 8

theorem u8_value (bs : List Byte) (i : Nat) : u8.value (slice bs i 1) = bs.getD i 0 := by
  rw [slice, List.take_one, List.head?_drop, List.getD_eq_getElem?_getD]
  cases h : bs[i]? with
  | none => rfl
  | some b =>
    have hb := b.isLt
    apply BitVec.eq_of_toNat_eq
    simp [u8, Image.word, leNat]

/-- A value at the front of a buffer. -/
theorem Image.value_front (I : Image α) (a : α) (rest : List Byte) :
    I.value (slice (I.bytes a ++ rest) 0 I.size) = a := by
  rw [slice, List.drop_zero, List.take_left' (I.length_bytes a), I.value_bytes]

/-! ## Readers -/

/-- The read position, and the memory copied so far: offset and size of each copy. -/
structure Cursor where
  offset : Nat := 0
  copies : List (Nat × Nat) := []
  deriving DecidableEq, Repr

/-- Every copy was from inside the buffer. -/
def Cursor.Inside (c : Cursor) (data : List Byte) : Prop :=
  ∀ copy ∈ c.copies, copy.1 + copy.2 ≤ data.length

abbrev Reader (ε : Type) := ExceptT ε (StateM Cursor)

/-- A reader on a whole buffer. -/
def Reader.exec (p : Reader ε α) (c : Cursor) : Except ε α × Cursor := p.run.run c

/-- `memcpy` of an object at the read position, which moves behind it. -/
def copy (I : Image α) (data : List Byte) : Reader ε α := do
  let c ← get
  set { offset := c.offset + I.size, copies := (c.offset, I.size) :: c.copies : Cursor }
  return I.value (slice data c.offset I.size)

/-- From `off` the reader makes `a` of the next `n` bytes; where the buffer is shorter it throws
`e`. It copies from inside the buffer only. -/
def Takes (data : List Byte) (e : ε) (p : Reader ε α) (off n : Nat) (a : α) : Prop :=
  ∀ c : Cursor, c.offset = off → c.Inside data →
    (p.exec c).2.Inside data ∧
      (off + n ≤ data.length → (p.exec c).1 = .ok a ∧ (p.exec c).2.offset = off + n) ∧
      (data.length < off + n → (p.exec c).1 = .error e)

namespace Takes

variable {e : ε} {off n m : Nat} {a : α} {b : β}

theorem exec_bind (p : Reader ε α) (k : α → Reader ε β) (c : Cursor) :
    (p >>= k).exec c =
      match p.exec c with
      | (.ok a, c') => (k a).exec c'
      | (.error e, c') => (.error e, c') := by
  simp only [Reader.exec, ExceptT.run_bind, StateT.run_bind]
  rcases p.run.run c with ⟨r, c'⟩
  cases r <;> rfl

theorem pure (a : α) (h : off ≤ data.length) : Takes data e (Pure.pure a) off 0 a :=
  fun _ hoff hin => ⟨hin, fun _ => ⟨rfl, hoff⟩, fun hlt => by omega⟩

/-- A copy behind a test that the buffer holds it. -/
theorem copy (I : Image α) :
    Takes data e (do
      let c ← get
      if data.length < c.offset + I.size then throw e else Bytes.copy I data)
      off I.size (I.value (slice data off I.size)) := by
  intro c hoff hin
  subst hoff
  rw [exec_bind, show Reader.exec (ε := ε) get c = (.ok c, c) from rfl]
  simp only
  split
  case isTrue h => exact ⟨hin, fun hle => by omega, fun _ => rfl⟩
  case isFalse h =>
    refine ⟨?_, fun _ => ⟨rfl, rfl⟩, fun hlt => absurd hlt h⟩
    intro x hx
    rcases List.mem_cons.1 hx with rfl | hx
    · exact Nat.le_of_not_lt h
    · exact hin x hx

/-- One reader after the other. -/
theorem bind {p : Reader ε α} {k : α → Reader ε β} (hp : Takes data e p off n a)
    (hk : off + n ≤ data.length → Takes data e (k a) (off + n) m b) :
    Takes data e (p >>= k) off (n + m) b := by
  intro c hoff hin
  obtain ⟨hin', hok, hshort⟩ := hp c hoff hin
  rw [exec_bind]
  rcases hrun : p.exec c with ⟨r, c'⟩
  rw [hrun] at hin' hok hshort
  by_cases h : off + n ≤ data.length
  · obtain ⟨rfl, hoff'⟩ := hok h
    have hrest := hk h c' hoff' hin'
    rw [Nat.add_assoc] at hrest
    exact hrest
  · obtain rfl := hshort (Nat.lt_of_not_le h)
    exact ⟨hin', fun hle => by omega, fun _ => rfl⟩

end Takes

end Bytes
