import Mathlib.Logic.Function.Iterate
import Qdgz300.Lib.Bytes

/-!
# Reflected cyclic redundancy codes

A code over `w` bits is given by its polynomial in reflected form. `shift` divides one bit away, and
`byte`, `bytes` take in a byte and a message. Division is linear in exclusive or (`shift_xor`), so
the bits above a byte only move down while the byte is divided away: `byte_table` is the rule behind
the tables with an entry for each byte. For the same reason a byte can be taken in bit by bit, the
least significant one first: `bytes_eq_bits` compares `bytes` with the code of the single bits. When
the highest coefficient of the polynomial is set, division loses nothing (`iterate_injective`), and
a burst of errors no longer than the remainder is not divisible (`burst_ne_zero`).
-/

namespace Crc

section
variable {w : Nat} (poly : BitVec w)

/-- One bit divided away. -/
def shift (c : BitVec w) : BitVec w := if c.getLsbD 0 then c >>> 1 ^^^ poly else c >>> 1

/-- A byte taken into the remainder `c`. -/
def byte (c : BitVec w) (b : Byte) : BitVec w := (shift poly)^[8] (c ^^^ b.setWidth w)

/-- A message taken into the remainder `c`. -/
def bytes (c : BitVec w) (message : List Byte) : BitVec w := message.foldl (byte poly) c

theorem bytes_append (c : BitVec w) (xs ys : List Byte) :
    bytes poly c (xs ++ ys) = bytes poly (bytes poly c xs) ys := List.foldl_append

/-! ## Linearity -/

theorem shift_xor (x y : BitVec w) : shift poly (x ^^^ y) = shift poly x ^^^ shift poly y := by
  unfold shift
  rw [BitVec.getLsbD_xor, BitVec.ushiftRight_xor_distrib]
  cases hx : x.getLsbD 0 with
  | false =>
    cases hy : y.getLsbD 0 with
    | false => rfl
    | true => exact BitVec.xor_assoc _ _ _
  | true =>
    cases hy : y.getLsbD 0 with
    | false =>
      simp only [Bool.xor_false, if_true, Bool.false_eq_true, if_false]
      rw [BitVec.xor_assoc, BitVec.xor_comm _ poly, ← BitVec.xor_assoc]
    | true =>
      -- the polynomial is taken in twice
      simp only [bne_self_eq_false, Bool.false_eq_true, if_false, if_true]
      calc x >>> 1 ^^^ y >>> 1
          = x >>> 1 ^^^ (poly ^^^ poly) ^^^ y >>> 1 := by rw [BitVec.xor_self, BitVec.xor_zero]
        _ = x >>> 1 ^^^ poly ^^^ (poly ^^^ y >>> 1) := by rw [← BitVec.xor_assoc, ← BitVec.xor_assoc]
        _ = x >>> 1 ^^^ poly ^^^ (y >>> 1 ^^^ poly) := by rw [BitVec.xor_comm poly]

theorem iterate_xor (n : Nat) (x y : BitVec w) :
    (shift poly)^[n] (x ^^^ y) = (shift poly)^[n] x ^^^ (shift poly)^[n] y := by
  induction n generalizing x y with
  | zero => rfl
  | succ n ih => rw [Function.iterate_succ_apply, Function.iterate_succ_apply,
      Function.iterate_succ_apply, shift_xor, ih]

/-- Clear low bits are moved out as they are. -/
theorem iterate_clear {k : Nat} {x : BitVec w} (h : ∀ i < k, x.getLsbD i = false) :
    (shift poly)^[k] x = x >>> k := by
  induction k with
  | zero => exact (BitVec.ushiftRight_zero x).symm
  | succ k ih =>
    have hlow : (x >>> k).getLsbD 0 = false := by
      rw [BitVec.getLsbD_ushiftRight]
      exact h k (Nat.lt_succ_self k)
    rw [Function.iterate_succ_apply', ih fun i hi => h i (Nat.lt_succ_of_lt hi), shift, hlow,
      if_neg Bool.false_ne_true, ← BitVec.shiftRight_add]

/-- A word is its low `k` bits and the rest. -/
theorem low_xor_high (k : Nat) (x : BitVec w) :
    (x.setWidth k).setWidth w ^^^ (x >>> k) <<< k = x := by
  apply BitVec.eq_of_getLsbD_eq
  intro i hi
  rw [BitVec.getLsbD_xor, BitVec.getLsbD_setWidth, BitVec.getLsbD_setWidth, BitVec.getLsbD_shiftLeft,
    BitVec.getLsbD_ushiftRight]
  by_cases hik : i < k
  · simp [hi, hik]
  · simp [hi, hik, show k + (i - k) = i by omega]

/-- **Division by parts**: `k` bits are divided away from the low part alone. -/
theorem iterate_split (k : Nat) (x : BitVec w) :
    (shift poly)^[k] x = (shift poly)^[k] ((x.setWidth k).setWidth w) ^^^ x >>> k := by
  have hclear : ∀ i < k, ((x >>> k) <<< k).getLsbD i = false := by
    intro i hi
    rw [BitVec.getLsbD_shiftLeft]
    simp [hi]
  have hback : ((x >>> k) <<< k) >>> k = x >>> k := by
    apply BitVec.eq_of_getLsbD_eq
    intro i hi
    rw [BitVec.getLsbD_ushiftRight, BitVec.getLsbD_shiftLeft, BitVec.getLsbD_ushiftRight]
    by_cases hki : k + i < w
    · simp [hki]
    · simp [hki, BitVec.getLsbD_of_ge x (k + i) (Nat.le_of_not_lt hki)]
  calc (shift poly)^[k] x
      = (shift poly)^[k] ((x.setWidth k).setWidth w ^^^ (x >>> k) <<< k) := by rw [low_xor_high]
    _ = (shift poly)^[k] ((x.setWidth k).setWidth w) ^^^ ((x >>> k) <<< k) >>> k := by
      rw [iterate_xor, iterate_clear poly hclear]
    _ = (shift poly)^[k] ((x.setWidth k).setWidth w) ^^^ x >>> k := by rw [hback]

/-- **The rule of the byte table.** -/
theorem byte_table (c : BitVec w) (b : Byte) :
    byte poly c b =
      (shift poly)^[8] (((c ^^^ b.setWidth w).setWidth 8).setWidth w) ^^^ c >>> 8 := by
  have hbyte : b.setWidth w >>> 8 = 0#w := by
    apply BitVec.eq_of_getLsbD_eq
    intro i _
    rw [BitVec.getLsbD_ushiftRight, BitVec.getLsbD_setWidth, BitVec.getLsbD_of_ge b (8 + i) (by omega)]
    simp
  rw [byte, iterate_split, BitVec.ushiftRight_xor_distrib, hbyte, BitVec.xor_zero]

/-! ## Bit by bit -/

/-- A bit taken into the remainder `c`. -/
def bit (c : BitVec w) (b : Bool) : BitVec w := shift poly (c ^^^ (BitVec.ofBool b).setWidth w)

/-- Bits taken into the remainder `c`, in their order. -/
def bits (c : BitVec w) (bs : List Bool) : BitVec w := bs.foldl (bit poly) c

theorem bits_append (c : BitVec w) (xs ys : List Bool) :
    bits poly c (xs ++ ys) = bits poly (bits poly c xs) ys := List.foldl_append

/-- The bits of a message: each byte from its least significant bit on. -/
def messageBits (message : List Byte) : List Bool :=
  message.flatMap fun b => (List.range 8).map b.getLsbD

/-- The first bit of `x` is taken in and the others move down. -/
theorem shift_xor_low (c x : BitVec w) :
    shift poly (c ^^^ x) = bit poly c (x.getLsbD 0) ^^^ x >>> 1 := by
  have hlow : (x.setWidth 1).setWidth w = (BitVec.ofBool (x.getLsbD 0)).setWidth w := by
    congr 1
    apply BitVec.eq_of_getLsbD_eq
    intro i hi
    rw [show i = 0 by omega, BitVec.getLsbD_setWidth]
    simp
  have hshift := iterate_split poly 1 (c ^^^ x)
  have hbit := iterate_split poly 1 (c ^^^ (BitVec.ofBool (x.getLsbD 0)).setWidth w)
  have hone : (BitVec.ofBool (x.getLsbD 0)).setWidth w >>> 1 = 0#w := by
    apply BitVec.eq_of_getLsbD_eq
    intro i _
    rw [BitVec.getLsbD_ushiftRight, BitVec.getLsbD_setWidth,
      BitVec.getLsbD_of_ge (BitVec.ofBool (x.getLsbD 0)) (1 + i) (by omega)]
    simp
  have hsame : (c ^^^ (BitVec.ofBool (x.getLsbD 0)).setWidth w).setWidth 1 =
    (c ^^^ x).setWidth 1 := by
    rw [← hlow, BitVec.setWidth_xor, BitVec.setWidth_xor]
    congr 1
    apply BitVec.eq_of_getLsbD_eq
    intro i hi
    rw [show i = 0 by omega, BitVec.getLsbD_setWidth, BitVec.getLsbD_setWidth, BitVec.getLsbD_setWidth]
    cases w with
    | zero => simp
    | succ w => simp
  simp only [Function.iterate_one] at hshift hbit
  rw [bit, hshift, hbit, hsame, BitVec.ushiftRight_xor_distrib, BitVec.ushiftRight_xor_distrib, hone,
    BitVec.xor_zero, BitVec.xor_assoc]

/-- The low `n` bits of `x`, when it has no others. -/
theorem iterate_eq_bits {n : Nat} {c x : BitVec w} (h : ∀ i, n ≤ i → x.getLsbD i = false) :
    (shift poly)^[n] (c ^^^ x) = bits poly c ((List.range n).map x.getLsbD) := by
  induction n generalizing c x with
  | zero =>
    have hx : x = 0#w := by
      apply BitVec.eq_of_getLsbD_eq
      intro i _
      rw [h i (Nat.zero_le i), BitVec.getLsbD_zero]
    rw [hx, BitVec.xor_zero]
    rfl
  | succ n ih =>
    have hrest : ∀ i, n ≤ i → (x >>> 1).getLsbD i = false := by
      intro i hi
      rw [BitVec.getLsbD_ushiftRight]
      exact h (1 + i) (by omega)
    have hmap : (List.range (n + 1)).map x.getLsbD =
        x.getLsbD 0 :: (List.range n).map (x >>> 1).getLsbD := by
      rw [List.range_succ_eq_map, List.map_cons, List.map_map]
      congr 1
      apply List.map_congr_left
      intro i _
      rw [BitVec.getLsbD_ushiftRight, Nat.add_comm]
      rfl
    rw [Function.iterate_succ_apply, shift_xor_low, ih hrest, hmap, bits, bits, List.foldl_cons]

/-- **A code of bytes is the code of their bits.** -/
theorem bytes_eq_bits (hw : 8 ≤ w) (c : BitVec w) (message : List Byte) :
    bytes poly c message = bits poly c (messageBits message) := by
  induction message generalizing c with
  | nil => rfl
  | cons b message ih =>
    have hbyte : byte poly c b = bits poly c ((List.range 8).map b.getLsbD) := by
      have hhigh : ∀ i, 8 ≤ i → (b.setWidth w).getLsbD i = false := by
        intro i hi
        rw [BitVec.getLsbD_setWidth, BitVec.getLsbD_of_ge b i hi, Bool.and_false]
      rw [byte, iterate_eq_bits poly hhigh]
      congr 1
      apply List.map_congr_left
      intro i hi
      have := List.mem_range.1 hi
      rw [BitVec.getLsbD_setWidth]
      simp [show i < w by omega]
    rw [messageBits, List.flatMap_cons, bits_append, ← hbyte]
    exact ih (byte poly c b)

/-- The bits of a message are those of the number it denotes. -/
theorem messageBits_eq_testBit (message : List Byte) :
    messageBits message = (List.range (8 * message.length)).map (Bytes.leNat message).testBit := by
  induction message with
  | nil => rfl
  | cons b message ih =>
    have hbit : ∀ i, (Bytes.leNat (b :: message)).testBit i =
        if i < 8 then b.getLsbD i else (Bytes.leNat message).testBit (i - 8) := by
      intro i
      rw [Bytes.leNat, Nat.add_comm]
      exact Nat.testBit_two_pow_mul_add _ b.isLt i
    have hlow : (List.range 8).map b.getLsbD =
        (List.range 8).map (Bytes.leNat (b :: message)).testBit := by
      apply List.map_congr_left
      intro i hi
      rw [hbit, if_pos (List.mem_range.1 hi)]
    have hrest : (List.range (8 * message.length)).map (Bytes.leNat message).testBit =
        (List.range (8 * message.length)).map
          ((Bytes.leNat (b :: message)).testBit ∘ (8 + ·)) := by
      apply List.map_congr_left
      intro i _
      rw [Function.comp, hbit, if_neg (by omega), Nat.add_sub_cancel_left]
    rw [messageBits, List.flatMap_cons, ← messageBits, ih, hlow, hrest, List.length_cons,
      Nat.mul_succ, Nat.add_comm, List.range_add, List.map_append, List.map_map]

/-- A message that fits into the remainder is taken in at once, as a little-endian number. -/
theorem bytes_eq_iterate (hw : 8 ≤ w) (c : BitVec w) {message : List Byte}
    (h : 8 * message.length ≤ w) :
    bytes poly c message =
      (shift poly)^[8 * message.length] (c ^^^ BitVec.ofNat w (Bytes.leNat message)) := by
  have hlt := Bytes.leNat_lt message
  rw [show 256 = 2 ^ 8 from rfl, ← Nat.pow_mul] at hlt
  have hhigh : ∀ i, 8 * message.length ≤ i →
      (BitVec.ofNat w (Bytes.leNat message)).getLsbD i = false := by
    intro i hi
    rw [BitVec.getLsbD_ofNat, Nat.testBit_lt_two_pow
      (Nat.lt_of_lt_of_le hlt (Nat.pow_le_pow_right Nat.two_pos hi)), Bool.and_false]
  rw [bytes_eq_bits poly hw, iterate_eq_bits poly hhigh, messageBits_eq_testBit]
  congr 1
  apply List.map_congr_left
  intro i hi
  have := List.mem_range.1 hi
  rw [BitVec.getLsbD_ofNat, decide_eq_true (show i < w by omega), Bool.true_and]

/-! ## Bursts

A polynomial whose highest coefficient is set loses nothing when a bit is divided away, so an error
pattern whose bits lie in a window of `w` positions leaves a remainder of its own. -/

/-- The exclusive or of two messages, byte by byte. -/
def xorBytes (xs ys : List Byte) : List Byte := List.zipWith (· ^^^ ·) xs ys

theorem messageBits_xorBytes (xs ys : List Byte) :
    messageBits (xorBytes xs ys) = List.zipWith xor (messageBits xs) (messageBits ys) := by
  induction xs generalizing ys with
  | nil => rfl
  | cons x xs ih =>
    cases ys with
    | nil => rw [show messageBits [] = [] from rfl, List.zipWith_nil_right]; rfl
    | cons y ys =>
      have hbyte : (List.range 8).map (x ^^^ y).getLsbD =
          List.zipWith xor ((List.range 8).map x.getLsbD) ((List.range 8).map y.getLsbD) := by
        rw [List.zipWith_map, List.zipWith_self]
        apply List.map_congr_left
        intro i _
        rw [BitVec.getLsbD_xor]
      have hcons : ∀ (b : Byte) (bs : List Byte),
          messageBits (b :: bs) = (List.range 8).map b.getLsbD ++ messageBits bs := fun _ _ => rfl
      rw [show xorBytes (x :: xs) (y :: ys) = (x ^^^ y) :: xorBytes xs ys from rfl, hcons, hcons,
        hcons, ih, hbyte, List.zipWith_append (by rw [List.length_map, List.length_map])]

theorem length_messageBits (message : List Byte) :
    (messageBits message).length = 8 * message.length := by
  rw [messageBits_eq_testBit, List.length_map, List.length_range]

/-- Taking bits in is linear. -/
theorem bits_xor {xs ys : List Bool} (h : xs.length = ys.length) (c d : BitVec w) :
    bits poly (c ^^^ d) (List.zipWith xor xs ys) = bits poly c xs ^^^ bits poly d ys := by
  induction xs generalizing ys c d with
  | nil =>
    cases ys with
    | nil => rfl
    | cons y ys => exact absurd h (Nat.succ_ne_zero _).symm
  | cons x xs ih =>
    cases ys with
    | nil => exact absurd h (Nat.succ_ne_zero _)
    | cons y ys =>
      have hof : (BitVec.ofBool (x ^^ y)).setWidth w =
          (BitVec.ofBool x).setWidth w ^^^ (BitVec.ofBool y).setWidth w := by
        rw [← BitVec.ofBool_xor_ofBool, BitVec.setWidth_xor]
      have hbit : bit poly (c ^^^ d) (x ^^ y) = bit poly c x ^^^ bit poly d y := by
        rw [bit, bit, bit, ← shift_xor, hof]
        congr 1
        ac_rfl
      rw [List.zipWith_cons_cons, bits, List.foldl_cons, hbit]
      exact ih (Nat.succ.inj h) _ _

/-- Clear bits only divide the remainder on. -/
theorem bits_clear {bs : List Bool} (h : ∀ b ∈ bs, b = false) (c : BitVec w) :
    bits poly c bs = (shift poly)^[bs.length] c := by
  induction bs generalizing c with
  | nil => rfl
  | cons b bs ih =>
    have hb : bit poly c b = shift poly c := by
      rw [h b List.mem_cons_self, bit, show BitVec.ofBool false = 0#1 from rfl, BitVec.setWidth_zero,
        BitVec.xor_zero]
    rw [bits, List.foldl_cons, hb, List.length_cons, Function.iterate_succ_apply]
    exact ih (fun b' hb' => h b' (List.mem_cons_of_mem b hb')) _

/-- Bits that fit into the remainder are taken in at once. -/
theorem bits_eq_iterate {bs : List Bool} (h : bs.length ≤ w) (c : BitVec w) :
    bits poly c bs = (shift poly)^[bs.length] (c ^^^ (BitVec.ofBoolListLE bs).setWidth w) := by
  have hhigh : ∀ i, bs.length ≤ i → ((BitVec.ofBoolListLE bs).setWidth w).getLsbD i = false := by
    intro i hi
    rw [BitVec.getLsbD_setWidth, BitVec.getLsbD_of_ge _ i hi, Bool.and_false]
  rw [iterate_eq_bits poly hhigh]
  congr 1
  apply List.ext_getElem
  · rw [List.length_map, List.length_range]
  · intro i hi _
    rw [List.getElem_map, List.getElem_range, BitVec.getLsbD_setWidth, BitVec.getLsbD_ofBoolListLE,
      decide_eq_true (show i < w by omega), Bool.true_and, List.getD_eq_getElem?_getD,
      List.getElem?_eq_getElem hi, Option.getD_some]

variable {poly}

theorem shift_eq_zero (hp : poly.msb = true) {c : BitVec w} (h : shift poly c = 0#w) : c = 0#w := by
  unfold shift at h
  cases hlow : c.getLsbD 0 with
  | true =>
    -- the highest bit of the polynomial stays
    rw [hlow, if_pos rfl] at h
    have hmsb := congrArg BitVec.msb h
    rw [BitVec.msb_xor, BitVec.msb_ushiftRight, hp, BitVec.msb_zero] at hmsb
    exact absurd hmsb (by simp)
  | false =>
    rw [hlow, if_neg Bool.false_ne_true] at h
    apply BitVec.eq_of_getLsbD_eq
    intro i _
    cases i with
    | zero => rw [hlow, BitVec.getLsbD_zero]
    | succ i =>
      have hbit := congrArg (BitVec.getLsbD · i) h
      rw [BitVec.getLsbD_ushiftRight, BitVec.getLsbD_zero, Nat.add_comm] at hbit
      rw [hbit, BitVec.getLsbD_zero]

theorem iterate_eq_zero (hp : poly.msb = true) {n : Nat} {c : BitVec w}
    (h : (shift poly)^[n] c = 0#w) : c = 0#w := by
  induction n generalizing c with
  | zero => exact h
  | succ n ih => exact shift_eq_zero hp (ih h)

/-- Division forgets nothing. -/
theorem iterate_injective (hp : poly.msb = true) (n : Nat) :
    Function.Injective (shift poly)^[n] := by
  intro x y h
  have hzero : (shift poly)^[n] (x ^^^ y) = 0#w := by
    rw [iterate_xor]
    exact BitVec.xor_eq_zero_iff.2 h
  exact BitVec.xor_eq_zero_iff.1 (iterate_eq_zero hp hzero)

/-- A pattern that fits into the remainder is not divisible. -/
theorem bits_ne_zero (hp : poly.msb = true) {bs : List Bool} (h : bs.length ≤ w)
    (hset : true ∈ bs) :
    bits poly 0#w bs ≠ 0#w := by
  intro hzero
  rw [bits_eq_iterate poly h, BitVec.zero_xor] at hzero
  obtain ⟨i, hi, hbit⟩ := List.mem_iff_getElem.1 hset
  have hword := congrArg (BitVec.getLsbD · i) (iterate_eq_zero hp hzero)
  rw [BitVec.getLsbD_setWidth, BitVec.getLsbD_ofBoolListLE, List.getD_eq_getElem?_getD,
    List.getElem?_eq_getElem hi, hbit, BitVec.getLsbD_zero,
    decide_eq_true (show i < w by omega)] at hword
  exact absurd hword (by decide)

/-- **A burst leaves a remainder**: a pattern with a set bit and all of them within `w`
positions. -/
theorem burst_ne_zero (hp : poly.msb = true) {bs : List Bool} {start : Nat} (hset : true ∈ bs)
    (hburst : ∀ i, bs[i]? = some true → start ≤ i ∧ i < start + w) : bits poly 0#w bs ≠ 0#w := by
  have hsplit : bs = bs.take start ++ ((bs.drop start).take w ++ (bs.drop start).drop w) := by
    rw [List.take_append_drop, List.take_append_drop]
  have hbefore : ∀ b ∈ bs.take start, b = false := by
    intro b hb
    obtain ⟨i, hi⟩ := List.mem_iff_getElem?.1 hb
    cases b with
    | false => rfl
    | true =>
      have hlt := (List.getElem?_eq_some_iff.1 hi).1
      rw [List.length_take] at hlt
      rw [List.getElem?_take_of_lt (by omega)] at hi
      have := hburst i hi
      omega
  have hafter : ∀ b ∈ (bs.drop start).drop w, b = false := by
    intro b hb
    obtain ⟨i, hi⟩ := List.mem_iff_getElem?.1 hb
    cases b with
    | false => rfl
    | true =>
      rw [List.getElem?_drop, List.getElem?_drop] at hi
      have := hburst _ hi
      omega
  have hwithin : true ∈ (bs.drop start).take w := by
    rw [hsplit, List.mem_append, List.mem_append] at hset
    obtain hset | hset | hset := hset
    · exact absurd (hbefore true hset) (by decide)
    · exact hset
    · exact absurd (hafter true hset) (by decide)
  have hlead : (shift poly)^[(bs.take start).length] 0#w = 0#w := by
    have hself := iterate_xor poly (bs.take start).length 0#w 0#w
    rw [BitVec.xor_self, BitVec.xor_self] at hself
    exact hself
  rw [hsplit, bits_append, bits_clear poly hbefore, hlead, bits_append, bits_clear poly hafter]
  intro hzero
  exact bits_ne_zero hp (List.length_take_le w _) hwithin (iterate_eq_zero hp hzero)

end

end Crc
