import Mathlib.Algebra.GroupWithZero.Nat
import Mathlib.Data.List.Basic

/-!
# Bytes and little-endian numbers

`leNat bs` is the number the bytes `bs` denote, least significant byte first; `toLe k n` is the
`k`-byte image of `n`. `leNat_toLe` is the round trip.
-/

/-- A byte. -/
abbrev Byte := BitVec 8

namespace Bytes

/-- The number denoted by bytes, least significant first. -/
def leNat : List Byte → Nat
  | [] => 0
  | b :: bs => b.toNat + 256 * leNat bs

/-- The `k`-byte image of `n`. -/
def toLe : Nat → Nat → List Byte
  | 0, _ => []
  | k + 1, n => BitVec.ofNat 8 n :: toLe k (n / 256)

/-- `n` bytes from offset `off`. -/
def slice (bs : List Byte) (off n : Nat) : List Byte := (bs.drop off).take n

/-- Little-endian fields at an offset. -/
def le16 (bs : List Byte) (off : Nat) : BitVec 16 := BitVec.ofNat 16 (leNat (slice bs off 2))
def le32 (bs : List Byte) (off : Nat) : BitVec 32 := BitVec.ofNat 32 (leNat (slice bs off 4))
def le64 (bs : List Byte) (off : Nat) : BitVec 64 := BitVec.ofNat 64 (leNat (slice bs off 8))

@[simp] theorem length_toLe : ∀ k n : Nat, (toLe k n).length = k
  | 0, _ => rfl
  | k + 1, n => by simp [toLe, length_toLe k]

/-- **Round trip**: reading back a `k`-byte image. -/
theorem leNat_toLe : ∀ k n : Nat, leNat (toLe k n) = n % 256 ^ k
  | 0, n => by simp [leNat, toLe, Nat.mod_one]
  | k + 1, n => by
    rw [toLe, leNat, leNat_toLe k, BitVec.toNat_ofNat, Nat.pow_succ 256 k, Nat.mul_comm (256 ^ k),
      Nat.mod_mul]

theorem toLe_leNat : ∀ bs : List Byte, toLe bs.length (leNat bs) = bs
  | [] => rfl
  | b :: bs => by
    have hb := b.isLt
    rw [List.length_cons, toLe, leNat, show (b.toNat + 256 * leNat bs) / 256 = leNat bs by omega,
      toLe_leNat bs]
    congr 1
    apply BitVec.eq_of_toNat_eq
    rw [BitVec.toNat_ofNat]
    omega

theorem leNat_lt : ∀ bs : List Byte, leNat bs < 256 ^ bs.length
  | [] => Nat.one_pos
  | b :: bs => by
    have hb := b.isLt
    have ih := leNat_lt bs
    rw [leNat, List.length_cons, Nat.pow_succ]
    omega

/-- The bytes of a 64-bit field. -/
theorem toLe_le64 {bs : List Byte} (h : 8 ≤ bs.length) : toLe 8 (le64 bs 0).toNat = bs.take 8 := by
  have hlen : (bs.take 8).length = 8 := List.length_take_of_le h
  have hlt := leNat_lt (bs.take 8)
  rw [hlen] at hlt
  have hmod : leNat (bs.take 8) % 2 ^ 64 = leNat (bs.take 8) := by omega
  rw [le64, slice, List.drop_zero, BitVec.toNat_ofNat, hmod]
  nth_rewrite 1 [← hlen]
  exact toLe_leNat _

/-- A slice that starts where a prefix ends. -/
theorem slice_at {pre bs : List Byte} {off : Nat} (h : pre.length = off) (n : Nat) :
    slice (pre ++ bs) off n = bs.take n := by
  rw [slice, ← h, List.drop_left]

/-- A 32-bit field read back where it was written. -/
theorem le32_at (pre post : List Byte) {off : Nat} (h : pre.length = off) (x : BitVec 32) :
    le32 (pre ++ (toLe 4 x.toNat ++ post)) off = x := by
  have htake : (toLe 4 x.toNat ++ post).take 4 = toLe 4 x.toNat := List.take_left' (length_toLe 4 _)
  have hmod : x.toNat % 256 ^ 4 = x.toNat := by
    have := x.isLt
    omega
  rw [le32, slice_at h, htake, leNat_toLe, hmod, BitVec.ofNat_toNat, BitVec.setWidth_eq]

end Bytes
