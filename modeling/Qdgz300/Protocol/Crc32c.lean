import Qdgz300.Lib.Crc

/-!
# CRC-32C (`src/m01_receiver/protocol/crc32c.cpp`)

The table, the software loop over it and the loop of a build with `__ARM_FEATURE_CRC32`, whose
instructions take 8 bytes or one byte into the remainder. Both loops compute the code of the
Castagnoli polynomial (`crc32cSw_eq`, `crc32cArm_eq`), so `crc32c` does not depend on the build; it
is the remainder that the message leaves bit by bit (**`crc32c_paths_agree`**).
-/

namespace Qdgz300.Protocol

open Bytes

/-- `kPolyReflected`. -/
def polyReflected : BitVec 32 := 0x82F63B78

/-- `kInitXor`. -/
def initXor : BitVec 32 := 0xFFFFFFFF

/-- The inner loop of `make_table`: the mask is all ones when the low bit is set. -/
def tableShift (crc : BitVec 32) : BitVec 32 := (crc >>> 1) ^^^ (polyReflected &&& -(crc &&& 1))

/-- `make_table`. -/
def makeTable : List (BitVec 32) :=
  (List.range 256).map fun i => tableShift^[8] (BitVec.ofNat 32 i)

/-- One iteration of `crc32c_sw`. -/
def crc32cSwStep (crc : BitVec 32) (b : Byte) : BitVec 32 :=
  makeTable.getD ((crc ^^^ b.setWidth 32).setWidth 8).toNat 0 ^^^ (crc >>> 8)

def crc32cSw (crc : BitVec 32) (data : List Byte) : BitVec 32 := data.foldl crc32cSwStep crc

/-- `__crc32cb`. -/
def armCrc32cb (crc : BitVec 32) (b : Byte) : BitVec 32 := Crc.byte polyReflected crc b

/-- `__crc32cd`: the bytes of the word, least significant first. -/
def armCrc32cd (crc : BitVec 32) (v : BitVec 64) : BitVec 32 :=
  Crc.bytes polyReflected crc (toLe 8 v.toNat)

/-- `crc32c_arm`. -/
def crc32cArm (crc : BitVec 32) (data : List Byte) : BitVec 32 :=
  if 8 ≤ data.length then crc32cArm (armCrc32cd crc (le64 data 0)) (data.drop 8)
  else data.foldl armCrc32cb crc
termination_by data.length
decreasing_by
  rw [List.length_drop]
  omega

/-- `crc32c`. -/
def crc32c (data : List Byte) : BitVec 32 := crc32cSw initXor data ^^^ initXor

/-- The CRC-32C of a message: initial remainder and final exclusive or are all ones. -/
def castagnoli (message : List Byte) : BitVec 32 :=
    Crc.bytes polyReflected initXor message ^^^ initXor

theorem tableShift_eq (c : BitVec 32) : tableShift c = Crc.shift polyReflected c := by
  unfold tableShift Crc.shift
  rw [show c &&& 1 = (BitVec.ofBool (c.getLsbD 0)).setWidth 32 from
    BitVec.and_one_eq_setWidth_ofBool_getLsbD]
  cases c.getLsbD 0 with
  | false =>
    rw [if_neg Bool.false_ne_true, show -(BitVec.ofBool false).setWidth 32 = 0#32 by decide,
      BitVec.and_zero, BitVec.xor_zero]
  | true =>
    rw [if_pos rfl, show -(BitVec.ofBool true).setWidth 32 = BitVec.allOnes 32 by decide,
      BitVec.and_allOnes]

theorem crc32cSwStep_eq (c : BitVec 32) (b : Byte) :
    crc32cSwStep c b = Crc.byte polyReflected c b := by
  have hlt := ((c ^^^ b.setWidth 32).setWidth 8).isLt
  have hshift : tableShift = Crc.shift polyReflected := funext tableShift_eq
  rw [Crc.byte_table, crc32cSwStep, makeTable, List.getD_eq_getElem?_getD, List.getElem?_map,
    List.getElem?_range hlt, Option.map_some, Option.getD_some, BitVec.ofNat_toNat, hshift]

theorem crc32cSw_eq (c : BitVec 32) (data : List Byte) :
    crc32cSw c data = Crc.bytes polyReflected c data := by
  have hstep : crc32cSwStep = Crc.byte polyReflected := funext₂ crc32cSwStep_eq
  rw [crc32cSw, Crc.bytes, hstep]

theorem crc32cArm_eq (c : BitVec 32) (data : List Byte) : crc32cArm c data = crc32cSw c data := by
  induction c, data using crc32cArm.induct with
  | case1 c data h8 ih =>
    rw [crc32cArm, if_pos h8, ih, crc32cSw_eq, crc32cSw_eq, armCrc32cd, toLe_le64 h8,
      ← Crc.bytes_append, List.take_append_drop]
  | case2 c data h8 =>
    rw [crc32cArm, if_neg h8, crc32cSw_eq]
    rfl

theorem crc32c_eq_castagnoli (data : List Byte) : crc32c data = castagnoli data := by
  rw [crc32c, crc32cSw_eq, castagnoli]

/-- `crc32c` of a build with `__ARM_FEATURE_CRC32`. -/
def crc32cOnArm (data : List Byte) : BitVec 32 := crc32cArm initXor data ^^^ initXor

/-- The remainder of a message bit by bit, each byte from its least significant bit on. -/
def bitwiseCrc32c (message : List Byte) : BitVec 32 :=
  Crc.bits polyReflected initXor (Crc.messageBits message) ^^^ initXor

theorem castagnoli_eq_bitwise (message : List Byte) :
    castagnoli message = bitwiseCrc32c message := by
  rw [castagnoli, bitwiseCrc32c, Crc.bytes_eq_bits polyReflected (by decide)]

/-- **Both builds compute the bitwise code**, for a message of any length. -/
theorem crc32c_paths_agree (data : List Byte) :
    crc32c data = bitwiseCrc32c data ∧ crc32cOnArm data = bitwiseCrc32c data := by
  have hsw : crc32c data = bitwiseCrc32c data := by
    rw [crc32c_eq_castagnoli, castagnoli_eq_bitwise]
  refine ⟨hsw, ?_⟩
  rw [crc32cOnArm, crc32cArm_eq]
  exact hsw

/-- The check value of the code. -/
example : crc32c [0x31, 0x32, 0x33, 0x34, 0x35, 0x36, 0x37, 0x38, 0x39] = 0xE3069283 := by
  decide +kernel

end Qdgz300.Protocol
