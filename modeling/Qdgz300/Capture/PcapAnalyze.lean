import Qdgz300.Lib.FileSystem

/-!
# Reading a capture file (`tools/pcap_analyze.cpp`)

`read_global_header` and `read_record` on the bytes of a file: each takes what it reads from the
front and returns the rest. `ifs.read` of `n` bytes gets at most the bytes that are left, and
`gcount` is their number. An exception is an error with its text.
-/

namespace Qdgz300.Capture

open Bytes

structure PcapFormat where
  littleEndian : Bool := true
  timestampNanoseconds : Bool := false
  snaplen : BitVec 32 := 0
  network : BitVec 32 := 0
  deriving DecidableEq, Repr

structure Record where
  tsSec : BitVec 32
  tsFrac : BitVec 32
  payload : List Byte
  deriving DecidableEq, Repr

/-- `read_u16`. -/
def readU16 (bytes : List Byte) (offset : Nat) (littleEndian : Bool) : BitVec 16 :=
  if littleEndian then le16 bytes offset
  else BitVec.ofNat 16 (leNat (slice bytes offset 2).reverse)

/-- `read_u32`, and the lambda `read_u32_raw` of `read_record`. -/
def readU32 (bytes : List Byte) (offset : Nat) (littleEndian : Bool) : BitVec 32 :=
  if littleEndian then le32 bytes offset
  else BitVec.ofNat 32 (leNat (slice bytes offset 4).reverse)

/-- The byte order and the unit of the timestamps that a magic number announces. -/
def formatOfMagic (header : List Byte) : Option (Bool × Bool) :=
  if readU32 header 0 true = 0xA1B2C3D4 then some (true, false)
  else if readU32 header 0 true = 0xA1B23C4D then some (true, true)
  else if readU32 header 0 false = 0xA1B2C3D4 then some (false, false)
  else if readU32 header 0 false = 0xA1B23C4D then some (false, true)
  else none

/-- `read_global_header`; `none` where it returns `false`. -/
def readGlobalHeader (file : List Byte) : Option (PcapFormat × List Byte) :=
  let header := file.take 24
  if header.length ≠ 24 then none
  else
    match formatOfMagic header with
    | none => none
    | some (littleEndian, nanoseconds) =>
      if readU16 header 4 littleEndian ≠ 2 ∨ readU16 header 6 littleEndian ≠ 4 then none
      else some ({
        littleEndian
        timestampNanoseconds := nanoseconds
        snaplen := readU32 header 16 littleEndian
        network := readU32 header 20 littleEndian }, file.drop 24)

/-- `read_record`; `none` at the end of the file. -/
def readRecord (format : PcapFormat) (file : List Byte) :
    Except String (Option (Record × List Byte)) :=
  let raw := file.take 16
  if raw.length = 0 then .ok none
  else if raw.length ≠ 16 then .error "truncated pcap record header"
  else
    let inclLen := readU32 raw 8 format.littleEndian
    let origLen := readU32 raw 12 format.littleEndian
    if inclLen = 0 ∨ origLen = 0 ∨ format.snaplen < inclLen ∨ origLen < inclLen then
      .error "invalid pcap record lengths"
    else
      let payload := (file.drop 16).take inclLen.toNat
      if payload.length ≠ inclLen.toNat then .error "truncated pcap packet payload"
      else .ok (some ({
        tsSec := readU32 raw 0 format.littleEndian
        tsFrac := readU32 raw 4 format.littleEndian
        payload }, file.drop (16 + inclLen.toNat)))

/-- A record takes its header from the file. -/
theorem readRecord_shorter {format : PcapFormat} {file rest : List Byte} {r : Record}
    (h : readRecord format file = .ok (some (r, rest))) : rest.length < file.length := by
  unfold readRecord at h
  simp only at h
  split at h
  case isTrue => cases h
  case isFalse hsome =>
  split at h
  case isTrue => cases h
  case isFalse =>
  split at h
  case isTrue => cases h
  case isFalse =>
  split at h
  case isTrue => cases h
  case isFalse =>
  cases h
  rw [List.length_take] at hsome
  rw [List.length_drop]
  omega

end Qdgz300.Capture
