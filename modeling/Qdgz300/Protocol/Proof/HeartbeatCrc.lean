import Qdgz300.Protocol.Validator

/-!
# Error detection of the heartbeat CRC

The stored CRC follows the data it protects, least significant byte first, so an accepted payload is
one that leaves a fixed remainder as a whole (`verifyHeartbeatCrc_residue`). The remainder is linear
in the payload: an error pattern that is not divisible turns an accepted payload into a refused one
(`verify_xor_eq_false`), and no burst of up to 32 bits is divisible, wherever it lies. This is
**`heartbeat_burst_detected`**.
-/

namespace Qdgz300.Protocol

open Bytes

/-- The remainder of every message followed by its CRC. -/
def crcResidue : BitVec 32 := (Crc.shift polyReflected)^[32] initXor

theorem polyReflected_msb : polyReflected.msb = true := by decide

theorem eq_xor_iff {x r k : BitVec 32} : x = r ^^^ k ↔ r ^^^ x = k := by
  refine ⟨?_, ?_⟩
  · intro h
    rw [h, ← BitVec.xor_assoc, BitVec.xor_self, BitVec.zero_xor]
  · intro h
    rw [← h, ← BitVec.xor_assoc, BitVec.xor_self, BitVec.zero_xor]

/-- A heartbeat payload is accepted when data and CRC together leave `crcResidue`. -/
theorem verifyHeartbeatCrc_residue {payload : List Byte}
    (h : payload.length = heartbeatPayloadSize) :
    verifyHeartbeatCrc (some payload) heartbeatPayloadSize = true ↔
      Crc.bits polyReflected initXor (Crc.messageBits payload) = crcResidue := by
  rw [heartbeatPayloadSize] at h
  have hfield : (payload.drop 44).length = 4 := by rw [List.length_drop, h]
  have hslice : slice payload 44 4 = payload.drop 44 := List.take_of_length_le (by omega)
  -- the four bytes of the field are taken in as one word
  have hwhole : Crc.bits polyReflected initXor (Crc.messageBits payload) =
      (Crc.shift polyReflected)^[32]
        (Crc.bytes polyReflected initXor (payload.take 44) ^^^ le32 payload 44) := by
    have hword := Crc.bytes_eq_iterate polyReflected (by decide)
      (Crc.bytes polyReflected initXor (payload.take 44))
        (show 8 * (payload.drop 44).length ≤ 32 by omega)
    rw [← Crc.bytes_append, List.take_append_drop, hfield] at hword
    rw [← Crc.bytes_eq_bits polyReflected (by decide), hword, le32, hslice]
  have hverify : verifyHeartbeatCrc (some payload) heartbeatPayloadSize =
      (le32 payload 44 == crc32c (payload.take 44)) := rfl
  rw [hwhole, crcResidue, (Crc.iterate_injective polyReflected_msb 32).eq_iff, hverify, beq_iff_eq,
    crc32c_eq_castagnoli, castagnoli, eq_xor_iff]

/-- An error pattern with a remainder is found. -/
theorem verify_xor_eq_false {payload pattern : List Byte}
    (hlen : payload.length = heartbeatPayloadSize)
    (hpattern : pattern.length = heartbeatPayloadSize)
    (haccept : verifyHeartbeatCrc (some payload) heartbeatPayloadSize = true)
    (hrest : Crc.bits polyReflected 0 (Crc.messageBits pattern) ≠ 0) :
    verifyHeartbeatCrc (some (Crc.xorBytes payload pattern)) heartbeatPayloadSize = false := by
  have hxlen : (Crc.xorBytes payload pattern).length = heartbeatPayloadSize := by
    rw [Crc.xorBytes, List.length_zipWith, hlen, hpattern, Nat.min_self]
  have hbits : (Crc.messageBits payload).length = (Crc.messageBits pattern).length := by
    rw [Crc.length_messageBits, Crc.length_messageBits, hlen, hpattern]
  have hsum : Crc.bits polyReflected initXor (Crc.messageBits (Crc.xorBytes payload pattern)) =
      crcResidue ^^^ Crc.bits polyReflected 0 (Crc.messageBits pattern) := by
    have hlinear := Crc.bits_xor polyReflected hbits initXor 0
    rw [(verifyHeartbeatCrc_residue hlen).1 haccept, ← Crc.messageBits_xorBytes] at hlinear
    exact hlinear
  rw [← Bool.not_eq_true, verifyHeartbeatCrc_residue hxlen, hsum]
  intro hsame
  apply hrest
  rw [eq_xor_iff.2 hsame, BitVec.xor_self]
  rfl

theorem mem_messageBits {message : List Byte} (h : ∃ b ∈ message, b ≠ 0) :
    true ∈ Crc.messageBits message := by
  obtain ⟨b, hb, hne⟩ := h
  rw [Crc.messageBits, List.mem_flatMap]
  refine ⟨b, hb, ?_⟩
  by_contra hno
  apply hne
  apply BitVec.eq_of_getLsbD_eq
  intro i hi
  rw [BitVec.ofNat_eq_ofNat, BitVec.getLsbD_zero, ← Bool.not_eq_true]
  intro hbit
  exact hno (List.mem_map.2 ⟨i, List.mem_range.2 hi, hbit⟩)

/-- The payload check decides for a heartbeat that passes the checks before it. -/
theorem validate_crcMismatch {v : Validator} {packet : ParsedPacket} {payload : Option (List Byte)}
    (htype : packet.header.packetType = PacketType.heartbeat.toByte) (hok : v.validate packet = .ok)
    (hcrc : verifyHeartbeatCrc payload packet.header.payloadLen.toNat = false) :
    v.validate { packet with payload := payload } = .crcMismatch := by
  have hpayload : Validator.validatePayloadByType { packet with payload := payload } =
      .crcMismatch := by
    simp [Validator.validatePayloadByType, htype, hcrc, PacketType.toByte]
  unfold Validator.validate at hok ⊢
  split at hok
  · exact absurd hok (by decide)
  · split at hok
    · exact absurd hok (by decide)
    · split at hok
      · exact absurd hok (by decide)
      · split at hok
        · exact absurd hok (by decide)
        · split at hok
          · exact absurd hok (by decide)
          · split at hok
            · exact absurd hok (by decide)
            · simp_all

/-- **Every short burst in a heartbeat is detected.** The bits of an error pattern are numbered byte
by byte, the least significant bit first, over the data and the CRC field. -/
theorem heartbeat_burst_detected {payload pattern : List Byte} {start : Nat}
    (hlen : payload.length = heartbeatPayloadSize)
    (haccept : verifyHeartbeatCrc (some payload) heartbeatPayloadSize = true)
    (hpattern : pattern.length = heartbeatPayloadSize) (hset : ∃ b ∈ pattern, b ≠ 0)
    (hburst : ∀ i, (Crc.messageBits pattern)[i]? = some true → start ≤ i ∧ i < start + 32) :
    verifyHeartbeatCrc (some (Crc.xorBytes payload pattern)) heartbeatPayloadSize = false ∧
      ∀ (v : Validator) (packet : ParsedPacket),
        packet.header.packetType = PacketType.heartbeat.toByte →
        packet.header.payloadLen.toNat = heartbeatPayloadSize → packet.payload = some payload →
        v.validate packet = .ok →
        v.validate { packet with payload := some (Crc.xorBytes payload pattern) } =
          .crcMismatch := by
  have hfound : verifyHeartbeatCrc (some (Crc.xorBytes payload pattern)) heartbeatPayloadSize =
      false :=
    verify_xor_eq_false hlen hpattern haccept
      (Crc.burst_ne_zero polyReflected_msb (mem_messageBits hset) hburst)
  refine ⟨hfound, ?_⟩
  intro v packet htype hsize _ hok
  apply validate_crcMismatch htype hok
  rw [hsize]
  exact hfound

/-- A heartbeat of zeros and a burst from its last data byte into its CRC. -/
def zeroHeartbeat : List Byte :=
  List.replicate 44 0 ++ toLe 4 (crc32c (List.replicate 44 0)).toNat

def straddlingBurst : List Byte := List.replicate 43 0 ++ [0x80, 0x01, 0x00, 0x00, 0x40]

def zeroHeartbeatPacket : ParsedPacket where
  header :=
    { magic := protocolMagic, payloadLen := 48, packetType := PacketType.heartbeat.toByte
      protocolVersion := protocolVersion, destId := 1 }
  payload := some zeroHeartbeat
  totalSize := 80

theorem straddlingBurst_detected :
    Validator.validate { localDeviceId := 1 } zeroHeartbeatPacket = .ok ∧
      verifyHeartbeatCrc (some (Crc.xorBytes zeroHeartbeat straddlingBurst)) heartbeatPayloadSize =
        false ∧
      Validator.validate { localDeviceId := 1 }
        { zeroHeartbeatPacket with payload := some (Crc.xorBytes zeroHeartbeat straddlingBurst) } =
          .crcMismatch := by
  have haccept : verifyHeartbeatCrc (some zeroHeartbeat) heartbeatPayloadSize = true := by
    decide +kernel
  have hset : (Crc.messageBits straddlingBurst).zipIdx.filter Prod.fst =
      [(true, 351), (true, 352), (true, 382)] := by
    decide +kernel
  have hburst : ∀ i, (Crc.messageBits straddlingBurst)[i]? = some true → 351 ≤ i ∧
    i < 351 + 32 := by
    intro i hi
    have hmem : (true, i) ∈ (Crc.messageBits straddlingBurst).zipIdx.filter Prod.fst :=
      List.mem_filter.2 ⟨List.mk_mem_zipIdx_iff_getElem?.2 hi, rfl⟩
    rw [hset] at hmem
    simp at hmem
    omega
  have hok : Validator.validate { localDeviceId := 1 } zeroHeartbeatPacket =
    .ok := by decide +kernel
  obtain ⟨hrefused, hmismatch⟩ := heartbeat_burst_detected (by decide +kernel) haccept (by decide)
    ⟨0x80, by decide, by decide⟩ hburst
  exact ⟨hok, hrefused, hmismatch _ zeroHeartbeatPacket rfl rfl rfl hok⟩

end Qdgz300.Protocol
