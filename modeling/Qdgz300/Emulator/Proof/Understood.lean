import Qdgz300.Emulator.PacketGenerator
import Qdgz300.Pipeline.Reassembler
import Qdgz300.Protocol.Validator

/-!
# What the receiver makes of the emulator's packets

Nothing. The packets of a processing interval end in a checksum that their `payload_len` does not
count, so the parser refuses each of them (`parse_makeFragment`). A packet of the older interface
passes the parser, but it is its frame's tail without the snapshot that a tail begins with, so the
reassembler refuses it (`fragmentOf_makeDataPacket`).
-/

namespace Qdgz300.Emulator

open Bytes Protocol Pipeline

/-! ## The receiving side -/

/-- What passes the parser and the validator. -/
def received (v : Validator) (packet : List Byte) : Option ParsedPacket :=
  (parse (some packet)).filter fun p => v.validate p = .ok

/-- The frames that a fresh reassembler emits on packets arriving in this order. -/
def framesOf (cfg : ReassemblerConfig) (clk : SystemClock) (v : Validator)
    (packets : List (List Byte)) : List Emission :=
  ((Reassembler.new cfg).run clk ((packets.filterMap (received v)).map .processPacket)).2

namespace PacketGenerator

variable {g : PacketGenerator} {dataTs nowMs : BitVec 64} {now : Nat → BitVec 64}
  {scope : Scope} {cfg : ReassemblerConfig} {clk : SystemClock}

/-- The validator of the device that the packets are for. -/
def destination (g : PacketGenerator) (scope : Scope) : Validator where
  localDeviceId := g.config.destId
  scope

/-- Every packet of one interval is accepted. -/
def CpiAccepted (g : PacketGenerator) (dataTs : BitVec 64) (now : Nat → BitVec 64)
    (scope : Scope) : Prop :=
  ∀ packet ∈ (g.makeCpiPackets dataTs now).2, (received (g.destination scope) packet).isSome

/-- In any order the packets of one interval make one complete frame, of the bodies in index
order. -/
def CpiReassembled (g : PacketGenerator) (dataTs : BitVec 64) (now : Nat → BitVec 64)
    (scope : Scope) (cfg : ReassemblerConfig) (clk : SystemClock) : Prop :=
  ∀ packets, packets.Perm (g.makeCpiPackets dataTs now).2 →
    ∃ e, framesOf cfg clk (g.destination scope) packets = [e] ∧ e.frame.isComplete ∧
      e.frame.data = (List.range g.config.cpiFrags.toNat).flatMap fun fragIdx =>
        pattern g.nextCpiCount fragIdx g.config.fragPayloadBytes

/-- A packet of the older interface makes one complete frame. -/
def DataReassembled (g : PacketGenerator) (nowMs dataTs : BitVec 64) (scope : Scope)
    (cfg : ReassemblerConfig) (clk : SystemClock) : Prop :=
  ∃ packet, (g.makeDataPacket nowMs dataTs).2 = some packet ∧
    ∃ e, framesOf cfg clk (g.destination scope) [packet] = [e] ∧ e.frame.isComplete

/-! ## A packet and its header -/

/-- What the parser accepts is as long as its header says. -/
theorem parse_length {packet : List Byte} {p : ParsedPacket} (h : parse (some packet) = some p) :
    p.header = CommonHeader.decode packet ∧ p.payload = some (packet.drop commonHeaderSize) ∧
      packet.length = commonHeaderSize + p.header.payloadLen.toNat := by
  unfold parse at h
  simp only at h
  split at h
  case isTrue => cases h
  case isFalse =>
  split at h
  case isTrue => cases h
  case isFalse hvalid =>
  cases h
  refine ⟨rfl, rfl, ?_⟩
  by_contra hne
  apply hvalid
  unfold basicValidation
  rw [if_pos (Ne.symm hne), ite_self, ite_self, ite_self]

theorem length_fragmentPayload (config : GeneratorConfig) (frameCounter cpiCount : BitVec 32)
    (fragIdx : Nat) :
    (fragmentPayload config frameCounter cpiCount dataTs fragIdx).length =
      specificAndBody config fragIdx := by
  have hspecific : dataSpecificHeader.size = specificSize := rfl
  have hsnapshot : executionSnapshot.size = snapshotSize := rfl
  unfold fragmentPayload specificAndBody pattern
  by_cases htail : fragIdx + 1 = config.cpiFrags.toNat <;>
    simp [htail, hspecific, hsnapshot, Nat.add_assoc]

/-- **A fragment is four bytes longer than its header says**, so the parser refuses it. -/
theorem parse_makeFragment (frameCounter cpiCount : BitVec 32) (fragIdx : Nat) :
    parse (some (g.makeFragment frameCounter cpiCount dataTs nowMs fragIdx).2) = none := by
  cases h : parse (some (g.makeFragment frameCounter cpiCount dataTs nowMs fragIdx).2) with
  | none => rfl
  | some p =>
    exfalso
    obtain ⟨hheader, -, hlen⟩ := parse_length h
    have hcount : p.header.payloadLen = BitVec.ofNat 16 (specificAndBody g.config fragIdx) := by
      rw [hheader]
      simp only [makeFragment, fillCommonHeader, appendCrc32c, List.append_assoc,
        commonHeader_front]
    have hlong : (g.makeFragment frameCounter cpiCount dataTs nowMs fragIdx).2.length =
        commonHeaderSize + specificAndBody g.config fragIdx + 4 := by
      simp only [makeFragment, appendCrc32c, List.length_append, Image.length_bytes,
        length_fragmentPayload]
      rfl
    have hmod := Nat.mod_le (specificAndBody g.config fragIdx) (2 ^ 16)
    rw [hlong, hcount, BitVec.toNat_ofNat] at hlen
    omega

theorem parse_makeFragments (frameCounter cpiCount : BitVec 32) :
    ∀ (n fragIdx : Nat) (g : PacketGenerator),
      ∀ packet ∈ (makeFragments frameCounter cpiCount dataTs now n fragIdx g).2,
        parse (some packet) = none
  | 0, _, _, _, h => absurd h List.not_mem_nil
  | n + 1, fragIdx, _, packet, h => by
    rcases List.mem_cons.1 h with rfl | h
    · exact parse_makeFragment frameCounter cpiCount fragIdx
    · exact parse_makeFragments frameCounter cpiCount n (fragIdx + 1) _ packet h

theorem parse_makeCpiPackets {packet : List Byte} (h : packet ∈ (g.makeCpiPackets dataTs now).2) :
    parse (some packet) = none :=
  parse_makeFragments _ _ _ _ _ packet h

theorem received_of_parse {v : Validator} {packet : List Byte} (h : parse (some packet) = none) :
    received v packet = none := by
  rw [received, h]
  rfl

theorem makeFragments_length (frameCounter cpiCount : BitVec 32) :
    ∀ (n fragIdx : Nat) (g : PacketGenerator),
      (makeFragments frameCounter cpiCount dataTs now n fragIdx g).2.length = n
  | 0, _, _ => rfl
  | n + 1, fragIdx, _ =>
    congrArg (· + 1) (makeFragments_length frameCounter cpiCount n (fragIdx + 1) _)

theorem not_cpiAccepted (h : 1 ≤ g.config.cpiFrags.toNat) : ¬ g.CpiAccepted dataTs now scope := by
  intro hall
  have hlen : (g.makeCpiPackets dataTs now).2.length = g.config.cpiFrags.toNat :=
    makeFragments_length _ _ _ _ _
  obtain ⟨packet, hpacket⟩ : ∃ packet, packet ∈ (g.makeCpiPackets dataTs now).2 :=
    List.exists_mem_of_length_pos (by omega)
  have hnone := received_of_parse (v := g.destination scope) (parse_makeCpiPackets hpacket)
  have hsome := hall packet hpacket
  rw [hnone] at hsome
  cases hsome

theorem not_cpiReassembled : ¬ g.CpiReassembled dataTs now scope cfg clk := by
  intro hall
  obtain ⟨e, he, -⟩ := hall _ (.refl _)
  have hnone : (g.makeCpiPackets dataTs now).2.filterMap (received (g.destination scope)) = [] := by
    rw [List.filterMap_eq_nil_iff]
    intro packet hpacket
    exact received_of_parse (parse_makeCpiPackets hpacket)
  rw [framesOf, hnone] at he
  cases he

/-! ## The older interface -/

theorem parseSpecificHeader_eq {bytes : List Byte} {payloadLen : Nat}
    {specific : DataSpecificHeader}
    (h : parseSpecificHeader cfg (some bytes) payloadLen = some specific) :
    specific = DataSpecificHeader.decode bytes := by
  unfold parseSpecificHeader at h
  simp only at h
  split at h
  case isTrue => cases h
  case isFalse =>
  split at h
  case isTrue => cases h
  case isFalse =>
  split at h
  case isTrue => cases h
  case isFalse => exact (Option.some.inj h).symm

/-- **The packet has no snapshot in front of its body**: as a tail it is 40 bytes short. -/
theorem fragmentOf_makeDataPacket {packet : List Byte} {p : ParsedPacket}
    (h : (g.makeDataPacket nowMs dataTs).2 = some packet) (hp : parse (some packet) = some p) :
    fragmentOf cfg p = none := by
  obtain ⟨-, hpayload, hlen⟩ := parse_length hp
  have hfit := p.header.payloadLen.isLt
  unfold makeDataPacket at h
  simp only at h
  split at h
  case isTrue => cases h
  case isFalse hbig =>
  obtain rfl := Option.some.inj h
  rw [List.append_assoc, List.drop_left' (show _ = commonHeaderSize from commonHeader.length_bytes _)]
    at hpayload
  rw [List.length_append, List.length_append, commonHeader.length_bytes,
    dataSpecificHeader.length_bytes, List.length_map, List.length_range,
    show commonHeader.size = commonHeaderSize from rfl,
    show dataSpecificHeader.size = specificSize from rfl] at hlen
  unfold fragmentOf
  simp only
  cases hspec : parseSpecificHeader cfg p.payload p.header.payloadLen.toNat with
  | none => rfl
  | some specific =>
    rw [hpayload] at hspec
    have hdecode := parseSpecificHeader_eq hspec
    rw [dataSpecificHeader_front] at hdecode
    subst hdecode
    have hlong : (BitVec.ofNat 16 (g.config.fragPayloadBytes - specificSize)).toNat =
        g.config.fragPayloadBytes - specificSize := by
      rw [BitVec.toNat_ofNat]
      exact Nat.mod_eq_of_lt (by omega)
    simp only [DataSpecificHeader.isTailFragment, hlong]
    have hne : p.header.payloadLen.toNat ≠
        specificSize + snapshotSize + (g.config.fragPayloadBytes - specificSize) := by
      simp only [snapshotSize]
      omega
    rw [if_pos hne]
    simp

theorem not_dataReassembled : ¬ g.DataReassembled nowMs dataTs scope cfg clk := by
  intro ⟨packet, hpacket, e, he, _⟩
  rw [framesOf, List.filterMap_cons, List.filterMap_nil] at he
  cases hr : received (g.destination scope) packet with
  | none =>
    rw [hr] at he
    cases he
  | some p =>
    have hp : parse (some packet) = some p := (Option.filter_eq_some_iff.1 hr).1
    have hnone : fragmentOf (Reassembler.new cfg).config p = none :=
      fragmentOf_makeDataPacket hpacket hp
    have hframes : ((Reassembler.new cfg).run clk [.processPacket p]).2 = [] := by
      simp only [Reassembler.run, Machine.run, Reassembler.step, Reassembler.processPacket,
        Reassembler.processWith, hnone, List.append_nil]
    rw [hr] at he
    exact absurd (hframes.symm.trans he) (by simp)

/-! ## The emulator and the receiver -/

/-- **The emulator does not speak the receiver's protocol**: for no configuration are the packets of
an interval accepted or reassembled, nor does a packet of the older interface make a frame. -/
theorem emulator_not_understood (g : PacketGenerator) (h : 1 ≤ g.config.cpiFrags.toNat)
    (dataTs nowMs : BitVec 64) (now : Nat → BitVec 64) (scope : Scope) (cfg : ReassemblerConfig)
    (clk : SystemClock) :
    ¬ g.CpiAccepted dataTs now scope ∧ ¬ g.CpiReassembled dataTs now scope cfg clk ∧
      ¬ g.DataReassembled nowMs dataTs scope cfg clk :=
  ⟨not_cpiAccepted h, not_cpiReassembled, not_dataReassembled⟩

/-- The defaults of the emulator: 128 fragments of 1400 bytes. -/
def fresh : PacketGenerator where
  config := {}

theorem fresh_not_understood :
    1 ≤ fresh.config.cpiFrags.toNat ∧ ¬ fresh.CpiAccepted 0 (fun _ => 0) .dataAndHeartbeat :=
  ⟨by decide, (emulator_not_understood fresh (by decide) 0 0 (fun _ => 0) .dataAndHeartbeat {}
    fun _ => 0).1⟩

/-- On the defaults, which are in the range of the protocol, neither interface is understood. -/
theorem fresh_counterexample :
    1 ≤ fresh.config.cpiFrags.toNat ∧ fresh.config.cpiFrags.toNat ≤ 1024 ∧
      1 ≤ fresh.config.fragPayloadBytes ∧
      commonHeaderSize + specificSize + snapshotSize + fresh.config.fragPayloadBytes + 4 ≤ 65507 ∧
      fresh.config.cpiFrags.toNat * fresh.config.fragPayloadBytes ≤
        ({} : ReassemblerConfig).maxReasmBytesPerKey ∧
      ¬ (fresh.CpiAccepted 0 (fun _ => 0) .dataAndHeartbeat ∧
        fresh.CpiReassembled 0 (fun _ => 0) .dataAndHeartbeat {} (fun _ => 0) ∧
        fresh.DataReassembled 0 0 .dataAndHeartbeat {} (fun _ => 0)) :=
  ⟨by decide, by decide, by decide, by decide, by decide,
    fun h => not_cpiAccepted (by decide) h.1⟩

end PacketGenerator

end Qdgz300.Emulator
