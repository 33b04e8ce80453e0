import Qdgz300.Emulator.ArraySender
import Qdgz300.Emulator.Proof.Understood
import Qdgz300.Pipeline.Proof.RxAccounting

/-!
# What an emulated array sends to a device

Its heartbeats. The packets of the intervals are refused (`parse_makeCpiPackets`), and no impairment
makes others of them (`applyImpairments_subperm`). **`ArraySender.filter_run`** says what a run of
the sender has for a device.
-/

namespace Qdgz300.Emulator

open Bytes Protocol Pipeline

/-! ## Impairments -/

section
variable {α : Type}

theorem swap_perm (packet : α) : ∀ (k : Nat) (packets : List α),
    (packets.getD k packet :: packets.set k packet).Perm (packet :: packets)
  | _, [] => .refl _
  | 0, other :: packets => .swap packet other packets
  | k + 1, other :: packets => by
    have hrest := (swap_perm packet k packets).cons other
    exact (List.Perm.swap other (packets.getD k packet) (packets.set k packet)).trans
      (hrest.trans (.swap packet other packets))

theorem shuffle_perm (depth : Nat) : ∀ (n : Nat) (place : Nat → Nat) (packets : List α),
    (shuffle depth n place packets).Perm packets
  | 0, _, packets => .refl packets
  | _ + 1, _, [] => .refl []
  | n + 1, place, packet :: packets => by
    rw [shuffle]
    split
    · exact (shuffle_perm depth n _ packets).cons packet
    · exact ((shuffle_perm depth n _ _).cons _).trans (swap_perm packet _ packets)

theorem kept_sublist (keeps : Nat → Bool) (packets : List α) :
    (kept keeps packets).Sublist packets := by
  have h := (List.filter_sublist (p := fun p : α × Nat => keeps p.2) (l := packets.zipIdx)).map Prod.fst
  rwa [List.zipIdx_map_fst] at h

/-- **Impairments** lose and move packets, and make no others. -/
theorem applyImpairments_subperm (config : ImpairmentConfig) (draws : Draws) (packets : List α) :
    (applyImpairments config draws packets).Subperm packets := by
  have hkept : (if config.drops then kept draws.keeps packets else packets).Sublist packets := by
    split
    · exact kept_sublist _ _
    · exact List.Sublist.refl _
  unfold applyImpairments
  generalize (if config.drops then kept draws.keeps packets else packets) = left at hkept
  dsimp only
  split
  · exact (shuffle_perm _ _ _ _).subperm.trans hkept.subperm
  · exact hkept.subperm

end

/-! ## The packets of the sender -/

/-- The header of the next heartbeat. -/
def heartbeatHeader (g : PacketGenerator) (nowMs : BitVec 64) : CommonHeader :=
  (g.fillCommonHeader nowMs (BitVec.ofNat 16 heartbeatPayloadSize) .heartbeat).2

@[simp] theorem heartbeatHeader_sequenceNumber (g : PacketGenerator) (nowMs : BitVec 64) :
    (heartbeatHeader g nowMs).sequenceNumber = g.nextSequence := rfl

def heartbeatBytes (header : CommonHeader) : List Byte :=
  commonHeader.bytes header ++ heartbeatPayload.bytes checkedStatus

namespace PacketGenerator

variable {g : PacketGenerator}

theorem makeFragments_generator (frameCounter cpiCount : BitVec 32) (dataTs : BitVec 64)
    (now : Nat → BitVec 64) : ∀ (n fragIdx : Nat) (g : PacketGenerator),
    (makeFragments frameCounter cpiCount dataTs now n fragIdx g).1 =
      { g with nextSequence := g.nextSequence + BitVec.ofNat 32 n }
  | 0, _, g => by simp [makeFragments]
  | n + 1, fragIdx, g => by
    have hrest := makeFragments_generator frameCounter cpiCount dataTs now n (fragIdx + 1)
      { g with nextSequence := g.nextSequence + 1 }
    have hsum : g.nextSequence + 1 + BitVec.ofNat 32 n = g.nextSequence + BitVec.ofNat 32
      (n + 1) := by
      rw [BitVec.add_assoc, BitVec.add_comm 1]
      simp [BitVec.ofNat_add]
    rw [hsum] at hrest
    exact hrest

theorem makeCpiPackets_generator (dataTs : BitVec 64) (now : Nat → BitVec 64) :
    (g.makeCpiPackets dataTs now).1.config = g.config ∧
      (g.makeCpiPackets dataTs now).1.nextSequence =
        g.nextSequence + BitVec.ofNat 32 g.config.cpiFrags.toNat := by
  unfold makeCpiPackets
  dsimp only
  rw [makeFragments_generator]
  exact ⟨rfl, rfl⟩

end PacketGenerator

theorem bytes_checkedStatus : ∃ body : List Byte, body.length = 44 ∧
    heartbeatPayload.bytes checkedStatus = body ++ toLe 4 (crc32c body).toNat := by
  have hsplit : ∀ crc, ∃ body : List Byte, body.length = 44 ∧
      heartbeatPayload.bytes emulatedStatus = body ++ toLe 4 0 ∧
      heartbeatPayload.bytes { emulatedStatus with crc32c := crc } = body ++ toLe 4 crc.toNat :=
    fun crc => ⟨_, Image.length_bytes _ _, rfl, rfl⟩
  obtain ⟨body, hlen, hzero, hbytes⟩ :=
    hsplit (crc32c ((heartbeatPayload.bytes emulatedStatus).take (heartbeatPayloadSize - 4)))
  have htake : (body ++ toLe 4 0).take (heartbeatPayloadSize - 4) = body := List.take_left' hlen
  refine ⟨body, hlen, ?_⟩
  rw [checkedStatus, hbytes, hzero, htake]

theorem le32_checkedStatus : le32 (heartbeatPayload.bytes checkedStatus) 44 =
    crc32c ((heartbeatPayload.bytes checkedStatus).take 44) := by
  obtain ⟨body, hlen, hbytes⟩ := bytes_checkedStatus
  have hread := le32_at body [] hlen (crc32c body)
  rw [List.append_nil] at hread
  rw [hbytes, hread, List.take_left' hlen]

/-- **A heartbeat** is for the device that it is sent to. -/
theorem accepts_heartbeat {g : PacketGenerator} {d : BitVec 8} (hdest : g.config.destId = d)
    (hd : d ≠ deviceReserved) (nowMs : BitVec 64) :
    Accepts d (heartbeatBytes (heartbeatHeader g nowMs)) := by
  have hdecode : CommonHeader.decode (heartbeatBytes (heartbeatHeader g nowMs)) =
    heartbeatHeader g nowMs :=
    commonHeader_front _ _
  have hlen : (heartbeatBytes (heartbeatHeader g nowMs)).length = 80 := by
    rw [heartbeatBytes, List.length_append, Image.length_bytes, Image.length_bytes]
    rfl
  have hversion : Protocol.protocolVersion >>> 4 = protocolVersionMajor := by decide
  have hfits : (BitVec.ofNat 16 heartbeatPayloadSize).toNat ≤ maxPayloadSize := by decide
  have hbasic : basicValidation (heartbeatHeader g nowMs) 80 = true :=
    (basicValidation_iff _ _).2 ⟨rfl, hversion, hfits, rfl⟩
  have hpayload : (heartbeatBytes (heartbeatHeader g nowMs)).drop 32 =
      heartbeatPayload.bytes checkedStatus := List.drop_left' (commonHeader.length_bytes _)
  have hcrc : verifyHeartbeatCrc (some (heartbeatPayload.bytes checkedStatus)) 48 = true := by
    simp [verifyHeartbeatCrc, heartbeatPayloadSize, le32_checkedStatus]
  refine (accepts_iff_checks (v := { localDeviceId := d }) rfl _).2 ⟨_, parse_eq_some_iff.2
    ⟨?_, ?_, rfl⟩, ?_⟩
  · rw [hlen]
    decide
  · rw [hdecode, hlen]
    exact hbasic
  · rw [hdecode, hlen, show commonHeaderSize = 32 from rfl, hpayload]
    refine (validate_ok_iff rfl hbasic).2 ⟨(checkDestId_iff _ _).2 ⟨.inl hdest, ?_⟩, .inr ⟨rfl, hcrc⟩⟩
    exact fun h => hd (hdest.symm.trans h)

theorem not_accepts_of_parse {d : BitVec 8} {packet : List Byte} (h : parse (some packet) = none) :
    ¬ Accepts d packet := by
  intro haccepts
  obtain ⟨parsed, hparse, -⟩ :=
    (accepts_iff_checks (v := { localDeviceId := d }) rfl packet).1 haccepts
  rw [h] at hparse
  cases hparse

namespace ArraySender

variable {s : ArraySender} {t : Tick} {d : BitVec 8}

/-- The headers of the heartbeats that are due in the iterations. -/
def beatHeaders : ArraySender → List Tick → List CommonHeader
  | _, [] => []
  | s, t :: ts =>
    let cpi := (s.sendCpi t).1
    (if cpi.due t then [heartbeatHeader cpi.generator t.heartbeatMs] else []) ++
      beatHeaders (s.tick t).1 ts

/-- The numbers of those iterations, from `n` on. -/
def beats : ArraySender → Nat → List Tick → List Nat
  | _, _, [] => []
  | s, n, t :: ts =>
    (if (s.sendCpi t).1.due t then [n] else []) ++ beats (s.tick t).1 (n + 1) ts

theorem sendCpi_refused : ∀ packet ∈ (s.sendCpi t).2, ¬ Accepts d packet := by
  intro packet hpacket
  have hmade := (applyImpairments_subperm _ _ _).subset ((kept_sublist _ _).subset hpacket)
  exact not_accepts_of_parse (PacketGenerator.parse_makeCpiPackets hmade)

/-- **An iteration** sends its heartbeat to the device, and nothing else. -/
theorem filter_tick (hdest : s.generator.config.destId = d) (hd : d ≠ deviceReserved)
    (htaken : t.heartbeatTaken = true) :
    (s.tick t).2.filter (Accepts d ·) =
      if (s.sendCpi t).1.due t then
        [heartbeatBytes (heartbeatHeader (s.sendCpi t).1.generator t.heartbeatMs)]
      else [] := by
  have hcpi : (s.sendCpi t).2.filter (Accepts d ·) = [] := by
    rw [List.filter_eq_nil_iff]
    intro packet hpacket
    simpa using sendCpi_refused packet hpacket
  have hdest' : (s.sendCpi t).1.generator.config.destId = d :=
    (congrArg GeneratorConfig.destId (PacketGenerator.makeCpiPackets_generator t.dataTs t.now).1).trans hdest
  simp only [tick, List.filter_append, hcpi, List.nil_append, sendHeartbeat]
  split
  · exact List.filter_cons_of_pos (decide_eq_true (accepts_heartbeat hdest' hd t.heartbeatMs))
  · rfl

theorem tick_generator :
    (s.tick t).1.generator.config = s.generator.config ∧
      (s.tick t).1.generator.nextSequence = (s.sendCpi t).1.generator.nextSequence +
        (if (s.sendCpi t).1.due t then 1 else 0) := by
  have hcpi := (PacketGenerator.makeCpiPackets_generator (g := s.generator) t.dataTs t.now).1
  unfold tick sendHeartbeat
  dsimp only
  split
  · exact ⟨hcpi, rfl⟩
  · exact ⟨hcpi, (BitVec.add_zero _).symm⟩

theorem filter_run (hd : d ≠ deviceReserved) : ∀ {ts : List Tick} {s : ArraySender},
    s.generator.config.destId = d → (∀ t ∈ ts, t.heartbeatTaken = true) →
      (Machine.run tick s ts).2.filter (Accepts d ·) = (s.beatHeaders ts).map heartbeatBytes
  | [], _, _, _ => rfl
  | t :: ts, s, hdest, htaken => by
    have hdest' : (s.tick t).1.generator.config.destId = d := by rw [tick_generator.1, hdest]
    rw [Machine.run, List.filter_append, filter_tick hdest hd (htaken t List.mem_cons_self),
      filter_run hd hdest' fun t' ht' => htaken t' (List.mem_cons_of_mem t ht')]
    rw [beatHeaders, List.map_append]
    split <;> rfl

end ArraySender

end Qdgz300.Emulator
