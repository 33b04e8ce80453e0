import Qdgz300.Common.Proof.SpscContents
import Qdgz300.Pipeline.RxStage

/-!
# What the receive stage lets through, and its counters

`Accepts d b` is the grammar of the datagrams for device `d`, in terms of the bytes alone.
`onPacket_eq` says that `on_packet` pushes exactly these; `RxAccounts` carries the counters, the
contents of the queue and the order of what was popped through a run.
-/

namespace Qdgz300.Pipeline

open Protocol Common Bytes

/-- A datagram for device `d`. -/
@[mk_iff] structure Accepts (d : BitVec 8) (b : List Byte) : Prop where
  size : 32 ≤ b.length
  magic : le32 b 0 = 0x55AA55AA
  version : b.getD 19 0 >>> 4 = 3
  payload : (le16 b 16).toNat ≤ maxPayloadSize
  length : 32 + (le16 b 16).toNat = b.length
  dest : (b.getD 21 0 = d ∨ b.getD 21 0 = deviceBroadcast) ∧ b.getD 21 0 ≠ deviceReserved
  kind : b.getD 18 0 = PacketType.data.toByte ∨
    b.getD 18 0 = PacketType.heartbeat.toByte ∧ 48 ≤ (le16 b 16).toNat ∧
      le32 (b.drop 32) 44 = castagnoli ((b.drop 32).take 44)

instance (d : BitVec 8) (b : List Byte) : Decidable (Accepts d b) :=
  decidable_of_iff _ (accepts_iff d b).symm

/-- The envelope of a datagram. -/
def envelopeOf (arrayId : BitVec 8) (b : List Byte) (ts : BitVec 64) : RxEnvelope where
  header := CommonHeader.decode b
  arrayId
  rxTimestampNs := ts
  packetLength := BitVec.ofNat 32 b.length
  packetData := some b

/-- The envelope of a call that brings a datagram for the device. -/
def arrival? (arrayId d : BitVec 8) : RxOp → Option RxEnvelope
  | .onPacket raw => raw.data.bind fun b =>
    if Accepts d b then some (envelopeOf arrayId b raw.receiveTimestampNs) else none
  | .pop => none

/-! ## Acceptance -/

theorem basicValidation_iff (header : CommonHeader) (n : Nat) :
    basicValidation header n = true ↔
      header.magic = protocolMagic ∧ header.majorVersion = protocolVersionMajor ∧
        header.payloadLen.toNat ≤ maxPayloadSize ∧
        commonHeaderSize + header.payloadLen.toNat = n := by
  unfold basicValidation
  split_ifs <;> simp_all

theorem parse_eq_some_iff {b : List Byte} {parsed : ParsedPacket} :
    parse (some b) = some parsed ↔
      commonHeaderSize ≤ b.length ∧ basicValidation (CommonHeader.decode b) b.length = true ∧
        parsed = { header := CommonHeader.decode b
                   payload := some (b.drop commonHeaderSize)
                   totalSize := b.length } := by
  simp only [parse]
  split_ifs with hshort hbasic
  · simp [hshort]
  · simp [hbasic]
  · simp [Nat.le_of_not_lt hshort, Bool.eq_true_of_not_eq_false hbasic, eq_comm]

theorem verifyHeartbeatCrc_iff (bs : List Byte) (n : Nat) :
    verifyHeartbeatCrc (some bs) n = true ↔ 48 ≤ n ∧ le32 bs 44 = castagnoli (bs.take 44) := by
  unfold verifyHeartbeatCrc heartbeatPayloadSize
  split_ifs with hshort
  · simp [hshort]
  · simp [Nat.le_of_not_lt hshort, crc32c_eq_castagnoli]

theorem checkDestId_iff (v : Validator) (destId : BitVec 8) :
    v.checkDestId destId = true ↔
      (destId = v.localDeviceId ∨ destId = deviceBroadcast) ∧ destId ≠ deviceReserved := by
  unfold Validator.checkDestId
  split_ifs with hreserved <;> simp [hreserved]

/-- The tests of the validator on a packet that the parser let through: only the destination, the
type and the check sum are left. -/
theorem validate_ok_iff {v : Validator} (hscope : v.scope = .dataAndHeartbeat)
    {header : CommonHeader} {bs : List Byte} {n : Nat} (hbasic : basicValidation header n = true) :
    v.validate { header, payload := some bs, totalSize := n } = .ok ↔
      v.checkDestId header.destId = true ∧
        (header.packetType = PacketType.data.toByte ∨
          header.packetType = PacketType.heartbeat.toByte ∧
            verifyHeartbeatCrc (some bs) header.payloadLen.toNat = true) := by
  obtain ⟨hmagic, hversion, -, hlen⟩ := (basicValidation_iff header n).1 hbasic
  have hne : PacketType.data.toByte ≠ PacketType.heartbeat.toByte := by decide
  unfold Validator.validate Validator.validatePayloadByType
  simp only [hmagic, hversion, hlen, hscope, ne_eq, not_true_eq_false, if_false, true_and,
    reduceCtorEq, false_and]
  by_cases hdest : v.checkDestId header.destId = true
  · by_cases hdata : header.packetType = PacketType.data.toByte
    · simp [hdest, hdata]
    · by_cases hbeat : header.packetType = PacketType.heartbeat.toByte
      · simp [hdest, hbeat, hne.symm]
      · simp [hdest, hdata, hbeat]
  · simp [hdest]

/-- **Acceptance**: the parser and the validator together decide the grammar. -/
theorem accepts_iff_checks {v : Validator} (hscope : v.scope = .dataAndHeartbeat) (b : List Byte) :
    Accepts v.localDeviceId b ↔ ∃ parsed, parse (some b) = some parsed ∧
    v.validate parsed = .ok := by
  have hchecks : Accepts v.localDeviceId b ↔ commonHeaderSize ≤ b.length ∧
      basicValidation (CommonHeader.decode b) b.length = true ∧
      v.checkDestId (CommonHeader.decode b).destId = true ∧
      ((CommonHeader.decode b).packetType = PacketType.data.toByte ∨
        (CommonHeader.decode b).packetType = PacketType.heartbeat.toByte ∧
          verifyHeartbeatCrc (some (b.drop 32)) (CommonHeader.decode b).payloadLen.toNat =
            true) := by
    rw [accepts_iff, basicValidation_iff, checkDestId_iff, verifyHeartbeatCrc_iff]
    simp only [CommonHeader.decode, CommonHeader.majorVersion, protocolMagic, protocolVersionMajor,
      commonHeaderSize, and_assoc]
  rw [hchecks]
  constructor
  · rintro ⟨hsize, hbasic, hrest⟩
    exact ⟨_, parse_eq_some_iff.2 ⟨hsize, hbasic, rfl⟩, (validate_ok_iff hscope hbasic).2 hrest⟩
  · rintro ⟨parsed, hparse, hok⟩
    obtain ⟨hsize, hbasic, rfl⟩ := parse_eq_some_iff.1 hparse
    exact ⟨hsize, hbasic, (validate_ok_iff hscope hbasic).1 hok⟩

/-- **What `on_packet` does**: a datagram for the device is pushed, every other one only counted. -/
theorem onPacket_eq {arrayId d : BitVec 8} {stage : RxStage} (harray : stage.arrayId = arrayId)
    (hdevice : stage.validator.localDeviceId = d)
    (hscope : stage.validator.scope = .dataAndHeartbeat) (raw : ReceivedPacket) :
    match arrival? arrayId d (.onPacket raw) with
    | some env => stage.onPacket raw =
        RxStage.enqueue { stage with
          rxTotal := stage.rxTotal + 1
          parseOk := stage.parseOk + 1
          validateOk := stage.validateOk + 1 } env
    | none => ∃ k ≤ 1, stage.onPacket raw =
        { stage with rxTotal := stage.rxTotal + 1, parseOk := stage.parseOk + k } := by
  subst harray hdevice
  obtain ⟨data, ts⟩ := raw
  cases data with
  | none => exact ⟨0, Nat.zero_le 1, rfl⟩
  | some b =>
    have haccepts := accepts_iff_checks hscope b
    cases hparse : parse (some b) with
    | none =>
      have hnot : ¬ Accepts stage.validator.localDeviceId b := by
        rw [haccepts]
        rintro ⟨parsed, hsome, -⟩
        rw [hparse] at hsome
        cases hsome
      simp only [arrival?, Option.bind_some, if_neg hnot]
      exact ⟨0, Nat.zero_le 1, by simp [RxStage.onPacket, hparse]⟩
    | some parsed =>
      have hheader : parsed.header = CommonHeader.decode b := by
        obtain ⟨-, -, rfl⟩ := parse_eq_some_iff.1 hparse
        rfl
      by_cases hok : stage.validator.validate parsed = .ok
      · have hacc := haccepts.2 ⟨_, hparse, hok⟩
        simp only [arrival?, Option.bind_some, if_pos hacc]
        simp [RxStage.onPacket, hparse, hok, envelopeOf, hheader]
      · have hnot : ¬ Accepts stage.validator.localDeviceId b := by
          rw [haccepts]
          rintro ⟨parsed', hsome, hok'⟩
          rw [hparse, Option.some.injEq] at hsome
          exact hok (hsome ▸ hok')
        simp only [arrival?, Option.bind_some, if_neg hnot]
        exact ⟨1, Nat.le_refl 1, by simp [RxStage.onPacket, hparse, hok]⟩

/-! ## Runs -/

/-- The state of the stage after a run that popped `popped`, in which the envelopes `arrived` came
in and the queue had the sizes `depths` after the pushes. -/
structure RxAccounts (arrayId d : BitVec 8) (stage : RxStage) (popped arrived : List RxEnvelope)
    (depths : List Nat) : Prop where
  arrayId : stage.arrayId = arrayId
  device : stage.validator.localDeviceId = d
  scope : stage.validator.scope = .dataAndHeartbeat
  queue : ∃ contents, Holds rxQueueCapacity stage.queue contents ∧
    List.Sublist (popped ++ contents) arrived ∧
    arrived.length = popped.length + stage.queue.dropCount + contents.length
  enqueued : stage.enqueued = arrived.length
  validated : stage.validateOk = arrived.length
  parsed : stage.validateOk ≤ stage.parseOk ∧ stage.parseOk ≤ stage.rxTotal
  watermark : stage.queueHighWatermark = depths.foldl max 0

section
variable {arrayId d : BitVec 8} {stage : RxStage} {popped arrived : List RxEnvelope}
  {depths : List Nat}

theorem rxAccounts_new (arrayId d : BitVec 8) : RxAccounts arrayId d (.new arrayId d) [] [] [] where
  arrayId := rfl
  device := rfl
  scope := rfl
  queue := ⟨[], holds_new _, List.Sublist.refl _, rfl⟩
  enqueued := rfl
  validated := rfl
  parsed := ⟨Nat.le_refl _, Nat.le_refl _⟩
  watermark := rfl

/-- A push keeps the order and drops at most the oldest envelope. -/
theorem RxAccounts.enqueue (h : RxAccounts arrayId d stage popped arrived depths)
    (env : RxEnvelope) :
    RxAccounts arrayId d (RxStage.enqueue { stage with
        rxTotal := stage.rxTotal + 1
        parseOk := stage.parseOk + 1
        validateOk := stage.validateOk + 1 } env) popped (arrived ++ [env])
      (depths ++ [(RxStage.enqueue stage env).queue.size rxQueueCapacity]) := by
  obtain ⟨contents, hholds, hsub, hlen⟩ := h.queue
  refine ⟨h.arrayId, h.device, h.scope, ?_, ?_, ?_, ?_, ?_⟩
  · rcases hholds.dropOldestPush (by decide) env with
      ⟨-, hafter, hdrops⟩ | ⟨x, rest, rfl, -, hafter, hdrops⟩
    · refine ⟨contents ++ [env], hafter, ?_, ?_⟩
      · rw [← List.append_assoc]
        exact hsub.append (List.Sublist.refl _)
      · simp only [RxStage.enqueue, List.length_append, List.length_singleton, hdrops, hlen]
        omega
    · refine ⟨rest ++ [env], hafter, ?_, ?_⟩
      · have hrest : List.Sublist (popped ++ rest) arrived :=
          ((List.sublist_cons_self x rest).append_left popped).trans hsub
        rw [← List.append_assoc]
        exact hrest.append (List.Sublist.refl _)
      · simp only [RxStage.enqueue, List.length_append, List.length_cons, hdrops, hlen]
        omega
  · simp [RxStage.enqueue, h.enqueued]
  · simp [RxStage.enqueue, h.validated]
  · obtain ⟨hvp, hpr⟩ := h.parsed
    exact ⟨Nat.succ_le_succ hvp, Nat.succ_le_succ hpr⟩
  · rw [List.foldl_append, ← h.watermark]
    simp only [RxStage.enqueue, List.foldl_cons, List.foldl_nil]
    split_ifs <;> omega

theorem RxAccounts.reject (h : RxAccounts arrayId d stage popped arrived depths) {k : Nat}
    (hk : k ≤ 1) :
    RxAccounts arrayId d { stage with
      rxTotal := stage.rxTotal + 1
      parseOk := stage.parseOk + k } popped arrived depths := by
  obtain ⟨hvp, hpr⟩ := h.parsed
  exact ⟨h.arrayId, h.device, h.scope, h.queue, h.enqueued, h.validated,
    ⟨Nat.le_add_right_of_le hvp, Nat.add_le_add hpr hk⟩, h.watermark⟩

theorem pop_of_holds {contents : List RxEnvelope} (h : Holds rxQueueCapacity stage.queue contents) :
    stage.pop.2 = contents.head?.toList ∧ Holds rxQueueCapacity stage.pop.1.queue contents.tail ∧
      stage.pop.1.queue.dropCount = stage.queue.dropCount := by
  cases contents with
  | nil =>
    simp only [RxStage.pop, h.tryPop_nil]
    exact ⟨rfl, h, trivial⟩
  | cons x rest =>
    obtain ⟨hfront, hrest, hdrops⟩ := h.tryPop_cons RxEnvelope.moved
    refine ⟨?_, hrest, hdrops⟩
    simp only [RxStage.pop, hfront, List.head?_cons]

/-- What was popped comes in front of what the queue holds. -/
theorem RxAccounts.pop (h : RxAccounts arrayId d stage popped arrived depths) :
    RxAccounts arrayId d stage.pop.1 (popped ++ stage.pop.2) arrived depths := by
  obtain ⟨contents, hholds, hsub, hlen⟩ := h.queue
  obtain ⟨hpopped, hrest, hdrops⟩ := pop_of_holds hholds
  have hparts : (popped ++ stage.pop.2) ++ contents.tail = popped ++ contents := by
    rw [hpopped, List.append_assoc]
    cases contents <;> rfl
  have hcount : (popped ++ stage.pop.2).length + contents.tail.length =
      popped.length + contents.length := by
    rw [← List.length_append, hparts, List.length_append]
  refine ⟨h.arrayId, h.device, h.scope, ⟨contents.tail, hrest, ?_, ?_⟩, h.enqueued, h.validated,
    h.parsed, h.watermark⟩
  · rw [hparts]
    exact hsub
  · rw [hdrops]
    omega

/-- **One call.** -/
theorem RxAccounts.step (h : RxAccounts arrayId d stage popped arrived depths) (op : RxOp) :
    RxAccounts arrayId d (stage.step op).1 (popped ++ (stage.step op).2)
      (arrived ++ (arrival? arrayId d op).toList) (depths ++ stage.depths [op]) := by
  cases op with
  | pop =>
    have hsame : stage.depths [.pop] = [] := by simp [RxStage.depths, RxStage.step, RxStage.pop]
    rw [hsame, List.append_nil]
    simpa [arrival?, RxStage.step] using h.pop
  | onPacket raw =>
    have hcall := onPacket_eq h.arrayId h.device h.scope raw
    cases harrival : arrival? arrayId d (.onPacket raw) with
    | none =>
      rw [harrival] at hcall
      obtain ⟨k, hk, heq⟩ := hcall
      simpa [RxStage.depths, RxStage.step, heq] using h.reject hk
    | some env =>
      rw [harrival] at hcall
      simp only at hcall
      simpa [RxStage.depths, RxStage.step, hcall, RxStage.enqueue] using h.enqueue env

/-- **A run.** -/
theorem RxAccounts.run (ops : List RxOp) : ∀ {stage : RxStage} {popped arrived : List RxEnvelope}
    {depths : List Nat}, RxAccounts arrayId d stage popped arrived depths →
    RxAccounts arrayId d (stage.run ops).1 (popped ++ (stage.run ops).2)
      (arrived ++ ops.filterMap (arrival? arrayId d)) (depths ++ stage.depths ops) := by
  induction ops with
  | nil =>
    intro stage popped arrived depths h
    simpa [RxStage.run, RxStage.depths] using h
  | cons op ops ih =>
    intro stage popped arrived depths h
    have htail := ih (h.step op)
    have harrivals : (op :: ops).filterMap (arrival? arrayId d) =
        (arrival? arrayId d op).toList ++ ops.filterMap (arrival? arrayId d) := by
      cases harrival : arrival? arrayId d op <;> simp [harrival]
    have hdepths : stage.depths (op :: ops) = stage.depths [op] ++ (stage.step op).1.depths ops := by
      simp [RxStage.depths]
    rw [harrivals, hdepths, ← List.append_assoc, ← List.append_assoc]
    simpa only [RxStage.run, Machine.run, List.append_assoc] using htail

end

/-- **The receive stage accounts for every datagram.** After any calls, the next datagram is pushed,
as the envelope of its bytes, exactly if it is in the grammar, and a pop takes the oldest envelope
of the queue; the counters add up, what was popped is in the order of arrival, and the watermark is
the largest size after a push. -/
theorem rxStage_accounts (arrayId d : BitVec 8) (ops : List RxOp) :
    let stage := ((RxStage.new arrayId d).run ops).1
    let popped := ((RxStage.new arrayId d).run ops).2
    (∃ contents, Holds rxQueueCapacity stage.queue contents ∧
      stage.pop.2 = contents.head?.toList ∧
      Holds rxQueueCapacity stage.pop.1.queue contents.tail ∧
      ∀ b ts, if Accepts d b then
        (stage.onPacket ⟨some b, ts⟩).enqueued = stage.enqueued + 1 ∧
        (∃ kept, kept <:+ contents ∧ Holds rxQueueCapacity (stage.onPacket ⟨some b, ts⟩).queue
          (kept ++ [envelopeOf arrayId b ts])) ∧
        (envelopeOf arrayId b ts).packetLength.toNat = b.length
      else
        (stage.onPacket ⟨some b, ts⟩).enqueued = stage.enqueued ∧
        (stage.onPacket ⟨some b, ts⟩).queue = stage.queue) ∧
    stage.getStats.parseOk ≤ stage.getStats.rxTotal ∧
    stage.getStats.validateOk ≤ stage.getStats.parseOk ∧
    stage.getStats.validateOk = stage.getStats.enqueued ∧
    stage.getStats.enqueued =
      popped.length + stage.getStats.queueDrops + stage.queue.size rxQueueCapacity ∧
    List.Sublist popped (ops.filterMap (arrival? arrayId d)) ∧
    stage.getStats.queueHighWatermark = ((RxStage.new arrayId d).depths ops).foldl max 0 := by
  intro stage popped
  have h : RxAccounts arrayId d stage popped (ops.filterMap (arrival? arrayId d))
      ((RxStage.new arrayId d).depths ops) := by
    simpa using (rxAccounts_new arrayId d).run ops
  obtain ⟨contents, hholds, hsub, hlen⟩ := h.queue
  obtain ⟨hpopped, hrest, -⟩ := pop_of_holds hholds
  refine ⟨⟨contents, hholds, hpopped, hrest, ?_⟩, h.parsed.2, h.parsed.1, ?_, ?_, ?_, h.watermark⟩
  · intro b ts
    have hcall := onPacket_eq h.arrayId h.device h.scope ⟨some b, ts⟩
    by_cases haccepts : Accepts d b
    · rw [if_pos haccepts]
      simp only [arrival?, Option.bind_some, if_pos haccepts] at hcall
      rw [hcall]
      refine ⟨rfl, ?_, ?_⟩
      · rcases hholds.dropOldestPush (by decide) (envelopeOf arrayId b ts) with
          ⟨-, hafter, -⟩ | ⟨x, rest, rfl, -, hafter, -⟩
        · exact ⟨contents, List.suffix_refl _, hafter⟩
        · exact ⟨rest, List.suffix_cons x rest, hafter⟩
      · have hpayload := haccepts.payload
        have hlength := haccepts.length
        rw [maxPayloadSize] at hpayload
        rw [envelopeOf, BitVec.toNat_ofNat, Nat.mod_eq_of_lt (by omega)]
    · rw [if_neg haccepts]
      simp only [arrival?, Option.bind_some, if_neg haccepts] at hcall
      obtain ⟨k, -, heq⟩ := hcall
      rw [heq]
      exact ⟨rfl, rfl⟩
  · exact h.validated.trans h.enqueued.symm
  · rw [hholds.size]
    exact h.enqueued.trans hlen
  · exact (List.sublist_append_left popped contents).trans hsub

end Qdgz300.Pipeline
