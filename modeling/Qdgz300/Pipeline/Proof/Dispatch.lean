import Qdgz300.Pipeline.Dispatcher
import Qdgz300.Protocol.Proof.HeartbeatCrc

/-!
# Heartbeats at the dispatcher

A heartbeat has the same outcome on all ways through the dispatcher (`heartbeatOutcome`). Its check
is the validator's except for a stored CRC of 0, which is taken for a missing one
(**`heartbeat_processed_iff`**). A batch goes to the handlers in the order of its list
(`batch_calls`), so heartbeats come first only where the list has them first
(**`batch_heartbeats_first_iff`**); the two queues that the class still has give that order to every
batch (`drain_heartbeats_first`).
-/

namespace Qdgz300.Pipeline

open Protocol Bytes

namespace Dispatcher

variable {d : Dispatcher} {nowMs : BitVec 64} {packet : ParsedPacket} {payload : List Byte}

/-! ## The check of a heartbeat -/

/-- What becomes of a heartbeat with the bytes `payload` when there is a handler. -/
def heartbeatOutcome (d : Dispatcher) (nowMs : BitVec 64) (packet : ParsedPacket)
    (payload : List Byte) : Dispatcher × List HandlerCall :=
  if heartbeatPayloadSize ≤ packet.header.payloadLen.toNat ∧ wireCrcFails payload = false then
    (d.acceptHeartbeat nowMs packet.header, [.heartbeat packet])
  else (d.refuseHeartbeat, [])

theorem refused_or {α : Type} {size need : Nat} {fails : Bool} {refuse accept : α} :
    (if size < need then refuse else if fails then refuse else accept) =
      if need ≤ size ∧ fails = false then accept else refuse := by
  by_cases hsize : size < need
  · rw [if_pos hsize, if_neg (by omega)]
  · cases fails with
    | true => simp
    | false => simp [Nat.le_of_not_lt hsize, hsize]

theorem dispatchHeartbeatDirect_eq (hpayload : packet.payload = some payload)
    (hhandler : d.heartbeatHandler = true) :
    d.dispatchHeartbeatDirect nowMs packet = d.heartbeatOutcome nowMs packet payload := by
  simp only [dispatchHeartbeatDirect, heartbeatOutcome, hpayload, hhandler, if_true, refused_or]

theorem dispatch_heartbeat (htype : packet.header.packetType = PacketType.heartbeat.toByte)
    (hpayload : packet.payload = some payload) (hhandler : d.heartbeatHandler = true) :
    d.dispatch nowMs packet = d.heartbeatOutcome nowMs packet payload := by
  rw [dispatch, htype, if_neg (by decide), if_pos rfl, dispatchHeartbeatDirect_eq hpayload hhandler]

theorem dispatchOwned_heartbeat (htype : packet.header.packetType = PacketType.heartbeat.toByte)
    (hpayload : packet.payload = some payload) (hhandler : d.heartbeatHandler = true)
    (buffer : Option (List Byte)) :
    d.dispatchOwned nowMs packet buffer = d.heartbeatOutcome nowMs packet payload := by
  rw [dispatchOwned, htype, if_neg (by decide), if_pos rfl,
    dispatchHeartbeatDirect_eq hpayload hhandler]

theorem queuedOf_payload (hpayload : packet.payload = some payload)
    (hlen : payload.length = packet.header.payloadLen.toNat) : (queuedOf packet).payload =
      payload := by
  rw [queuedOf, hpayload, ← hlen]
  exact List.take_length

theorem dispatchQueuedPacket_heartbeat
    (htype : packet.header.packetType = PacketType.heartbeat.toByte)
    (hpayload : packet.payload = some payload)
    (hlen : payload.length = packet.header.payloadLen.toNat)
    (hhandler : d.heartbeatHandler = true) :
    d.dispatchQueuedPacket nowMs (queuedOf packet) = d.heartbeatOutcome nowMs packet payload := by
  have hpacket : ParsedPacket.mk packet.header (some payload) packet.totalSize = packet := by
    rw [← hpayload]
  rw [dispatchQueuedPacket, show (queuedOf packet).type = packet.header.packetType from rfl, htype,
    if_neg (by decide), if_pos rfl, dispatchHeartbeatPacket, queuedOf_payload hpayload hlen, hlen,
    show (queuedOf packet).header = packet.header from rfl,
    show (queuedOf packet).totalSize = packet.totalSize from rfl, hpacket, hhandler, if_pos rfl,
    refused_or, heartbeatOutcome]

/-- The heartbeat was received: it is counted and handed on. -/
def Processed (d : Dispatcher) (packet : ParsedPacket) (outcome : Dispatcher × List HandlerCall) :
    Prop :=
  outcome.1.heartbeatStats.receivedTotal = d.heartbeatStats.receivedTotal + 1 ∧
    outcome.2 = [.heartbeat packet]

theorem processed_heartbeatOutcome :
    Processed d packet (d.heartbeatOutcome nowMs packet payload) ↔
      heartbeatPayloadSize ≤ packet.header.payloadLen.toNat ∧
        (le32 payload 44 = 0 ∨ le32 payload 44 = crc32c (payload.take 44)) := by
  have hcrc : wireCrcFails payload = false ↔
      le32 payload 44 = 0 ∨ le32 payload 44 = crc32c (payload.take 44) := by
    simp [wireCrcFails, or_iff_not_imp_left]
  rw [← hcrc, heartbeatOutcome]
  by_cases hpass : heartbeatPayloadSize ≤ packet.header.payloadLen.toNat ∧
    wireCrcFails payload = false
  · rw [if_pos hpass]
    exact ⟨fun _ => hpass, fun _ => ⟨rfl, rfl⟩⟩
  · rw [if_neg hpass]
    exact ⟨fun hprocessed => absurd hprocessed.2 (List.cons_ne_nil _ _).symm,
      fun hpass' => absurd hpass' hpass⟩

theorem validatePayloadByType_heartbeat
    (htype : packet.header.packetType = PacketType.heartbeat.toByte)
    (hpayload : packet.payload = some payload) :
    Validator.validatePayloadByType packet = .ok ↔
      heartbeatPayloadSize ≤ packet.header.payloadLen.toNat ∧
        le32 payload 44 = crc32c (payload.take 44) := by
  rw [Validator.validatePayloadByType, htype, if_neg (by decide), if_neg (by decide), hpayload,
    verifyHeartbeatCrc]
  by_cases hsize : packet.header.payloadLen.toNat < heartbeatPayloadSize
  · simp [hsize, Nat.not_le.2 hsize]
  · simp [hsize, Nat.le_of_not_lt hsize]

/-- **The check of a heartbeat** on each way through the dispatcher, and where it differs from the
validator's: a stored CRC of 0 over data whose CRC is another. -/
theorem heartbeat_processed_iff (d : Dispatcher) (nowMs : BitVec 64) (packet : ParsedPacket)
    (payload : List Byte) (buffer : Option (List Byte))
    (htype : packet.header.packetType = PacketType.heartbeat.toByte)
    (hpayload : packet.payload = some payload)
    (hlen : payload.length = packet.header.payloadLen.toNat)
    (hhandler : d.heartbeatHandler = true) :
    ∀ outcome ∈ [d.dispatch nowMs packet, d.dispatchOwned nowMs packet buffer,
        d.dispatchQueuedPacket nowMs (queuedOf packet)],
      (Processed d packet outcome ↔ heartbeatPayloadSize ≤ packet.header.payloadLen.toNat ∧
        (le32 payload 44 = 0 ∨ le32 payload 44 = crc32c (payload.take 44))) ∧
      ((Processed d packet outcome ↔ Validator.validatePayloadByType packet = .ok) ↔
        ¬(heartbeatPayloadSize ≤ packet.header.payloadLen.toNat ∧ le32 payload 44 = 0 ∧
          crc32c (payload.take 44) ≠ 0)) := by
  have hsame : ∀ outcome ∈ [d.dispatch nowMs packet, d.dispatchOwned nowMs packet buffer,
      d.dispatchQueuedPacket nowMs (queuedOf packet)],
      outcome = d.heartbeatOutcome nowMs packet payload := by
    rw [dispatch_heartbeat htype hpayload hhandler, dispatchOwned_heartbeat htype hpayload hhandler,
      dispatchQueuedPacket_heartbeat htype hpayload hlen hhandler]
    simp
  intro outcome houtcome
  rw [hsame outcome houtcome, processed_heartbeatOutcome, validatePayloadByType_heartbeat htype hpayload]
  refine ⟨Iff.rfl, ?_⟩
  by_cases hsize : heartbeatPayloadSize ≤ packet.header.payloadLen.toNat
  · by_cases hzero : le32 payload 44 = 0#32
    · simp [hsize, hzero, eq_comm]
    · simp [hsize, hzero]
  · simp [hsize]

/-- A dispatcher with both handlers. -/
def withHandlers : Dispatcher := .new true true

theorem zeroHeartbeat_processed :
    Validator.validatePayloadByType zeroHeartbeatPacket = .ok ∧
      ∀ outcome ∈ [withHandlers.dispatch 7 zeroHeartbeatPacket,
          withHandlers.dispatchOwned 7 zeroHeartbeatPacket none,
          withHandlers.dispatchQueuedPacket 7 (queuedOf zeroHeartbeatPacket)],
        Processed withHandlers zeroHeartbeatPacket outcome := by
  have hok : Validator.validatePayloadByType zeroHeartbeatPacket = .ok := by decide +kernel
  have hstored : heartbeatPayloadSize ≤ zeroHeartbeatPacket.header.payloadLen.toNat ∧
      (le32 zeroHeartbeat 44 = 0 ∨ le32 zeroHeartbeat 44 = crc32c (zeroHeartbeat.take 44)) := by
    decide +kernel
  refine ⟨hok, ?_⟩
  intro outcome houtcome
  exact (heartbeat_processed_iff withHandlers 7 zeroHeartbeatPacket zeroHeartbeat none rfl rfl
    (by decide +kernel) rfl outcome houtcome).1.2 hstored

/-- A heartbeat of 48 zeros, without a CRC. -/
def uncheckedHeartbeat : ParsedPacket :=
  { zeroHeartbeatPacket with payload := some (List.replicate 48 0) }

theorem uncheckedHeartbeat_disagrees :
    ¬(Processed withHandlers uncheckedHeartbeat (withHandlers.dispatch 7 uncheckedHeartbeat) ↔
      Validator.validatePayloadByType uncheckedHeartbeat = .ok) := by
  have hprocessed :
      Processed withHandlers uncheckedHeartbeat (withHandlers.dispatch 7 uncheckedHeartbeat) :=
    ⟨by decide +kernel, by decide +kernel⟩
  have hrefused : Validator.validatePayloadByType uncheckedHeartbeat = .crcMismatch := by
    decide +kernel
  rw [hrefused]
  intro hagree
  exact absurd (hagree.1 hprocessed) (by decide)

/-! ## The order of a batch -/

/-- `PacketType::DATA`. -/
def isData (packet : ParsedPacket) : Bool := packet.header.packetType == PacketType.data.toByte

/-- `PacketType::HEARTBEAT`. -/
def isHeartbeat (packet : ParsedPacket) : Bool :=
  packet.header.packetType == PacketType.heartbeat.toByte

/-- A heartbeat that the validator lets through. -/
def ValidHeartbeat (packet : ParsedPacket) : Prop :=
  isHeartbeat packet = true ∧ verifyHeartbeatCrc packet.payload packet.header.payloadLen.toNat = true

/-- The handler call of a packet. -/
def callOf (packet : ParsedPacket) : HandlerCall :=
  if isHeartbeat packet then .heartbeat packet else .data packet

theorem isHeartbeat_of_isData (h : isData packet = true) : isHeartbeat packet = false := by
  rw [isData, beq_iff_eq] at h
  rw [isHeartbeat, h]
  rfl

theorem callOf_injective : Function.Injective callOf := by
  intro p q h
  unfold callOf at h
  split at h <;> split at h
  · exact HandlerCall.heartbeat.inj h
  · cases h
  · cases h
  · exact HandlerCall.data.inj h

/-- A valid heartbeat is accepted. -/
theorem dispatch_valid (nowMs : BitVec 64) (hvalid : ValidHeartbeat packet) :
    d.dispatch nowMs packet =
      (d.acceptHeartbeat nowMs packet.header,
        if d.heartbeatHandler then [.heartbeat packet] else []) := by
  obtain ⟨htype, hcrc⟩ := hvalid
  cases hpayload : packet.payload with
  | none =>
    rw [hpayload] at hcrc
    exact absurd hcrc Bool.false_ne_true
  | some payload =>
    rw [hpayload, verifyHeartbeatCrc] at hcrc
    have hsize : heartbeatPayloadSize ≤ packet.header.payloadLen.toNat := by
      by_contra hsize
      rw [if_pos (Nat.lt_of_not_le hsize)] at hcrc
      exact absurd hcrc Bool.false_ne_true
    rw [if_neg (Nat.not_lt.2 hsize), beq_iff_eq] at hcrc
    have hpass : wireCrcFails payload = false := by simp [wireCrcFails, hcrc]
    rw [dispatch, beq_iff_eq.1 htype, if_neg (by decide), if_pos rfl, dispatchHeartbeatDirect, hpayload]
    simp only [refused_or, if_pos (And.intro hsize hpass)]

theorem dispatch_call (nowMs : BitVec 64) (hdata : d.dataHandler = true)
    (hhandler : d.heartbeatHandler = true) (h : isData packet = true ∨ ValidHeartbeat packet) :
    (d.dispatch nowMs packet).2 = [callOf packet] ∧
      (d.dispatch nowMs packet).1.dataHandler = true ∧
      (d.dispatch nowMs packet).1.heartbeatHandler = true := by
  obtain hpacket | hpacket := h
  · rw [dispatch, if_pos (beq_iff_eq.1 hpacket), callOf, isHeartbeat_of_isData hpacket]
    simp [hdata, hhandler, countData]
  · rw [dispatch_valid nowMs hpacket, callOf, hpacket.1, hhandler]
    exact ⟨rfl, hdata, hhandler⟩

theorem batch_calls {turns : List (BitVec 64 × ParsedPacket)} (hdata : d.dataHandler = true)
    (hhandler : d.heartbeatHandler = true)
    (h : ∀ turn ∈ turns, isData turn.2 = true ∨ ValidHeartbeat turn.2) :
    (d.dispatchBatch turns).2 = (turns.map Prod.snd).map callOf := by
  induction turns generalizing d with
  | nil => rfl
  | cons turn turns ih =>
    obtain ⟨hcall, hdata', hhandler'⟩ :=
      dispatch_call turn.1 hdata hhandler (h turn List.mem_cons_self)
    have hrest := ih hdata' hhandler' fun t ht => h t (List.mem_cons_of_mem turn ht)
    rw [dispatchBatch, Machine.run, hcall, List.map_cons, List.map_cons]
    exact congrArg (callOf turn.2 :: ·) hrest

/-- A list is the stable partition of itself when no element that fails `p` stands before one that
meets it. -/
theorem partition_eq_self_iff {α : Type} (p : α → Bool) (l : List α) :
    l = l.filter p ++ l.filter (fun a => !p a) ↔ l.Pairwise fun a b => p a = false →
    p b = false := by
  induction l with
  | nil => simp
  | cons a l ih =>
    rw [List.pairwise_cons]
    cases ha : p a with
    | true => simp [ha, ← ih]
    | false =>
      cases hfilter : l.filter p with
      | nil =>
        have hnone : ∀ b ∈ l, p b = false := by simpa using List.filter_eq_nil_iff.1 hfilter
        have hall : l.filter (fun b => !p b) = l := by
          rw [List.filter_eq_self]
          simpa using hnone
        have hpairs : l.Pairwise fun a b => p a = false → p b = false :=
          List.pairwise_of_forall_mem_list fun _ _ b hb _ => hnone b hb
        simpa [ha, hfilter, hall, hpairs] using hnone
      | cons b bs =>
        -- an element that meets `p` would have to move before `a`
        have hb : b ∈ l.filter p := by rw [hfilter]; exact List.mem_cons_self
        obtain ⟨hmem, hpb⟩ := List.mem_filter.1 hb
        refine ⟨?_, ?_⟩
        · intro hsame
          simp only [List.filter_cons, ha, hfilter, Bool.false_eq_true, if_false, List.cons_append,
            List.cons.injEq] at hsame
          rw [hsame.1, hpb] at ha
          exact absurd ha (by decide)
        · rintro ⟨hfirst, -⟩
          have := hfirst b hmem rfl
          rw [hpb] at this
          exact absurd this (by decide)

/-- **The order of a batch**: heartbeats first and then data, each in the order of the list, exactly
when no data packet of the list stands before a heartbeat. -/
theorem batch_heartbeats_first_iff {turns : List (BitVec 64 × ParsedPacket)}
    (hdata : d.dataHandler = true) (hhandler : d.heartbeatHandler = true)
    (h : ∀ turn ∈ turns, isData turn.2 = true ∨ ValidHeartbeat turn.2) :
    (d.dispatchBatch turns).2 =
        ((turns.map Prod.snd).filter isHeartbeat).map .heartbeat ++
          ((turns.map Prod.snd).filter isData).map .data ↔
      (turns.map Prod.snd).Pairwise fun before after =>
        ¬(isData before = true ∧ isHeartbeat after = true) := by
  have hkind : ∀ packet ∈ turns.map Prod.snd, isData packet = !isHeartbeat packet := by
    intro packet hpacket
    obtain ⟨turn, hturn, rfl⟩ := List.mem_map.1 hpacket
    obtain hd | hv := h turn hturn
    · rw [hd, isHeartbeat_of_isData hd]
      rfl
    · cases hd : isData turn.2 with
      | false => rw [hv.1]; rfl
      | true => exact absurd hv.1 (by rw [isHeartbeat_of_isData hd]; decide)
  have hheart : ((turns.map Prod.snd).filter isHeartbeat).map HandlerCall.heartbeat =
      ((turns.map Prod.snd).filter isHeartbeat).map callOf := by
    apply List.map_congr_left
    intro packet hpacket
    rw [callOf, (List.mem_filter.1 hpacket).2, if_pos rfl]
  have hrest : ((turns.map Prod.snd).filter isData).map HandlerCall.data =
      ((turns.map Prod.snd).filter fun packet => !isHeartbeat packet).map callOf := by
    rw [List.filter_congr hkind]
    apply List.map_congr_left
    intro packet hpacket
    have hno : isHeartbeat packet = false := by simpa using (List.mem_filter.1 hpacket).2
    rw [callOf, hno, if_neg Bool.false_ne_true]
  rw [batch_calls hdata hhandler h, hheart, hrest, ← List.map_append,
    (List.map_injective_iff.2 callOf_injective).eq_iff, partition_eq_self_iff]
  apply List.Pairwise.iff_of_mem
  intro before after hbefore _
  rw [hkind before hbefore]
  cases isHeartbeat before <;> cases isHeartbeat after <;> decide

/-- A data packet of one byte. -/
def dataPacket : ParsedPacket where
  header :=
    { magic := protocolMagic, payloadLen := 1, packetType := PacketType.data.toByte
      protocolVersion := protocolVersion, destId := 1 }
  payload := some [0xAB]
  totalSize := 33

theorem zeroHeartbeat_valid : ValidHeartbeat zeroHeartbeatPacket :=
  ⟨by decide, by decide +kernel⟩

theorem batch_in_order :
    (withHandlers.dispatchBatch [(7, zeroHeartbeatPacket), (8, dataPacket)]).2 =
      [.heartbeat zeroHeartbeatPacket, .data dataPacket] := by
  have h : ∀ turn ∈ [((7 : BitVec 64), zeroHeartbeatPacket), (8, dataPacket)],
      isData turn.2 = true ∨ ValidHeartbeat turn.2 := by
    simp only [List.forall_mem_cons]
    exact ⟨Or.inr zeroHeartbeat_valid, Or.inl (by decide), by simp⟩
  exact (batch_heartbeats_first_iff rfl rfl h).2 (by decide)

theorem batch_data_overtakes :
    (∀ turn ∈ [((7 : BitVec 64), dataPacket), (8, zeroHeartbeatPacket)],
      isData turn.2 = true ∨ ValidHeartbeat turn.2) ∧
    (withHandlers.dispatchBatch [(7, dataPacket), (8, zeroHeartbeatPacket)]).2 ≠
      ([dataPacket, zeroHeartbeatPacket].filter isHeartbeat).map .heartbeat ++
        ([dataPacket, zeroHeartbeatPacket].filter isData).map .data := by
  refine ⟨?_, ?_⟩
  · simp only [List.forall_mem_cons]
    exact ⟨Or.inl (by decide), Or.inr zeroHeartbeat_valid, by simp⟩
  · decide +kernel

/-! ## The order of the queues -/

theorem makeRoom_of_lt {depth : Nat} {queue : List QueuedPacket} (h : queue.length < depth) :
    makeRoom depth queue = (queue, 0) := by
  cases queue with
  | nil => rfl
  | cons queued queue => rw [makeRoom, if_neg (Nat.not_le.2 h)]

/-- The queues after packets of the two types, of which no heartbeat is popped. -/
theorem enqueue_queues {packets : List ParsedPacket}
    (hroom : d.highPriorityQueue.length + (packets.filter isHeartbeat).length ≤
      d.heartbeatMaxQueueDepth)
    (h : ∀ packet ∈ packets, isData packet = true ∨ isHeartbeat packet = true) :
    (packets.foldl enqueuePacket d).highPriorityQueue =
        d.highPriorityQueue ++ (packets.filter isHeartbeat).map queuedOf ∧
      (packets.foldl enqueuePacket d).normalQueue =
        d.normalQueue ++ (packets.filter isData).map queuedOf ∧
      (packets.foldl enqueuePacket d).dataHandler = d.dataHandler ∧
      (packets.foldl enqueuePacket d).heartbeatHandler = d.heartbeatHandler := by
  induction packets generalizing d with
  | nil => simp
  | cons packet packets ih =>
    have hrest := fun p hp => h p (List.mem_cons_of_mem packet hp)
    cases hheart : isHeartbeat packet with
    | true =>
      have htype := beq_iff_eq.1 hheart
      have hdata : isData packet = false := by rw [isData, htype]; rfl
      rw [List.filter_cons, if_pos hheart, List.length_cons] at hroom
      have hstep : d.enqueuePacket packet =
          { d with highPriorityQueue := d.highPriorityQueue ++ [queuedOf packet] } := by
        rw [enqueuePacket, htype, if_neg (by decide), if_pos rfl, makeRoom_of_lt (by omega)]
        rfl
      have hih := ih (d := d.enqueuePacket packet)
        (by rw [hstep]; simp only [List.length_append, List.length_singleton]; omega) hrest
      rw [List.foldl_cons, hih.1, hih.2.1, hih.2.2.1, hih.2.2.2, hstep]
      simp [hheart, hdata]
    | false =>
      have hdata : isData packet = true := by
        obtain hd | hh := h packet List.mem_cons_self
        · exact hd
        · rw [hheart] at hh
          exact absurd hh Bool.false_ne_true
      have htype := beq_iff_eq.1 hdata
      rw [List.filter_cons, hheart, if_neg Bool.false_ne_true] at hroom
      have hstep : d.enqueuePacket packet =
          { d with normalQueue := d.normalQueue ++ [queuedOf packet] } := by
        rw [enqueuePacket, htype, if_neg (by decide), if_neg (by decide)]
      have hih := ih (d := d.enqueuePacket packet) (by rw [hstep]; exact hroom) hrest
      rw [List.foldl_cons, hih.1, hih.2.1, hih.2.2.1, hih.2.2.2, hstep]
      simp [hheart, hdata]

/-- The payload view is the `payload_len` bytes of the header, and not empty. -/
def Whole (packet : ParsedPacket) : Prop :=
  ∃ payload, packet.payload = some payload ∧ payload.length = packet.header.payloadLen.toNat ∧
    payload ≠ []

theorem dispatchQueuedPacket_call (hdata : d.dataHandler = true)
    (hhandler : d.heartbeatHandler = true) (hwhole : Whole packet)
    (h : isData packet = true ∨ ValidHeartbeat packet) :
    (d.dispatchQueuedPacket nowMs (queuedOf packet)).2 = [callOf packet] := by
  obtain ⟨payload, hpayload, hlen, hne⟩ := hwhole
  obtain hpacket | hpacket := h
  · have hsame : ParsedPacket.mk packet.header (some payload) packet.totalSize = packet := by
      rw [← hpayload]
    have hempty : payload.isEmpty = false := by simpa using hne
    rw [dispatchQueuedPacket, show (queuedOf packet).type = packet.header.packetType from rfl,
      if_pos (beq_iff_eq.1 hpacket), queuedOf_payload hpayload hlen, hempty, hdata, callOf,
      isHeartbeat_of_isData hpacket]
    exact congrArg (fun p => [HandlerCall.data p]) hsame
  · have hsync := dispatch_valid (d := d) nowMs hpacket
    rw [dispatch_heartbeat (beq_iff_eq.1 hpacket.1) hpayload hhandler, hhandler, if_pos rfl] at hsync
    rw [dispatchQueuedPacket_heartbeat (beq_iff_eq.1 hpacket.1) hpayload hlen hhandler, hsync, callOf,
      hpacket.1, if_pos rfl]

/-- `drain_queues` hands on the high queue and then the normal one. -/
theorem drainQueues_calls {high normal : List ParsedPacket} (clock : Nat → BitVec 64)
    (hdata : d.dataHandler = true) (hhandler : d.heartbeatHandler = true)
    (hhigh : d.highPriorityQueue = high.map queuedOf)
    (hnormal : d.normalQueue = normal.map queuedOf)
    (h : ∀ packet ∈ high ++ normal, Whole packet ∧ (isData packet = true ∨ ValidHeartbeat packet)) :
    (d.drainQueues clock).2 = (high ++ normal).map callOf := by
  induction high generalizing d clock with
  | nil =>
    induction normal generalizing d clock with
    | nil =>
      unfold drainQueues
      split
      · simp_all
      · split
        · simp_all
        · rfl
    | cons packet normal ih =>
      obtain ⟨hwhole, hkind⟩ := h packet (by simp)
      unfold drainQueues
      split
      · simp_all
      · split
        · next queued queue heq =>
          rw [hnormal, List.map_cons, List.cons.injEq] at heq
          obtain ⟨rfl, rfl⟩ := heq
          obtain ⟨hfhigh, hfnormal, hfdata, hfheart⟩ := dispatchQueuedPacket_frame
            (d.popNormal (normal.map queuedOf)) (clock 0) (queuedOf packet)
          have hrest := ih (fun i => clock (i + 1)) (hfdata.trans hdata)
            (hfheart.trans hhandler) (hfhigh.trans hhigh) hfnormal
            fun p hp => h p (by simp_all)
          dsimp only
          rw [hrest, dispatchQueuedPacket_call (d := d.popNormal (normal.map queuedOf)) hdata hhandler
            hwhole hkind]
          rfl
        · simp_all
  | cons packet high ih =>
    obtain ⟨hwhole, hkind⟩ := h packet (by simp)
    unfold drainQueues
    split
    · next queued queue heq =>
      rw [hhigh, List.map_cons, List.cons.injEq] at heq
      obtain ⟨rfl, rfl⟩ := heq
      obtain ⟨hfhigh, hfnormal, hfdata, hfheart⟩ :=
        dispatchQueuedPacket_frame (d.popHigh (high.map queuedOf)) (clock 0) (queuedOf packet)
      have hrest := ih (fun i => clock (i + 1)) (hfdata.trans hdata)
        (hfheart.trans hhandler) hfhigh (hfnormal.trans hnormal)
        fun p hp => h p (by simp_all)
      dsimp only
      rw [hrest, dispatchQueuedPacket_call (d := d.popHigh (high.map queuedOf)) hdata hhandler hwhole
        hkind]
      rfl
    · simp_all

/-- **The order of the queues**: what is enqueued into empty queues with room for its heartbeats is
handed on with the heartbeats first, each packet once. -/
theorem drain_heartbeats_first {packets : List ParsedPacket} (clock : Nat → BitVec 64)
    (hdata : d.dataHandler = true) (hhandler : d.heartbeatHandler = true)
    (hhigh : d.highPriorityQueue = []) (hnormal : d.normalQueue = [])
    (hroom : (packets.filter isHeartbeat).length ≤ d.heartbeatMaxQueueDepth)
    (h : ∀ packet ∈ packets, Whole packet ∧ (isData packet = true ∨ ValidHeartbeat packet)) :
    ((packets.foldl enqueuePacket d).drainQueues clock).2 =
      (packets.filter isHeartbeat ++ packets.filter isData).map callOf := by
  obtain ⟨hqhigh, hqnormal, hqdata, hqheart⟩ := enqueue_queues (d := d)
    (by rw [hhigh, List.length_nil, Nat.zero_add]; exact hroom)
    fun packet hpacket => (h packet hpacket).2.imp_right And.left
  rw [hhigh, List.nil_append] at hqhigh
  rw [hnormal, List.nil_append] at hqnormal
  apply drainQueues_calls clock (hqdata.trans hdata) (hqheart.trans hhandler) hqhigh hqnormal
  intro packet hpacket
  rw [List.mem_append, List.mem_filter, List.mem_filter] at hpacket
  obtain ⟨hmem, -⟩ | ⟨hmem, -⟩ := hpacket
  · exact h packet hmem
  · exact h packet hmem

end Dispatcher

end Qdgz300.Pipeline
