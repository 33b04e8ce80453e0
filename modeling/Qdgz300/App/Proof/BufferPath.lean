import Qdgz300.App.BufferPath
import Qdgz300.Pipeline.Proof.ZeroCopy

/-!
# No packet is written while somebody has it

`Owned`: a buffer has one owner among the receive loop, the slots of the queue and the fragments of
the reassembler. Every operation keeps it, so `recvmmsg` writes only where nobody reads, and a face
whose packets stay in their buffers (`BufferedFace`) behaves like one that copies them
(`CopiedFace`): `Agree.step` is one operation, `buffers_refine_copies` a run.
-/

namespace Qdgz300.App

open Protocol Common Pipeline

/-! ## Loading -/

/-- The envelope with the bytes in its buffer. -/
def BufferedEnvelope.load (mem : Buffered.Memory) (env : BufferedEnvelope) : RxEnvelope where
  header := env.header
  arrayId := env.arrayId
  rxTimestampNs := env.rxTimestampNs
  packetLength := env.packetLength
  packetData := env.packetData.map mem

/-- A queue with its elements read. -/
def loadQueue {T U : Type} (f : T → U) (q : SPSCQueue T) : SPSCQueue U where
  head := q.head
  tail := q.tail
  dropCount := q.dropCount
  buffer i := f (q.buffer i)

/-- The stage with the bytes of its envelopes. -/
def BufferedStage.load (mem : Buffered.Memory) (stage : BufferedStage) : RxStage where
  arrayId := stage.arrayId
  validator := stage.validator
  queue := loadQueue (BufferedEnvelope.load mem) stage.queue
  rxTotal := stage.rxTotal
  parseOk := stage.parseOk
  validateOk := stage.validateOk
  enqueued := stage.enqueued
  queueHighWatermark := stage.queueHighWatermark

section
variable {T U : Type} {C : Capacity} {mem : Buffered.Memory} {stage : BufferedStage}

theorem loadQueue_put (f : T → U) (q : SPSCQueue T) (item : T) :
    loadQueue f (q.put C item) = (loadQueue f q).put C (f item) := by
  simp only [loadQueue, SPSCQueue.put, SPSCQueue.mk.injEq, true_and]
  funext i
  by_cases hi : i = q.tail
  · subst hi
    simp
  · simp [Function.update_of_ne hi]

theorem loadQueue_dropOldestPush (f : T → U) (q : SPSCQueue T) (item : T) :
    loadQueue f (q.dropOldestPush C item).1 = ((loadQueue f q).dropOldestPush C (f item)).1 := by
  unfold SPSCQueue.dropOldestPush
  rw [show (loadQueue f q).tail = q.tail from rfl, show (loadQueue f q).head = q.head from rfl]
  split
  · exact loadQueue_put f q item
  · exact loadQueue_put f (q.dropOldest C) item

theorem loadQueue_tryPop {moved : T → T} {moved' : U → U} {f : T → U} (q : SPSCQueue T)
    (hmoved : ∀ x, f (moved x) = moved' (f x)) :
    loadQueue f (q.tryPop C moved).1 = ((loadQueue f q).tryPop C moved').1 ∧
      (q.tryPop C moved).2.map f = ((loadQueue f q).tryPop C moved').2 := by
  unfold SPSCQueue.tryPop
  rw [show (loadQueue f q).tail = q.tail from rfl, show (loadQueue f q).head = q.head from rfl]
  split
  · exact ⟨rfl, rfl⟩
  · refine ⟨?_, rfl⟩
    simp only [loadQueue, SPSCQueue.mk.injEq, true_and]
    funext i
    by_cases hi : i = q.head
    · subst hi
      simp [hmoved]
    · simp [Function.update_of_ne hi]

theorem load_enqueue (env : BufferedEnvelope) :
    (stage.enqueue env).load mem = (stage.load mem).enqueue (env.load mem) := by
  have hqueue := loadQueue_dropOldestPush (C := rxQueueCapacity) (BufferedEnvelope.load mem)
    stage.queue env
  simp only [BufferedStage.enqueue, RxStage.enqueue, BufferedStage.load, ← hqueue]
  rfl

/-- **`on_packet`** on a buffer is `on_packet` on its bytes. -/
theorem load_onPacket (mem : Buffered.Memory) (stage : BufferedStage) (buffer : Nat)
    (receiveTimestampNs : BitVec 64) :
    (stage.onPacket mem buffer receiveTimestampNs).load mem =
      (stage.load mem).onPacket ⟨some (mem buffer), receiveTimestampNs⟩ := by
  unfold BufferedStage.onPacket RxStage.onPacket
  dsimp only
  cases parse (some (mem buffer)) with
  | none => rfl
  | some parsed =>
    dsimp only
    rw [show (stage.load mem).validator = stage.validator from rfl]
    split
    · rfl
    · rw [load_enqueue]
      rfl

theorem load_pop (mem : Buffered.Memory) (stage : BufferedStage) :
    stage.pop.1.load mem = (stage.load mem).pop.1 ∧
      stage.pop.2.map (BufferedEnvelope.load mem) = (stage.load mem).pop.2 := by
  have hmoved : ∀ env : BufferedEnvelope, env.moved.load mem = (env.load mem).moved := fun _ => rfl
  obtain ⟨hqueue, hfront⟩ := loadQueue_tryPop (C := rxQueueCapacity) stage.queue hmoved
  refine ⟨?_, ?_⟩
  · simp only [BufferedStage.pop, RxStage.pop, BufferedStage.load, ← hqueue]
  · simp only [BufferedStage.pop, RxStage.pop, BufferedStage.load, ← hfront]
    cases (stage.queue.tryPop rxQueueCapacity BufferedEnvelope.moved).2 <;> rfl

theorem load_bufferedPacket (env : BufferedEnvelope) :
    (bufferedPacket env).load mem = parsedPacket (env.load mem) := by
  unfold bufferedPacket parsedPacket Buffered.ParsedPacket.load BufferedEnvelope.load
  cases env.packetData <;> rfl

end

/-! ## Slots -/

/-- The buffer in slot `i`. -/
def BufferedStage.slot (stage : BufferedStage) (i : Nat) : Option Nat :=
  (stage.queue.buffer i).packetData

section
variable {mem : Buffered.Memory} {stage : BufferedStage}

/-- `on_packet` moves the buffer into one slot at most, and leaves the others. -/
theorem slot_onPacket (mem : Buffered.Memory) (stage : BufferedStage) (buffer : Nat)
    (receiveTimestampNs : BitVec 64) :
    ∃ t, (∀ i, i ≠ t → (stage.onPacket mem buffer receiveTimestampNs).slot i = stage.slot i) ∧
      ((stage.onPacket mem buffer receiveTimestampNs).slot t = stage.slot t ∨
        (stage.onPacket mem buffer receiveTimestampNs).slot t = some buffer) := by
  have hput : ∀ (q : SPSCQueue BufferedEnvelope) (env : BufferedEnvelope),
      q.buffer = stage.queue.buffer → env.packetData = some buffer →
      (∀ i, i ≠ q.tail → ((q.put rxQueueCapacity env).buffer i).packetData = stage.slot i) ∧
        ((q.put rxQueueCapacity env).buffer q.tail).packetData = some buffer := by
    intro q env hq henv
    refine ⟨fun i hi => ?_, ?_⟩
    · simp [SPSCQueue.put, Function.update_of_ne hi, hq, BufferedStage.slot]
    · simp [SPSCQueue.put, henv]
  unfold BufferedStage.onPacket
  dsimp only
  cases parse (some (mem buffer)) with
  | none => exact ⟨0, fun _ _ => rfl, .inl rfl⟩
  | some parsed =>
    dsimp only
    split
    · exact ⟨0, fun _ _ => rfl, .inl rfl⟩
    · refine ⟨stage.queue.tail, ?_⟩
      unfold BufferedStage.slot BufferedStage.enqueue SPSCQueue.dropOldestPush
      dsimp only
      split
      · refine ⟨(hput stage.queue _ rfl ?_).1, .inr (hput stage.queue _ rfl ?_).2⟩ <;> rfl
      · refine ⟨(hput (stage.queue.dropOldest rxQueueCapacity) _ rfl ?_).1,
          .inr (hput (stage.queue.dropOldest rxQueueCapacity) _ rfl ?_).2⟩ <;> rfl

theorem slot_pop (stage : BufferedStage) :
    (stage.pop.2 = [] ∧ ∀ i, stage.pop.1.slot i = stage.slot i) ∨
      ∃ env h, stage.pop.2 = [env] ∧ stage.slot h = env.packetData ∧ stage.pop.1.slot h = none ∧
        ∀ i, i ≠ h → stage.pop.1.slot i = stage.slot i := by
  unfold BufferedStage.pop SPSCQueue.tryPop
  split
  · exact .inl ⟨rfl, fun _ => rfl⟩
  · refine .inr ⟨stage.queue.buffer stage.queue.head, stage.queue.head, rfl, rfl, ?_, fun i hi => ?_⟩
    · simp [BufferedStage.slot, BufferedEnvelope.moved]
    · simp [BufferedStage.slot, Function.update_of_ne hi]

end

/-! ## Fragments -/

section
variable {clk : SystemClock} {mem : Buffered.Memory} {s s' : Buffered.Reassembler} {buffer : Nat}

theorem holds_of_refs {Q : Nat → Prop}
    (h : s'.Refs fun r => ∀ b, r.poolBuffer = some b → Q b) (hholds : s'.Holds buffer) :
      Q buffer := by
  obtain ⟨key, ctx, hlookup, r, hr, hpool⟩ := hholds
  exact h key ctx hlookup r hr buffer hpool

theorem refs_holds (s : Buffered.Reassembler) (Q : Nat → Prop) :
    s.Refs fun r => ∀ b, r.poolBuffer = some b → s.Holds b ∨ Q b :=
  fun key ctx hlookup r hr _ hpool => .inl ⟨key, ctx, hlookup, r, hr, hpool⟩

theorem holds_processPacketZeroCopy (env : BufferedEnvelope)
    (h : (s.processPacketZeroCopy clk mem (bufferedPacket env) (env.packetData.getD 0)).1.Holds buffer) :
    s.Holds buffer ∨ env.packetData = some buffer := by
  refine holds_of_refs (Q := fun b => s.Holds b ∨ env.packetData = some b) ?_ h
  refine Buffered.processPacketZeroCopy_refs (fun _ hb => by cases hb) ?_ (refs_holds s _)
  intro payload _ size hpayload b hb
  obtain ⟨c, hc, -⟩ := Option.map_eq_some_iff.1 hpayload
  rw [hc] at hb ⊢
  exact .inr hb

theorem holds_processPacket (packet : Buffered.ParsedPacket)
    (h : (s.processPacket clk mem packet).1.Holds buffer) : s.Holds buffer := by
  refine (holds_of_refs (Q := fun b => s.Holds b ∨ False) ?_ h).resolve_right id
  exact Buffered.processPacket_refs (fun _ hb => by cases hb) (fun _ _ _ hb => by cases hb)
    (refs_holds s fun _ => False) _

theorem holds_completeAll (s : Buffered.Reassembler) (keys : List ReassemblyKey)
    (h : (s.completeAll clk mem keys).1.Holds buffer) : s.Holds buffer :=
  (holds_of_refs (Buffered.completeAll_refs keys s (refs_holds s fun _ => False)) h).resolve_right id

theorem holds_checkTimeouts (order : IterOrder)
    (h : (s.checkTimeouts clk mem order).1.Holds buffer) : s.Holds buffer :=
  holds_completeAll { s with reads := s.reads + 1 } _ h

end

namespace BufferedFace

/-- Every buffer has at most one owner, and a fragment points into a buffer of its own. -/
structure Owned (face : BufferedFace) : Prop where
  nodup : face.receiving.Nodup
  slots : ∀ {i j buffer : Nat}, face.SlotOwns i buffer → face.SlotOwns j buffer → i = j
  slot_receiving : ∀ {i buffer : Nat}, face.SlotOwns i buffer → buffer ∉ face.receiving
  slot_holds : ∀ {i buffer : Nat}, face.SlotOwns i buffer → ¬ face.reassembler.Holds buffer
  receiving_holds : ∀ {buffer : Nat}, buffer ∈ face.receiving → ¬ face.reassembler.Holds buffer
  owns : face.reassembler.Refs Buffered.FragmentRef.Owns

section
variable {clk : SystemClock} {face : BufferedFace} {l : BufferLabel}

theorem owned_new (arrayId localDeviceId : BitVec 8) (cfg : ReassemblerConfig)
    (memory : Buffered.Memory) : (new arrayId localDeviceId cfg memory).Owned where
  nodup := .nil
  slots h := by cases h
  slot_receiving h := by cases h
  slot_holds h := by cases h
  receiving_holds h := absurd h List.not_mem_nil
  owns _ _ h := by cases h

/-- A call of the reassembler that takes over no buffer but one that was popped. -/
theorem Owned.call (h : face.Owned) {stage : BufferedStage} (popped : Option Nat)
    {reassembler : Buffered.Reassembler}
    (hslot : ∀ {i b : Nat}, stage.slot i = some b → face.SlotOwns i b ∧ popped ≠ some b)
    (hpopped : ∀ {b : Nat}, popped = some b → ∃ i, face.SlotOwns i b)
    (hholds : ∀ {b : Nat}, reassembler.Holds b → face.reassembler.Holds b ∨ popped = some b)
    (howns : reassembler.Refs Buffered.FragmentRef.Owns) :
    Owned { face with stage, reassembler } where
  nodup := h.nodup
  slots hi hj := h.slots (hslot hi).1 (hslot hj).1
  slot_receiving hi := h.slot_receiving (hslot hi).1
  slot_holds hi hb := by
    rcases hholds hb with hb | hb
    · exact h.slot_holds (hslot hi).1 hb
    · exact (hslot hi).2 hb
  receiving_holds hmem hb := by
    rcases hholds hb with hb | hb
    · exact h.receiving_holds hmem hb
    · obtain ⟨i, hi⟩ := hpopped hb
      exact h.slot_receiving hi hmem
  owns := howns

/-- **A pop and the dispatch** of what it finds. -/
theorem Owned.popDispatch (h : face.Owned)
    {handler : Buffered.ParsedPacket → Nat → Buffered.Reassembler × List Emission}
    (hholds : ∀ (env : BufferedEnvelope) {b : Nat},
      (handler (bufferedPacket env) (env.packetData.getD 0)).1.Holds b →
        face.reassembler.Holds b ∨ env.packetData = some b)
    (howns : ∀ env : BufferedEnvelope,
      (handler (bufferedPacket env) (env.packetData.getD 0)).1.Refs Buffered.FragmentRef.Owns) :
    (face.popDispatch handler).1.Owned := by
  unfold BufferedFace.popDispatch
  rcases slot_pop face.stage with ⟨hempty, hslots⟩ | ⟨env, k, hfront, hk, hgone, hslots⟩
  · dsimp only
    rw [hempty]
    exact h.call none (fun hi => ⟨by rw [hslots] at hi; exact hi, fun hb => by cases hb⟩)
      (fun hb => by cases hb) .inl h.owns
  · have hslot : ∀ {i b : Nat}, face.stage.pop.1.slot i = some b →
        face.SlotOwns i b ∧ env.packetData ≠ some b := by
      intro i b hi
      by_cases hik : i = k
      · rw [hik, hgone] at hi
        cases hi
      · rw [hslots i hik] at hi
        exact ⟨hi, fun hb => hik (h.slots hi (hk.trans hb))⟩
    have hpopped : ∀ {b : Nat}, env.packetData = some b → ∃ i, face.SlotOwns i b :=
      fun hb => ⟨k, hk.trans hb⟩
    dsimp only
    rw [hfront]
    dsimp only
    split
    · exact h.call env.packetData hslot hpopped (hholds env) (howns env)
    · exact h.call env.packetData hslot hpopped .inl h.owns

/-- **A packet handed over** leaves the receive loop for a slot, or is destroyed. -/
theorem Owned.onPacket (h : face.Owned) {buffer : Nat} (hmem : buffer ∈ face.receiving)
    (receiveTimestampNs : BitVec 64) :
    Owned { face with
      receiving := face.receiving.erase buffer
      stage := face.stage.onPacket face.memory buffer receiveTimestampNs } := by
  obtain ⟨t, hothers, hself⟩ := slot_onPacket face.memory face.stage buffer receiveTimestampNs
  have hslot : ∀ {i b : Nat},
      (face.stage.onPacket face.memory buffer receiveTimestampNs).slot i = some b →
        face.SlotOwns i b ∨ i = t ∧ b = buffer := by
    intro i b hi
    by_cases hit : i = t
    · subst hit
      rcases hself with hself | hself
      · exact .inl (hself.symm.trans hi)
      · exact .inr ⟨rfl, Option.some.inj (hi.symm.trans hself)⟩
    · exact .inl ((hothers i hit).symm.trans hi)
  have hfree : ∀ i, ¬ face.SlotOwns i buffer := fun i hi => h.slot_receiving hi hmem
  refine ⟨h.nodup.erase buffer, fun {i j b} hi hj => ?_, fun {i b} hi => ?_, fun {i b} hi => ?_,
    fun hb => h.receiving_holds (List.mem_of_mem_erase hb), h.owns⟩
  · rcases hslot hi with hold | ⟨hit, hb⟩
    · rcases hslot hj with hold' | ⟨-, hb⟩
      · exact h.slots hold hold'
      · exact absurd (hb ▸ hold) (hfree i)
    · rcases hslot hj with hold' | ⟨hjt, -⟩
      · exact absurd (hb ▸ hold') (hfree j)
      · exact hit.trans hjt.symm
  · rcases hslot hi with hold | ⟨-, rfl⟩
    · exact fun hb => h.slot_receiving hold (List.mem_of_mem_erase hb)
    · exact h.nodup.not_mem_erase
  · rcases hslot hi with hold | ⟨-, rfl⟩
    · exact h.slot_holds hold
    · exact h.receiving_holds hmem

end

/-! ## Both faces -/

/-- The face that copies has the bytes of the other one. -/
structure Agree (face : BufferedFace) (copied : CopiedFace) : Prop where
  memory : copied.memory = face.memory
  stage : face.stage.load face.memory = copied.stage
  reassembler : face.reassembler.load face.memory = copied.reassembler
  owned : face.Owned

section
variable {clk : SystemClock} {face : BufferedFace} {copied : CopiedFace}

theorem agree_new (arrayId localDeviceId : BitVec 8) (cfg : ReassemblerConfig)
    (memory : Buffered.Memory) :
    Agree (new arrayId localDeviceId cfg memory) (.new arrayId localDeviceId cfg memory) where
  memory := rfl
  stage := rfl
  reassembler := rfl
  owned := owned_new arrayId localDeviceId cfg memory

/-- **A datagram** in a buffer of the receive loop changes nothing that a slot or a fragment
reads. -/
theorem Agree.recvmmsg (h : Agree face copied) {buffer : Nat} (hmem : buffer ∈ face.receiving)
    (datagram : List Byte) :
    Agree { face with memory := Function.update face.memory buffer datagram }
      { copied with memory := Function.update copied.memory buffer datagram } := by
  have howned := h.owned
  refine ⟨?_, ?_, ?_, ⟨howned.nodup, howned.slots, howned.slot_receiving, howned.slot_holds,
    howned.receiving_holds, howned.owns⟩⟩
  · rw [h.memory]
  · have henv : ∀ i, (face.stage.queue.buffer i).load (Function.update face.memory buffer datagram) =
        (face.stage.queue.buffer i).load face.memory := by
      intro i
      unfold BufferedEnvelope.load
      cases hslot : (face.stage.queue.buffer i).packetData with
      | none => rfl
      | some b =>
        have hne : b ≠ buffer := by
          rintro rfl
          exact howned.slot_receiving hslot hmem
        simp [Function.update_of_ne hne]
    refine Eq.trans ?_ h.stage
    simp only [BufferedStage.load, loadQueue, henv]
  · refine Eq.trans ?_ h.reassembler
    exact Buffered.load_writeBuffer
      (Buffered.pointsElsewhere howned.owns (howned.receiving_holds hmem)) datagram

/-- **A pop and the dispatch** of what it finds, with a handler that is `process_packet` over
bytes. -/
theorem Agree.popDispatch (h : Agree face copied)
    {handler : Buffered.ParsedPacket → Nat → Buffered.Reassembler × List Emission}
    (hload : ∀ packet buffer, Buffered.loadResult face.memory (handler packet buffer) =
      (face.reassembler.load face.memory).processPacket clk (packet.load face.memory))
    (howned : (face.popDispatch handler).1.Owned) :
    Agree (face.popDispatch handler).1 (copied.popDispatch clk).1 ∧
      (face.popDispatch handler).2 = (copied.popDispatch clk).2 := by
  obtain ⟨hstage, hfront⟩ := load_pop face.memory face.stage
  rw [h.stage] at hstage hfront
  unfold BufferedFace.popDispatch CopiedFace.popDispatch at *
  dsimp only at howned ⊢
  rw [← hfront]
  cases hpopped : face.stage.pop.2 with
  | nil =>
    rw [hpopped] at howned
    exact ⟨⟨h.memory, hstage, h.reassembler, howned⟩, rfl⟩
  | cons env rest =>
    rw [hpopped] at howned
    simp only [List.map_cons] at howned ⊢
    rw [show (env.load face.memory).header = env.header from rfl]
    split
    · rename_i hdata
      rw [if_pos hdata] at howned
      have hcall := hload (bufferedPacket env) (env.packetData.getD 0)
      rw [load_bufferedPacket, h.reassembler] at hcall
      obtain ⟨hstate, hout⟩ := Prod.mk.inj hcall
      exact ⟨⟨h.memory, hstage, hstate, howned⟩, hout⟩
    · rename_i hother
      rw [if_neg hother] at howned
      exact ⟨⟨h.memory, hstage, h.reassembler, howned⟩, rfl⟩

theorem Agree.put (h : Agree face copied) {r : Buffered.Reassembler × List Emission}
    {r' : Reassembler × List Emission} (hload : Buffered.loadResult face.memory r = r')
    (howned : (face.put r).1.Owned) :
    Agree (face.put r).1 (copied.put r').1 ∧ (face.put r).2 = (copied.put r').2 := by
  subst hload
  exact ⟨⟨h.memory, h.stage, rfl, howned⟩, rfl⟩

/-- **One operation.** -/
theorem Agree.step (h : Agree face copied) (l : BufferLabel) (hallowed : face.Allowed l) :
    Agree (face.step clk l).1 (copied.step clk l).1 ∧
      (face.step clk l).2 = (copied.step clk l).2 := by
  have howned := h.owned
  cases l with
  | allocate buffer =>
    obtain ⟨hreceiving, hslots, hholds⟩ := hallowed
    refine ⟨⟨h.memory, h.stage, h.reassembler, ?_⟩, rfl⟩
    refine ⟨List.nodup_cons.2 ⟨hreceiving, howned.nodup⟩, howned.slots, fun {i b} hi hb => ?_,
      howned.slot_holds, fun {b} hb => ?_, howned.owns⟩
    · rcases List.mem_cons.1 hb with rfl | hb
      · exact hslots i hi
      · exact howned.slot_receiving hi hb
    · rcases List.mem_cons.1 hb with rfl | hb
      · exact hholds
      · exact howned.receiving_holds hb
  | giveBack buffer =>
    refine ⟨⟨h.memory, h.stage, h.reassembler, ?_⟩, rfl⟩
    exact ⟨howned.nodup.erase buffer, howned.slots,
      fun hi hb => howned.slot_receiving hi (List.mem_of_mem_erase hb), howned.slot_holds,
      fun hb => howned.receiving_holds (List.mem_of_mem_erase hb), howned.owns⟩
  | recvmmsg buffer datagram => exact ⟨h.recvmmsg hallowed datagram, rfl⟩
  | onPacket buffer receiveTimestampNs =>
    refine ⟨⟨h.memory, ?_, h.reassembler, howned.onPacket hallowed receiveTimestampNs⟩, rfl⟩
    have hload := load_onPacket face.memory face.stage buffer receiveTimestampNs
    rw [h.stage, ← h.memory] at hload
    simpa only [BufferedFace.step, CopiedFace.step, ← h.memory] using hload
  | process =>
    have hload := fun packet buffer =>
      Buffered.load_processPacketZeroCopy clk face.memory face.reassembler packet buffer
    refine h.popDispatch hload (howned.popDispatch (fun env b => holds_processPacketZeroCopy env) ?_)
    intro env
    refine Buffered.processPacketZeroCopy_refs Buffered.owns_empty ?_ howned.owns
    refine Buffered.owns_ofBuffer fun payload hpayload => ?_
    obtain ⟨b, hb, rfl⟩ := Option.map_eq_some_iff.1 hpayload
    rw [hb]
    rfl
  | drain =>
    have hload := fun (packet : Buffered.ParsedPacket) (_ : Nat) =>
      Buffered.load_processPacket clk face.memory face.reassembler packet
    refine h.popDispatch hload (howned.popDispatch (fun env b hb => .inl (holds_processPacket _ hb)) ?_)
    exact fun env => Buffered.processPacket_refs Buffered.owns_empty Buffered.owns_ofBytes
      howned.owns _
  | checkTimeouts order =>
    refine h.put ?_ ?_
    · rw [Buffered.load_checkTimeouts, h.reassembler]
    · exact howned.call none (fun hi => ⟨hi, fun hb => by cases hb⟩) (fun hb => by cases hb)
        (fun hb => .inl (holds_checkTimeouts order hb)) (Buffered.completeAll_refs _ _ howned.owns)
  | flushAll order =>
    refine h.put ?_ ?_
    · rw [Buffered.load_flushAll, h.reassembler]
    · exact howned.call none (fun hi => ⟨hi, fun hb => by cases hb⟩) (fun hb => by cases hb)
        (fun hb => .inl (holds_completeAll _ _ hb)) (Buffered.completeAll_refs _ _ howned.owns)

end

/-- **The buffers refine the copies.** In every order of the operations, with every reuse of buffers
that nobody owns, a face emits the frames of the face that copies its packets, with the same
counters, the same packets in the queue and the same contexts; and a buffer never has two owners. -/
theorem buffers_refine_copies (clk : SystemClock) (arrayId localDeviceId : BitVec 8)
    (cfg : ReassemblerConfig) (memory : Buffered.Memory) (ls : List BufferLabel)
    (h : Machine.RunAlong (step clk) Allowed (new arrayId localDeviceId cfg memory) ls) :
    (Machine.run (step clk) (new arrayId localDeviceId cfg memory) ls).2 =
        (Machine.run (CopiedFace.step clk) (.new arrayId localDeviceId cfg memory) ls).2 ∧
      Agree (Machine.run (step clk) (new arrayId localDeviceId cfg memory) ls).1
        (Machine.run (CopiedFace.step clk) (.new arrayId localDeviceId cfg memory) ls).1 := by
  have hrun := Machine.run_sim (R := Agree) (fun face copied l hagree hl => hagree.step l hl)
    (agree_new arrayId localDeviceId cfg memory) h
  rw [List.map_id'] at hrun
  exact ⟨hrun.2, hrun.1⟩

/-- A datagram of a frame of two fragments. -/
def halfDatagram (index : Byte) (len : Byte) (body : List Byte) : List Byte :=
  [0xAA, 0x55, 0xAA, 0x55] ++ List.replicate 12 0 ++ [len, 0, 3, 0x31, 0, 1] ++ List.replicate 44 0 ++
    [index, 0, 2, 0, 1, 0] ++ body

/-- A rejected datagram's buffer is taken again; the fragment in it stays there while the other one
is received into another buffer, and while that one's is taken for what comes next. -/
def twoBuffers : List BufferLabel :=
  [.allocate 0, .recvmmsg 0 [1, 2, 3], .onPacket 0 4, .allocate 0, .allocate 1,
    .recvmmsg 0 (halfDatagram 0 41 [7]), .onPacket 0 5, .recvmmsg 1 [], .process,
    .recvmmsg 1 (halfDatagram 1 81 (List.replicate 40 0 ++ [8])), .onPacket 1 6, .drain]

theorem unowned_of_empty {face : BufferedFace} {buffer : Nat}
    (hslots : face.stage.queue.buffer = fun _ => {}) (hcontexts : face.reassembler.contexts = ∅)
    (hmem : buffer ∉ face.receiving) : face.Unowned buffer := by
  refine ⟨hmem, fun i hi => ?_, fun hholds => ?_⟩
  · rw [SlotOwns, hslots] at hi
    cases hi
  · obtain ⟨key, ctx, hlookup, -⟩ := hholds
    rw [hcontexts, AList.lookup_empty] at hlookup
    cases hlookup

theorem twoBuffers_refine :
    ((Machine.run (step fun _ => 0) (new 1 1 { maxContexts := 1 } fun _ => []) twoBuffers).2.map
      fun e => e.frame.data) = [[7, 8]] ∧
    (Machine.run (step fun _ => 0) (new 1 1 { maxContexts := 1 } fun _ => []) twoBuffers).2 =
      (Machine.run (CopiedFace.step fun _ => 0) (.new 1 1 { maxContexts := 1 } fun _ => []) twoBuffers).2 := by
  have first : (0 : Nat) ∈ [0] := by decide
  have both : (0 : Nat) ∈ [1, 0] := by decide
  have second : (1 : Nat) ∈ [1] := by decide
  refine ⟨by decide +kernel, (buffers_refine_copies (fun _ => 0) 1 1 { maxContexts := 1 } (fun _ => [])
    twoBuffers ?_).1⟩
  exact ⟨unowned_of_empty rfl rfl (by decide), first, first, unowned_of_empty rfl rfl (by decide),
    unowned_of_empty rfl rfl (by decide), both, both, second, trivial, second, second,
    trivial, trivial⟩

end BufferedFace

end Qdgz300.App
