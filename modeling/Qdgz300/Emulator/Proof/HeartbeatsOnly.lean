import Qdgz300.App.Proof.FramesToBlocks
import Qdgz300.Emulator.Proof.ArrayPackets
import Qdgz300.Pipeline.Proof.Dispatch

/-!
# What a face has of an emulated array

Its heartbeats, each counted once (`Counted`). But the packets of the intervals have taken numbers,
so the dispatcher counts every one of them between two heartbeats as a lost heartbeat:
**`heartbeats_only`**, in every interleaving of the sender, the network and the face.
-/

namespace Qdgz300.Emulator

open Bytes Protocol Pipeline Common

/-! ## The heartbeats at the dispatcher -/

section
variable {arrayId : BitVec 8}

/-- The dispatch of popped envelopes, each at a reading of the clock. -/
def dispatchTurn (d : Dispatcher) (turn : BitVec 64 × RxEnvelope) : Dispatcher × List HandlerCall :=
  d.dispatchOwned turn.1 (App.parsedPacket turn.2) turn.2.packetData

/-- A turn with the heartbeat `header`. -/
def BeatTurn (arrayId : BitVec 8) (header : CommonHeader) (turn : BitVec 64 × RxEnvelope) : Prop :=
  ∃ ts, turn.2 = envelopeOf arrayId (heartbeatBytes header) ts

/-- **A heartbeat of the emulator** passes the checks of the dispatcher. -/
theorem dispatch_beat {d : Dispatcher} (hhandler : d.heartbeatHandler = true) {g : PacketGenerator}
    {nowMs : BitVec 64} {turn : BitVec 64 × RxEnvelope}
    (hturn : BeatTurn arrayId (heartbeatHeader g nowMs) turn) :
    dispatchTurn d turn = (d.acceptHeartbeat turn.1 (heartbeatHeader g nowMs),
      [.heartbeat (App.parsedPacket turn.2)]) := by
  obtain ⟨ts, henv⟩ := hturn
  have hheader : (App.parsedPacket turn.2).header = heartbeatHeader g nowMs := by
    rw [henv]
    exact commonHeader_front _ _
  have hpayload : (App.parsedPacket turn.2).payload =
    some (heartbeatPayload.bytes checkedStatus) := by
    rw [henv]
    exact congrArg some (List.drop_left' (commonHeader.length_bytes _))
  have hpass : Dispatcher.wireCrcFails (heartbeatPayload.bytes checkedStatus) = false := by
    simp [Dispatcher.wireCrcFails, le32_checkedStatus]
  have hlen : heartbeatPayloadSize ≤ (heartbeatHeader g nowMs).payloadLen.toNat := by
    change heartbeatPayloadSize ≤ (BitVec.ofNat 16 heartbeatPayloadSize).toNat
    decide
  rw [dispatchTurn, Dispatcher.dispatchOwned_heartbeat (hheader ▸ rfl) hpayload hhandler,
    Dispatcher.heartbeatOutcome, hheader, if_pos ⟨hlen, hpass⟩]

/-- What a run of heartbeats leaves: `k` of them counted, `loss` more taken for lost, and no other
handler called. -/
structure Counted (d d' : Dispatcher) (calls : List HandlerCall) (k loss : Nat) : Prop where
  stats : d'.stats = { d.stats with heartbeatPackets := d.stats.heartbeatPackets + k }
  received : d'.heartbeatStats.receivedTotal = d.heartbeatStats.receivedTotal + k
  lost : d'.heartbeatStats.lossTotal = d.heartbeatStats.lossTotal + loss
  calls : ∀ call ∈ calls, ∃ packet, call = .heartbeat packet

theorem counted_nil (d : Dispatcher) : Counted d d [] 0 0 where
  stats := rfl
  received := rfl
  lost := rfl
  calls _ h := absurd h List.not_mem_nil

theorem Counted.cons {d d' : Dispatcher} {nowMs : BitVec 64} {header : CommonHeader}
    {calls : List HandlerCall} {k loss : Nat}
    (h : Counted (d.acceptHeartbeat nowMs header) d' calls k loss) (packet : ParsedPacket) :
    Counted d d' (.heartbeat packet :: calls) (k + 1)
      (d.heartbeatGap header.sequenceNumber + loss) where
  stats := by
    rw [h.stats]
    simp [Dispatcher.acceptHeartbeat, Nat.add_comm, Nat.add_left_comm]
  received := by
    rw [h.received]
    simp [Dispatcher.acceptHeartbeat, Nat.add_comm, Nat.add_left_comm]
  lost := by
    rw [h.lost]
    simp [Dispatcher.acceptHeartbeat, Nat.add_assoc]
  calls call hcall := by
    rcases List.mem_cons.1 hcall with rfl | hcall
    · exact ⟨packet, rfl⟩
    · exact h.calls call hcall

theorem heartbeatGap_of {d : Dispatcher} (hhas : d.hasLastHeartbeatSeq = true)
    {seq : BitVec 32} {n : Nat}
    (hseq : seq = d.lastHeartbeatSeq + 1 + BitVec.ofNat 32 n) (hn : n + 1 < 2 ^ 31) :
    d.heartbeatGap seq = n := by
  have hdelta : (seq - d.lastHeartbeatSeq).toNat = n + 1 := by
    rw [hseq]
    have hlast := d.lastHeartbeatSeq.isLt
    simp only [BitVec.toNat_sub, BitVec.toNat_add, BitVec.ofNat_eq_ofNat, BitVec.toNat_ofNat]
    omega
  simp only [Dispatcher.heartbeatGap, hdelta, hhas, true_and]
  split <;> omega

namespace ArraySender

variable {s : ArraySender}

theorem getLastD_beats (ts : List Tick) (s : ArraySender) (n m : Nat) (hm : m < n) :
    m ≤ (s.beats n ts).getLastD m := by
  induction ts generalizing s n m with
  | nil => exact Nat.le_refl m
  | cons t ts ih =>
    rw [beats]
    split
    · rw [List.singleton_append, List.getLastD_cons]
      exact (Nat.le_of_lt hm).trans (ih (s.tick t).1 (n + 1) n (Nat.lt_succ_self n))
    · exact ih (s.tick t).1 (n + 1) m (Nat.lt_succ_of_lt hm)

/-- **From a heartbeat on**: the sender has come to its iteration `n`, and the last heartbeat was
that of iteration `m`. -/
theorem dispatch_after {cpiFrags : BitVec 16} : ∀ {ts : List Tick} {s : ArraySender} {n m : Nat}
    {d : Dispatcher} {turns : List (BitVec 64 × RxEnvelope)},
    s.generator.config.cpiFrags = cpiFrags → m < n → d.heartbeatHandler = true →
      d.hasLastHeartbeatSeq = true →
      s.generator.nextSequence =
        d.lastHeartbeatSeq + 1 + BitVec.ofNat 32 (cpiFrags.toNat * (n - (m + 1))) →
      (m :: s.beats n ts).IsChain (fun a b => cpiFrags.toNat * (b - a) + 1 < 2 ^ 31) →
      List.Forall₂ (BeatTurn arrayId) (s.beatHeaders ts) turns →
      Counted d (Machine.run dispatchTurn d turns).1 (Machine.run dispatchTurn d turns).2
        (s.beats n ts).length (cpiFrags.toNat * ((s.beats n ts).getLastD m - m))
  | [], s, n, m, d, turns, _, _, _, _, _, _, hturns => by
    obtain rfl := List.forall₂_nil_left_iff.1 hturns
    simpa [beats] using counted_nil d
  | t :: ts, s, n, m, d, turns, hfrags, hm, hhandler, hhas, hseq, hchain, hturns => by
    obtain ⟨hconfig, hnext⟩ := tick_generator (s := s) (t := t)
    have hcpi : (s.sendCpi t).1.generator.nextSequence =
        d.lastHeartbeatSeq + 1 + BitVec.ofNat 32 (cpiFrags.toNat * (n - m)) := by
      refine (PacketGenerator.makeCpiPackets_generator t.dataTs t.now).2.trans ?_
      rw [hseq, hfrags, BitVec.add_assoc, ← BitVec.ofNat_add, ← Nat.mul_succ]
      congr 3
      omega
    have hfrags' : (s.tick t).1.generator.config.cpiFrags = cpiFrags := by rw [hconfig, hfrags]
    rw [beats] at hchain ⊢
    rw [beatHeaders] at hturns
    by_cases hdue : (s.sendCpi t).1.due t = true
    · simp only [hdue, if_true, List.singleton_append] at hchain hturns hnext ⊢
      obtain ⟨turn, rest, hturn, hrest, rfl⟩ := List.forall₂_cons_left_iff.1 hturns
      obtain ⟨hgap, hchain'⟩ := List.isChain_cons_cons.1 hchain
      have hafter := dispatch_after (d := d.acceptHeartbeat turn.1
        (heartbeatHeader (s.sendCpi t).1.generator t.heartbeatMs))
        hfrags' (Nat.lt_succ_self n) hhandler rfl
        (by rw [hnext, Nat.sub_self, Nat.mul_zero]; exact (BitVec.add_zero _).symm) hchain' hrest
      have hcount := hafter.cons (App.parsedPacket turn.2)
      rw [heartbeatHeader_sequenceNumber, heartbeatGap_of hhas hcpi hgap] at hcount
      have hlast := getLastD_beats ts (s.tick t).1 (n + 1) n (Nat.lt_succ_self n)
      have hsum : n - m + (((s.tick t).1.beats (n + 1) ts).getLastD n - n) =
          ((s.tick t).1.beats (n + 1) ts).getLastD n - m := by omega
      rw [← Nat.mul_add, hsum] at hcount
      rw [List.getLastD_cons, Machine.run, dispatch_beat hhandler hturn, List.length_cons]
      exact hcount
    · simp only [hdue, Bool.false_eq_true, if_false, List.nil_append] at hchain hturns hnext ⊢
      refine dispatch_after hfrags' (Nat.lt_succ_of_lt hm) hhandler hhas ?_ hchain hturns
      rw [hnext, hcpi, Nat.add_sub_add_right]
      exact BitVec.add_zero _

/-- **The heartbeats of a run** at a dispatcher that has seen none. -/
theorem dispatch_beats {cpiFrags : BitVec 16} : ∀ {ts : List Tick} {s : ArraySender} {n : Nat}
    {d : Dispatcher} {turns : List (BitVec 64 × RxEnvelope)},
    s.generator.config.cpiFrags = cpiFrags → d.heartbeatHandler = true →
      d.hasLastHeartbeatSeq = false →
      (s.beats n ts).IsChain (fun a b => cpiFrags.toNat * (b - a) + 1 < 2 ^ 31) →
      List.Forall₂ (BeatTurn arrayId) (s.beatHeaders ts) turns →
      Counted d (Machine.run dispatchTurn d turns).1 (Machine.run dispatchTurn d turns).2
        (s.beats n ts).length
          (cpiFrags.toNat * ((s.beats n ts).getLastD 0 - (s.beats n ts).headD 0))
  | [], s, n, d, turns, _, _, _, _, hturns => by
    obtain rfl := List.forall₂_nil_left_iff.1 hturns
    simpa [beats] using counted_nil d
  | t :: ts, s, n, d, turns, hfrags, hhandler, hhas, hchain, hturns => by
    obtain ⟨hconfig, hnext⟩ := tick_generator (s := s) (t := t)
    have hfrags' : (s.tick t).1.generator.config.cpiFrags = cpiFrags := by rw [hconfig, hfrags]
    rw [beats] at hchain ⊢
    rw [beatHeaders] at hturns
    by_cases hdue : (s.sendCpi t).1.due t = true
    · simp only [hdue, if_true, List.singleton_append] at hchain hturns hnext ⊢
      obtain ⟨turn, rest, hturn, hrest, rfl⟩ := List.forall₂_cons_left_iff.1 hturns
      have hafter := dispatch_after (d := d.acceptHeartbeat turn.1
        (heartbeatHeader (s.sendCpi t).1.generator t.heartbeatMs))
        hfrags' (Nat.lt_succ_self n) hhandler rfl
        (by rw [hnext, Nat.sub_self, Nat.mul_zero]; exact (BitVec.add_zero _).symm) hchain hrest
      have hfirst : d.heartbeatGap (s.sendCpi t).1.generator.nextSequence = 0 := by
        simp [Dispatcher.heartbeatGap, hhas]
      have hcount := hafter.cons (App.parsedPacket turn.2)
      rw [heartbeatHeader_sequenceNumber, hfirst, Nat.zero_add] at hcount
      rw [List.getLastD_cons, Machine.run, dispatch_beat hhandler hturn, List.length_cons]
      exact hcount
    · simp only [hdue, Bool.false_eq_true, if_false, List.nil_append] at hchain hturns hnext ⊢
      exact dispatch_beats hfrags' hhandler hhas hchain hturns

end ArraySender

end

/-! ## The face -/

namespace EmulatedFace

def tick? : EmulatedLabel → Option Tick
  | .tick t => some t
  | _ => none

/-- The face has come to its state by these iterations, calls at the receive stage and turns. -/
structure Traced (sender : ArraySender) (arrayId : BitVec 8) (ticks : List Tick) (ops : List RxOp)
    (turns : List (BitVec 64 × RxEnvelope)) (face : EmulatedFace) (calls : List HandlerCall) :
      Prop where
  iterated : (Machine.run ArraySender.tick sender ticks).1 = face.sender
  sent : ∃ arrived, (ops.filterMap App.datagram?).map ReceivedPacket.data = arrived.map some ∧
    (Machine.run ArraySender.tick sender ticks).2 = arrived ++ face.wire
  rxStage : ((RxStage.new arrayId 0x01).run ops).1 = face.rxStage
  popped : ((RxStage.new arrayId 0x01).run ops).2 = turns.map Prod.snd
  dispatched : Machine.run dispatchTurn (new sender arrayId).dispatcher turns =
    (face.dispatcher, calls)

section
variable {sender : ArraySender} {arrayId : BitVec 8} {ticks : List Tick} {ops : List RxOp}
  {turns : List (BitVec 64 × RxEnvelope)} {face : EmulatedFace} {calls : List HandlerCall}

theorem traced_new (sender : ArraySender) (arrayId : BitVec 8) :
    Traced sender arrayId [] [] [] (new sender arrayId) [] where
  iterated := rfl
  sent := ⟨[], rfl, rfl⟩
  rxStage := rfl
  popped := rfl
  dispatched := rfl

theorem run_snoc (op : RxOp) (h : ((RxStage.new arrayId 0x01).run ops).1 = face.rxStage) :
    ((RxStage.new arrayId 0x01).run (ops ++ [op])).1 = (face.rxStage.step op).1 ∧
      ((RxStage.new arrayId 0x01).run (ops ++ [op])).2 =
        ((RxStage.new arrayId 0x01).run ops).2 ++ (face.rxStage.step op).2 := by
  have happend := Machine.run_append RxStage.step (RxStage.new arrayId 0x01) ops [op]
  simp only [RxStage.run] at h ⊢
  rw [happend, h]
  simp [Machine.run]

/-- **One step.** -/
theorem Traced.step (h : Traced sender arrayId ticks ops turns face calls) (l : EmulatedLabel) :
    ∃ ops' turns', Traced sender arrayId (ticks ++ (tick? l).toList) ops' turns' (face.step l).1
      (calls ++ (face.step l).2) := by
  obtain ⟨arrived, hdata, hsent⟩ := h.sent
  cases l with
  | tick t =>
    have hrun := Machine.run_append ArraySender.tick sender ticks [t]
    rw [h.iterated] at hrun
    refine ⟨ops, turns, ⟨?_, ⟨arrived, hdata, ?_⟩, h.rxStage, h.popped, ?_⟩⟩
    · simp [tick?, hrun, Machine.run, EmulatedFace.step]
    · simp [tick?, hrun, Machine.run, EmulatedFace.step, hsent]
    · simpa [EmulatedFace.step] using h.dispatched
  | arrive receiveTimestampNs =>
    rw [show (tick? (.arrive receiveTimestampNs)).toList = [] from rfl, List.append_nil,
      EmulatedFace.step]
    cases hwire : face.wire with
    | nil => exact ⟨ops, turns, by simpa using h⟩
    | cons datagram wire =>
      obtain ⟨hstage, hout⟩ := run_snoc (.onPacket ⟨some datagram, receiveTimestampNs⟩) h.rxStage
      refine ⟨ops ++ [.onPacket ⟨some datagram, receiveTimestampNs⟩], turns,
        ⟨h.iterated, ⟨arrived ++ [datagram], ?_, ?_⟩, hstage, ?_, ?_⟩⟩
      · simp [hdata, App.datagram?]
      · rw [hsent, hwire]
        simp
      · rw [hout, h.popped]
        exact List.append_nil _
      · simpa using h.dispatched
  | process nowMs =>
    rw [show (tick? (.process nowMs)).toList = [] from rfl, List.append_nil, EmulatedFace.step]
    obtain ⟨hstage, hout⟩ := run_snoc .pop h.rxStage
    have hdata' : ((ops ++ [RxOp.pop]).filterMap App.datagram?).map ReceivedPacket.data =
      arrived.map some := by
      rw [List.filterMap_append, show [RxOp.pop].filterMap App.datagram? = [] from rfl,
        List.append_nil, hdata]
    have hpop : face.rxStage.step .pop = face.rxStage.pop := rfl
    rw [hpop] at hstage hout
    dsimp only
    cases hpopped : face.rxStage.pop.2 with
    | nil =>
      rw [hpopped, List.append_nil, h.popped] at hout
      exact ⟨ops ++ [.pop], turns, ⟨h.iterated, ⟨arrived, hdata', hsent⟩, hstage, hout, by simpa using h.dispatched⟩⟩
    | cons env rest =>
      have hone : rest = [] := by
        have hlen : (face.rxStage.pop.2).length ≤ 1 := by
          unfold RxStage.pop
          cases (face.rxStage.queue.tryPop rxQueueCapacity RxEnvelope.moved).2 <;> simp
        rw [hpopped] at hlen
        exact List.length_eq_zero_iff.1 (by simpa using hlen)
      subst hone
      refine ⟨ops ++ [.pop], turns ++ [(nowMs, env)],
        ⟨h.iterated, ⟨arrived, hdata', hsent⟩, hstage, ?_, ?_⟩⟩
      · rw [hout, hpopped, h.popped]
        simp
      · rw [Machine.run_append, h.dispatched]
        simp [Machine.run, dispatchTurn]

/-- **A run.** -/
theorem Traced.run : ∀ (ls : List EmulatedLabel) {ticks : List Tick} {ops : List RxOp}
    {turns : List (BitVec 64 × RxEnvelope)} {face : EmulatedFace} {calls : List HandlerCall},
    Traced sender arrayId ticks ops turns face calls →
      ∃ ops' turns', Traced sender arrayId (ticks ++ ls.filterMap tick?) ops' turns'
        (Machine.run EmulatedFace.step face ls).1
          (calls ++ (Machine.run EmulatedFace.step face ls).2)
  | [], _, ops, turns, _, _, h => ⟨ops, turns, by simpa using h⟩
  | l :: ls, ticks, _, _, _, calls, h => by
    obtain ⟨ops', turns', hstep⟩ := h.step l
    obtain ⟨ops'', turns'', hrun⟩ := Traced.run ls hstep
    refine ⟨ops'', turns'', ?_⟩
    rw [List.append_assoc, List.append_assoc] at hrun
    rw [List.filterMap_cons]
    cases htick : tick? l <;> simpa [htick, Machine.run] using hrun

/-- The envelopes of the datagrams for the device. -/
theorem forall₂_accepted (arrayId d : BitVec 8) : ∀ {datagrams : List (List Byte)}
    {raws : List ReceivedPacket},
    raws.map ReceivedPacket.data = datagrams.map some →
      List.Forall₂ (fun b env => ∃ ts, env = envelopeOf arrayId b ts)
        (datagrams.filter (Accepts d ·))
        (raws.filterMap (App.accepted? arrayId d))
  | [], raws, h => by
    obtain rfl := List.map_eq_nil_iff.1 h
    exact .nil
  | b :: datagrams, raws, h => by
    obtain ⟨raw, rest, rfl, hraw, hrest⟩ := List.map_eq_cons_iff.1 h
    have hall := forall₂_accepted arrayId d hrest
    obtain ⟨data, ts⟩ := raw
    obtain rfl : data = some b := hraw
    have henv : App.accepted? arrayId d ⟨some b, ts⟩ =
        if Accepts d b then some (envelopeOf arrayId b ts) else none := rfl
    rw [List.filter_cons, List.filterMap_cons, henv]
    by_cases hb : Accepts d b
    · simp only [hb, decide_true, if_true]
      exact .cons ⟨ts, rfl⟩ hall
    · simpa only [hb, decide_false, Bool.false_eq_true, if_false] using hall

/-- Nothing is on its way or in the queue, and the queue has dropped nothing. -/
structure Quiet (face : EmulatedFace) : Prop where
  wire : face.wire = []
  queue : face.rxStage.queue.size rxQueueCapacity = 0
  kept : face.rxStage.getStats.queueDrops = 0

instance (face : EmulatedFace) : Decidable face.Quiet :=
  decidable_of_iff (face.wire = [] ∧ face.rxStage.queue.size rxQueueCapacity = 0 ∧
    face.rxStage.getStats.queueDrops = 0) ⟨fun h => ⟨h.1, h.2.1, h.2.2⟩, fun h => ⟨h.1, h.2, h.3⟩⟩

/-- **A face has an emulated array's heartbeats, and nothing else of it.** However the sender, the
network and the face take turns, and whatever the impairments: once all that was sent is worked off,
no packet has gone to a handler but the heartbeats, each counted once; and every packet of the
intervals between the first of them and the last one is counted as a lost heartbeat, though none was
lost. -/
theorem heartbeats_only (arrayIndex : Nat) (cpiFrags : BitVec 16) (fragPayloadBytes : Nat)
    (impairments : ImpairmentConfig) (heartbeatIntervalMs : BitVec 32) (start : Int)
    (arrayId : BitVec 8) (ls : List EmulatedLabel) {sender : ArraySender} {beats : List Nat}
    (hsender : sender = .new arrayIndex cpiFrags fragPayloadBytes impairments
      heartbeatIntervalMs start)
    (hbeats : beats = sender.beats 0 (ls.filterMap tick?))
    (htaken : ∀ t ∈ ls.filterMap tick?, t.heartbeatTaken = true)
    (hgaps : beats.IsChain fun a b => cpiFrags.toNat * (b - a) + 1 < 2 ^ 31)
    (hquiet : (Machine.run step (new sender arrayId) ls).1.Quiet) :
    (Machine.run step (new sender arrayId) ls).1.dispatcher.stats =
        { dataPackets := 0, heartbeatPackets := beats.length, droppedPackets := 0 } ∧
      (Machine.run step (new sender arrayId) ls).1.dispatcher.heartbeatStats.receivedTotal =
        beats.length ∧
      (Machine.run step (new sender arrayId) ls).1.dispatcher.heartbeatStats.lossTotal =
        cpiFrags.toNat * (beats.getLastD 0 - beats.headD 0) ∧
      ∀ call ∈ (Machine.run step (new sender arrayId) ls).2, ∃ packet,
      call = .heartbeat packet := by
  subst hsender hbeats
  obtain ⟨ops, turns, htraced⟩ := (traced_new _ arrayId).run ls
  obtain ⟨arrived, hdata, hsent⟩ := htraced.sent
  rw [List.nil_append] at hsent htraced
  rw [hquiet.wire, List.append_nil] at hsent
  have hpopped := htraced.popped
  rw [App.popped_all ops (by rw [htraced.rxStage]; exact hquiet.queue)
    (by rw [htraced.rxStage]; exact hquiet.kept)] at hpopped
  have hturns := forall₂_accepted arrayId 0x01 hdata
  rw [← hsent, ArraySender.filter_run (d := 0x01) (by decide) rfl htaken, hpopped,
    List.forall₂_map_left_iff, List.forall₂_map_right_iff] at hturns
  have hcounted := ArraySender.dispatch_beats
    (d := (Dispatcher.new true true).setZeroCopyDataHandler true) rfl rfl rfl hgaps hturns
  have hdispatched : Machine.run dispatchTurn
    ((Dispatcher.new true true).setZeroCopyDataHandler true)
      turns = _ := htraced.dispatched
  rw [hdispatched] at hcounted
  exact ⟨by rw [hcounted.stats]; simp [Dispatcher.new, Dispatcher.setZeroCopyDataHandler],
    by rw [hcounted.received]; exact Nat.zero_add _, by rw [hcounted.lost]; exact Nat.zero_add _,
    hcounted.calls⟩

end

/-- An iteration at a time in nanoseconds, whose packets are moved. -/
def tickAt (steadyNow : Int) : Tick where
  dataTs := 0
  now := fun _ => 0
  draws := { place := fun i => i + 1 }
  steadyNow

/-- Three intervals of two packets, a heartbeat a second, and every datagram worked off. -/
def threeTicks : List EmulatedLabel :=
  [.tick (tickAt 0), .arrive 0, .tick (tickAt 1000000000), .process 0, .tick (tickAt 2000000000)] ++
    List.replicate 7 (.arrive 0) ++ [.process 0, .process 0]

/-- Two heartbeats arrive, and two are counted as lost. -/
theorem threeTicks_count :
    (Machine.run step (new (.new 0 2 1 { reorderDepth := 2 } 1000 0) 1)
      threeTicks).1.dispatcher.stats =
        { dataPackets := 0, heartbeatPackets := 2, droppedPackets := 0 } ∧
      (Machine.run step (new (.new 0 2 1 { reorderDepth := 2 } 1000 0) 1)
        threeTicks).1.dispatcher.heartbeatStats.lossTotal = 2 := by
  have hbeats : (ArraySender.new 0 2 1 { reorderDepth := 2 } 1000 0).beats 0
    (threeTicks.filterMap tick?) =
      [1, 2] := rfl
  have h := heartbeats_only 0 2 1 { reorderDepth := 2 } 1000 0 1 threeTicks rfl hbeats.symm
    (by decide +kernel) (by decide) (by decide +kernel)
  exact ⟨h.1, h.2.2.1⟩

end EmulatedFace

end Qdgz300.Emulator
