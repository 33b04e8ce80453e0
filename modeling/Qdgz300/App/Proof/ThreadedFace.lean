import Qdgz300.App.Proof.BlockOrder

/-!
# The threads of a face compute its pipeline

Whatever the order in which the receive thread, the processing thread, the worker of the consumer
and `app_shutdown` act, a face does what a sequential run of its parts does (`Face.Follows`): the
receive stage serves the datagrams and the pops one after the other, the reassembler and the
reorderer take the data packets in the order in which they were popped, and the blocks are pushed in
the order in which the reorderer hands the packets out.

* `Follows.process`, `Follows.consume`, `Follows.call`: one step of a thread.
* `FlushedTo`: the calls that `app_shutdown` has made on the pipeline, by its stage.
* **`threads_follow_pipeline`**: so for every run, from any state in which it is called.
-/

namespace Qdgz300.App

open Protocol Common Pipeline Delivery

/-- The data packets among the envelopes that were popped. -/
def dataPackets (popped : List RxEnvelope) : List ParsedPacket :=
  (popped.map parsedPacket).filter fun packet => packet.header.packetType = PacketType.data.toByte

/-- The block of a packet, built at some reading of the clock. -/
def Adapts (arrayId : BitVec 8) (packet : OrderedPacket) (block : RawBlock) : Prop :=
  ∃ now, block = adapt arrayId now packet

/-- The datagram that a step brings to face `i`. -/
def ShutdownLabel.datagram? (i : Nat) : ShutdownLabel → Option ReceivedPacket
  | .onPacket j raw => if j = i then some raw else none
  | _ => none

/-- The datagram of a call at the receive stage. -/
def datagram? : RxOp → Option ReceivedPacket
  | .onPacket raw => some raw
  | .pop => none

/-- The data packet of a call, with the handler that takes it. -/
def FaceCall.data? (call : FaceCall) : Option (FragmentStorage × ParsedPacket) :=
  call.reassemblerOp?.bind ReassemblerOp.packet?

/-- `face` is where a sequential run leads from `start`: `ops` at the receive stage, `calls` on the
pipeline. -/
structure Face.Follows (clocks : FaceClocks) (start : Face) (ops : List RxOp)
    (calls : List FaceCall) (face : Face) : Prop where
  arrayId : face.arrayId = start.arrayId
  rxStage : face.rxStage = (start.rxStage.run ops).1
  packets : (calls.filterMap FaceCall.data?).map Prod.snd = dataPackets (start.rxStage.run ops).2
  pipeline : (face.reassembler, face.reorderer) =
    (Machine.run (FacePipeline.step clocks.system clocks.steady) (start.reassembler, start.reorderer)
      calls).1
  pushed : ∀ path ∈ face.rawBlock, ∃ handed,
    start.outgoing ++ (Machine.run (FacePipeline.step clocks.system clocks.steady)
      (start.reassembler, start.reorderer) calls).2 = handed ++ face.outgoing ∧
    List.Forall₂ (Adapts start.arrayId) handed path.pushed

/-- The calls that `app_shutdown` has made on the pipeline of face `i`; `started` is the flag at its
call. -/
def FlushedTo (started : Bool) (i : Nat) (pc : ShutdownPc) (n : Nat) : Prop :=
  match pc with
  | .flushAll j => n = if j ≤ i then 0 else 1
  | .flush j => n = if j ≤ i then 1 else 2
  | .flushDelivery | .stopMetrics => n = 2
  | .returned => started = true → n = 2
  | .exited | .thrown => True
  | _ => n = 0

/-- The calls of the data handlers. -/
def dataCalls (datas : List (FragmentStorage × ParsedPacket)) : List FaceCall :=
  datas.map FaceCall.data

@[simp] theorem dataCalls_nil : dataCalls [] = [] := rfl

@[simp] theorem dataCalls_append (xs ys : List (FragmentStorage × ParsedPacket)) :
    dataCalls (xs ++ ys) = dataCalls xs ++ dataCalls ys := List.map_append

/-- `flush_all` and `flush`. -/
def flushCalls (order : IterOrder) : List FaceCall := [.reassembler (.flushAll order), .flush]

namespace Face

section
variable {clocks : FaceClocks} {start face face' : Face} {ops : List RxOp} {now : Int}
  {calls : List FaceCall}

theorem dataPackets_append (xs ys : List RxEnvelope) :
    dataPackets (xs ++ ys) = dataPackets xs ++ dataPackets ys := by
  simp [dataPackets]

theorem run_ops_append (stage : RxStage) (ops : List RxOp) (op : RxOp) :
    stage.run (ops ++ [op]) = (((stage.run ops).1.step op).1,
      (stage.run ops).2 ++ ((stage.run ops).1.step op).2) := by
  simp [RxStage.run, Machine.run_append, Machine.run]

theorem data?_data (call : FragmentStorage × ParsedPacket) :
    (FaceCall.data call).data? = some call := by
  obtain ⟨storage, packet⟩ := call
  cases storage <;> rfl

theorem filterMap_data (datas : List (FragmentStorage × ParsedPacket)) :
    (dataCalls datas).filterMap FaceCall.data? = datas := by
  rw [dataCalls, List.filterMap_map]
  exact (List.filterMap_congr fun call _ => data?_data call).trans List.filterMap_some

theorem follows_self (hpushed : ∀ path ∈ face.rawBlock, path.pushed = []) :
    Follows clocks face [] [] face where
  arrayId := rfl
  rxStage := rfl
  packets := rfl
  pipeline := rfl
  pushed := fun path hpath => ⟨[], by simp, by rw [hpushed path hpath]; exact .nil⟩

theorem Follows.onPacket (h : Follows clocks start ops calls face) (raw : ReceivedPacket) :
    Follows clocks start (ops ++ [.onPacket raw]) calls
      { face with rxStage := face.rxStage.onPacket raw } where
  arrayId := h.arrayId
  rxStage := by simp [run_ops_append, h.rxStage, RxStage.step]
  packets := by simp [run_ops_append, h.packets, RxStage.step]
  pipeline := h.pipeline
  pushed := h.pushed

theorem Follows.path (h : Follows clocks start ops calls face) {rawBlock : Option RawBlockPath}
    (hpath : ∀ path' ∈ rawBlock, ∃ path ∈ face.rawBlock, path'.pushed = path.pushed) :
    Follows clocks start ops calls { face with rawBlock } where
  arrayId := h.arrayId
  rxStage := h.rxStage
  packets := h.packets
  pipeline := h.pipeline
  pushed := fun path' hpath' => by
    obtain ⟨path, hmem, heq⟩ := hpath path' hpath'
    rw [heq]
    exact h.pushed path hmem

theorem Follows.goto (h : Follows clocks start ops calls face) {processing : ProcessingPc}
    (hout : { face with processing }.outgoing = face.outgoing) :
    Follows clocks start ops calls { face with processing } where
  arrayId := h.arrayId
  rxStage := h.rxStage
  packets := h.packets
  pipeline := h.pipeline
  pushed := by rw [hout]; exact h.pushed

/-- **A push**: the packet in front of those still to be pushed. -/
theorem Follows.deliver (h : Follows clocks start ops calls face) {packet : OrderedPacket}
    {packets : List OrderedPacket} {draining : Bool}
    (hpc : face.processing = .push (packet :: packets) draining) :
    Follows clocks start ops calls
      { face.deliver now packet with processing := .push packets draining } where
  arrayId := h.arrayId
  rxStage := h.rxStage
  packets := h.packets
  pipeline := h.pipeline
  pushed := by
    intro path' hpath'
    obtain ⟨path, hpath, rfl⟩ := Option.map_eq_some_iff.1 (Option.mem_def.1 hpath')
    obtain ⟨handed, heq, hblocks⟩ := h.pushed path hpath
    refine ⟨handed ++ [packet], ?_, ?_⟩
    · rw [heq, outgoing, hpc]
      simp [outgoing]
    · exact List.rel_append hblocks (.cons ⟨now, by rw [h.arrayId]⟩ .nil)

/-- **A pop with its dispatch.** -/
theorem Follows.popDispatch (h : Follows clocks start ops calls face) (hout : face.outgoing = [])
    {storage : FragmentStorage} {packets : List OrderedPacket} (draining : Bool)
    (hpop : face.popDispatch clocks storage = some (face', packets)) :
    ∃ datas, Follows clocks start (ops ++ [.pop]) (calls ++ dataCalls datas)
      { face' with processing := .push packets draining } := by
  obtain ⟨env, henv, hdispatch⟩ := Option.map_eq_some_iff.1 hpop
  have hpopped : face.rxStage.pop.2 = [env] := by
    unfold RxStage.pop at henv ⊢
    simp only at henv ⊢
    cases hq : (face.rxStage.queue.tryPop rxQueueCapacity RxEnvelope.moved).2 <;> simp_all
  have hops : start.rxStage.run (ops ++ [.pop]) =
      (face.rxStage.pop.1, (start.rxStage.run ops).2 ++ [env]) := by
    rw [run_ops_append, ← h.rxStage, ← hpopped]
    rfl
  unfold dispatch at hdispatch
  split at hdispatch
  case isTrue hdata =>
    obtain ⟨rfl, rfl⟩ := Prod.mk.inj hdispatch
    have hfeed : Machine.run (FacePipeline.step clocks.system clocks.steady)
        (start.reassembler, start.reorderer) (calls ++ [.data (storage, parsedPacket env)]) =
      ((Machine.feed (onData clocks.system) (onFrame clocks.steady) (face.reassembler, face.reorderer)
          (storage, parsedPacket env)).1,
        (Machine.run (FacePipeline.step clocks.system clocks.steady)
          (start.reassembler, start.reorderer) calls).2 ++
        (Machine.feed (onData clocks.system) (onFrame clocks.steady) (face.reassembler, face.reorderer)
          (storage, parsedPacket env)).2) := by
      rw [Machine.run_append, ← h.pipeline]
      simp [Machine.run, FacePipeline.step_data]
    refine ⟨[(storage, parsedPacket env)], h.arrayId, by rw [hops], ?_, by rw [dataCalls, List.map_singleton, hfeed],
      ?_⟩
    · rw [hops, dataPackets_append, List.filterMap_append, List.map_append, h.packets, filterMap_data]
      simp [dataPackets, hdata]
    · intro path hpath
      obtain ⟨handed, heq, hblocks⟩ := h.pushed path hpath
      refine ⟨handed, ?_, hblocks⟩
      have hhanded := heq.trans (by rw [hout, List.append_nil])
      rw [dataCalls, List.map_singleton, hfeed]
      simp only
      rw [← List.append_assoc, hhanded]
      rfl
  case isFalse hdata =>
    obtain ⟨rfl, rfl⟩ := Prod.mk.inj hdispatch
    refine ⟨[], ?_⟩
    rw [dataCalls_nil, List.append_nil]
    refine ⟨h.arrayId, by rw [hops], ?_, h.pipeline, ?_⟩
    · rw [hops, dataPackets_append, h.packets]
      simp [dataPackets, hdata]
    · have hpushed := h.pushed
      rw [hout] at hpushed
      exact hpushed

/-- **The processing thread.** -/
theorem Follows.process (h : Follows clocks start ops calls face) {running : Bool}
    (hstep : face.process clocks running now = some face') :
    ∃ ops' datas, ops'.filterMap datagram? = ops.filterMap datagram? ∧
      Follows clocks start ops' (calls ++ dataCalls datas) face' := by
  have hstay : ∀ {face' : Face}, Follows clocks start ops calls face' →
      ∃ ops' datas, ops'.filterMap datagram? = ops.filterMap datagram? ∧
        Follows clocks start ops' (calls ++ dataCalls datas) face' :=
    fun hnext => ⟨ops, [], rfl, by rwa [dataCalls_nil, List.append_nil]⟩
  unfold Face.process at hstep
  split at hstep
  case h_1 hpc =>
    obtain rfl := Option.some.inj hstep
    exact hstay (h.goto (by cases running <;> simp [outgoing, hpc]))
  case h_2 hpc =>
    split at hstep
    case h_1 popped packets hpop =>
      obtain rfl := Option.some.inj hstep
      obtain ⟨datas, hnext⟩ := h.popDispatch (by rw [outgoing, hpc]) false hpop
      exact ⟨_, datas, by simp [datagram?], hnext⟩
    case h_2 =>
      obtain rfl := Option.some.inj hstep
      exact hstay (h.goto (by simp [outgoing, hpc]))
  case h_3 hpc =>
    split at hstep
    case h_1 popped packets hpop =>
      obtain rfl := Option.some.inj hstep
      obtain ⟨datas, hnext⟩ := h.popDispatch (by rw [outgoing, hpc]) true hpop
      exact ⟨_, datas, by simp [datagram?], hnext⟩
    case h_2 =>
      obtain rfl := Option.some.inj hstep
      exact hstay (h.goto (by simp [outgoing, hpc]))
  case h_4 draining hpc =>
    obtain rfl := Option.some.inj hstep
    exact hstay (h.goto (by cases draining <;> simp [outgoing, hpc]))
  case h_5 packet packets draining hpc =>
    obtain rfl := Option.some.inj hstep
    exact hstay (h.deliver hpc)
  case h_6 => cases hstep

theorem Follows.consume (h : Follows clocks start ops calls face)
    (hstep : face.consume = some face') :
    Follows clocks start ops calls face' := by
  obtain ⟨path, r, hpath, -, rfl⟩ := Face.consume_eq hstep
  refine h.path fun path' hpath' => ?_
  obtain rfl := Option.some.inj hpath'
  exact ⟨path, hpath, rfl⟩

/-- The pushes of a call that the main thread makes. -/
theorem deliverAll_cases (now : Nat → Int) (packets : List OrderedPacket) (face : Face) :
    (face.deliverAll now packets).arrayId = face.arrayId ∧
    (face.deliverAll now packets).rxStage = face.rxStage ∧
    (face.deliverAll now packets).reassembler = face.reassembler ∧
    (face.deliverAll now packets).reorderer = face.reorderer ∧
    (face.deliverAll now packets).processing = face.processing ∧
    ∀ path' ∈ (face.deliverAll now packets).rawBlock, ∃ path ∈ face.rawBlock, ∃ bs,
      path'.pushed = path.pushed ++ bs ∧ List.Forall₂ (Adapts face.arrayId) packets bs := by
  induction packets generalizing face now with
  | nil => exact ⟨rfl, rfl, rfl, rfl, rfl, fun path h => ⟨path, h, [], by simp, .nil⟩⟩
  | cons packet packets ih =>
    obtain ⟨h1, h2, h3, h4, h5, hpath⟩ := ih (fun n => now (n + 1)) (face.deliver (now 0) packet)
    refine ⟨h1, h2, h3, h4, h5, fun path' hpath' => ?_⟩
    obtain ⟨path1, hmem1, bs, hpushed, hblocks⟩ := hpath path' hpath'
    obtain ⟨path, hmem, rfl⟩ := Option.map_eq_some_iff.1 (Option.mem_def.1 hmem1)
    refine ⟨path, hmem, adapt face.arrayId (now 0) packet :: bs, ?_, .cons ⟨now 0, rfl⟩ hblocks⟩
    rw [hpushed, RawBlockPath.push]
    simp

theorem processing_deliverAll (now : Nat → Int) (packets : List OrderedPacket) (face : Face) :
    (face.deliverAll now packets).processing = face.processing :=
  (deliverAll_cases now packets face).2.2.2.2.1

/-- **A call that the main thread makes**, without a data packet, while the processing thread has
nothing to push or where the call hands nothing out. -/
theorem Follows.call (h : Follows clocks start ops calls face) (call : FaceCall)
    (hdata : call.data? = none) (now : Nat → Int) {pipeline : FacePipeline}
    {packets : List OrderedPacket}
    (hcall : FacePipeline.step clocks.system clocks.steady (face.reassembler, face.reorderer) call =
      (pipeline, packets))
    (hout : face.outgoing = [] ∨ packets = []) :
    Follows clocks start ops (calls ++ [call])
      ({ face with reassembler := pipeline.1, reorderer := pipeline.2 }.deliverAll now packets) := by
  obtain ⟨hid, hrx, hreasm, hreord, -, hpath⟩ := deliverAll_cases now packets
    { face with reassembler := pipeline.1, reorderer := pipeline.2 }
  have hrun : Machine.run (FacePipeline.step clocks.system clocks.steady)
      (start.reassembler, start.reorderer) (calls ++ [call]) =
    (pipeline, (Machine.run (FacePipeline.step clocks.system clocks.steady)
        (start.reassembler, start.reorderer) calls).2 ++ packets) := by
    rw [Machine.run_append, ← h.pipeline]
    simp [Machine.run, hcall]
  refine ⟨hid.trans h.arrayId, hrx.trans h.rxStage, ?_, ?_, ?_⟩
  · rw [List.filterMap_append, List.map_append, h.packets]
    simp [hdata]
  · rw [hreasm, hreord, hrun]
  · intro path' hpath'
    obtain ⟨path, hmem, bs, hpushed, hblocks⟩ := hpath path' hpath'
    obtain ⟨handed, heq, hold⟩ := h.pushed path hmem
    refine ⟨handed ++ packets, ?_, ?_⟩
    · have hcomm : face.outgoing ++ packets = packets ++ face.outgoing := by
        rcases hout with hnone | hnone <;> simp [hnone]
      rw [outgoing_deliverAll, hrun, ← List.append_assoc, heq, List.append_assoc, hcomm,
        List.append_assoc]
      rfl
    · rw [hpushed]
      refine List.rel_append hold ?_
      have hid' : face.arrayId = start.arrayId := h.arrayId
      rwa [← hid']

end

end Face

namespace ShutdownState

section
variable {clocks : Nat → FaceClocks} {start s s' : ShutdownState} {i : Nat} {now : Int}
  {pushTimes : Nat → Int} {order : IterOrder} {past : List ShutdownLabel} {l : ShutdownLabel}

/-- Face `i` follows a sequential run, with the flushes that the stage of `app_shutdown` tells,
which come when its processing thread has ended. -/
def Following (clocks : Nat → FaceClocks) (start : ShutdownState) (i : Nat)
    (past : List ShutdownLabel) (s : ShutdownState) : Prop :=
  ∃ ops datas order n, ops.filterMap datagram? = past.filterMap (ShutdownLabel.datagram? i) ∧
    FlushedTo start.started i s.pc n ∧ (n ≠ 0 → (s.faces i).processing = .done) ∧
    (start.faces i).Follows (clocks i) ops (dataCalls datas ++ (flushCalls order).take n)
      (s.faces i)

/-- A step of a thread of face `j`, seen from face `i`. -/
theorem follows_setFace {ops : List RxOp} {calls : List FaceCall} {j : Nat} {face : Face}
    (h : (start.faces i).Follows (clocks i) ops calls (s.faces i))
    (hother : j ≠ i → l.datagram? i = none) (hface : j = i → ∃ ops' datas,
      ops'.filterMap datagram? = ops.filterMap datagram? ++ (l.datagram? i).toList ∧
      ((s.faces i).processing = .done → datas = [] ∧ face.processing = .done) ∧
      (start.faces i).Follows (clocks i) ops' (calls ++ dataCalls datas) face) :
    ∃ ops' datas, ops'.filterMap datagram? = ops.filterMap datagram? ++ (l.datagram? i).toList ∧
      ((s.faces i).processing = .done → datas = [] ∧ ((s.setFace j face).faces i).processing = .done) ∧
      (start.faces i).Follows (clocks i) ops' (calls ++ dataCalls datas)
        ((s.setFace j face).faces i) := by
  by_cases hj : j = i
  · have hsame : (s.setFace j face).faces i = face := by
      rw [ShutdownState.setFace, hj]
      exact Function.update_self ..
    rw [hsame]
    exact hface hj
  · have hsame : (s.setFace j face).faces i = s.faces i := Function.update_of_ne (Ne.symm hj) ..
    rw [hsame]
    refine ⟨ops, [], by simp [hother hj], fun hend => ⟨rfl, hend⟩, ?_⟩
    rwa [dataCalls_nil, List.append_nil]

/-- **A step of a thread**: the face makes calls of the data handlers, none when its processing
thread has ended. -/
theorem follows_thread {ops : List RxOp} {calls : List FaceCall}
    (h : (start.faces i).Follows (clocks i) ops calls (s.faces i))
    (hstep : s.step clocks l = some s')
    (hmain : ∀ now pushTimes order, l ≠ .main now pushTimes order) :
    s'.pc = s.pc ∧ ∃ ops' datas,
      ops'.filterMap datagram? = ops.filterMap datagram? ++ (l.datagram? i).toList ∧
      ((s.faces i).processing = .done → datas = [] ∧ (s'.faces i).processing = .done) ∧
      (start.faces i).Follows (clocks i) ops' (calls ++ dataCalls datas) (s'.faces i) := by
  rcases step_cases hstep with ⟨j, raw, rfl, -, rfl⟩ | ⟨j, now, face, rfl, -, hface, rfl⟩ |
    ⟨j, face, rfl, -, hface, rfl⟩ | ⟨now, pushTimes, order, rfl, -⟩
  · refine ⟨rfl, follows_setFace h (fun hj => if_neg hj) ?_⟩
    rintro rfl
    refine ⟨ops ++ [.onPacket raw], [], by simp [datagram?, ShutdownLabel.datagram?],
      fun hend => ⟨rfl, hend⟩, ?_⟩
    rw [dataCalls_nil, List.append_nil]
    exact h.onPacket raw
  · refine ⟨rfl, follows_setFace h (fun _ => rfl) ?_⟩
    rintro rfl
    obtain ⟨ops', datas, hops, hnext⟩ := h.process hface
    refine ⟨ops', datas, by simp [hops, ShutdownLabel.datagram?], fun hend => ?_, hnext⟩
    rw [Face.process, hend] at hface
    cases hface
  · refine ⟨rfl, follows_setFace h (fun _ => rfl) ?_⟩
    rintro rfl
    refine ⟨ops, [], by simp [ShutdownLabel.datagram?], fun hend => ⟨rfl, ?_⟩, ?_⟩
    · obtain ⟨path, r, -, -, rfl⟩ := Face.consume_eq hface
      exact hend
    · rw [dataCalls_nil, List.append_nil]
      exact h.consume hface
  · exact absurd rfl (hmain now pushTimes order)

theorem Following.goto (h : Following clocks start i past s) {t : ShutdownState}
    (hfaces : t.faces i = s.faces i) (hl : l.datagram? i = none)
    (hpc : ∀ n, FlushedTo start.started i s.pc n → FlushedTo start.started i t.pc n) :
    Following clocks start i (past ++ [l]) t := by
  obtain ⟨ops, datas, order, n, hops, hn, hended, hfollows⟩ := h
  refine ⟨ops, datas, order, n, ?_, hpc n hn, by rwa [hfaces], by rwa [hfaces]⟩
  rw [List.filterMap_append, hops]
  simp [hl]

theorem flushedTo_enforce {next : ShutdownPc} {started : Bool} {n : Nat}
    (h : FlushedTo started i next n) : FlushedTo started i (s.enforce now next).pc n := by
  unfold enforce
  simp only
  split
  · trivial
  · exact h

/-- The next flush of face `i`. -/
theorem Following.flushed (h : Following clocks start i past s) (hl : l.datagram? i = none)
    {t : ShutdownState} {n : Nat} (hat : ∀ m, FlushedTo start.started i s.pc m → m = n)
    (hto : FlushedTo start.started i t.pc (n + 1)) (hdone : (t.faces i).processing = .done)
    (hface : ∀ ops datas order, (start.faces i).Follows (clocks i) ops
        (datas ++ (flushCalls order).take n) (s.faces i) →
      ∃ order', (start.faces i).Follows (clocks i) ops (datas ++ (flushCalls order').take (n + 1))
        (t.faces i)) :
    Following clocks start i (past ++ [l]) t := by
  obtain ⟨ops, datas, order, m, hops, hm, -, hfollows⟩ := h
  obtain rfl := hat m hm
  obtain ⟨order', hnext⟩ := hface ops _ order hfollows
  refine ⟨ops, datas, order', m + 1, ?_, hto, fun _ => hdone, hnext⟩
  rw [List.filterMap_append, hops]
  simp [hl]

/-- **The main thread.** -/
theorem Following.main (h : Following clocks start i past s) (hi : i < s.numFaces)
    (hjoined : Joined s) (hflag : s.pc = .entry → s.started = start.started)
    (hmain : s.main clocks now pushTimes order = some s') :
    Following clocks start i (past ++ [.main now pushTimes order]) s' := by
  unfold ShutdownState.main at hmain
  have hdone : s.processingJoined = s.numFaces → (s.faces i).processing = .done :=
    fun hall => hjoined.processing i hi (by rw [hall]; exact hi)
  cases hpc : s.pc with
  | entry =>
    rw [hpc] at hmain
    simp only at hmain
    split at hmain
    case isTrue =>
      obtain rfl := Option.some.inj hmain
      exact h.goto rfl rfl (by simp [FlushedTo, hpc])
    case isFalse hstarted =>
      obtain rfl := Option.some.inj hmain
      refine h.goto rfl rfl fun n _ hstart => ?_
      rw [hflag hpc, hstart] at hstarted
      exact absurd rfl hstarted
  | stopConsumer j =>
    rw [hpc] at hmain
    simp only at hmain
    split at hmain
    · split at hmain
      · obtain rfl := Option.some.inj hmain
        obtain ⟨ops, datas, order', n, hops, hn, hended, hfollows⟩ := h
        refine ⟨ops, datas, order', n, by simp [hops, ShutdownLabel.datagram?], ?_, ?_⟩
        · simpa [FlushedTo, hpc] using hn
        · by_cases hj : i = j
          · subst hj
            simp only [ShutdownState.setFace, Function.update_self]
            refine ⟨hended, hfollows.path fun path' hpath' => ?_⟩
            obtain ⟨path, hpath, rfl⟩ := Option.map_eq_some_iff.1 (Option.mem_def.1 hpath')
            exact ⟨path, hpath, rfl⟩
          · simp only [ShutdownState.setFace, Function.update_of_ne hj]
            exact ⟨hended, hfollows⟩
      · obtain rfl := Option.some.inj hmain
        exact h.goto rfl rfl (by simp [FlushedTo, hpc])
    · obtain rfl := Option.some.inj hmain
      exact h.goto rfl rfl fun n hn => flushedTo_enforce (by simpa [FlushedTo, hpc] using hn)
  | joinConsumer j =>
    rw [hpc] at hmain
    obtain ⟨-, heq⟩ := Option.ite_none_right_eq_some.1 hmain
    obtain rfl := Option.some.inj heq
    exact h.goto rfl rfl (by simp [FlushedTo, hpc])
  | joinProcessing j =>
    rw [hpc] at hmain
    simp only at hmain
    split at hmain
    · split at hmain
      · obtain rfl := Option.some.inj hmain
        exact h.goto rfl rfl (by simp [FlushedTo, hpc])
      · cases hmain
    · obtain rfl := Option.some.inj hmain
      exact h.goto rfl rfl fun n hn => flushedTo_enforce (by simpa [FlushedTo, hpc] using hn)
  | stopProcessing =>
    rw [hpc] at hmain
    obtain rfl := Option.some.inj hmain
    exact h.goto rfl rfl (by simp [FlushedTo, hpc])
  | stopReceiver | stopPcap | flushDelivery =>
    rw [hpc] at hmain
    obtain rfl := Option.some.inj hmain
    exact h.goto rfl rfl fun n hn => flushedTo_enforce (by simpa [FlushedTo, hpc] using hn)
  | flushAll j =>
    have hend := hdone (by rw [processingJoined, hpc])
    rw [hpc] at hmain
    simp only at hmain
    split at hmain
    case isTrue hj =>
      split at hmain
      · obtain rfl := Option.some.inj hmain
        exact h.goto rfl rfl fun _ _ => trivial
      · obtain rfl := Option.some.inj hmain
        by_cases hij : i = j
        · subst hij
          have hself : (s.setFace i ((s.faces i).flushAll (clocks i) pushTimes order)).faces i =
              (s.faces i).flushAll (clocks i) pushTimes order := Function.update_self ..
          refine h.flushed rfl (n := 0) (by simp [FlushedTo, hpc]) (by simp [FlushedTo])
            ((congrArg _ hself).trans ((Face.processing_deliverAll ..).trans hend)) ?_
          intro ops datas _ hfollows
          refine ⟨order, ?_⟩
          rw [List.take_zero, List.append_nil] at hfollows
          simp only [hself]
          exact hfollows.call (.reassembler (.flushAll order)) rfl pushTimes rfl
            (.inl (by rw [Face.outgoing, hend]))
        · refine h.goto (Function.update_of_ne hij _ _) rfl fun n hn => ?_
          simp only [FlushedTo, hpc] at hn ⊢
          rw [hn]
          exact if_congr (by omega) rfl rfl
    case isFalse hj =>
      obtain rfl := Option.some.inj hmain
      refine h.goto rfl rfl fun n hn => flushedTo_enforce ?_
      simp only [FlushedTo, hpc] at hn ⊢
      rw [hn, if_neg (by omega), if_pos (Nat.zero_le i)]
  | flush j =>
    have hend := hdone (by rw [processingJoined, hpc])
    rw [hpc] at hmain
    simp only at hmain
    split at hmain
    case isTrue hj =>
      obtain rfl := Option.some.inj hmain
      by_cases hij : i = j
      · subst hij
        have hself : (s.setFace i ((s.faces i).flush pushTimes)).faces i =
            (s.faces i).flush pushTimes := Function.update_self ..
        refine h.flushed rfl (n := 1) (by simp [FlushedTo, hpc]) (by simp [FlushedTo])
          ((congrArg _ hself).trans ((Face.processing_deliverAll ..).trans hend)) ?_
        intro ops datas order' hfollows
        refine ⟨order', ?_⟩
        have hnext := hfollows.call .flush rfl pushTimes rfl
          (.inl (by rw [Face.outgoing, hend]))
        rw [List.append_assoc] at hnext
        simp only [hself]
        exact hnext
      · refine h.goto (Function.update_of_ne hij _ _) rfl fun n hn => ?_
        simp only [FlushedTo, hpc] at hn ⊢
        rw [hn]
        exact if_congr (by omega) rfl rfl
    case isFalse hj =>
      obtain rfl := Option.some.inj hmain
      refine h.goto rfl rfl fun n hn => flushedTo_enforce ?_
      simp only [FlushedTo, hpc] at hn ⊢
      rw [hn, if_neg (by omega)]
  | stopMetrics =>
    rw [hpc] at hmain
    obtain rfl := Option.some.inj hmain
    refine h.goto rfl rfl fun n hn => ?_
    have hstage : FlushedTo start.started i .returned n := fun _ => by simpa [FlushedTo, hpc] using hn
    exact flushedTo_enforce (s := s) hstage
  | returned | exited | thrown =>
    rw [hpc] at hmain
    cases hmain

theorem main_leaves (hmain : s.main clocks now pushTimes order = some s') : s'.pc ≠ .entry := by
  intro hpc
  unfold ShutdownState.main ShutdownState.enforce at hmain
  split at hmain <;> (try split at hmain) <;> (try split at hmain) <;> simp at hmain <;>
    subst hmain <;> simp at hpc

/-- Where `app_shutdown` has not been entered, its flag is that of the call. -/
def FlagKept (start s : ShutdownState) : Prop := s.pc = .entry → s.started = start.started

theorem flagKept_step (h : FlagKept start s) (hstep : s.step clocks l = some s') :
    FlagKept start s' := by
  rcases step_cases hstep with ⟨j, raw, -, -, rfl⟩ | ⟨j, now, face, -, -, -, rfl⟩ |
    ⟨j, face, -, -, -, rfl⟩ | ⟨now, pushTimes, order, -, hmain⟩
  · exact h
  · exact h
  · exact h
  · exact fun hpc => absurd hpc (main_leaves hmain)

/-- **A step** of any thread. -/
theorem Following.step (h : Following clocks start i past s) (hi : i < s.numFaces)
    (hjoined : Joined s) (hflag : FlagKept start s) (hstep : s.step clocks l = some s') :
    Following clocks start i (past ++ [l]) s' := by
  by_cases hmain : ∃ now pushTimes order, l = .main now pushTimes order
  · obtain ⟨now, pushTimes, order, rfl⟩ := hmain
    exact h.main hi hjoined hflag hstep
  · obtain ⟨ops, datas, order, n, hops, hn, hended, hfollows⟩ := h
    obtain ⟨hpc, ops', more, hops', hdone, hfollows'⟩ := follows_thread hfollows hstep
      fun now pushTimes order heq => hmain ⟨now, pushTimes, order, heq⟩
    have hpast : ops'.filterMap datagram? = (past ++ [l]).filterMap
      (ShutdownLabel.datagram? i) := by
      rw [hops', List.filterMap_append, hops]
      cases hl : l.datagram? i <;> simp [hl]
    by_cases hzero : n = 0
    · subst hzero
      refine ⟨ops', datas ++ more, order, 0, hpast, by rwa [hpc], fun h => absurd rfl h, ?_⟩
      simpa using hfollows'
    · obtain ⟨rfl, hend⟩ := hdone (hended hzero)
      rw [dataCalls_nil, List.append_nil] at hfollows'
      exact ⟨ops', datas, order, n, hpast, by rwa [hpc], fun _ => hend, hfollows'⟩

/-- **A run.** -/
theorem run_following (hentry : start.AtEntry) (hi : i < start.numFaces) {ls : List ShutdownLabel}
    (hrun : Machine.exec (ShutdownState.step clocks) start ls = some s) :
    (Accounted start s ∧ Joined s ∧ FlagKept start s ∧ Ordered start s) ∧
      Following clocks start i ls s := by
  refine Machine.exec_trace_inv (I := fun past t =>
    (Accounted start t ∧ Joined t ∧ FlagKept start t ∧ Ordered start t) ∧
      Following clocks start i past t) ?_ [] ?_ hrun
  · rintro past t l t' ⟨⟨hacc, hjoined, hflag, hordered⟩, h⟩ hstep
    refine ⟨⟨accounted_step hacc hstep, joined_step hjoined hacc hstep, flagKept_step hflag hstep,
      ordered_step hordered hstep⟩, ?_⟩
    exact h.step (by rw [hacc.1]; exact hi) hjoined hflag hstep
  · refine ⟨⟨hentry.accounted, hentry.joined, fun _ => rfl, hentry.ordered⟩,
      [], [], ⟨id, List.Perm.refl⟩, 0, rfl, ?_, fun h => absurd rfl h, ?_⟩
    · rw [hentry.pc]
      rfl
    · exact Face.follows_self fun path hpath => (hentry.paths i hi path hpath).1

end

/-- **The threads compute the pipeline.** In every run of the threads of all faces and of
`app_shutdown`, a face has done what its parts do one call after the other, and its blocks are
processed in the order in which the reorderer handed their packets out, but for those counted as
dropped. -/
theorem threads_follow_pipeline (clocks : Nat → FaceClocks) {start s : ShutdownState}
    {ls : List ShutdownLabel} (hentry : start.AtEntry)
    (hrun : Machine.exec (ShutdownState.step clocks) start ls = some s) {i : Nat}
    (hi : i < start.numFaces) :
    ∃ ops datas order n,
      ops.filterMap datagram? = ls.filterMap (ShutdownLabel.datagram? i) ∧
      (start.faces i).Follows (clocks i) ops (dataCalls datas ++ (flushCalls order).take n)
        (s.faces i) ∧
      FlushedTo start.started i s.pc n ∧ (n ≠ 0 → (s.faces i).processing = .done) ∧
      Option.Rel RawBlockPath.InOrder (start.faces i).rawBlock (s.faces i).rawBlock := by
  obtain ⟨⟨hacc, -, -, hordered⟩, ops, datas, order, n, hops, hpc, hended, hfollows⟩ :=
    run_following hentry hi hrun
  refine ⟨ops, datas, order, n, hops, hfollows, hpc, hended, ?_⟩
  have hi' : i < s.numFaces := by rw [hacc.1]; exact hi
  exact hordered.paths hi' (hacc.2 i hi')

/-- The run of `quickShutdown` on a face with an empty queue. -/
theorem quickShutdown_follows : ∃ s',
    Machine.exec (step stoppedClocks) (oneFace (.new fun _ => none)) quickShutdown = some s' ∧
    ∃ ops datas order n,
      ops.filterMap datagram? = quickShutdown.filterMap (ShutdownLabel.datagram? 0) ∧
      ((oneFace (.new fun _ => none)).faces 0).Follows (stoppedClocks 0) ops
        (dataCalls datas ++ (flushCalls order).take n) (s'.faces 0) ∧
      FlushedTo true 0 s'.pc n ∧ (n ≠ 0 → (s'.faces 0).processing = .done) ∧
      Option.Rel RawBlockPath.InOrder ((oneFace (.new fun _ => none)).faces 0).rawBlock
        (s'.faces 0).rawBlock := by
  obtain ⟨s', hrun, -⟩ := quickShutdown_returns stoppedClocks (.new fun _ => none)
  exact ⟨s', hrun, threads_follow_pipeline stoppedClocks (oneFace_entry waiting_new) hrun Nat.one_pos⟩

end ShutdownState

end Qdgz300.App
