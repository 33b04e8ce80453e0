import Qdgz300.App.Proof.HandOver
import Qdgz300.App.Proof.RawBlocks
import Qdgz300.App.Proof.ScannedFace
import Qdgz300.Pipeline.Proof.RxAccounting

/-!
# From the datagrams of a frame to its RawBlock

Frames arrive one after another, each as its datagrams in any order, among heartbeats and datagrams
that are not for the device, and the main thread scans for timeouts. When the scans have found none,
the threads have worked everything off and no queue counts a drop, the consumer has processed one
block for each frame, in the order of the frames, with their bytes.

* `pipeline_frames`: the frames through the reassembler and the reorderer.
* `popped_all`: a receive stage without drops hands on all that was accepted.
* **`frames_processed`**: the face as a whole, in every interleaving of its threads.
-/

namespace Qdgz300.App

open Protocol Common Pipeline Delivery

/-- The packets of a burst in the order of their arrival. -/
def Burst.packets {cfg : ReassemblerConfig} (b : Burst cfg) : List ParsedPacket :=
  b.order.map fun c => b.frame.packet c.2

/-- The envelope of a datagram for the device. -/
def accepted? (arrayId d : BitVec 8) (raw : ReceivedPacket) : Option RxEnvelope :=
  arrival? arrayId d (.onPacket raw)

/-- A face that has just been started, with a consumer. -/
structure Face.Fresh (cfg : ReassemblerConfig) (reorder : ReorderConfig) (created : Int)
    (arrayId d : BitVec 8) (face : Face) : Prop where
  rxStage : face.rxStage = .new arrayId d
  pipeline : (face.reassembler, face.reorderer) = FacePipeline.new cfg reorder created
  processing : face.processing = .check
  rawBlock : face.rawBlock = some
    { queue := .new fun _ => none
      consumer := { running := true, pc := .check, stats := {}, processed := [] }
      pushed := [] }
  arrayId : face.arrayId = arrayId

/-- Everything that came in is worked off, and no queue has dropped anything. -/
@[mk_iff] structure Face.Quiet (face : Face) : Prop where
  received : face.rxStage.queue.size rxQueueCapacity = 0
  kept : face.rxStage.getStats.queueDrops = 0
  dispatched : face.outgoing = []
  consumed : ∀ path ∈ face.rawBlock,
    blocks path.queue = [] ∧ path.consumer.inHand = [] ∧ path.queue.dropCount = 0

instance (face : Face) : Decidable face.Quiet := decidable_of_iff _ (Face.quiet_iff face).symm

/-! ## The pipeline -/

section
variable {cfg : ReassemblerConfig}

/-- The same frames and arrivals, with the storage of the calls that were made. -/
theorem exists_bursts : ∀ (bursts : List (Burst cfg))
    (datas : List (FragmentStorage × ParsedPacket)),
    datas.map Prod.snd = bursts.flatMap Burst.packets →
      ∃ bursts' : List (Burst cfg), bursts'.map Burst.frame = bursts.map Burst.frame ∧
        bursts'.flatMap Burst.calls = datas
  | [], datas, h => ⟨[], rfl, (List.map_eq_nil_iff.1 h).symm⟩
  | b :: bursts, datas, h => by
    rw [List.flatMap_cons] at h
    obtain ⟨front, rest, rfl, hfront, hrest⟩ := List.map_eq_append_iff.1 h
    obtain ⟨bursts', hframes, hcalls⟩ := exists_bursts bursts rest hrest
    have hlen : front.length = b.order.length := by
      simpa [Burst.packets] using congrArg List.length hfront
    have hindex : ((front.map Prod.fst).zip (b.order.map Prod.snd)).map Prod.snd =
        b.order.map Prod.snd := by
      rw [List.map_snd_zip]
      simp [hlen]
    refine ⟨{ b with
      order := (front.map Prod.fst).zip (b.order.map Prod.snd)
      perm := by rw [hindex]; exact b.perm } :: bursts', by simp [hframes], ?_⟩
    rw [List.flatMap_cons, hcalls]
    congr 1
    refine List.ext_getElem (by simp [Burst.calls, hlen]) fun k h1 h2 => ?_
    have hk : (front.map Prod.snd)[k]? = b.packets[k]? := by rw [hfront]
    have hkb : k < b.order.length := hlen ▸ h2
    simp only [Burst.packets, List.getElem?_map, List.getElem?_eq_getElem h2,
      List.getElem?_eq_getElem hkb, Option.map_some, Option.some.injEq] at hk
    simp [Burst.calls, ← hk]

/-- **The frames through the pipeline**: all are handed out, in order. -/
theorem pipeline_frames {sysClk : SystemClock} {clk : SteadyClock} (reorder : ReorderConfig)
    (created : Int) (hmax : cfg.maxTotalFrags.toNat ≤ 1024) (hpos : 0 < cfg.maxContexts)
    {bursts : List (Burst cfg)} (hone : (bursts.map Burst.counter).IsChain ByOne)
    {calls : List FaceCall} (hdatas : calls.filterMap FaceCall.data? = bursts.flatMap Burst.calls)
    (hquiet : Machine.RunAlong (FacePipeline.step sysClk clk) (FacePipeline.Quiet sysClk clk)
      (FacePipeline.new cfg reorder created) calls) :
    ∃ frames, List.Forall₂ (fun (b : Burst cfg) frame => IsFrameOf b.frame frame) bursts frames ∧
      (Machine.run (FacePipeline.step sysClk clk) (FacePipeline.new cfg reorder created) calls).2 =
        frames.map orderedFrame := by
  obtain ⟨es, hreasm, hreorder⟩ := paced_calls hquiet
  rw [hdatas] at hreasm
  obtain ⟨frames, hframes, rfl⟩ := bursts_completed hmax hpos bursts (resting_new cfg) hreasm
  refine ⟨frames, hframes, ?_⟩
  rw [← counters_eq hframes] at hone
  cases frames with
  | nil => exact (hreorder.nil (fun _ _ => Unstarted.idles) (unstarted_new reorder created)).1
  | cons frame frames =>
    have hgrows : (frame.key.frameCounter :: frames.map fun f => f.key.frameCounter).IsChain Grows :=
      hone.imp fun _ _ h => .inr h
    obtain ⟨r, packets, hr, hout, hafter⟩ :=
      hreorder.cons (fun _ _ => Unstarted.idles) (unstarted_new reorder created)
    obtain ⟨hfirst, hsync⟩ := onFrame_first clk hr frame none
    rw [hout, hfirst, paced_onFrame clk frames _ hsync hgrows hafter,
      (handed_eq_iff frames _ hgrows).2 hone]
    rfl

end

/-! ## The receive stage -/

section
variable {arrayId d : BitVec 8}

theorem arrivals_eq (ops : List RxOp) :
    ops.filterMap (arrival? arrayId d) = (ops.filterMap datagram?).filterMap
      (accepted? arrayId d) := by
  rw [List.filterMap_filterMap]
  refine List.filterMap_congr fun op _ => ?_
  cases op <;> rfl

/-- **All that was accepted** is popped when the queue is empty and counts no drop. -/
theorem popped_all (ops : List RxOp)
    (hempty : ((RxStage.new arrayId d).run ops).1.queue.size rxQueueCapacity = 0)
    (hdrops : ((RxStage.new arrayId d).run ops).1.getStats.queueDrops = 0) :
    ((RxStage.new arrayId d).run ops).2 =
      (ops.filterMap datagram?).filterMap (accepted? arrayId d) := by
  have h := (rxAccounts_new arrayId d).run ops
  obtain ⟨contents, hholds, hsub, hlen⟩ := h.queue
  rw [hholds.size] at hempty
  obtain rfl := List.length_eq_zero_iff.1 hempty
  have hzero : ((RxStage.new arrayId d).run ops).1.queue.dropCount = 0 := hdrops
  rw [← arrivals_eq]
  simp only [List.nil_append, List.append_nil, hzero] at hsub hlen
  exact hsub.eq_of_length hlen.symm

end

/-! ## The face -/

theorem exists_of_rel {α β : Type} {R : α → β → Prop} {a : α} {b : Option β}
    (h : Option.Rel R (some a) b) : ∃ y, b = some y ∧ R a y := by
  cases h with
  | some hy => exact ⟨_, rfl, hy⟩

theorem sized_of_sent {cfg : ReassemblerConfig} {bursts : List (Burst cfg)}
    {frames : List ReassembledFrame}
    (h : List.Forall₂ (fun (b : Burst cfg) frame => IsFrameOf b.frame frame) bursts frames) :
    ∀ frame ∈ frames, frame.data.length = frame.totalSize := by
  induction h with
  | nil => simp
  | cons hframe _ ih => exact List.forall_mem_cons.2 ⟨hframe.size.symm, ih⟩

theorem carried_of_adapts {arrayId : BitVec 8} {frames : List ReassembledFrame} {bs : List RawBlock}
    (hsized : ∀ frame ∈ frames, frame.data.length = frame.totalSize)
    (h : List.Forall₂ (Adapts arrayId) (frames.map orderedFrame) bs) :
    List.Forall₂ Carried frames bs := by
  rw [List.forall₂_map_left_iff] at h
  refine ((List.forall₂_and_left frames bs).2 ⟨hsized, h⟩).imp ?_
  rintro frame block ⟨hdata, now, rfl⟩
  exact adapt_frame hdata arrayId now

/-- **Every frame becomes one block.** -/
theorem frames_processed (clocks : Nat → FaceClocks) {start s : ShutdownState} {ls : List ScanLabel}
    (hentry : start.AtEntry)
    (hrun : Machine.exec (ShutdownState.scanStep clocks) start ls = some s) {i : Nat}
    (hi : i < start.numFaces) (hpc : s.pc = .entry)
    (hscans : Machine.Along (ShutdownState.scanStep clocks) (ShutdownState.FindsNoTimeout clocks i)
      start ls)
    {cfg : ReassemblerConfig} {reorder : ReorderConfig} {created : Int} {arrayId d : BitVec 8}
    (hfresh : (start.faces i).Fresh cfg reorder created arrayId d)
    (hmax : cfg.maxTotalFrags.toNat ≤ 1024) (hpos : 0 < cfg.maxContexts) {bursts : List (Burst cfg)}
    (hone : (bursts.map Burst.counter).IsChain ByOne)
    (hsent : dataPackets ((ls.filterMap (ScanLabel.datagram? i)).filterMap (accepted? arrayId d)) =
      bursts.flatMap Burst.packets)
    (hquiet : (s.faces i).Quiet) :
    ∃ path ∈ (s.faces i).rawBlock, ∃ frames,
      List.Forall₂ (fun (b : Burst cfg) frame => IsFrameOf b.frame frame) bursts frames ∧
      List.Forall₂ Carried frames path.consumer.processed ∧
      path.consumer.stats = statisticsOf path.consumer.processed := by
  obtain ⟨⟨hacc, hordered⟩, hfollowing⟩ := ShutdownState.scanned_following hentry hi hrun hscans
  obtain ⟨ops, calls, hops, hfollows, hcalls⟩ := hfollowing hpc
  have hi' : i < s.numFaces := by rw [hacc.1]; exact hi
  -- what was popped is what was accepted
  have hpackets : (calls.filterMap FaceCall.data?).map Prod.snd = bursts.flatMap Burst.packets := by
    have hrx := hfollows.rxStage
    have hempty := hquiet.received
    have hkept := hquiet.kept
    rw [hrx, hfresh.rxStage] at hempty hkept
    rw [hfollows.packets, hfresh.rxStage, popped_all ops hempty hkept, hops, hsent]
  obtain ⟨bursts', hframes', hdatas⟩ := exists_bursts bursts _ hpackets
  have hone' : (bursts'.map Burst.counter).IsChain ByOne := by
    have hcounters : bursts'.map Burst.counter = bursts.map Burst.counter := by
      have hmap := congrArg (List.map fun f : SentFrame cfg => f.key.frameCounter) hframes'
      rwa [List.map_map, List.map_map] at hmap
    rw [hcounters]
    exact hone
  rw [hfresh.pipeline] at hcalls
  obtain ⟨frames, hframes, hout⟩ :=
    pipeline_frames reorder created hmax hpos hone' hdatas.symm hcalls
  have hframes₀ : List.Forall₂ (fun (b : Burst cfg) frame => IsFrameOf b.frame frame) bursts
    frames := by
    have hmapped := List.forall₂_map_left_iff.2 hframes
    rw [hframes'] at hmapped
    exact List.forall₂_map_left_iff.1 hmapped
  have hrel := hordered.paths hi' (hacc.2 i hi')
  rw [hfresh.rawBlock] at hrel
  obtain ⟨path, hpath, horder⟩ := exists_of_rel hrel
  obtain ⟨hempty, hhand, hdrops⟩ := hquiet.consumed path hpath
  have hprocessed := horder.all_processed hdrops hhand hempty
  have hfaces := hordered i hi' path hpath _ hfresh.rawBlock
  obtain ⟨handed, hhanded, hblocks⟩ := hfollows.pushed path hpath
  have hpushed : handed = frames.map orderedFrame := by
    have hstart : (start.faces i).outgoing = [] := by rw [Face.outgoing, hfresh.processing]
    rw [hstart, hquiet.dispatched, List.append_nil, List.nil_append, hfresh.pipeline, hout] at hhanded
    exact hhanded.symm
  rw [hpushed, hfresh.arrayId] at hblocks
  have hcarried := carried_of_adapts (sized_of_sent hframes₀) hblocks
  have hall : path.consumer.processed = path.pushed := by
    rw [hprocessed, waiting_new.blocks]
    rfl
  refine ⟨path, hpath, frames, hframes₀, ?_, hfaces.2 rfl⟩
  rw [hall]
  exact hcarried

/-- A data packet for device 1: a frame of one fragment with one byte. -/
def oneDatagram : ReceivedPacket where
  data := some ([0xAA, 0x55, 0xAA, 0x55] ++ List.replicate 12 0 ++ [81, 0, 3, 0x31, 0, 1] ++
    List.replicate 10 0 ++ [5] ++ List.replicate 31 0 ++ [2, 0, 0, 0, 1, 0, 1, 0] ++
    List.replicate 40 0 ++ [7])
  receiveTimestampNs := 9

/-- What the processing thread makes of it. -/
def onePacket : ParsedPacket :=
  ((accepted? 1 1 oneDatagram).map parsedPacket).getD ⟨{}, none, 0⟩

theorem onePacket_fragment : ∀ i < 1, IsFragment
    (extractKey onePacket.header (specificOf onePacket)) 1 1 {} i
    onePacket [7] := by
  intro i hi
  obtain rfl : i = 0 := by omega
  exact ⟨by decide +kernel, by decide +kernel, by decide +kernel, by decide +kernel, rfl, by decide,
    fun h => absurd rfl h, fun _ => ⟨by decide +kernel, by decide +kernel, by decide +kernel,
      by decide +kernel⟩⟩

theorem oneBody_fits : ∑ _i ∈ Finset.range 1, ([7] : List Byte).length ≤
    (ReassemblerConfig.maxReasmBytesPerKey { maxContexts := 1 }) := by decide

theorem oneCount_le : 1 ≤ (ReassemblerConfig.maxTotalFrags { maxContexts := 1 }).toNat := by decide

theorem oneOrder_perm :
    List.Perm (([(.heap, 0)] : List (FragmentStorage × Nat)).map Prod.snd) (List.range 1) := .refl _

def oneBurst : Burst { maxContexts := 1 } where
  frame :=
    { key := extractKey onePacket.header (specificOf onePacket)
      count := 1
      tail := 1
      snapshot := {}
      packet := fun _ => onePacket
      body := fun _ => [7]
      pos := Nat.one_pos
      le := oneCount_le
      fits := oneBody_fits
      fragment := onePacket_fragment }
  order := [(.heap, 0)]
  perm := oneOrder_perm

/-- A face of device 1 with a consumer. -/
def oneReceiver : ShutdownState where
  started := true
  numFaces := 1
  faces := fun _ =>
    { arrayId := 1
      rxStage := .new 1 1
      reassembler := .new { maxContexts := 1 }
      reorderer := .new { windowSize := 4 } 0
      processing := .check
      rawBlock := some
        { queue := .new fun _ => none
          consumer := { running := true, pc := .check, stats := {}, processed := [] }
          pushed := [] } }
  receiving := true
  processingRunning := true
  deadline := 0
  pc := .entry

/-- The datagram arrives while the consumer polls, and the threads work it off between two scans. -/
def oneFrameRun : List ScanLabel :=
  let order : IterOrder := ⟨id, List.Perm.refl⟩
  [.thread (.process 0 0), .checkTimeouts 0 (fun _ => 0) order, .checkTimeout 0 fun _ => 0,
    .thread (.consume 0), .thread (.onPacket 0 oneDatagram), .thread (.consume 0),
    .thread (.process 0 0), .thread (.process 0 0), .checkTimeouts 0 (fun _ => 0) order,
    .checkTimeout 0 fun _ => 0, .thread (.consume 0), .thread (.consume 0), .thread (.consume 0),
    .thread (.process 0 0)]

theorem oneFrame_processed : ∃ s,
    Machine.exec (ShutdownState.scanStep ShutdownState.stoppedClocks) oneReceiver
      oneFrameRun = some s ∧
    ∃ path ∈ (s.faces 0).rawBlock, ∃ frames,
      List.Forall₂ (fun (b : Burst { maxContexts := 1 }) frame => IsFrameOf b.frame frame)
      [oneBurst]
        frames ∧
      List.Forall₂ Carried frames path.consumer.processed ∧
      path.consumer.stats = statisticsOf path.consumer.processed := by
  have hend : (Machine.exec (ShutdownState.scanStep ShutdownState.stoppedClocks) oneReceiver
      oneFrameRun).any (fun s => decide (s.pc = .entry ∧ (s.faces 0).Quiet)) = true := by
    decide +kernel
  obtain ⟨s, hrun, hs⟩ := (Option.any_eq_true _ _).1 hend
  obtain ⟨hpc, hquiet⟩ := of_decide_eq_true hs
  have hfresh : (oneReceiver.faces 0).Fresh { maxContexts := 1 } { windowSize := 4 } 0 1 1 :=
    ⟨rfl, rfl, rfl, rfl, rfl⟩
  refine ⟨s, hrun, frames_processed ShutdownState.stoppedClocks ?_ hrun Nat.one_pos hpc
    (by decide +kernel) hfresh (by decide) (by decide) (List.isChain_singleton _)
      (by decide +kernel)
    hquiet⟩
  refine ⟨rfl, fun i _ path hpath => ?_, nofun⟩
  obtain rfl := Option.some.inj hpath
  exact ⟨rfl, rfl, ⟨[], waiting_new⟩, nofun⟩

end Qdgz300.App
