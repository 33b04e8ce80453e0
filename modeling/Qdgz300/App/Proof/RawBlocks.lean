import Qdgz300.App.Proof.WholeFrame
import Qdgz300.Delivery.RawBlock
import Qdgz300.Pipeline.Proof.FrameLayout

/-!
# The RawBlocks of frames

`RawBlockAdapter` turns every packet of the reorderer into a block. A frame comes to it as the
packet that the callback built (`orderedFrame`), at once, out of the window or by `flush`; a number
that `check_timeout` skips comes as an empty packet.

* `adapt_frame`, `adapt_gap`: the block of either.
* `step_packets`: what the packets of a call on a face are.
* **`rawBlock_carries_frame`**: so for every packet of every run, the frames being those that the
  reassembler of the face assembled from packets.
-/

namespace Qdgz300.App

open Protocol Pipeline Delivery

/-- The block carries the frame, cut off at the size of a block. -/
structure Carried (frame : ReassembledFrame) (block : RawBlock) : Prop where
  cpiSeq : block.cpiSeq = frame.key.frameCounter
  dataTs : block.dataTs.toNat = frame.dataTimestamp.toNat * 10 ^ 6 % 2 ^ 64
  dataSize : block.dataSize.toNat = min frame.totalSize rawBlockPayloadSize
  written : block.payload.length = block.dataSize.toNat
  payload : block.payload = frame.data.take block.dataSize.toNat
  flag : block.hasFlag incompleteFrame = true ↔
    frame.isComplete = false ∨ rawBlockPayloadSize < frame.totalSize

/-- The block stands for the missing number `seq`. -/
structure StandsFor (seq : BitVec 32) (block : RawBlock) : Prop where
  cpiSeq : block.cpiSeq = seq
  dataSize : block.dataSize = 0
  flag : block.hasFlag incompleteFrame = true

/-- What the callback inserts for a frame. -/
def frameEntry (frame : ReassembledFrame) : Entry :=
  ⟨frameHeader frame, some frame.data, frame.totalSize⟩

/-- The reorderer buffers nothing but the frames passed to it. -/
def Supplied (frames : List ReassembledFrame) (reorderer : Reorderer) : Prop :=
  Stocked (frames.map frameEntry) reorderer

/-- The frames that a call passes to the reorderer. -/
def FaceCall.passes (sysClk : SystemClock) (reassembler : Reassembler) (call : FaceCall) :
    List ReassembledFrame :=
  match call.reassemblerOp? with
  | some op => (reassembler.step sysClk op).2.map Emission.frame
  | none => []

/-! ## One packet -/

section
variable {frame : ReassembledFrame} {p : OrderedPacket}

theorem dataSize_adapt (arrayId : BitVec 8) (now : Int) (p : OrderedPacket) :
    (adapt arrayId now p).dataSize.toNat = min p.payloadSize rawBlockPayloadSize := by
  unfold adapt
  simp only
  split
  case isTrue hbig =>
    rw [Nat.min_eq_right (Nat.le_of_lt hbig)]
    rfl
  case isFalse hfits =>
    have hle : p.payloadSize ≤ rawBlockPayloadSize := Nat.le_of_not_lt hfits
    have hlt : rawBlockPayloadSize < 2 ^ 32 := by decide
    rw [Nat.min_eq_left hle, BitVec.toNat_ofNat, Nat.mod_eq_of_lt (by omega)]

/-- The flag is set for a gap, for a frame reported incomplete and for a block cut off. -/
theorem hasFlag_adapt (arrayId : BitVec 8) (now : Int) (p : OrderedPacket) :
    (adapt arrayId now p).hasFlag incompleteFrame = true ↔
      (p.isZeroFilled = true ∨ p.isIncompleteFrame = true) ∨ rawBlockPayloadSize <
        p.payloadSize := by
  have hset : incompleteFrame ≠ 0#32 := by decide
  unfold RawBlock.hasFlag adapt
  simp only
  by_cases hbig : rawBlockPayloadSize < p.payloadSize
  · rw [if_pos hbig]
    cases hflags : (p.isZeroFilled || p.isIncompleteFrame) with
    | true => simp [hbig, hset]
    | false => simp [hbig, hset]
  · rw [if_neg hbig, ← Bool.or_eq_true]
    cases hflags : (p.isZeroFilled || p.isIncompleteFrame) with
    | true => simp [hset]
    | false => simp [hbig]

theorem isIncompleteFrame_orderedFrame (frame : ReassembledFrame) :
    (orderedFrame frame).isIncompleteFrame = !frame.isComplete := by
  simp only [orderedFrame, Reorderer.orderedOf, frameHeader]
  cases frame.isComplete with
  | true => decide
  | false => decide

/-- **The block of a frame.** -/
theorem adapt_frame (hdata : frame.data.length = frame.totalSize) (arrayId : BitVec 8) (now : Int) :
    Carried frame (adapt arrayId now (orderedFrame frame)) := by
  have hsize : (adapt arrayId now (orderedFrame frame)).dataSize.toNat =
      min frame.totalSize rawBlockPayloadSize := dataSize_adapt arrayId now _
  have hpayload : (adapt arrayId now (orderedFrame frame)).payload =
      frame.data.take (min frame.totalSize rawBlockPayloadSize) := rfl
  constructor
  · rfl
  · have hts : (adapt arrayId now (orderedFrame frame)).dataTs =
      frame.dataTimestamp * 1000000#64 := rfl
    rw [hts, BitVec.toNat_mul]
    rfl
  · exact hsize
  · rw [hpayload, hsize, List.length_take, hdata]
    exact Nat.min_eq_left (Nat.min_le_left _ _)
  · rw [hpayload, hsize]
  · rw [hasFlag_adapt, isIncompleteFrame_orderedFrame, Bool.not_eq_true']
    have hz : (orderedFrame frame).isZeroFilled = false := rfl
    have hp : (orderedFrame frame).payloadSize = frame.totalSize := rfl
    rw [hz, hp]
    simp

/-- **The block of a skipped number.** -/
theorem adapt_gap (seq : BitVec 32) (arrayId : BitVec 8) (now : Int) :
    StandsFor seq (adapt arrayId now (Reorderer.createZeroFilledPacket seq)) := by
  refine ⟨rfl, ?_, (hasFlag_adapt ..).2 (.inl (.inl rfl))⟩
  exact BitVec.eq_of_toNat_eq (dataSize_adapt arrayId now (Reorderer.createZeroFilledPacket seq))

/-! ## The packets of a face -/

variable {sysClk : SystemClock} {clk : SteadyClock} {frames : List ReassembledFrame}
  {face : FacePipeline} {call : FaceCall}

theorem run_onFrame_eq (clk : SteadyClock) : ∀ (es : List Emission) (r : Reorderer),
    Machine.run (onFrame clk) r es =
      r.run clk (es.map fun e => FaceOp.toReorder (.frame e.frame))
  | [], _ => rfl
  | e :: es, r => by
    rw [Machine.run, run_onFrame_eq clk es]
    rfl

theorem inserted_frames (es : List Emission) :
    inserted (es.map fun e => FaceOp.toReorder (.frame e.frame)) =
      (es.map Emission.frame).map frameEntry := by
  induction es with
  | nil => rfl
  | cons e es ih =>
    rw [List.map_cons, inserted_cons, ih]
    rfl

theorem frame_of_origin (h : Origin (frames.map frameEntry) p) (hz : p.isZeroFilled = false) :
    ∃ frame ∈ frames, p = orderedFrame frame := by
  rcases h with h | ⟨e, he, hp⟩
  · rw [hz] at h
    cases h
  · obtain ⟨frame, hframe, rfl⟩ := List.mem_map.1 he
    exact ⟨frame, hframe, hp⟩

theorem reorderer_packets (clk : SteadyClock) {reorderer : Reorderer}
    (h : Supplied frames reorderer) (op : ReorderOp) (hentry : op.entry? = none) :
    Supplied frames (reorderer.step clk op).1 ∧ ∀ p ∈ (reorderer.step clk op).2,
      (∃ frame ∈ frames, p = orderedFrame frame) ∨
      (op = .checkTimeout ∧ p = Reorderer.createZeroFilledPacket reorderer.nextExpectedSeq) := by
  obtain ⟨hend, hout⟩ := step_origin clk h op
  rw [hentry, Option.toList_none, List.append_nil] at hend hout
  refine ⟨hend, fun p hp => ?_⟩
  cases hz : p.isZeroFilled with
  | false => exact .inl (frame_of_origin (hout p hp) hz)
  | true => exact .inr (step_zeroFilled clk hp hz)

/-- **The packets of a call**: each is a frame passed before or by this call, or stands for the
number that `check_timeout` found missing. -/
theorem step_packets (sysClk : SystemClock) (clk : SteadyClock) (h : Supplied frames face.2)
    (call : FaceCall) :
    Supplied (frames ++ call.passes sysClk face.1) (face.step sysClk clk call).1.2 ∧
    ∀ p ∈ (face.step sysClk clk call).2,
      (∃ frame ∈ frames ++ call.passes sysClk face.1, p = orderedFrame frame) ∨
      (call = .checkTimeout ∧ p = Reorderer.createZeroFilledPacket face.2.nextExpectedSeq) := by
  cases call with
  | reassembler op =>
    simp only [FacePipeline.step, Machine.feed, run_onFrame_eq, FaceCall.passes,
      FaceCall.reassemblerOp?]
    have hin := inserted_frames (face.1.step sysClk op).2
    refine ⟨?_, fun p hp => .inl ?_⟩
    · rw [Supplied, List.map_append, ← hin]
      exact run_stocked clk _ _ _ h
    · have horigin := run_origin clk _ _ _ h p hp
      rw [hin, ← List.map_append] at horigin
      refine frame_of_origin horigin ?_
      -- no insert is zero-filled
      by_contra hz
      have hmem := run_zeroFilled clk _ _ hp (by simpa using hz)
      obtain ⟨e, -, he⟩ := List.mem_map.1 hmem
      cases he
  | checkTimeout =>
    obtain ⟨hend, hout⟩ := reorderer_packets clk h .checkTimeout rfl
    rw [show FaceCall.passes sysClk face.1 .checkTimeout = [] from rfl, List.append_nil]
    refine ⟨hend, fun p hp => ?_⟩
    rcases hout p hp with hframe | ⟨-, hgap⟩
    · exact .inl hframe
    · exact .inr ⟨rfl, hgap⟩
  | flush =>
    obtain ⟨hend, hout⟩ := reorderer_packets clk h .flush rfl
    rw [show FaceCall.passes sysClk face.1 .flush = [] from rfl, List.append_nil]
    refine ⟨hend, fun p hp => ?_⟩
    rcases hout p hp with hframe | ⟨hop, -⟩
    · exact .inl hframe
    · cases hop
  | setTimeoutMs timeoutMs =>
    rw [show FaceCall.passes sysClk face.1 (.setTimeoutMs timeoutMs) = [] from rfl, List.append_nil]
    exact ⟨h.frame rfl, fun p hp => by cases hp⟩

/-! ## Runs -/

theorem step_reassembler (sysClk : SystemClock) (clk : SteadyClock) (face : FacePipeline)
    (call : FaceCall) :
    (face.step sysClk clk call).1.1 = (face.1.run sysClk call.reassemblerOp?.toList).1 ∧
      call.passes sysClk face.1 =
        (face.1.run sysClk call.reassemblerOp?.toList).2.map Emission.frame := by
  cases call with
  | reassembler op =>
    exact ⟨rfl, by simp [FaceCall.passes, FaceCall.reassemblerOp?, Reassembler.run,
      Machine.run]⟩
  | checkTimeout => exact ⟨rfl, rfl⟩
  | flush => exact ⟨rfl, rfl⟩
  | setTimeoutMs timeoutMs => exact ⟨rfl, rfl⟩

/-- After the calls the reassembler is where its own calls lead, and the reorderer buffers nothing
but the frames that these passed. -/
theorem run_supplied (sysClk : SystemClock) (clk : SteadyClock) :
    ∀ (calls : List FaceCall) (face : FacePipeline) (frames : List ReassembledFrame),
      Supplied frames face.2 →
      (Machine.run (FacePipeline.step sysClk clk) face calls).1.1 =
          (face.1.run sysClk (calls.filterMap FaceCall.reassemblerOp?)).1 ∧
        Supplied (frames ++
          (face.1.run sysClk (calls.filterMap FaceCall.reassemblerOp?)).2.map Emission.frame)
          (Machine.run (FacePipeline.step sysClk clk) face calls).1.2 := by
  intro calls
  induction calls with
  | nil =>
    intro face frames h
    exact ⟨rfl, (List.append_nil frames).symm ▸ h⟩
  | cons call calls ih =>
    intro face frames h
    obtain ⟨hstate, hpasses⟩ := step_reassembler sysClk clk face call
    obtain ⟨hreasm, hsupplied⟩ :=
      ih (face.step sysClk clk call).1 _ (step_packets sysClk clk h call).1
    have hops : (call :: calls).filterMap FaceCall.reassemblerOp? =
        call.reassemblerOp?.toList ++ calls.filterMap FaceCall.reassemblerOp? := by
      cases call <;> rfl
    rw [hops]
    unfold Reassembler.run at hreasm hsupplied hstate hpasses ⊢
    rw [Machine.run_append, ← hstate, List.map_append, ← hpasses, ← List.append_assoc]
    exact ⟨hreasm, hsupplied⟩

theorem run_sized {cfg : ReassemblerConfig} {ops : List ReassemblerOp} {e : Emission}
    (hheld : ∀ op ∈ ops, ∀ storage packet, op.packet? = some (storage, packet) → packet.Holds)
    (he : e ∈ ((Reassembler.new cfg).run sysClk ops).2) :
    e.frame.data.length = e.frame.totalSize := by
  have hsized : ∀ op ∈ ops, ∀ storage packet f, op.packet? = some (storage, packet) →
      fragmentOf cfg packet = some f → f.Sized :=
    fun op hop storage packet f hpacket hfrag =>
      fragmentOf_sized (hheld op hop storage packet hpacket) hfrag
  obtain ⟨ctx, r, hbehind, -, hframe⟩ :=
    run_emitted hsized (recorded_new Fragment.Sized cfg fun _ => {}) he
  rw [hframe]
  exact hbehind.length_data cfg _

/-- The packet of a call brings the bytes that its header announces. -/
def FaceCall.Held (call : FaceCall) : Prop :=
  ∀ op storage packet, call.reassemblerOp? = some op → op.packet? = some (storage, packet) →
    packet.Holds

/-- **A RawBlock carries its frame.** Whatever calls a face has taken, every packet that the next
call hands out, at once, out of the window or by `flush`, is a frame that the reassembler passed to
the reorderer, and its block carries that frame; or the call is a `check_timeout` that found the
expected number missing, and the block is empty and stands for that number. -/
theorem rawBlock_carries_frame (reasm : ReassemblerConfig) (reorder : ReorderConfig) (created : Int)
    (sysClk : SystemClock) (clk : SteadyClock) {calls : List FaceCall} {call : FaceCall}
    (hheld : ∀ c ∈ calls ++ [call], c.Held) {face : FacePipeline} {before : List OrderedPacket}
    (hrun : Machine.run (FacePipeline.step sysClk clk) (.new reasm reorder created) calls =
      (face, before))
    {p : OrderedPacket} (hp : p ∈ (face.step sysClk clk call).2) (arrayId : BitVec 8) (now : Int) :
    (∃ frame ∈ passedFrames sysClk reasm (calls ++ [call]), p = orderedFrame frame ∧
      Carried frame (adapt arrayId now p)) ∨
    (call = .checkTimeout ∧ p.isZeroFilled = true ∧
      StandsFor face.2.nextExpectedSeq (adapt arrayId now p)) := by
  obtain ⟨hreasm, hsupplied⟩ := run_supplied sysClk clk calls (.new reasm reorder created) []
    (stocked_new reorder created)
  rw [hrun] at hreasm hsupplied
  have hpassed : passedFrames sysClk reasm (calls ++ [call]) =
      passedFrames sysClk reasm calls ++ call.passes sysClk face.1 := by
    obtain ⟨-, hpasses⟩ := step_reassembler sysClk clk face call
    have hops : [call].filterMap FaceCall.reassemblerOp? = call.reassemblerOp?.toList := by
      cases call <;> rfl
    rw [hpasses, hreasm]
    unfold passedFrames Reassembler.run
    rw [List.filterMap_append, Machine.run_append, List.map_append, hops]
    rfl
  rcases (step_packets sysClk clk hsupplied call).2 p hp with ⟨frame, hframe, rfl⟩ | ⟨hcall, rfl⟩
  · refine .inl ⟨frame, hpassed ▸ hframe, rfl, adapt_frame ?_ arrayId now⟩
    obtain ⟨e, he, rfl⟩ := List.mem_map.1 (hpassed ▸ hframe)
    refine run_sized (fun op hop storage packet hpacket => ?_) he
    obtain ⟨c, hc, hop⟩ := List.mem_filterMap.1 hop
    exact hheld c hc op storage packet hop hpacket
  · exact .inr ⟨hcall, rfl, adapt_gap _ arrayId now⟩

end

/-- The packet of a frame of one fragment, the tail with its snapshot and three bytes. -/
def oneFragment (counter : Byte) : ParsedPacket where
  header := { payloadLen := 83 }
  payload := some (counter :: List.replicate 33 0 ++ [0, 0, 1, 0, 3, 0] ++ List.replicate 40 0 ++
    [1, 2, 3])
  totalSize := 115

def oneFragmentCalls (counters : List Byte) : List FaceCall :=
  counters.map fun counter => .reassembler (.processPacket (oneFragment counter))

theorem oneFragmentCalls_held {counters : List Byte} {call : FaceCall}
    (h : call ∈ oneFragmentCalls counters) : call.Held := by
  obtain ⟨counter, -, rfl⟩ := List.mem_map.1 h
  intro op storage packet hop hpacket bytes hbytes
  cases hop
  cases hpacket
  cases hbytes
  exact Nat.le_refl _

/-- **Frames 0, 2, 4 and 1 come in.** The last brings out 1 at once and 2 from the window; `flush`
brings out 4; their blocks carry them. -/
theorem outOfOrder_carried : ∃ face closing flushed,
    (Machine.run (FacePipeline.step stepClock fun _ => 0) (.new {} {} 0)
      (oneFragmentCalls [0, 2, 4])).1 = face ∧
    FacePipeline.step stepClock (fun _ => 0) face (.reassembler (.processPacket (oneFragment 1))) =
      closing ∧
    FacePipeline.step stepClock (fun _ => 0) closing.1 .flush = flushed ∧
    closing.2.map OrderedPacket.sequenceNumber = [1, 2] ∧
    flushed.2.map OrderedPacket.sequenceNumber = [4] ∧
    ∀ p ∈ closing.2 ++ flushed.2, ∃ frame, p = orderedFrame frame ∧
    Carried frame (adapt 1 0 p) := by
  have hcarried : ∀ (calls : List FaceCall) (call : FaceCall), (∀ c ∈ calls ++ [call], c.Held) →
      call ≠ .checkTimeout → ∀ face,
      (Machine.run (FacePipeline.step stepClock fun _ => 0) (.new {} {} 0) calls).1 = face →
      ∀ p ∈ (face.step stepClock (fun _ => 0) call).2,
        ∃ frame, p = orderedFrame frame ∧ Carried frame (adapt 1 0 p) := by
    rintro calls call hheld hcall face rfl p hp
    rcases rawBlock_carries_frame {} {} 0 stepClock (fun _ => 0) hheld rfl hp 1 0 with
      ⟨frame, -, hframe⟩ | ⟨htimeout, -⟩
    · exact ⟨frame, hframe⟩
    · exact absurd htimeout hcall
  have hframes : ∀ c ∈ oneFragmentCalls [0, 2, 4] ++ oneFragmentCalls [1], c.Held := fun c hc =>
    (List.mem_append.1 hc).elim oneFragmentCalls_held oneFragmentCalls_held
  obtain ⟨face, hface⟩ : ∃ face, (Machine.run (FacePipeline.step stepClock fun _ => 0) (.new {} {} 0)
    (oneFragmentCalls [0, 2, 4])).1 = face := ⟨_, rfl⟩
  have hclosing : (Machine.run (FacePipeline.step stepClock fun _ => 0) (.new {} {} 0)
      (oneFragmentCalls [0, 2, 4] ++ oneFragmentCalls [1])).1 =
        (FacePipeline.step stepClock (fun _ => 0) face
          (.reassembler (.processPacket (oneFragment 1)))).1 := by
    rw [Machine.run_append, hface]
    rfl
  refine ⟨face, _, _, hface, rfl, rfl, ?_, ?_, fun p hp => ?_⟩
  · subst hface
    decide +kernel
  · subst hface
    decide +kernel
  · rcases List.mem_append.1 hp with hp | hp
    · exact hcarried _ (.reassembler (.processPacket (oneFragment 1))) hframes nofun face hface p hp
    · refine hcarried _ .flush (fun c hc => ?_) nofun _ hclosing p hp
      rcases List.mem_append.1 hc with hc | hc
      · exact hframes c hc
      · obtain rfl := List.mem_singleton.1 hc
        exact fun op storage packet hop => nomatch hop

end Qdgz300.App
