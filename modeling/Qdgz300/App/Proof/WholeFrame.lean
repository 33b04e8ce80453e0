import Qdgz300.App.FacePipeline
import Qdgz300.Delivery.Proof.DeliveredPayload
import Qdgz300.Pipeline.Proof.ReorderOrigin

/-!
# From frames to delivered bytes

The callback writes the size of a frame into the 16-bit `payload_len`, and both deliveries take
their size from there. A frame below 64 KiB is delivered whole; of a longer one the deliveries write
the low 16 bits of its size and as many bytes, and report success.

* `emitted_frame`: the packets of the reorderer are the frames it was given, whichever way they
  leave.
* **`whole_frame_delivered`**: an emitted frame is delivered whole exactly when it is shorter than
  2^16 bytes.
* `longFrame_emptied`: a frame of 2^16 bytes is delivered as an empty one.
-/

namespace Qdgz300.App

open Protocol Pipeline Delivery Bytes

/-- The calls on the reorderer of a face. -/
inductive FaceOp where
  | frame (frame : ReassembledFrame)
  | checkTimeout
  | flush
  | setTimeoutMs (timeoutMs : BitVec 32)

def FaceOp.toReorder : FaceOp → ReorderOp
  | .frame f => .insertOwned (frameHeader f) (some f.data) f.totalSize
  | .checkTimeout => .checkTimeout
  | .flush => .flush
  | .setTimeoutMs timeoutMs => .setTimeoutMs timeoutMs

def FaceOp.frame? : FaceOp → Option ReassembledFrame
  | .frame f => some f
  | _ => none

/-- The packet `p` carries the whole frame: both deliveries write its bytes with its size, and a
frame that does not fit the ring is an error. -/
structure WholeFrame (frame : ReassembledFrame) (p : OrderedPacket) : Prop where
  shared : ∀ (n : Nat) (packets : List OrderedPacket) (s s' : SharedMemoryDelivery)
    (ds : List Record),
    Machine.exec deliverStep (SharedMemoryDelivery.init n, []) packets = some (s, ds) →
    s.deliver p = some (s', true) →
    ∃ r, recordAt s'.ring (recordStart s p) = some r ∧ r.payload = frame.data
  refused : ∀ s : SharedMemoryDelivery, s.ring.length ≤ recordHeaderSize + frame.totalSize →
    s.deliver p = some (s.countError, false)
  socket : ∀ (clk : SteadyClock) (calls : SocketCalls) (s : UnixSocketDelivery)
    (message : List Byte),
    (s.deliver clk calls p).2.1 = some message →
    message = toLe 4 frame.totalSize ++ toLe 4 0 ++ frame.data

section
variable {frame : ReassembledFrame}

theorem payloadSize_orderedFrame (frame : ReassembledFrame) :
    SharedMemoryDelivery.payloadSize (orderedFrame frame) = frame.totalSize % 2 ^ 16 := by
  rw [SharedMemoryDelivery.payloadSize, orderedFrame, Reorderer.orderedOf, frameHeader]
  exact BitVec.toNat_ofNat _ _

theorem payload_orderedFrame (hdata : frame.data.length = frame.totalSize) :
    (orderedFrame frame).packet.payload.getD [] = frame.data := by
  rw [orderedFrame, Reorderer.orderedOf]
  simp only
  split
  case isTrue h0 => rw [List.length_eq_zero_iff.1 (hdata.trans h0), Option.getD_none]
  case isFalse => rw [Option.getD_some]

theorem carries_orderedFrame (hdata : frame.data.length = frame.totalSize) :
    Carries (orderedFrame frame) := by
  rw [Carries, payloadSize_orderedFrame, payload_orderedFrame hdata, hdata]
  exact Nat.mod_le _ _

theorem wire_orderedFrame (hdata : frame.data.length = frame.totalSize)
    (hsmall : frame.totalSize < 2 ^ 16) :
    UnixSocketDelivery.wire (orderedFrame frame) =
      toLe 4 frame.totalSize ++ toLe 4 0 ++ frame.data := by
  have hsize : SharedMemoryDelivery.payloadSize (orderedFrame frame) = frame.totalSize := by
    rw [payloadSize_orderedFrame, Nat.mod_eq_of_lt hsmall]
  have hpay := payload_orderedFrame hdata
  unfold UnixSocketDelivery.wire
  simp only [hsize]
  congr 1
  cases hp : (orderedFrame frame).packet.payload with
  | none =>
    rw [hp, Option.getD_none] at hpay
    rw [← hpay, List.length_nil] at hdata
    rw [← hpay, ← hdata]
    rfl
  | some bytes =>
    rw [hp, Option.getD_some] at hpay
    simp only
    split
    · rw [hpay, List.take_of_length_le (Nat.le_of_eq hdata)]
    case isFalse h0 => rw [List.length_eq_zero_iff.1 (show frame.data.length = 0 by omega)]

theorem length_wire_le (p : OrderedPacket) :
    (UnixSocketDelivery.wire p).length ≤ 8 + SharedMemoryDelivery.payloadSize p := by
  unfold UnixSocketDelivery.wire
  simp only [List.length_append, length_toLe]
  split
  · split <;> simp
  · simp

/-- **A packet carries its whole frame** exactly when the size fits `payload_len`. -/
theorem wholeFrame_iff (hdata : frame.data.length = frame.totalSize) :
    WholeFrame frame (orderedFrame frame) ↔ frame.totalSize < 2 ^ 16 := by
  constructor
  · intro h
    -- an open socket sends no more bytes than `payload_len` says
    have hmsg := h.socket (fun _ => 0) {}
      { socketPath := [], reconnectIntervalMs := 1, currentBackoffMs := 1, connected := true } _ rfl
    have hlen := length_wire_le (orderedFrame frame)
    rw [hmsg, payloadSize_orderedFrame] at hlen
    simp only [List.length_append, length_toLe, hdata] at hlen
    have := Nat.mod_lt frame.totalSize (show 0 < 2 ^ 16 by decide)
    omega
  · intro hsmall
    have hsize : SharedMemoryDelivery.payloadSize (orderedFrame frame) = frame.totalSize := by
      rw [payloadSize_orderedFrame, Nat.mod_eq_of_lt hsmall]
    have hcarries := carries_orderedFrame hdata
    refine ⟨fun n packets s s' ds hexec hd => ?_, fun s hfull => ?_, fun clk calls s message hm => ?_⟩
    · refine ⟨_, deliver_record (exec_headIn hexec) hcarries hd, ?_⟩
      rw [recordOf, payload_orderedFrame hdata, hsize]
      exact List.take_of_length_le (Nat.le_of_eq hdata)
    · exact deliver_refused (by rw [required, hsize]; exact hfull)
    · rw [deliver_wire hm, wire_orderedFrame hdata hsmall]

/-- Every packet that the reorderer of a face emits is zero-filled or a frame's. -/
theorem emitted_frame {cfg : ReorderConfig} {created : Int} {clk : SteadyClock} {ops : List FaceOp}
    {p : OrderedPacket} (hp : p ∈ ((Reorderer.new cfg created).run clk (ops.map FaceOp.toReorder)).2)
    (hz : p.isZeroFilled = false) : ∃ frame ∈ ops.filterMap FaceOp.frame?,
    p = orderedFrame frame := by
  rcases run_origin clk _ [] _ (stocked_new cfg created) p hp with hfill | ⟨e, he, rfl⟩
  · rw [hz] at hfill
    cases hfill
  · rw [List.nil_append] at he
    obtain ⟨rop, hrop, hentry⟩ := List.mem_filterMap.1 he
    obtain ⟨op, hop, rfl⟩ := List.mem_map.1 hrop
    cases op with
    | frame f =>
      cases hentry
      exact ⟨f, List.mem_filterMap.2 ⟨_, hop, rfl⟩, rfl⟩
    | checkTimeout => cases hentry
    | flush => cases hentry
    | setTimeoutMs timeoutMs => cases hentry

/-- **Delivery transmits the whole frame**, for every frame that the reorderer of a face emits in
any run, exactly when its size is below 2^16. -/
theorem whole_frame_delivered (cfg : ReorderConfig) (created : Int) (clk : SteadyClock)
    {ops : List FaceOp} {p : OrderedPacket}
    (hdata : ∀ frame ∈ ops.filterMap FaceOp.frame?, frame.data.length = frame.totalSize)
    (hp : p ∈ ((Reorderer.new cfg created).run clk (ops.map FaceOp.toReorder)).2)
    (hz : p.isZeroFilled = false) :
    ∃ frame ∈ ops.filterMap FaceOp.frame?, p = orderedFrame frame ∧
      (WholeFrame frame p ↔ frame.totalSize < 2 ^ 16) := by
  obtain ⟨frame, hframe, rfl⟩ := emitted_frame hp hz
  exact ⟨frame, hframe, rfl, wholeFrame_iff (hdata frame hframe)⟩

end

/-- A complete frame of `n` bytes. -/
def plainFrame (n : Nat) : ReassembledFrame where
  key := {}
  data := List.replicate n 0xAB
  totalSize := n
  dataTimestamp := 0
  executionSnapshot := {}
  hasExecutionSnapshot := true
  isComplete := true
  missingFragmentsCount := 0
  missingFragIndices := []

/-- A frame of three bytes is delivered whole. -/
theorem shortFrame_whole : WholeFrame (plainFrame 3) (orderedFrame (plainFrame 3)) := by
  have hdata : ∀ frame ∈ [FaceOp.frame (plainFrame 3)].filterMap FaceOp.frame?,
      frame.data.length = frame.totalSize := by decide
  obtain ⟨frame, hframe, -, hiff⟩ := whole_frame_delivered { windowSize := 4 } 0 (fun _ => 0) hdata
    (List.mem_singleton_self (orderedFrame (plainFrame 3))) rfl
  obtain rfl : frame = plainFrame 3 := List.mem_singleton.1 hframe
  exact hiff.2 (by decide)

/-- A frame of 2^16 bytes leaves the reorderer, and both deliveries succeed with an empty
payload. -/
theorem longFrame_emptied :
    ((Reorderer.new { windowSize := 4 } 0).run (fun _ => 0)
      [FaceOp.toReorder (.frame (plainFrame 65536))]).2 = [orderedFrame (plainFrame 65536)] ∧
    (UnixSocketDelivery.deliver (fun _ => 0) {} (.new (fun _ => 0) {} [0x61] 100)
      (orderedFrame (plainFrame 65536))).2 = (some (List.replicate 8 0), true) ∧
    ((SharedMemoryDelivery.init 64).deliver (orderedFrame (plainFrame 65536))).map
      (fun r => (recordAt r.1.ring 0, r.2)) = some (some ⟨0, false, []⟩, true) ∧
    ¬ WholeFrame (plainFrame 65536) (orderedFrame (plainFrame 65536)) := by
  refine ⟨rfl, rfl, ?_, fun h => ?_⟩
  · decide +kernel
  · exact absurd ((wholeFrame_iff (List.length_replicate ..)).1 h) (by decide)

end Qdgz300.App
