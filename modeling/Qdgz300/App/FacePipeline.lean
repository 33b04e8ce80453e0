import Qdgz300.Config.ConfigManager
import Qdgz300.Pipeline.Reassembler
import Qdgz300.Pipeline.Reorderer

/-!
# The pipeline of one array face (`src/m01_receiver/app_init.cpp`)

`app_init` gives the reassembler a callback that builds a common header from the frame and hands the
frame to the reorderer. The callback runs inside the reassembler's call and touches nothing of the
reassembler, so a call is the reassembler's step followed by one insertion for each frame it emits.
-/

namespace Qdgz300.App

open Protocol Pipeline

/-- The configuration that `app_init` gives a reassembler. -/
def reassemblerConfig (config : Config.ReceiverConfig) : ReassemblerConfig where
  timeoutMs := config.reassembly.timeoutMs
  maxContexts := config.reassembly.maxContexts
  maxTotalFrags := config.reassembly.maxTotalFrags
  sampleCountFixed := config.reassembly.sampleCountFixed
  maxReasmBytesPerKey := config.reassembly.maxReasmBytesPerKey

/-- The header that the reassembler's callback builds. The key's beam, CPI, pulse, channels and data
type have no place in it, and `payload_len` takes the low 16 bits of the size. -/
def frameHeader (frame : ReassembledFrame) : CommonHeader where
  magic := protocolMagic
  protocolVersion := protocolVersion
  packetType := PacketType.data.toByte
  sourceId := frame.key.sourceId
  controlEpoch := frame.key.controlEpoch
  sequenceNumber := frame.key.frameCounter
  payloadLen := BitVec.ofNat 16 frame.totalSize
  timestamp := frame.dataTimestamp
  extFlags := if frame.isComplete then 0 else 0x01

/-- The reassembler's callback. -/
def onFrame (clk : SteadyClock) (reorderer : Reorderer) (emission : Emission) :
    Reorderer × List OrderedPacket :=
  reorderer.insertOwned clk (frameHeader emission.frame) (some emission.frame.data)
    emission.frame.totalSize

/-- The packet that the reorderer hands out for a frame. -/
def orderedFrame (frame : ReassembledFrame) : OrderedPacket :=
  Reorderer.orderedOf (frameHeader frame) (some frame.data) frame.totalSize frame.key.frameCounter

/-- The reassembler and the reorderer of a face. -/
abbrev FacePipeline := Reassembler × Reorderer

def FacePipeline.new (reasm : ReassemblerConfig) (reorder : ReorderConfig) (created : Int) :
    FacePipeline :=
  (Reassembler.new reasm, Reorderer.new reorder created)

/-- The dispatcher's two data handlers: `process_packet` and `process_packet_zero_copy`. -/
def onData (clk : SystemClock) (reassembler : Reassembler) (call : FragmentStorage × ParsedPacket) :
    Reassembler × List Emission :=
  Reassembler.processWith call.1 clk reassembler call.2

/-- A run of data packets through a face. -/
def FacePipeline.run (sysClk : SystemClock) (clk : SteadyClock) (face : FacePipeline)
    (calls : List (FragmentStorage × ParsedPacket)) : FacePipeline × List OrderedPacket :=
  Machine.run (Machine.feed (onData sysClk) (onFrame clk)) face calls

/-- The calls on a face: those on its reassembler, and those on the reorderer itself. -/
inductive FaceCall where
  | reassembler (op : ReassemblerOp)
  | checkTimeout
  | flush
  | setTimeoutMs (timeoutMs : BitVec 32)

/-- One call, with the packets that the reorderer hands to its callback meanwhile. -/
def FacePipeline.step (sysClk : SystemClock) (clk : SteadyClock) (face : FacePipeline) :
    FaceCall → FacePipeline × List OrderedPacket
  | .reassembler op => Machine.feed (Reassembler.step sysClk) (onFrame clk) face op
  | .checkTimeout => ((face.1, (face.2.checkTimeout clk).1), (face.2.checkTimeout clk).2)
  | .flush => ((face.1, face.2.flush.1), face.2.flush.2)
  | .setTimeoutMs timeoutMs => ((face.1, face.2.setTimeoutMs timeoutMs), [])

/-- The call of a data handler. -/
def FaceCall.data (call : FragmentStorage × ParsedPacket) : FaceCall :=
  match call.1 with
  | .pool => .reassembler (.processPacketZeroCopy call.2)
  | .heap => .reassembler (.processPacket call.2)

theorem FacePipeline.step_data (sysClk : SystemClock) (clk : SteadyClock) (pipeline : FacePipeline)
    (call : FragmentStorage × ParsedPacket) :
    pipeline.step sysClk clk (.data call) = Machine.feed (onData sysClk) (onFrame clk) pipeline
      call := by
  obtain ⟨storage, packet⟩ := call
  cases storage <;> rfl

/-- The call on the reassembler. -/
def FaceCall.reassemblerOp? : FaceCall → Option ReassemblerOp
  | .reassembler op => some op
  | _ => none

/-- The frames that the calls make the reassembler pass to its callback. -/
def passedFrames (sysClk : SystemClock) (cfg : ReassemblerConfig) (calls : List FaceCall) :
    List ReassembledFrame :=
  ((Reassembler.new cfg).run sysClk (calls.filterMap FaceCall.reassemblerOp?)).2.map Emission.frame

end Qdgz300.App
