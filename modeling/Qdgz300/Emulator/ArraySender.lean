import Qdgz300.App.Shutdown
import Qdgz300.Emulator.PacketGenerator
import Qdgz300.Pipeline.Dispatcher

/-!
# An array of the FPGA emulator at a face (`tools/fpga_emulator/emulator_main.cpp`)

`run_array_sender` sends the packets of one interval after the other, each interval after
`apply_impairments`, and a heartbeat whenever one is due. An iteration is given what is not
computed: the random draws, the readings of the clocks and the answers of `sendto` (`Tick`).

`EmulatedFace` puts the sender on a network that keeps the datagrams and their order, in front of
the receive stage and the dispatcher of a face.
-/

namespace Qdgz300.Emulator

open Bytes Protocol

/-! ## Heartbeats -/

/-- The payload of a heartbeat, 48 bytes. -/
structure HeartbeatPayload where
  systemStatusAlive : BitVec 32 := 0
  systemStatusState : BitVec 32 := 0
  coreTemp : BitVec 16 := 0
  opMode : Byte := 0
  timeCoordSource : Byte := 0
  deviceNumber : Byte × Byte × Byte × Byte := (0, 0, 0, 0)
  timeOffset : BitVec 32 := 0
  errorCounters : BitVec 32 × BitVec 32 × BitVec 32 × BitVec 32 := (0, 0, 0, 0)
  loLockFlags : Byte := 0
  supplyCurrent : Byte := 0
  trCommStatus : Byte := 0
  reservedAlign2 : Byte := 0
  voltageStabilityFlags : BitVec 16 := 0
  panelTemp : BitVec 16 := 0
  crc32c : BitVec 32 := 0

/-- A heartbeat in front of its checksum, and all of it. -/
def heartbeatPayload : Image HeartbeatPayload :=
  ((u32.pair <| u32.pair <| u16.pair <| u8.pair <| u8.pair <|
    (u8.pair <| u8.pair <| u8.pair u8).pair <| u32.pair <|
    (u32.pair <| u32.pair <| u32.pair u32).pair <| u8.pair <| u8.pair <| u8.pair <| u8.pair <|
    u16.pair u16).pair u32).iso {
      toFun := fun ((systemStatusAlive, systemStatusState, coreTemp, opMode, timeCoordSource,
          deviceNumber, timeOffset, errorCounters, loLockFlags, supplyCurrent, trCommStatus,
          reservedAlign2, voltageStabilityFlags, panelTemp), crc32c) =>
        { systemStatusAlive, systemStatusState, coreTemp, opMode, timeCoordSource, deviceNumber,
          timeOffset, errorCounters, loLockFlags, supplyCurrent, trCommStatus, reservedAlign2,
          voltageStabilityFlags, panelTemp, crc32c }
      invFun := fun h => ((h.systemStatusAlive, h.systemStatusState, h.coreTemp, h.opMode,
        h.timeCoordSource, h.deviceNumber, h.timeOffset, h.errorCounters, h.loLockFlags,
        h.supplyCurrent, h.trCommStatus, h.reservedAlign2, h.voltageStabilityFlags, h.panelTemp),
        h.crc32c)
      left_inv := fun _ => rfl
      right_inv := fun _ => rfl }

/-- What `make_heartbeat_packet` says of the device. -/
def emulatedStatus : HeartbeatPayload where
  systemStatusAlive := 1
  systemStatusState := 0
  coreTemp := 45
  opMode := 1

/-- The same with the CRC over the first 44 bytes. -/
def checkedStatus : HeartbeatPayload :=
  { emulatedStatus with
    crc32c := crc32c ((heartbeatPayload.bytes emulatedStatus).take (heartbeatPayloadSize - 4)) }

/-- `make_heartbeat_packet`. -/
def PacketGenerator.makeHeartbeatPacket (g : PacketGenerator) (nowMs : BitVec 64) :
    PacketGenerator × List Byte :=
  let (g, header) := g.fillCommonHeader nowMs (BitVec.ofNat 16 heartbeatPayloadSize) .heartbeat
  ({ g with cpiSinceHeartbeat := 0 }, commonHeader.bytes header ++ heartbeatPayload.bytes checkedStatus)

/-! ## Impairments -/

/-- The fields of `GeneratorConfig` that `apply_impairments` reads; `drops` is `drop_rate > 0.0`. -/
structure ImpairmentConfig where
  drops : Bool := false
  reorderDepth : Nat := 0

/-- The random draws of a call: whether `drop_dist_(rng_) >= drop_rate` for a packet, and what
places the distribution of an index. -/
structure Draws where
  keeps : Nat → Bool := fun _ => true
  place : Nat → Nat := fun _ => 0

section
variable {α : Type}

/-- The swaps from one index on; `n` is their number. The packet at the index is final after its
swap with one of the next `depth`, itself among them. -/
def shuffle (depth : Nat) : Nat → (Nat → Nat) → List α → List α
  | n + 1, place, packet :: packets =>
    match place 0 % min depth (packets.length + 1) with
    | 0 => packet :: shuffle depth n (fun i => place (i + 1)) packets
    | k + 1 =>
      packets.getD k packet :: shuffle depth n (fun i => place (i + 1)) (packets.set k packet)
  | _, _, packets => packets

/-- The packets whose draw keeps them. -/
def kept (keeps : Nat → Bool) (packets : List α) : List α :=
  (packets.zipIdx.filter fun p => keeps p.2).map Prod.fst

/-- `apply_impairments`. -/
def applyImpairments (config : ImpairmentConfig) (draws : Draws) (packets : List α) : List α :=
  let packets := if config.drops then kept draws.keeps packets else packets
  if 1 < config.reorderDepth ∧ 1 < packets.length then
    shuffle config.reorderDepth packets.length draws.place packets
  else packets

end

/-! ## The sender -/

structure ArrayStats where
  packetsSent : Nat := 0
  bytesSent : Nat := 0
  cpisSent : Nat := 0
  heartbeatsSent : Nat := 0
  sendErrors : Nat := 0
  deriving DecidableEq, Repr

/-- The locals of `run_array_sender`. -/
structure ArraySender where
  generator : PacketGenerator
  impairments : ImpairmentConfig
  heartbeatIntervalMs : BitVec 32
  nextHeartbeat : Int
  stats : ArrayStats := {}

/-- What an iteration is given. The clocks are those of the packets' headers and data, that of the
test for a heartbeat and that of the heartbeat's header; `takes` are the answers of `sendto` for the
packets of the interval, and `heartbeatTaken` that for the heartbeat. -/
structure Tick where
  dataTs : BitVec 64
  now : Nat → BitVec 64
  draws : Draws := {}
  takes : Nat → Bool := fun _ => true
  steadyNow : Int
  heartbeatMs : BitVec 64 := 0
  heartbeatTaken : Bool := true

namespace ArraySender

/-- The start of `run_array_sender` for an array. -/
def new (arrayIndex : Nat) (cpiFrags : BitVec 16) (fragPayloadBytes : Nat)
    (impairments : ImpairmentConfig) (heartbeatIntervalMs : BitVec 32)
    (now : Int) : ArraySender where
  generator :=
    { config :=
        { sourceId := BitVec.ofNat 8 (0x11 + arrayIndex)
          destId := 0x01
          cpiFrags
          fragPayloadBytes } }
  impairments
  heartbeatIntervalMs
  nextHeartbeat := now + heartbeatIntervalMs.toNat * 1000000

/-- A heartbeat is due. -/
def due (s : ArraySender) (t : Tick) : Bool :=
  decide (0 < s.heartbeatIntervalMs.toNat ∧ s.nextHeartbeat ≤ t.steadyNow)

/-- The packets of an interval. -/
def sendCpi (s : ArraySender) (t : Tick) : ArraySender × List (List Byte) :=
  let (generator, packets) := s.generator.makeCpiPackets t.dataTs t.now
  let packets := applyImpairments s.impairments t.draws packets
  let sent := kept t.takes packets
  ({ s with
    generator
    stats := { s.stats with
      packetsSent := s.stats.packetsSent + sent.length
      bytesSent := s.stats.bytesSent + (sent.map List.length).sum
      sendErrors := s.stats.sendErrors + (packets.length - sent.length)
      cpisSent := s.stats.cpisSent + 1 } }, sent)

/-- The heartbeat when one is due. -/
def sendHeartbeat (s : ArraySender) (t : Tick) : ArraySender × List (List Byte) :=
  if s.due t then
    let (generator, packet) := s.generator.makeHeartbeatPacket t.heartbeatMs
    ({ s with
      generator
      nextHeartbeat := s.nextHeartbeat + s.heartbeatIntervalMs.toNat * 1000000
      stats := { s.stats with
        heartbeatsSent := s.stats.heartbeatsSent + if t.heartbeatTaken then 1 else 0 } },
      if t.heartbeatTaken then [packet] else [])
  else (s, [])

/-- An iteration of the loop: the sender after it, and the datagrams that `sendto` took. -/
def tick (s : ArraySender) (t : Tick) : ArraySender × List (List Byte) :=
  let cpi := s.sendCpi t
  let heartbeat := cpi.1.sendHeartbeat t
  (heartbeat.1, cpi.2 ++ heartbeat.2)

end ArraySender

/-! ## The face -/

open Pipeline

/-- The sender, the datagrams on their way, and the two stages of a face that see every one of
them. -/
structure EmulatedFace where
  sender : ArraySender
  wire : List (List Byte)
  rxStage : RxStage
  dispatcher : Dispatcher

inductive EmulatedLabel where
  | tick (t : Tick)
  | arrive (receiveTimestampNs : BitVec 64)
  | process (nowMs : BitVec 64)

namespace EmulatedFace

/-- A face of device 1 with its handlers. -/
def new (sender : ArraySender) (arrayId : BitVec 8) : EmulatedFace where
  sender
  wire := []
  rxStage := .new arrayId 0x01
  dispatcher := (Dispatcher.new true true).setZeroCopyDataHandler true

/-- An iteration of the sender, the arrival of a datagram, or the dispatch of an envelope, with the
calls of the face's handlers. -/
def step (face : EmulatedFace) : EmulatedLabel → EmulatedFace × List HandlerCall
  | .tick t =>
    let r := face.sender.tick t
    ({ face with sender := r.1, wire := face.wire ++ r.2 }, [])
  | .arrive receiveTimestampNs =>
    match face.wire with
    | [] => (face, [])
    | datagram :: wire =>
      ({ face with
        wire
        rxStage := face.rxStage.onPacket ⟨some datagram, receiveTimestampNs⟩ }, [])
  | .process nowMs =>
    let popped := face.rxStage.pop
    match popped.2 with
    | [] => ({ face with rxStage := popped.1 }, [])
    | env :: _ =>
      let r := face.dispatcher.dispatchOwned nowMs (App.parsedPacket env) env.packetData
      ({ face with rxStage := popped.1, dispatcher := r.1 }, r.2)

end EmulatedFace

end Qdgz300.Emulator
