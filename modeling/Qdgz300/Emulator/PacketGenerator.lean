import Qdgz300.Protocol.Crc32c
import Qdgz300.Protocol.Images

/-!
# The packet generator of the FPGA emulator (`tools/fpga_emulator/packet_generator.cpp`)

The packets of one coherent processing interval and the single-fragment packets of the older
interface. A vector that is sized, then overwritten part by part, is the concatenation of its parts;
a copy that would end behind the vector gives `none`. The readings of the clock are parameters.
-/

namespace Qdgz300.Emulator

open Bytes Protocol

/-- `GeneratorConfig`; the fields of the impairments and of the heartbeats are not read here. -/
structure GeneratorConfig where
  sourceId : BitVec 8 := 0x11
  destId : BitVec 8 := 0x01
  cpiFrags : BitVec 16 := 128
  fragPayloadBytes : Nat := 1400

structure PacketGenerator where
  config : GeneratorConfig
  nextSequence : BitVec 32 := 1
  nextFrameCounter : BitVec 32 := 1
  nextCpiCount : BitVec 32 := 1
  cpiSinceHeartbeat : BitVec 32 := 0

namespace PacketGenerator

/-- `fill_common_header`: the header, and the generator after it took a sequence number. -/
def fillCommonHeader (g : PacketGenerator) (nowMs : BitVec 64) (payloadLen : BitVec 16)
    (packetType : PacketType) : PacketGenerator × CommonHeader :=
  ({ g with nextSequence := g.nextSequence + 1 },
    { magic := protocolMagic
      sequenceNumber := g.nextSequence
      timestamp := nowMs
      payloadLen
      packetType := packetType.toByte
      protocolVersion := Protocol.protocolVersion
      sourceId := g.config.sourceId
      destId := g.config.destId
      controlEpoch := 1 })

end PacketGenerator

/-- `append_crc32c`. -/
def appendCrc32c (packet : List Byte) : List Byte := packet ++ u32.bytes (crc32c packet)

/-- `set_channel_mask_data_type_compat`. -/
def channelMaskDataTypeCompat (channelMask : BitVec 16) (dataType : BitVec 8) : BitVec 16 :=
  (channelMask &&& 0x0FFF#16) ||| (((dataType &&& 0x0F#8).setWidth 16 <<< 12) &&& 0xF000#16)

namespace PacketGenerator

/-- `make_data_packet`; `none` where the specific header is copied behind the packet's end. -/
def makeDataPacket (g : PacketGenerator) (nowMs dataTs : BitVec 64) :
    PacketGenerator × Option (List Byte) :=
  let payloadBytes := g.config.fragPayloadBytes
  let (g, header) := g.fillCommonHeader nowMs (BitVec.ofNat 16 payloadBytes) .data
  let specific : DataSpecificHeader :=
    { frameCounter := g.nextFrameCounter
      cpiCount := g.nextFrameCounter
      pulseIndex := 0
      sampleOffset := 0
      sampleCount := 256
      dataTimestamp := dataTs
      healthSummary := 0
      reservedHealth := channelMaskDataTypeCompat 0x0001 0x00
      beamId := 1
      fragIndex := 0
      totalFrags := 1
      tailFragPayloadBytes := BitVec.ofNat 16 (payloadBytes - specificSize) }
  let g := { g with nextFrameCounter := g.nextFrameCounter + 1 }
  if payloadBytes < specificSize then (g, none)
  else (g, some (commonHeader.bytes header ++ dataSpecificHeader.bytes specific ++
    (List.range (payloadBytes - specificSize)).map fun i =>
      BitVec.ofNat 8 (commonHeaderSize + specificSize + i)))

/-- The body of a fragment: `(cpi_count + frag_idx + i) & 0xFF`. -/
def pattern (cpiCount : BitVec 32) (fragIdx bodyBytes : Nat) : List Byte :=
  (List.range bodyBytes).map fun i =>
    BitVec.ofNat 8 ((cpiCount + BitVec.ofNat 32 fragIdx).toNat + i)

/-- What the tail carries in front of its body. -/
def tailSnapshot (cpiCount : BitVec 32) : ExecutionSnapshot :=
  { workFreqIndex := 1, azimuthAngle := BitVec.ofNat 16 (cpiCount.toNat % 3600) }

/-- A fragment before its checksum: what follows the common header. -/
def fragmentPayload (config : GeneratorConfig) (frameCounter cpiCount : BitVec 32)
    (dataTs : BitVec 64) (fragIdx : Nat) : List Byte :=
  let isTail := fragIdx + 1 = config.cpiFrags.toNat
  let specific : DataSpecificHeader :=
    { frameCounter
      cpiCount
      pulseIndex := 0
      sampleOffset := BitVec.ofNat 32 fragIdx * 256
      sampleCount := 256
      dataTimestamp := dataTs
      healthSummary := 0
      reservedHealth := channelMaskDataTypeCompat 0x0001 0x00
      beamId := 1
      fragIndex := BitVec.ofNat 16 fragIdx
      totalFrags := config.cpiFrags
      tailFragPayloadBytes := BitVec.ofNat 16 config.fragPayloadBytes }
  dataSpecificHeader.bytes specific ++
    (if isTail then executionSnapshot.bytes (tailSnapshot cpiCount) else []) ++
    pattern cpiCount fragIdx config.fragPayloadBytes

/-- `specific_and_body`. -/
def specificAndBody (config : GeneratorConfig) (fragIdx : Nat) : Nat :=
  specificSize + (if fragIdx + 1 = config.cpiFrags.toNat then snapshotSize else 0) +
    config.fragPayloadBytes

/-- One iteration of the loop of `make_cpi_packets`. -/
def makeFragment (g : PacketGenerator) (frameCounter cpiCount : BitVec 32)
    (dataTs nowMs : BitVec 64) (fragIdx : Nat) : PacketGenerator × List Byte :=
  let (g', header) :=
    g.fillCommonHeader nowMs (BitVec.ofNat 16 (specificAndBody g.config fragIdx)) .data
  (g', appendCrc32c (commonHeader.bytes header ++
    fragmentPayload g.config frameCounter cpiCount dataTs fragIdx))

/-- The loop from `fragIdx` on, `n` fragments to go. -/
def makeFragments (frameCounter cpiCount : BitVec 32) (dataTs : BitVec 64) (now : Nat → BitVec 64) :
    Nat → Nat → PacketGenerator → PacketGenerator × List (List Byte)
  | 0, _, g => (g, [])
  | n + 1, fragIdx, g =>
    let (g, packet) := g.makeFragment frameCounter cpiCount dataTs (now fragIdx) fragIdx
    let (g, packets) := makeFragments frameCounter cpiCount dataTs now n (fragIdx + 1) g
    (g, packet :: packets)

/-- `make_cpi_packets`. -/
def makeCpiPackets (g : PacketGenerator) (dataTs : BitVec 64) (now : Nat → BitVec 64) :
    PacketGenerator × List (List Byte) :=
  let frameCounter := g.nextFrameCounter
  let cpiCount := g.nextCpiCount
  let g := { g with
    nextFrameCounter := g.nextFrameCounter + 1
    nextCpiCount := g.nextCpiCount + 1 }
  let (g, packets) := makeFragments frameCounter cpiCount dataTs now g.config.cpiFrags.toNat 0 g
  ({ g with cpiSinceHeartbeat := g.cpiSinceHeartbeat + 1 }, packets)

end PacketGenerator

end Qdgz300.Emulator
