import Qdgz300.Delivery.RawBlock
import Qdgz300.Lib.FileSystem
import Qdgz300.Lib.Records

/-!
# The output file of the consumers (`write_block_to_file` of `delivery/stub_consumer.cpp`)

A consumer with `write_to_file` opens its output file and truncates it, and its worker writes every
block it processes: a packed header and the data. `app_init` (`src/m01_receiver/app_init.cpp`, phase
5e) gives the consumer of every face the same path, so the descriptors are on one file, each with a
position of its own.

A step is a push into a queue, an action of a worker, or one of `start` and of the two halves of
`stop`.
-/

namespace Qdgz300.Delivery

open Bytes Common Pipeline

/-! ## Records -/

/-- `RawBlockHeader`, packed. -/
structure RawBlockHeader where
  ingestTs : BitVec 64
  dataTs : BitVec 64
  arrayId : BitVec 8
  cpiSeq : BitVec 32
  fragmentCount : BitVec 16
  dataSize : BitVec 32
  flags : BitVec 32
  deriving DecidableEq, Repr

def rawBlockHeader : Image RawBlockHeader :=
  (u64.pair <| u64.pair <| u8.pair <| u32.pair <| u16.pair <| u32.pair u32).iso {
    toFun := fun (ingestTs, dataTs, arrayId, cpiSeq, fragmentCount, dataSize, flags) =>
      { ingestTs, dataTs, arrayId, cpiSeq, fragmentCount, dataSize, flags }
    invFun := fun h =>
      (h.ingestTs, h.dataTs, h.arrayId, h.cpiSeq, h.fragmentCount, h.dataSize, h.flags)
    left_inv := fun _ => rfl
    right_inv := fun _ => rfl }

/-- The header of a block. -/
def RawBlock.header (block : RawBlock) : RawBlockHeader where
  ingestTs := block.ingestTs
  dataTs := block.dataTs
  arrayId := block.arrayId
  cpiSeq := block.cpiSeq
  fragmentCount := block.fragmentCount
  dataSize := block.dataSize
  flags := block.flags

/-- The first `data_size` bytes of the payload array. -/
def RawBlock.data (block : RawBlock) : List Byte :=
  block.payload.take block.dataSize.toNat ++
    List.replicate (block.dataSize.toNat - block.payload.length) 0

/-! ## Writing -/

/-- How many bytes each of the two `write`s of a block puts into the file at most; none where it
fails. -/
structure WriteResults where
  header : Nat
  payload : Nat

/-- `write_block_to_file` at position `off`: the contents of the file and the position after it. -/
def writeBlockToFile (content : List Byte) (off : Nat) (block : RawBlock) (writes : WriteResults) :
    List Byte × Nat :=
  let header := (rawBlockHeader.bytes block.header).take writes.header
  let content := FileSystem.writeAt content off header
  let off := off + header.length
  if header.length ≠ rawBlockHeader.size then (content, off)
  else if 0 < block.dataSize.toNat then
    let payload := block.data.take writes.payload
    (FileSystem.writeAt content off payload, off + payload.length)
  else (content, off)

/-! ## The consumers -/

/-- The fields of `StubConsumerConfig` that `app_init` sets alike for all faces. -/
structure StubConsumerConfig where
  writeToFile : Bool := false
  outputFile : String := ""

/-- The RawBlock path of a face. `outputFd` is the position of the descriptor, if it is open;
`started` tells that `start` has succeeded. -/
structure ConsumerPath where
  arrayId : BitVec 8
  queue : RawBlockQueue
  consumer : StubConsumer
  outputFd : Option Nat
  started : Bool

/-- The paths of the faces, and the contents of the output file. -/
structure ConsumerFiles where
  config : StubConsumerConfig
  numFaces : Nat
  paths : Nat → ConsumerPath
  file : List Byte

/-- The party that acts: the main thread in `start` (`opens` tells whether `open` succeeds) and in
`stop`, the adapter, or the worker with the results of its writes. -/
inductive ConsumerLabel where
  | start (i : Nat) (opens : Bool)
  | push (i : Nat) (now : Int) (packet : OrderedPacket)
  | run (i : Nat) (writes : WriteResults)
  | stop (i : Nat)
  | close (i : Nat)

namespace ConsumerFiles

/-- What `app_init` leaves; the output file may exist already. -/
def new (config : StubConsumerConfig) (numFaces : Nat) (file : List Byte) : ConsumerFiles where
  config
  numFaces
  paths i :=
    { arrayId := BitVec.ofNat 8 (i + 1)
      queue := .new fun _ => none
      consumer := { running := false, pc := .done, stats := {}, processed := [] }
      outputFd := none
      started := false }
  file

def setPath (s : ConsumerFiles) (i : Nat) (path : ConsumerPath) : ConsumerFiles :=
  { s with paths := Function.update s.paths i path }

/-- `StubConsumer::start`. -/
def start (s : ConsumerFiles) (i : Nat) (opens : Bool) : ConsumerFiles :=
  let path := s.paths i
  let consumer := { path.consumer with running := true, pc := .check }
  if s.config.writeToFile = false then s.setPath i { path with consumer, started := true }
  else if s.config.outputFile = "" ∨ opens = false then s
  else { s.setPath i { path with consumer, started := true, outputFd := some 0 } with file := [] }

/-- The next action of the worker; `process_block` ends with the write. -/
def run (s : ConsumerFiles) (i : Nat) (writes : WriteResults) : Option ConsumerFiles :=
  let path := s.paths i
  (path.consumer.step path.queue).map fun r =>
    let path' := { path with queue := r.1, consumer := r.2 }
    match path.consumer.pc, path.outputFd with
    | .processBlock block, some off =>
      if s.config.writeToFile then
        let written := writeBlockToFile s.file off block writes
        { s.setPath i { path' with outputFd := some written.2 } with file := written.1 }
      else s.setPath i path'
    | _, _ => s.setPath i path'

/-- One step of one party; `app_run` starts each consumer once. -/
def step (s : ConsumerFiles) : ConsumerLabel → Option ConsumerFiles
  | .start i opens =>
    if i < s.numFaces ∧ (s.paths i).started = false then some (s.start i opens) else none
  | .push i now packet =>
    if i < s.numFaces then
      let path := s.paths i
      some (s.setPath i { path with queue := (adaptAndPush path.arrayId now path.queue packet).1 })
    else none
  | .run i writes => if i < s.numFaces then s.run i writes else none
  | .stop i =>
    if i < s.numFaces then
      let path := s.paths i
      some (s.setPath i { path with consumer := { path.consumer with running := false } })
    else none
  | .close i =>
    if i < s.numFaces ∧ (s.paths i).consumer.running = false ∧ (s.paths i).consumer.pc = .done then
      some (s.setPath i { s.paths i with outputFd := none })
    else none

end ConsumerFiles

end Qdgz300.Delivery
