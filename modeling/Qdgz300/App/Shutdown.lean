import Qdgz300.App.FacePipeline
import Qdgz300.Delivery.RawBlock
import Qdgz300.Pipeline.RxStage

/-!
# Shutting down (`app_shutdown` in `src/m01_receiver/app_run.cpp`)

The receive thread, the processing thread and the consumer's worker of every face run while the main
thread goes through the stages of `app_shutdown`. `step` lets one of the threads act: a call at the
receive stage, a pop with the dispatch of what it popped, a push of a RawBlock, an action of the
worker, or a step of a stage. Once the processing threads are joined only the main thread is left,
and `flush_all` and `flush` of a face are a step with the pushes they make.

Only the path of the data to the RawBlock queues is modelled. A heartbeat moves counters of the
dispatcher; the delivery interface, the capture writer and the metrics are stages without an effect
here.
-/

namespace Qdgz300.App

open Protocol Common Pipeline Delivery

/-- The RawBlock queue of a face and its consumer. `pushed` is history: the blocks in the order of
their pushes. -/
structure RawBlockPath where
  queue : RawBlockQueue
  consumer : StubConsumer
  pushed : List RawBlock

/-- Where a processing thread is. -/
inductive ProcessingPc where
  /-- `processing_running.load`. -/
  | check
  | tryPop
  /-- The loop after `processing_running` is false. -/
  | drain
  /-- Within a dispatch: the packets that the reorderer's callback has yet to push. -/
  | push (packets : List OrderedPacket) (draining : Bool)
  | done

/-- `FacePipeline`, and its processing thread. There is a RawBlock path when the configuration asks
for a consumer. -/
structure Face where
  arrayId : BitVec 8
  rxStage : RxStage
  reassembler : Reassembler
  reorderer : Reorderer
  processing : ProcessingPc
  rawBlock : Option RawBlockPath

/-- The clocks that the reassembler and the reorderer of a face read. -/
structure FaceClocks where
  system : SystemClock
  steady : SteadyClock

/-- `adapt_and_push` on the queue of the path. -/
def RawBlockPath.push (path : RawBlockPath) (arrayId : BitVec 8) (now : Int)
    (packet : OrderedPacket) : RawBlockPath :=
  { path with
    queue := (adaptAndPush arrayId now path.queue packet).1
    pushed := path.pushed ++ [adapt arrayId now packet] }

/-- The packet that the processing thread rebuilds from an envelope. -/
def parsedPacket (env : RxEnvelope) : ParsedPacket where
  header := env.header
  payload := env.packetData.map (·.drop commonHeaderSize)
  totalSize := env.packetLength.toNat

/-- `flush_all` throws: a context has more fragments than its bitset has bits. -/
def flushThrows (s : Reassembler) : Bool :=
  s.contexts.keys.any fun key =>
    (s.contexts.lookup key).any fun ctx => decide (1024 < ctx.totalFrags.toNat)

namespace Face

/-- The reorderer's callback, path B. -/
def deliver (face : Face) (now : Int) (packet : OrderedPacket) : Face :=
  { face with rawBlock := face.rawBlock.map (·.push face.arrayId now packet) }

/-- The callback for one packet after the other; `now` are the readings of the clock. -/
def deliverAll (face : Face) (now : Nat → Int) : List OrderedPacket → Face
  | [] => face
  | packet :: packets => (face.deliver (now 0) packet).deliverAll (fun n => now (n + 1)) packets

/-- `dispatch`: the handler for `DATA`, with the packets that the reorderer hands out. -/
def dispatch (clocks : FaceClocks) (face : Face) (storage : FragmentStorage)
    (packet : ParsedPacket) :
    Face × List OrderedPacket :=
  if packet.header.packetType = PacketType.data.toByte then
    let r := Machine.feed (onData clocks.system) (onFrame clocks.steady)
      (face.reassembler, face.reorderer) (storage, packet)
    ({ face with reassembler := r.1.1, reorderer := r.1.2 }, r.2)
  else (face, [])

/-- `try_pop`, and the dispatch of what it finds; `none` for an empty queue. -/
def popDispatch (clocks : FaceClocks) (face : Face) (storage : FragmentStorage) :
    Option (Face × List OrderedPacket) :=
  face.rxStage.pop.2.head?.map fun env =>
    { face with rxStage := face.rxStage.pop.1 }.dispatch clocks storage (parsedPacket env)

/-- The next action of the processing thread. -/
def process (clocks : FaceClocks) (running : Bool) (now : Int) (face : Face) : Option Face :=
  match face.processing with
  | .check => some { face with processing := if running then .tryPop else .drain }
  | .tryPop =>
    match face.popDispatch clocks .pool with
    | some (face, packets) => some { face with processing := .push packets false }
    | none => some { face with processing := .check }
  | .drain =>
    match face.popDispatch clocks .heap with
    | some (face, packets) => some { face with processing := .push packets true }
    | none => some { face with processing := .done }
  | .push [] draining => some { face with processing := if draining then .drain else .check }
  | .push (packet :: packets) draining =>
    some { face.deliver now packet with processing := .push packets draining }
  | .done => none

/-- The next action of the consumer's worker. -/
def consume (face : Face) : Option Face :=
  match face.rawBlock with
  | none => none
  | some path =>
    (path.consumer.step path.queue).map fun r =>
      { face with rawBlock := some { path with queue := r.1, consumer := r.2 } }

/-- `running_.exchange(false)` of `StubConsumer::stop`. -/
def stopConsumer (face : Face) : Face :=
  { face with rawBlock := face.rawBlock.map fun path =>
      { path with consumer := { path.consumer with running := false } } }

/-- `reassembler->flush_all()`. -/
def flushAll (clocks : FaceClocks) (now : Nat → Int) (order : IterOrder) (face : Face) : Face :=
  let frames := face.reassembler.flushAll clocks.system order
  let packets := Machine.run (onFrame clocks.steady) face.reorderer frames.2
  { face with reassembler := frames.1, reorderer := packets.1 }.deliverAll now packets.2

/-- `reorderer->flush()`. -/
def flush (now : Nat → Int) (face : Face) : Face :=
  { face with reorderer := face.reorderer.flush.1 }.deliverAll now face.reorderer.flush.2

end Face

/-- Where the main thread is in `app_shutdown`; `i` is the face of a loop. -/
inductive ShutdownPc where
  | entry
  | stopConsumer (i : Nat)
  /-- Within `stop`: `worker_.join()`. -/
  | joinConsumer (i : Nat)
  | stopReceiver
  | stopProcessing
  | joinProcessing (i : Nat)
  | stopPcap
  | flushAll (i : Nat)
  | flush (i : Nat)
  | flushDelivery
  | stopMetrics
  | returned
  /-- `std::_Exit(1)`. -/
  | exited
  /-- An exception left `app_shutdown`. -/
  | thrown
  deriving DecidableEq, Repr

/-- `AppContext`, and the main thread in `app_shutdown`. -/
structure ShutdownState where
  started : Bool
  numFaces : Nat
  faces : Nat → Face
  /-- The receive threads of `udp_receiver` run. -/
  receiving : Bool
  processingRunning : Bool
  deadline : Int
  pc : ShutdownPc

/-- The thread that acts, with what comes from outside: a datagram, the clock, the order of
`contexts_`. -/
inductive ShutdownLabel where
  | onPacket (i : Nat) (raw : ReceivedPacket)
  | process (i : Nat) (now : Int)
  | consume (i : Nat)
  | main (now : Int) (pushTimes : Nat → Int) (order : IterOrder)

namespace ShutdownState

def setFace (s : ShutdownState) (i : Nat) (face : Face) : ShutdownState :=
  { s with faces := Function.update s.faces i face }

/-- `enforce_shutdown_timeout`, and the next stage. -/
def enforce (s : ShutdownState) (now : Int) (next : ShutdownPc) : ShutdownState :=
  { s with pc := if s.deadline < now then .exited else next }

/-- The next step of `app_shutdown`. -/
def main (clocks : Nat → FaceClocks) (now : Int) (pushTimes : Nat → Int) (order : IterOrder)
    (s : ShutdownState) : Option ShutdownState :=
  match s.pc with
  | .entry =>
    if s.started then some { s with deadline := now + 3000000000, pc := .stopConsumer 0 }
    else some { s with pc := .returned }
  | .stopConsumer i =>
    if i < s.numFaces then
      if (s.faces i).rawBlock.any (·.consumer.running) then
        some { s.setFace i (s.faces i).stopConsumer with pc := .joinConsumer i }
      else some { s with pc := .stopConsumer (i + 1) }
    else some (s.enforce now .stopReceiver)
  | .joinConsumer i =>
    if (s.faces i).rawBlock.all (·.consumer.pc = .done) then
      some { s with pc := .stopConsumer (i + 1) }
    else none
  | .stopReceiver => some ({ s with receiving := false }.enforce now .stopProcessing)
  | .stopProcessing => some { s with processingRunning := false, pc := .joinProcessing 0 }
  | .joinProcessing i =>
    if i < s.numFaces then
      match (s.faces i).processing with
      | .done => some { s with pc := .joinProcessing (i + 1) }
      | _ => none
    else some (s.enforce now .stopPcap)
  | .stopPcap => some (s.enforce now (.flushAll 0))
  | .flushAll i =>
    if i < s.numFaces then
      if flushThrows (s.faces i).reassembler then some { s with pc := .thrown }
      else some
        { s.setFace i ((s.faces i).flushAll (clocks i) pushTimes order) with pc := .flushAll (i + 1) }
    else some (s.enforce now (.flush 0))
  | .flush i =>
    if i < s.numFaces then
      some { s.setFace i ((s.faces i).flush pushTimes) with pc := .flush (i + 1) }
    else some (s.enforce now .flushDelivery)
  | .flushDelivery => some (s.enforce now .stopMetrics)
  | .stopMetrics => some { s.enforce now .returned with started := false }
  | .returned | .exited | .thrown => none

/-- The process runs: it was not ended by `_Exit` or by an exception. -/
def alive (s : ShutdownState) : Bool := s.pc != .exited && s.pc != .thrown

/-- One step of one thread. -/
def step (clocks : Nat → FaceClocks) (s : ShutdownState) : ShutdownLabel → Option ShutdownState
  | .onPacket i raw =>
    if s.alive && s.receiving && decide (i < s.numFaces) then
      some (s.setFace i { s.faces i with rxStage := (s.faces i).rxStage.onPacket raw })
    else none
  | .process i now =>
    if s.alive && decide (i < s.numFaces) then
      ((s.faces i).process (clocks i) s.processingRunning now).map (s.setFace i)
    else none
  | .consume i =>
    if s.alive && decide (i < s.numFaces) then (s.faces i).consume.map (s.setFace i) else none
  | .main now pushTimes order => s.main clocks now pushTimes order

end ShutdownState

end Qdgz300.App
