import Mathlib.Logic.Function.Basic
import Qdgz300.Lib.Machine

/-!
# The threads of the capture writer (`capture/pcap_writer.cpp`)

`start` and `stop` on the controlling thread, `write_packet` on any number of producers and
`run_writer_loop` on the writer, as interleaved steps. What a thread does while it holds the mutex
is one step where no other thread can see inside; the flag `accepting_packets_` is written without
the mutex, so each test of it is a step of its own.

`cv_.wait(lock, pred)` is the loop of its definition: test under the mutex, then give up the mutex
and go to sleep in one step. Only the writer waits on `cv_`, so its program counter is the wait set.
-/

namespace Qdgz300.Capture.Threads

variable {ι P : Type} [DecidableEq ι] [DecidableEq P]

/-- Where the writer is. `absent`: there is no thread to join. -/
inductive WriterPc (P : Type) where
  | absent
  /-- Before the mutex, at the head of the loop. -/
  | top
  /-- With the mutex, before the test of the predicate. -/
  | test
  /-- With the mutex, the test was false. -/
  | blocking
  /-- Asleep on `cv_`. -/
  | blocked
  /-- Awake, before the mutex. -/
  | woken
  /-- With the mutex, the test was true. -/
  | ready
  /-- A packet was taken; before the mutex. -/
  | taken (packet : P)
  | finished
  deriving DecidableEq

/-- Where the controlling thread is in `stop`. -/
inductive ControlPc where
  | idle
  /-- The flag is cleared, `notify_all` comes next. -/
  | notify
  /-- In `join`. -/
  | join
  /-- Before the mutex, to seal the file. -/
  | seal
  deriving DecidableEq, Repr

/-- Where a producer is in `write_packet`. -/
inductive ProducerPc (P : Type) where
  | out
  /-- Past the first tests; before the mutex. -/
  | checked (packet : P)
  /-- With the mutex, before the second test of the flag. -/
  | locked (packet : P)
  /-- With the mutex, the packet goes into the queue next. -/
  | pushing (packet : P)
  /-- `notify_one` comes next. -/
  | notifying
  deriving DecidableEq

inductive Owner (ι : Type) where
  | writer
  | producer (i : ι)
  deriving DecidableEq

structure PcapThreads (ι P : Type) where
  pendingQueueCapacity : Nat
  accepting : Bool := false
  recording : Bool := false
  mutex : Option (Owner ι) := none
  pending : List P := []
  writer : WriterPc P := .absent
  control : ControlPc := .idle
  producers : ι → ProducerPc P := fun _ => .out

/-- The steps. -/
inductive Label (ι P : Type) where
  | start
  | stopStore
  | stopNotify
  | stopJoin
  | stopSeal
  | enter (i : ι) (packet : P)
  | lock (i : ι)
  | check (i : ι)
  | push (i : ι)
  | notifyOne (i : ι)
  | writerLock
  | writerTest
  | writerBlock
  | writerTake
  | writerWrite (fileOpen : Bool)
  | spuriousWake
  deriving DecidableEq

namespace PcapThreads

/-- A notification: it wakes the writer if that is asleep, and is lost otherwise. -/
def wake (s : PcapThreads ι P) : PcapThreads ι P :=
  if s.writer = .blocked then { s with writer := .woken } else s

def setProducer (s : PcapThreads ι P) (i : ι) (pc : ProducerPc P) : PcapThreads ι P :=
  { s with producers := Function.update s.producers i pc }

/-- The predicate of the wait. -/
def predicate (s : PcapThreads ι P) : Bool := !s.pending.isEmpty || !s.accepting

/-- One step; `none` where the label's thread is not there, or waits for the mutex. -/
def step (s : PcapThreads ι P) : Label ι P → Option (PcapThreads ι P)
  | .start =>
    if s.control = .idle ∧ s.mutex = none ∧ s.writer = .absent ∧ s.recording = false then
      some { s with pending := [], accepting := true, recording := true, writer := .top }
    else none
  | .stopStore =>
    if s.control = .idle then some { s with accepting := false, control := .notify } else none
  | .stopNotify =>
    if s.control = .notify then some { s.wake with control := .join } else none
  | .stopJoin =>
    -- `joinable()` is false without a thread
    if s.control = .join ∧ (s.writer = .absent ∨ s.writer = .finished) then
      some { s with writer := .absent, control := .seal }
    else none
  | .stopSeal =>
    if s.control = .seal ∧ s.mutex = none then
      some { s with pending := [], recording := false, control := .idle }
    else none
  | .enter i packet =>
    if s.producers i = .out ∧ s.accepting then some (s.setProducer i (.checked packet)) else none
  | .lock i =>
    match s.producers i with
    | .checked packet =>
      if s.mutex = none then
        some { s.setProducer i (.locked packet) with mutex := some (.producer i) }
      else none
    | _ => none
  | .check i =>
    match s.producers i with
    | .locked packet =>
      if s.accepting = false ∨ max 1 s.pendingQueueCapacity ≤ s.pending.length then
        some { s.setProducer i .out with mutex := none }
      else some (s.setProducer i (.pushing packet))
    | _ => none
  | .push i =>
    match s.producers i with
    | .pushing packet =>
      some { s.setProducer i .notifying with pending := s.pending ++ [packet], mutex := none }
    | _ => none
  | .notifyOne i =>
    if s.producers i = .notifying then some (s.wake.setProducer i .out) else none
  | .writerLock =>
    if (s.writer = .top ∨ s.writer = .woken) ∧ s.mutex = none then
      some { s with writer := .test, mutex := some .writer }
    else none
  | .writerTest =>
    if s.writer = .test then
      some { s with writer := if s.predicate then .ready else .blocking }
    else none
  | .writerBlock =>
    if s.writer = .blocking then some { s with writer := .blocked, mutex := none } else none
  | .writerTake =>
    if s.writer = .ready then
      match s.pending with
      | [] =>
        if s.accepting = false then some { s with writer := .finished, mutex := none }
        else some { s with writer := .top, mutex := none }
      | packet :: rest =>
        some { s with pending := rest, writer := .taken packet, mutex := none }
    else none
  | .writerWrite fileOpen =>
    match s.writer with
    | .taken _ =>
      if s.mutex = none then some { s with writer := if fileOpen then .top else .finished }
      else none
    | _ => none
  | .spuriousWake => if s.writer = .blocked then some { s with writer := .woken } else none

end PcapThreads

end Qdgz300.Capture.Threads
