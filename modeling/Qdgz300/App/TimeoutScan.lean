import Qdgz300.App.Shutdown

/-!
# The timeout scan (`app_run` in `src/m01_receiver/app_run.cpp`)

While the threads of the faces run, the main thread calls `check_timeouts` and `check_timeout` of
every face every 100 ms, and at the end of its loop it goes on to `app_shutdown`. `scanStep` adds
these calls to the steps of the threads, in any order; a call is one step with the pushes it makes.

The other work of the loop, the signals, the reload and the reports, is not part of it.
-/

namespace Qdgz300.App

open Protocol Common Pipeline Delivery

/-- A step of a thread or of `app_shutdown`, or a call of the scan. -/
inductive ScanLabel where
  | thread (l : ShutdownLabel)
  | checkTimeouts (i : Nat) (pushTimes : Nat → Int) (order : IterOrder)
  | checkTimeout (i : Nat) (pushTimes : Nat → Int)

/-- `check_timeouts` throws: a context that has timed out has more fragments than its bitset has
bits. -/
def scanThrows (clk : SystemClock) (s : Reassembler) : Bool :=
  (s.timedOut (clk s.reads)).any fun key =>
    (s.contexts.lookup key).any fun ctx => decide (1024 < ctx.totalFrags.toNat)

/-- A call on the pipeline of a face from the main thread, with the pushes that it makes. -/
def Face.scan (clocks : FaceClocks) (now : Nat → Int) (call : FaceCall) (face : Face) : Face :=
  let r := FacePipeline.step clocks.system clocks.steady (face.reassembler, face.reorderer) call
  { face with reassembler := r.1.1, reorderer := r.1.2 }.deliverAll now r.2

namespace ShutdownState

/-- One step of one thread; the main thread scans as long as it has not called `app_shutdown`. -/
def scanStep (clocks : Nat → FaceClocks) (s : ShutdownState) : ScanLabel → Option ShutdownState
  | .thread l => s.step clocks l
  | .checkTimeouts i pushTimes order =>
    if s.pc = .entry ∧ i < s.numFaces then
      if scanThrows (clocks i).system (s.faces i).reassembler then some { s with pc := .thrown }
      else some (s.setFace i
        ((s.faces i).scan (clocks i) pushTimes (.reassembler (.checkTimeouts order))))
    else none
  | .checkTimeout i pushTimes =>
    if s.pc = .entry ∧ i < s.numFaces then
      some (s.setFace i ((s.faces i).scan (clocks i) pushTimes .checkTimeout))
    else none

end ShutdownState

end Qdgz300.App
