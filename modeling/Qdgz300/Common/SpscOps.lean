import Qdgz300.Common.SpscQueue
import Qdgz300.Lib.BoundedFifo

/-!
# The SPSC queue used by one thread at a time

The operations of `include/qdgz300/common/spsc_queue.h` executed one after another. The exchange of
`drop_oldest_push` then fails only spuriously: a call comes with the outcomes of its first
exchanges, and every later one succeeds. Its `for (;;)` is `pushLoop`, which runs out of fuel where
the loop would go on.

`fifoStep` is what the operations are for: the same calls on a list of at most `Cap - 1` elements.
-/

namespace Qdgz300.Common

/-- One call. `failures` says which of the first exchanges fail. -/
inductive QueueOp (T : Type) where
  | tryPush (item : T)
  | dropOldestPush (item : T) (failures : List Bool)
  | tryPop
  | size
  | empty
  | full
  | dropCount
  | reset

/-- What a call returns. -/
inductive QueueResult (T : Type) where
  | flag (b : Bool)
  | item (x : Option T)
  | size (n : Nat)
  | dropCount (n : UInt64)
  | void
deriving DecidableEq

variable {T : Type} (C : Capacity)

/-- One pass of the loop of `drop_oldest_push`: it returns (`inl`), or goes on with `dropped`
(`inr`). `fails` is the outcome of the exchange, if the pass comes to it. -/
def SPSCQueue.pushPass (q : SPSCQueue T) (item : T) (dropped fails : Bool) :
    (SPSCQueue T × Bool) ⊕ (SPSCQueue T × Bool) :=
  if C.next q.tail ≠ q.head then .inl (q.put C item, !dropped)
  else if fails then .inr (q, dropped)
  else .inr (q.dropOldest C, true)

/-- The loop of `drop_oldest_push`. -/
def SPSCQueue.pushLoop (item : T) :
    (fuel : Nat) → (failures : List Bool) → SPSCQueue T → (dropped : Bool) →
      Option (SPSCQueue T × Bool)
  | 0, _, _, _ => none
  | fuel + 1, failures, q, dropped =>
    match q.pushPass C item dropped (failures.headD false) with
    | .inl r => some r
    | .inr (q', dropped') => pushLoop item fuel failures.tail q' dropped'

/-- `drop_count()`. -/
def SPSCQueue.dropCountValue (q : SPSCQueue T) : UInt64 := UInt64.ofNat q.dropCount

/-- `reset()`. -/
def SPSCQueue.reset (q : SPSCQueue T) : SPSCQueue T :=
  { q with head := 0, tail := 0, dropCount := 0 }

/-- One call on the queue; `none` when the fuel does not last. -/
def queueStep (moved : T → T) (fuel : Nat) (q : SPSCQueue T) :
    QueueOp T → Option (SPSCQueue T × QueueResult T)
  | .tryPush item => some ((q.tryPush C item).1, .flag (q.tryPush C item).2)
  | .dropOldestPush item failures =>
    (SPSCQueue.pushLoop C item fuel failures q false).map fun r => (r.1, .flag r.2)
  | .tryPop => some ((q.tryPop C moved).1, .item (q.tryPop C moved).2)
  | .size => some (q, .size (q.size C))
  | .empty => some (q, .flag q.empty)
  | .full => some (q, .flag (q.full C))
  | .dropCount => some (q, .dropCount q.dropCountValue)
  | .reset => some (q.reset, .void)

/-- The calls `ops` one after another, with what they return. -/
def queueRun (moved : T → T) (fuel : Nat) :
    SPSCQueue T → List (QueueOp T) → Option (SPSCQueue T × List (QueueResult T))
  | q, [] => some (q, [])
  | q, op :: ops =>
    (queueStep C moved fuel q op).bind fun r =>
      (queueRun moved fuel r.1 ops).map fun r' => (r'.1, r.2 :: r'.2)

/-! ## The list -/

/-- One call on a list of at most `n` elements. -/
def fifoStep {n : Nat} (hn : 0 < n) (b : BoundedFifo T n) :
    QueueOp T → BoundedFifo T n × QueueResult T
  | .tryPush item => ((b.push item).1, .flag (b.push item).2)
  | .dropOldestPush item _ => ((b.pushDropping hn item).1, .flag (b.pushDropping hn item).2)
  | .tryPop => (b.pop.1, .item b.pop.2)
  | .size => (b, .size b.items.length)
  | .empty => (b, .flag b.items.isEmpty)
  | .full => (b, .flag b.full)
  | .dropCount => (b, .dropCount (UInt64.ofNat b.dropped))
  | .reset => (.empty, .void)

/-- The calls `ops` on the list. -/
def fifoRun {n : Nat} (hn : 0 < n) (b : BoundedFifo T n) :
    List (QueueOp T) → BoundedFifo T n × List (QueueResult T)
  | [] => (b, [])
  | op :: ops =>
    ((fifoRun hn (fifoStep hn b op).1 ops).1,
      (fifoStep hn b op).2 :: (fifoRun hn (fifoStep hn b op).1 ops).2)

end Qdgz300.Common
