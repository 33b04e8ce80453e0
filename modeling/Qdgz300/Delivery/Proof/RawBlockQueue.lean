import Qdgz300.Common.Proof.SpscContents
import Qdgz300.Delivery.RawBlock

/-!
# The RawBlock queue between the adapter and the consumer

`Waiting queue xs`: the blocks `xs` wait in the queue. The adapter puts a block at the end and may
drop the oldest one, which the queue counts (`Waiting.adaptAndPush`); the worker takes blocks from
the front (`Waiting.step_cases`).
-/

namespace Qdgz300.Delivery

open Common Pipeline

/-- The queue holds the blocks `xs`, oldest first, and no null pointer. -/
def Waiting (queue : RawBlockQueue) (xs : List RawBlock) : Prop :=
  Holds rawBlockQCapacity queue (xs.map some)

/-- The blocks in the queue. -/
def blocks (queue : RawBlockQueue) : List RawBlock :=
  (queue.contents rawBlockQCapacity).reduceOption

section
variable {queue : RawBlockQueue} {xs : List RawBlock}

theorem waiting_new : Waiting (.new fun _ => none) [] := holds_new _

theorem Waiting.blocks (h : Waiting queue xs) : blocks queue = xs := by
  calc (queue.contents rawBlockQCapacity).reduceOption
      = (xs.map some).filterMap id := by
        rw [Holds.contents h]
        rfl
    _ = xs := by rw [List.filterMap_map, Function.id_comp, List.filterMap_some]

/-- **`adapt_and_push`** puts the block at the end; what it drops, the queue counts. -/
theorem Waiting.adaptAndPush (h : Waiting queue xs) (arrayId : BitVec 8) (now : Int)
    (packet : OrderedPacket) :
    ∃ dropped kept, xs = dropped ++ kept ∧
      Waiting (adaptAndPush arrayId now queue packet).1 (kept ++ [adapt arrayId now packet]) ∧
      (adaptAndPush arrayId now queue packet).1.dropCount = queue.dropCount + dropped.length := by
  have hpush := Holds.dropOldestPush h (by decide) (some (adapt arrayId now packet))
  rcases hpush with ⟨-, hholds, hdrops⟩ | ⟨x, rest, hxs, -, hholds, hdrops⟩
  · refine ⟨[], xs, rfl, ?_, hdrops⟩
    unfold Waiting
    rw [List.map_append]
    exact hholds
  · obtain ⟨b, kept, rfl, -, rfl⟩ := List.map_eq_cons_iff.1 hxs
    refine ⟨[b], kept, rfl, ?_, hdrops⟩
    unfold Waiting
    rw [List.map_append]
    exact hholds

variable {consumer consumer' : StubConsumer} {queue' : RawBlockQueue}

/-- The actions of the worker. -/
theorem Waiting.step_cases (h : Waiting queue xs)
    (hstep : consumer.step queue = some (queue', consumer')) :
    (consumer.pc = .check ∧ queue' = queue ∧
      consumer' = { consumer with pc := if consumer.running then .tryPop else .done }) ∨
    (consumer.pc = .tryPop ∧ xs = [] ∧ queue' = queue ∧
      consumer' = { consumer with pc := .check }) ∨
    (consumer.pc = .tryPop ∧ ∃ block rest, xs = block :: rest ∧ Waiting queue' rest ∧
      queue'.dropCount = queue.dropCount ∧
      consumer' = { consumer with pc := .processBlock block }) ∨
    (∃ block, consumer.pc = .processBlock block ∧ queue' = queue ∧
      consumer' = { consumer.processBlock block with pc := .check }) := by
  unfold StubConsumer.step at hstep
  cases hpc : consumer.pc with
  | check =>
    rw [hpc] at hstep
    obtain ⟨rfl, rfl⟩ := Prod.mk.inj (Option.some.inj hstep)
    exact .inl ⟨rfl, rfl, rfl⟩
  | tryPop =>
    rw [hpc] at hstep
    simp only at hstep
    cases xs with
    | nil =>
      rw [Holds.tryPop_nil h] at hstep
      obtain ⟨rfl, rfl⟩ := Prod.mk.inj (Option.some.inj hstep)
      exact .inr (.inl ⟨rfl, rfl, rfl, rfl⟩)
    | cons block rest =>
      obtain ⟨hfront, hrest, hdrops⟩ := Holds.tryPop_cons h fun _ => none
      rw [hfront] at hstep
      obtain ⟨rfl, rfl⟩ := Prod.mk.inj (Option.some.inj hstep)
      exact .inr (.inr (.inl ⟨rfl, block, rest, rfl, hrest, hdrops, rfl⟩))
  | processBlock block =>
    rw [hpc] at hstep
    obtain ⟨rfl, rfl⟩ := Prod.mk.inj (Option.some.inj hstep)
    exact .inr (.inr (.inr ⟨block, rfl, rfl, rfl⟩))
  | done =>
    rw [hpc] at hstep
    cases hstep

end

end Qdgz300.Delivery
