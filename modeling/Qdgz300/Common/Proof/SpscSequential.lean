import Qdgz300.Common.Proof.SpscContents
import Qdgz300.Common.SpscOps

/-!
# The SPSC queue of one thread is a bounded list

`Represents C q b`: the queue holds the elements of `b`, and its drop counter is `b`'s.
`pushLoop_eq` ends the loop of `drop_oldest_push`: a failed exchange changes nothing, and after the
one that succeeds there is room. `queueStep_represents` is the step lemma, one case for each call,
and `sequential_fifo` the statement about whole sequences of calls.
-/

namespace Qdgz300.Common

/-- The queue holds what the list holds. -/
structure Represents {T : Type} (C : Capacity) (q : SPSCQueue T) (b : BoundedFifo T (C.cap - 1)) :
    Prop where
  holds : Holds C q b.items
  dropCount : q.dropCount = b.dropped

section
variable {T : Type} {C : Capacity} {q : SPSCQueue T} {xs : List T} {b : BoundedFifo T (C.cap - 1)}

theorem represents_new (buffer : Nat → T) : Represents C (.new buffer) .empty :=
  ⟨holds_new buffer, rfl⟩

theorem represents_reset (q : SPSCQueue T) : Represents C q.reset .empty :=
  ⟨⟨C.cap_pos, 0, (Nat.zero_mod _).symm, (Nat.zero_mod _).symm, nofun⟩, rfl⟩

theorem Represents.lt (h : Represents C q b) : b.items.length < C.cap := h.holds.1

/-! ## The loop -/

theorem pushLoop_room (hroom : C.next q.tail ≠ q.head) (item : T) (fuel : Nat)
    (failures : List Bool) (dropped : Bool) :
    SPSCQueue.pushLoop C item (fuel + 1) failures q dropped = some (q.put C item, !dropped) := by
  simp [SPSCQueue.pushLoop, SPSCQueue.pushPass, hroom]

/-- After one drop there is room. -/
theorem Holds.dropOldest_room (h : Holds C q xs) (hcap : 2 ≤ C.cap)
    (hfull : C.next q.tail = q.head) :
    C.next (q.dropOldest C).tail ≠ (q.dropOldest C).head := by
  have hlen := h.full_iff.1 hfull
  cases xs with
  | nil =>
    rw [List.length_nil] at hlen
    omega
  | cons x rest =>
    intro heq
    have := h.dropOldest.full_iff.1 heq
    rw [List.length_cons] at hlen
    omega

/-- **The loop on a full queue** ends, whichever exchanges fail: one element is dropped. -/
theorem pushLoop_full (h : Holds C q xs) (hcap : 2 ≤ C.cap) (hfull : C.next q.tail = q.head)
    (item : T) (dropped : Bool) :
    ∀ (failures : List Bool) (fuel : Nat), failures.length + 2 ≤ fuel →
      SPSCQueue.pushLoop C item fuel failures q dropped =
        some ((q.dropOldest C).put C item, false) := by
  have hroom := h.dropOldest_room hcap hfull
  -- the pass in which the exchange succeeds, and the last one after it
  have hdone : ∀ (fuel : Nat) (failures : List Bool), failures.headD false = false →
      SPSCQueue.pushLoop C item (fuel + 2) failures q dropped =
        some ((q.dropOldest C).put C item, false) := by
    intro fuel failures hhead
    rw [SPSCQueue.pushLoop, SPSCQueue.pushPass, if_neg (not_not.2 hfull), hhead]
    exact pushLoop_room hroom item fuel failures.tail true
  intro failures
  induction failures with
  | nil =>
    intro fuel hfuel
    obtain ⟨k, rfl⟩ := Nat.exists_eq_add_of_le' hfuel
    exact hdone k [] rfl
  | cons fails rest ih =>
    intro fuel hfuel
    rw [List.length_cons] at hfuel
    obtain ⟨k, rfl⟩ := Nat.exists_eq_add_of_le' (Nat.le_trans (by omega : 2 ≤ rest.length + 1 + 2) hfuel)
    cases fails with
    | false => exact hdone k (false :: rest) rfl
    | true =>
      rw [SPSCQueue.pushLoop, SPSCQueue.pushPass, if_neg (not_not.2 hfull)]
      exact ih (k + 1) (by omega)

/-- **`drop_oldest_push` returns**, with what it does when no exchange fails. -/
theorem pushLoop_eq (h : Holds C q xs) (hcap : 2 ≤ C.cap) (item : T) {failures : List Bool}
    {fuel : Nat} (hfuel : failures.length + 2 ≤ fuel) :
    SPSCQueue.pushLoop C item fuel failures q false = some (q.dropOldestPush C item) := by
  unfold SPSCQueue.dropOldestPush
  by_cases hfull : C.next q.tail = q.head
  · rw [if_neg (not_not.2 hfull)]
    exact pushLoop_full h hcap hfull item false failures fuel hfuel
  · obtain ⟨k, rfl⟩ := Nat.exists_eq_add_of_le' (Nat.le_trans (by omega : 1 ≤ failures.length + 2) hfuel)
    rw [if_pos hfull]
    exact pushLoop_room hfull item k failures false

/-! ## One call -/

theorem Represents.reports (h : Represents C q b) :
    q.size C = b.items.length ∧ q.empty = b.items.isEmpty ∧ q.full C = b.full ∧
      q.dropCountValue = UInt64.ofNat b.dropped := by
  have hlt := h.lt
  refine ⟨h.holds.size, ?_, ?_, congrArg UInt64.ofNat h.dropCount⟩
  · rw [Bool.eq_iff_iff, SPSCQueue.empty, beq_iff_eq, h.holds.empty_iff, List.isEmpty_iff]
  · rw [Bool.eq_iff_iff, SPSCQueue.full, beq_iff_eq, h.holds.full_iff, BoundedFifo.full, beq_iff_eq]
    omega

theorem Represents.tryPush (h : Represents C q b) (item : T) :
    Represents C (q.tryPush C item).1 (b.push item).1 ∧
      (q.tryPush C item).2 = (b.push item).2 := by
  rcases h.holds.tryPush item with ⟨hlt, hok, hholds⟩ | ⟨hlen, heq⟩
  · rw [b.push_room item (by omega)]
    refine ⟨⟨hholds, ?_⟩, hok⟩
    rw [SPSCQueue.tryPush, if_neg (mt h.holds.full_iff.1 (by omega))]
    exact h.dropCount
  · rw [heq, b.push_full item (by omega)]
    exact ⟨h, rfl⟩

/-- `drop_oldest_push` appends, and gives the oldest up with `Cap - 1` elements stored. -/
theorem Represents.dropOldestPush (h : Represents C q b) (hcap : 2 ≤ C.cap) (hn : 0 < C.cap - 1)
    (item : T) :
    Represents C (q.dropOldestPush C item).1 (b.pushDropping hn item).1 ∧
      (q.dropOldestPush C item).2 = (b.pushDropping hn item).2 := by
  rcases h.holds.dropOldestPush hcap item with
    ⟨hlt, hholds, hdrops⟩ | ⟨x, rest, hxs, hlen, hholds, hdrops⟩
  · rw [b.pushDropping_room item hn (by omega)]
    refine ⟨⟨hholds, hdrops.trans h.dropCount⟩, ?_⟩
    rw [SPSCQueue.dropOldestPush, if_pos (mt h.holds.full_iff.1 (by omega))]
  · obtain ⟨hitems, hdropped, hflag⟩ := b.pushDropping_full item hn (by omega)
    refine ⟨⟨?_, ?_⟩, ?_⟩
    · rw [hitems, hxs]
      exact hholds
    · rw [hdrops, hdropped, h.dropCount]
    · rw [hflag, SPSCQueue.dropOldestPush, if_neg (not_not.2 (h.holds.full_iff.2 hlen))]

theorem Represents.tryPop (h : Represents C q b) (moved : T → T) :
    Represents C (q.tryPop C moved).1 b.pop.1 ∧ (q.tryPop C moved).2 = b.pop.2 := by
  obtain ⟨items, fits, dropped⟩ := b
  cases items with
  | nil =>
    rw [h.holds.tryPop_nil moved]
    exact ⟨⟨h.holds, h.dropCount⟩, rfl⟩
  | cons x rest =>
    obtain ⟨hout, hholds, hdrops⟩ := h.holds.tryPop_cons moved
    exact ⟨⟨hholds, hdrops.trans h.dropCount⟩, hout⟩

/-- The passes that suffice for a call. -/
def QueueOp.passes : QueueOp T → Nat
  | .dropOldestPush _ failures => failures.length + 2
  | _ => 0

/-- **The step lemma**: a call returns what the list returns, and keeps the queue and the list
together. -/
theorem queueStep_represents (moved : T → T) (h : Represents C q b) (hcap : 2 ≤ C.cap)
    (hn : 0 < C.cap - 1) (op : QueueOp T) {fuel : Nat} (hfuel : op.passes ≤ fuel) :
    ∃ q', queueStep C moved fuel q op = some (q', (fifoStep hn b op).2) ∧
      Represents C q' (fifoStep hn b op).1 := by
  obtain ⟨hsize, hempty, hfull, hdrops⟩ := h.reports
  cases op with
  | tryPush item =>
    obtain ⟨hrep, hret⟩ := h.tryPush item
    exact ⟨_, by rw [queueStep, hret, fifoStep], hrep⟩
  | dropOldestPush item failures =>
    obtain ⟨hrep, hret⟩ := h.dropOldestPush hcap hn item
    refine ⟨_, ?_, hrep⟩
    rw [queueStep, pushLoop_eq h.holds hcap item hfuel, Option.map_some, hret, fifoStep]
  | tryPop =>
    obtain ⟨hrep, hret⟩ := h.tryPop moved
    exact ⟨_, by rw [queueStep, hret, fifoStep], hrep⟩
  | size => exact ⟨q, by rw [queueStep, hsize, fifoStep], h⟩
  | empty => exact ⟨q, by rw [queueStep, hempty, fifoStep], h⟩
  | full => exact ⟨q, by rw [queueStep, hfull, fifoStep], h⟩
  | dropCount => exact ⟨q, by rw [queueStep, hdrops, fifoStep], h⟩
  | reset => exact ⟨q.reset, rfl, represents_reset q⟩

/-! ## Whole sequences -/

/-- The passes that suffice for every call of a sequence. -/
def totalPasses (ops : List (QueueOp T)) : Nat := (ops.map QueueOp.passes).sum

theorem queueRun_represents (moved : T → T) (hcap : 2 ≤ C.cap) (hn : 0 < C.cap - 1) {fuel : Nat}
    (ops : List (QueueOp T)) (hfuel : totalPasses ops ≤ fuel) :
    ∀ {q : SPSCQueue T} {b : BoundedFifo T (C.cap - 1)}, Represents C q b →
      ∃ q', queueRun C moved fuel q ops = some (q', (fifoRun hn b ops).2) ∧
        Represents C q' (fifoRun hn b ops).1 := by
  induction ops with
  | nil => exact fun {q _} h => ⟨q, rfl, h⟩
  | cons op ops ih =>
    intro q b h
    simp only [totalPasses, List.map_cons, List.sum_cons] at hfuel
    have hop : op.passes ≤ fuel := by omega
    obtain ⟨q1, hstep, h1⟩ := queueStep_represents moved h hcap hn op hop
    obtain ⟨q2, hrun, h2⟩ := ih (by unfold totalPasses; omega) h1
    refine ⟨q2, ?_, h2⟩
    rw [queueRun, hstep, Option.bind_some, hrun, Option.map_some, fifoRun]

/-- **A bounded FIFO with drop-oldest**: for a capacity of at least two, every sequence of calls
returns, whichever exchanges fail, and returns what the list of at most `Cap - 1` elements returns;
at its end the queue holds the list, and the drop counter is the number of elements given up since
the last `reset`. -/
theorem sequential_fifo {T : Type} (C : Capacity) (hcap : 2 ≤ C.cap) (moved : T → T)
    (buffer : Nat → T) (ops : List (QueueOp T)) :
    ∃ passes, ∀ fuel, passes ≤ fuel → ∃ q,
      queueRun C moved fuel (.new buffer) ops =
        some (q, (fifoRun (Nat.sub_pos_of_lt hcap) (.empty : BoundedFifo T (C.cap - 1)) ops).2) ∧
      q.contents C =
        (fifoRun (Nat.sub_pos_of_lt hcap) (.empty : BoundedFifo T (C.cap - 1)) ops).1.items ∧
      q.dropCount =
        (fifoRun (Nat.sub_pos_of_lt hcap) (.empty : BoundedFifo T (C.cap - 1)) ops).1.dropped := by
  refine ⟨totalPasses ops, fun fuel hfuel => ?_⟩
  obtain ⟨q, hrun, hrep⟩ := queueRun_represents moved hcap (Nat.sub_pos_of_lt hcap) ops hfuel
    (represents_new buffer)
  exact ⟨q, hrun, hrep.holds.contents, hrep.dropCount⟩

/-- With two slots: a push, a second one that gives the first up after a failed exchange, and what
the queue reports then. -/
theorem twoSlots_fifo :
    ∃ passes, ∀ fuel, passes ≤ fuel → ∃ q,
      queueRun ⟨1, by decide⟩ id fuel (.new fun _ => 0)
        [.tryPush 7, .tryPush 8, .dropOldestPush 9 [true], .full, .dropCount, .tryPop, .tryPop, .reset,
          .dropCount] =
        some (q, [.flag true, .flag false, .flag false, .flag true, .dropCount 1, .item (some 9),
          .item none, .void, .dropCount 0]) := by
  obtain ⟨passes, h⟩ := sequential_fifo ⟨1, by decide⟩ (by decide) id (fun _ => 0)
    [.tryPush 7, .tryPush 8, .dropOldestPush 9 [true], .full, .dropCount, .tryPop, .tryPop, .reset,
      .dropCount]
  refine ⟨passes, fun fuel hfuel => ?_⟩
  obtain ⟨q, hrun, -⟩ := h fuel hfuel
  exact ⟨q, hrun⟩

end

end Qdgz300.Common
