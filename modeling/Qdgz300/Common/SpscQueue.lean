import Qdgz300.Lib.Machine

/-!
# The SPSC ring queue (`include/qdgz300/common/spsc_queue.h`)

`SPSCQueue<T, Cap>` with its two threads. Each operation is a sequence of atomic accesses to the
shared words (`head_`, `tail_`, `drop_count_`, one slot of `buffer_`); `step` executes one access
of one thread, so an interleaving is a list of `Label`s and `exec` runs it.

A thread between two accesses is a program counter with its local variables (`ProducerPc`,
`ConsumerPc`). A call and its first load are one step: nothing happens between them. `pushed`
and `popped` are history: the values in the order of their publishing stores (`tail_` for a push,
`head_` for a pop).

The overloads for `const T &` and `T &&` access the queue alike. `std::move` out of a slot leaves
the slot with a moved-from value, the parameter `moved`.
-/

namespace Qdgz300.Common

/-- The capacity `Cap`, a power of two (`static_assert`) of type `size_t`. -/
structure Capacity where
  log : Nat
  log_lt : log < 64

/-- `Cap`. -/
def Capacity.cap (C : Capacity) : Nat := 2 ^ C.log

/-- `mask_`. -/
def Capacity.mask (C : Capacity) : Nat := C.cap - 1

/-- The shared words of the queue. -/
structure SPSCQueue (T : Type) where
  head : Nat
  tail : Nat
  dropCount : Nat
  buffer : Nat → T

/-- `SPSCQueue()`: the slots hold default-initialised values. -/
def SPSCQueue.new {T : Type} (buffer : Nat → T) : SPSCQueue T :=
  { head := 0, tail := 0, dropCount := 0, buffer }

/-- The successor of an index, `(i + 1) & mask_`. -/
def Capacity.next (C : Capacity) (i : Nat) : Nat := (i + 1) &&& C.mask

/-- `size()`: `(tail - head) & mask_` in `size_t`. -/
def SPSCQueue.size {T : Type} (C : Capacity) (q : SPSCQueue T) : Nat :=
  ((q.tail + 2 ^ 64 - q.head) % 2 ^ 64) &&& C.mask

/-- `empty()`. -/
def SPSCQueue.empty {T : Type} (q : SPSCQueue T) : Bool := q.head == q.tail

/-- `full()`. -/
def SPSCQueue.full {T : Type} (C : Capacity) (q : SPSCQueue T) : Bool := C.next q.tail == q.head

/-- Where the producer is: the next access, with the locals that later accesses use. -/
inductive ProducerPc (T : Type) where
  | idle
  /-- `try_push`: the load of `head_`. -/
  | pushLoadHead (item : T) (tail : Nat)
  /-- `try_push`: `buffer_[tail] = item`. -/
  | pushWrite (item : T) (tail : Nat)
  /-- `try_push`: `tail_.store(next)`. -/
  | pushStoreTail (item : T) (tail : Nat)
  /-- `drop_oldest_push`: the load of `tail_` (again, after a drop or a failed exchange). -/
  | dropLoadTail (item : T) (dropped : Bool)
  /-- `drop_oldest_push`: the load of `head_`. -/
  | dropLoadHead (item : T) (dropped : Bool) (tail : Nat)
  /-- `drop_oldest_push`: `buffer_[tail] = item`. -/
  | dropWrite (item : T) (dropped : Bool) (tail : Nat)
  /-- `drop_oldest_push`: `tail_.store(next)`. -/
  | dropStoreTail (item : T) (dropped : Bool) (tail : Nat)
  /-- `drop_oldest_push`: `head_.compare_exchange_weak(head, new_head)`. -/
  | dropExchange (item : T) (dropped : Bool) (head : Nat)
  /-- `drop_oldest_push`: `drop_count_.fetch_add(1)`. -/
  | dropFetchAdd (item : T)

/-- Where the consumer is. -/
inductive ConsumerPc (T : Type) where
  | idle
  /-- `try_pop`: the load of `tail_`. -/
  | popLoadTail (head : Nat)
  /-- `try_pop`: `T item = std::move(buffer_[head])`. -/
  | popRead (head : Nat)
  /-- `try_pop`: `head_.store((head + 1) & mask_)`. -/
  | popStoreHead (head : Nat) (item : T)

/-- The queue, its two threads and the history. -/
structure Sys (T : Type) where
  q : SPSCQueue T
  prod : ProducerPc T
  cons : ConsumerPc T
  pushed : List T
  popped : List T

/-- The fresh queue with both threads between operations. -/
def Sys.init {T : Type} (buffer : Nat → T) : Sys T :=
  { q := .new buffer, prod := .idle, cons := .idle, pushed := [], popped := [] }

/-- Both threads are between operations. -/
def Sys.Quiescent {T : Type} (s : Sys T) : Prop := s.prod = .idle ∧ s.cons = .idle

/-- One scheduling choice: a thread starts an operation or executes its next access. `spurious`
lets `compare_exchange_weak` fail although the values agree. -/
inductive Label (T : Type) where
  | tryPush (item : T)
  | dropOldestPush (item : T)
  | producer (spurious : Bool)
  | tryPop
  | consumer

variable {T : Type} (C : Capacity)

/-! ## Whole operations

An operation that nothing comes between. An exchange then fails only spuriously, and the loop of
`drop_oldest_push` tries again; after one drop there is room. -/

/-- `buffer_[tail] = item` and the store that publishes it. -/
def SPSCQueue.put (q : SPSCQueue T) (item : T) : SPSCQueue T :=
  { q with buffer := Function.update q.buffer q.tail item, tail := C.next q.tail }

/-- The oldest element dropped. -/
def SPSCQueue.dropOldest (q : SPSCQueue T) : SPSCQueue T :=
  { q with head := C.next q.head, dropCount := q.dropCount + 1 }

/-- `try_push`. -/
def SPSCQueue.tryPush (q : SPSCQueue T) (item : T) : SPSCQueue T × Bool :=
  if C.next q.tail = q.head then (q, false) else (q.put C item, true)

/-- `drop_oldest_push`. -/
def SPSCQueue.dropOldestPush (q : SPSCQueue T) (item : T) : SPSCQueue T × Bool :=
  if C.next q.tail ≠ q.head then (q.put C item, true) else ((q.dropOldest C).put C item, false)

/-- `try_pop`. -/
def SPSCQueue.tryPop (moved : T → T) (q : SPSCQueue T) : SPSCQueue T × Option T :=
  if q.head = q.tail then (q, none)
  else
    ({ q with
      buffer := Function.update q.buffer q.head (moved (q.buffer q.head))
      head := C.next q.head }, some (q.buffer q.head))

/-! ## Accesses -/

/-- The producer's next access. -/
def producerStep (s : Sys T) (spurious : Bool) : Option (Sys T) :=
  match s.prod with
  | .idle => none
  | .pushLoadHead item tail =>
    if C.next tail = s.q.head then some { s with prod := .idle }
    else some { s with prod := .pushWrite item tail }
  | .pushWrite item tail =>
    some { s with
      q := { s.q with buffer := Function.update s.q.buffer tail item }
      prod := .pushStoreTail item tail }
  | .pushStoreTail item tail =>
    some { s with q := { s.q with tail := C.next tail }, prod := .idle, pushed := s.pushed ++ [item] }
  | .dropLoadTail item dropped =>
    some { s with prod := .dropLoadHead item dropped s.q.tail }
  | .dropLoadHead item dropped tail =>
    if C.next tail ≠ s.q.head then some { s with prod := .dropWrite item dropped tail }
    else some { s with prod := .dropExchange item dropped s.q.head }
  | .dropWrite item dropped tail =>
    some { s with
      q := { s.q with buffer := Function.update s.q.buffer tail item }
      prod := .dropStoreTail item dropped tail }
  | .dropStoreTail item _ tail =>
    some { s with q := { s.q with tail := C.next tail }, prod := .idle, pushed := s.pushed ++ [item] }
  | .dropExchange item dropped head =>
    if s.q.head = head ∧ spurious = false then
      some { s with q := { s.q with head := C.next head }, prod := .dropFetchAdd item }
    else some { s with prod := .dropLoadTail item dropped }
  | .dropFetchAdd item =>
    some { s with
      q := { s.q with dropCount := s.q.dropCount + 1 }, prod := .dropLoadTail item true }

/-- The consumer's next access. -/
def consumerStep (moved : T → T) (s : Sys T) : Option (Sys T) :=
  match s.cons with
  | .idle => none
  | .popLoadTail head =>
    if head = s.q.tail then some { s with cons := .idle }
    else some { s with cons := .popRead head }
  | .popRead head =>
    some { s with
      q := { s.q with buffer := Function.update s.q.buffer head (moved (s.q.buffer head)) }
      cons := .popStoreHead head (s.q.buffer head) }
  | .popStoreHead head item =>
    some { s with
      q := { s.q with head := C.next head }, cons := .idle, popped := s.popped ++ [item] }

/-- One access of one thread. -/
def step (moved : T → T) (s : Sys T) : Label T → Option (Sys T)
  | .tryPush item =>
    match s.prod with
    | .idle => some { s with prod := .pushLoadHead item s.q.tail }
    | _ => none
  | .dropOldestPush item =>
    match s.prod with
    | .idle => some { s with prod := .dropLoadHead item false s.q.tail }
    | _ => none
  | .producer spurious => producerStep C s spurious
  | .tryPop =>
    match s.cons with
    | .idle => some { s with cons := .popLoadTail s.q.head }
    | _ => none
  | .consumer => consumerStep C moved s

/-- The interleaving `ls` from the fresh queue. -/
def exec (moved : T → T) (buffer : Nat → T) (ls : List (Label T)) : Option (Sys T) :=
  Machine.exec (step C moved) (.init buffer) ls

end Qdgz300.Common
