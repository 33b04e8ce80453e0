import Qdgz300.Lib.Machine
import Mathlib.Logic.Function.Basic

/-!
# The object pool (`include/qdgz300/common/memory_pool.h`)

`NUMAPool<T>` under any number of threads, each of which calls `allocate` and `deallocate`. Each
step is one atomic access. A block is the index of its slot. The link of the free list is the first
word of the slot, so the owner of a block overwrites it with its object (`use`); the words are read
as pointers, `none` for null. `owned` is history: one entry for each allocation that was not given
back.
-/

namespace Qdgz300.Common

/-- The words of `NUMAPool`. -/
structure NUMAPool where
  totalCount : BitVec 64
  /-- The first word of each slot, `FreeNode::next`. -/
  next : Nat → Option Nat
  freeHead : Option Nat
  available : BitVec 64

namespace NUMAPool

/-- The constructor: `memory` says whether `numa_alloc` returned the slots. The loop over the slots
links each one to the one before it. -/
def new (count : BitVec 64) (memory : Bool) : NUMAPool :=
  if count = 0 ∨ memory = false then
    { totalCount := 0, next := fun _ => none, freeHead := none, available := 0 }
  else
    { totalCount := count
      next := fun i => if i = 0 then none else some (i - 1)
      freeHead := some (count.toNat - 1)
      available := count }

/-- Where a thread is: the next access, with the locals that later accesses use. -/
inductive Pc where
  | idle
  /-- `allocate`: `head->next.load`. -/
  | readNext (head : Nat)
  /-- `allocate`: `free_head_.compare_exchange_weak(head, next)`. -/
  | unlink (head : Nat) (next : Option Nat)
  /-- `allocate`: `available_.fetch_sub(1)`, then the return of `head`. -/
  | decAvailable (head : Nat)
  /-- `deallocate`: `node->next.store(old_head)`. -/
  | writeNext (node : Nat) (oldHead : Option Nat)
  /-- `deallocate`: `free_head_.compare_exchange_weak(old_head, node)`. -/
  | push (node : Nat) (oldHead : Option Nat)
  /-- `deallocate`: `available_.fetch_add(1)`. -/
  | incAvailable
  deriving DecidableEq

/-- The pool with its threads. -/
structure Sys where
  pool : NUMAPool
  threads : List Pc
  owned : List Nat

/-- A new pool with `n` threads. -/
def Sys.init (pool : NUMAPool) (n : Nat) : Sys :=
  { pool, threads := List.replicate n .idle, owned := [] }

/-- No operation is in progress. -/
def Sys.Quiescent (s : Sys) : Prop := ∀ t ∈ s.threads, t = .idle

/-- One scheduling choice: a call with its first access, the next access of thread `t`, or a write
of an owner into its block. -/
inductive Label where
  | allocate (t : Nat)
  | deallocate (t : Nat) (ptr : Option Nat)
  | access (t : Nat) (spurious : Bool)
  | use (block : Nat) (word : Option Nat)

/-- The loop of `allocate` with the value of `free_head_` that it has read; `nullptr` ends it. -/
def Pc.loaded : Option Nat → Pc
  | none => .idle
  | some head => .readNext head

/-- The next access of thread `t`. -/
def access (s : Sys) (t : Nat) (spurious : Bool) : Option Sys :=
  match s.threads[t]? with
  | none | some .idle => none
  | some (.readNext head) =>
    some { s with threads := s.threads.set t (.unlink head (s.pool.next head)) }
  | some (.unlink head next) =>
    if s.pool.freeHead = some head ∧ spurious = false then
      some { s with
        pool := { s.pool with freeHead := next }
        threads := s.threads.set t (.decAvailable head) }
    else some { s with threads := s.threads.set t (.loaded s.pool.freeHead) }
  | some (.decAvailable head) =>
    some { s with
      pool := { s.pool with available := s.pool.available - 1 }
      threads := s.threads.set t .idle
      owned := head :: s.owned }
  | some (.writeNext node oldHead) =>
    some { s with
      pool := { s.pool with next := Function.update s.pool.next node oldHead }
      threads := s.threads.set t (.push node oldHead) }
  | some (.push node oldHead) =>
    if s.pool.freeHead = oldHead ∧ spurious = false then
      some { s with
        pool := { s.pool with freeHead := some node }
        threads := s.threads.set t .incAvailable }
    else some { s with threads := s.threads.set t (.writeNext node s.pool.freeHead) }
  | some .incAvailable =>
    some { s with
      pool := { s.pool with available := s.pool.available + 1 }
      threads := s.threads.set t .idle }

/-- One step. A block is given back, and written to, only by an owner. -/
def Sys.step (s : Sys) : Label → Option Sys
  | .allocate t =>
    if s.threads[t]? = some .idle then
      some { s with threads := s.threads.set t (.loaded s.pool.freeHead) }
    else none
  | .deallocate t ptr =>
    if s.threads[t]? = some .idle then
      match ptr with
      | none => some s
      | some node =>
        if node ∈ s.owned then
          some { s with
            threads := s.threads.set t (.writeNext node s.pool.freeHead)
            owned := s.owned.erase node }
        else none
    else none
  | .access t spurious => access s t spurious
  | .use block word =>
    if block ∈ s.owned then
      some { s with pool := { s.pool with next := Function.update s.pool.next block word } }
    else none

end NUMAPool

end Qdgz300.Common
