import Qdgz300.Lib.Machine
import Mathlib.Logic.Function.Basic

/-!
# The packet pool of a face (`src/m01_receiver/network/packet_pool.cpp`)

`PacketPool` with the one thread that allocates (`ArrayFaceReceiver::receive_loop`) and the threads
that give buffers back. Each step is one access to a shared word: the head of the free list, the
`next` of a node, a counter. `compare_exchange_weak` may fail spuriously.

A node is its index in `nodes`, a buffer is its address. The counters are `size_t` and wrap: for a
moment `available` can be below zero. `owned` is history: the buffers that were handed out and not
given back.
-/

namespace Qdgz300.Network

/-- `PacketPool::Impl`. -/
structure PacketPool where
  packetSize : Nat
  poolBegin : Nat := 0
  poolEnd : Nat := 0
  /-- `nodes.size()`. -/
  size : Nat := 0
  /-- `FreeNode::buffer`. -/
  buffer : Nat → Nat := fun _ => 0
  /-- `FreeNode::next`. -/
  next : Nat → Option Nat := fun _ => none
  freeHead : Option Nat := none
  totalSize : BitVec 64 := 0
  available : BitVec 64 := 0
  allocated : BitVec 64 := 0
  allocCount : BitVec 64 := 0
  deallocCount : BitVec 64 := 0
  fallbackAlloc : BitVec 64 := 0

/-- The constructor's loop over the nodes, with the counters it sets. -/
def PacketPool.carve (packetSize poolSize base : Nat) : PacketPool where
  packetSize
  poolBegin := base
  poolEnd := base + packetSize * poolSize
  size := poolSize
  buffer := fun i => base + i * packetSize
  next := fun i => if i + 1 < poolSize then some (i + 1) else none
  freeHead := if poolSize = 0 then none else some 0
  totalSize := BitVec.ofNat 64 poolSize
  available := BitVec.ofNat 64 poolSize

/-- The constructor; `storage` is the block that the allocator returned, if it returned one. -/
def PacketPool.new (packetSize poolSize : Nat) (storage : Option Nat) : PacketPool :=
  if packetSize = 0 ∨ poolSize = 0 then { packetSize }
  else
    match storage with
    | none => { packetSize }
    | some base => .carve packetSize poolSize base

/-- The node that `deallocate` finds for an address. Without one it does not touch the pool: an
address outside of the storage is a fallback buffer, which goes back to the heap. -/
def PacketPool.nodeOf (pool : PacketPool) (addr : Nat) : Option Nat :=
  if pool.poolBegin ≤ addr ∧ addr < pool.poolEnd then
    let offset := addr - pool.poolBegin
    if pool.packetSize = 0 ∨ offset % pool.packetSize ≠ 0 then none
    else if pool.size ≤ offset / pool.packetSize then none
    else some (offset / pool.packetSize)
  else none

/-- Where `allocate` is: the next access, with the locals that later accesses use. -/
inductive AllocPc where
  | idle
  /-- `free_head.load`. -/
  | loadHead
  /-- `next = head->next`. -/
  | readNext (head : Nat)
  /-- `free_head.compare_exchange_weak(head, next)`. -/
  | exchange (head : Nat) (next : Option Nat)
  /-- `available.fetch_sub(1)`. -/
  | decAvailable (head : Nat)
  /-- `allocated.fetch_add(1)`, then the return of `head->buffer`. -/
  | incAllocated (head : Nat)
  /-- `fallback_alloc.fetch_add(1)`, then the return of a block of the heap. -/
  | fallback
  deriving DecidableEq

/-- Where a `deallocate` is. -/
inductive DeallocPc where
  | idle
  /-- `free_head.load`. -/
  | loadHead (node : Nat)
  /-- `node->next = head`. -/
  | writeNext (node : Nat) (head : Option Nat)
  /-- `free_head.compare_exchange_weak(head, node)`. -/
  | exchange (node : Nat) (head : Option Nat)
  /-- `available.fetch_add(1)`. -/
  | incAvailable
  /-- `allocated.fetch_sub(1)`. -/
  | decAllocated
  deriving DecidableEq

/-- The pool with its threads. -/
structure PoolSys where
  pool : PacketPool
  alloc : AllocPc
  threads : List DeallocPc
  owned : List Nat

/-- A new pool, with `n` threads that give buffers back. -/
def PoolSys.init (pool : PacketPool) (n : Nat) : PoolSys :=
  { pool, alloc := .idle, threads := List.replicate n .idle, owned := [] }

/-- No operation is in progress. -/
def PoolSys.Quiescent (s : PoolSys) : Prop := s.alloc = .idle ∧ ∀ t ∈ s.threads, t = .idle

/-- One scheduling choice: a call, or the next access of a call in progress. -/
inductive PoolLabel where
  | allocate
  | allocStep (spurious : Bool)
  | deallocate (t : Nat) (buffer : Nat)
  | deallocStep (t : Nat) (spurious : Bool)

/-- The loop of `allocate` with the value of `free_head` that it has read. -/
def AllocPc.loaded : Option Nat → AllocPc
  | none => .fallback
  | some head => .readNext head

/-- The next access of `allocate`. -/
def allocStep (s : PoolSys) (spurious : Bool) : Option PoolSys :=
  match s.alloc with
  | .idle => none
  | .loadHead => some { s with alloc := .loaded s.pool.freeHead }
  | .readNext head => some { s with alloc := .exchange head (s.pool.next head) }
  | .exchange head next =>
    if s.pool.freeHead = some head ∧ spurious = false then
      some { s with pool := { s.pool with freeHead := next }, alloc := .decAvailable head }
    else some { s with alloc := .loaded s.pool.freeHead }
  | .decAvailable head =>
    some { s with
      pool := { s.pool with available := s.pool.available - 1 }
      alloc := .incAllocated head }
  | .incAllocated head =>
    some { s with
      pool := { s.pool with allocated := s.pool.allocated + 1 }
      alloc := .idle
      owned := s.pool.buffer head :: s.owned }
  | .fallback =>
    some { s with
      pool := { s.pool with fallbackAlloc := s.pool.fallbackAlloc + 1 }
      alloc := .idle }

/-- The next access of the `deallocate` of thread `t`. -/
def deallocStep (s : PoolSys) (t : Nat) (spurious : Bool) : Option PoolSys :=
  match s.threads[t]? with
  | none | some .idle => none
  | some (.loadHead node) =>
    some { s with threads := s.threads.set t (.writeNext node s.pool.freeHead) }
  | some (.writeNext node head) =>
    some { s with
      pool := { s.pool with next := Function.update s.pool.next node head }
      threads := s.threads.set t (.exchange node head) }
  | some (.exchange node head) =>
    if s.pool.freeHead = head ∧ spurious = false then
      some { s with
        pool := { s.pool with freeHead := some node }
        threads := s.threads.set t .incAvailable }
    else some { s with threads := s.threads.set t (.writeNext node s.pool.freeHead) }
  | some .incAvailable =>
    some { s with
      pool := { s.pool with available := s.pool.available + 1 }
      threads := s.threads.set t .decAllocated }
  | some .decAllocated =>
    some { s with
      pool := { s.pool with allocated := s.pool.allocated - 1 }
      threads := s.threads.set t .idle }

/-- The call of `deallocate`, with its first access. A caller gives back a buffer of the pool only
if it owns it. -/
def deallocate (s : PoolSys) (t : Nat) (buffer : Nat) : Option PoolSys :=
  if s.threads[t]? ≠ some .idle then none
  else if buffer = 0 then some s
  else
    let pool := { s.pool with deallocCount := s.pool.deallocCount + 1 }
    match s.pool.nodeOf buffer with
    | none => some { s with pool }
    | some node =>
      if buffer ∈ s.owned then
        some { s with
          pool
          threads := s.threads.set t (.loadHead node)
          owned := s.owned.erase buffer }
      else none

/-- One access of one thread. -/
def PoolSys.step (s : PoolSys) : PoolLabel → Option PoolSys
  | .allocate =>
    match s.alloc with
    | .idle =>
      some { s with
        pool := { s.pool with allocCount := s.pool.allocCount + 1 }
        alloc := .loadHead }
    | _ => none
  | .allocStep spurious => allocStep s spurious
  | .deallocate t buffer => deallocate s t buffer
  | .deallocStep t spurious => deallocStep s t spurious

end Qdgz300.Network
