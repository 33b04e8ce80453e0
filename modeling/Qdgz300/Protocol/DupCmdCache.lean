import Qdgz300.Lib.FifoMap
import Qdgz300.Lib.Machine

/-!
# The duplicate-command cache (`protocol_types.h`, `DupCmdCache`)

Acknowledgements of commands that were already executed, by the key of the command. The map
`entries_` is bounded by `max_entries_`; `fifo_` holds its keys in the order in which they came.
-/

namespace Qdgz300.Protocol

open FifoMap (Event)

/-- `ScheduleApplyAckPayload`. -/
structure ScheduleApplyAckPayload where
  ackFrameCounter : BitVec 32 := 0
  ackedSequenceNumber : BitVec 32 := 0
  ackResult : BitVec 8 := 0
  errorCode : BitVec 8 := 0
  errorDetail : BitVec 16 := 0
  appliedTimestamp : BitVec 64 := 0
  payloadCrc32c : BitVec 32 := 0
  deriving DecidableEq, Repr

structure DupCmdKey where
  sourceId : BitVec 8 := 0
  controlEpoch : BitVec 16 := 0
  sequenceNumber : BitVec 32 := 0
  deriving DecidableEq, Repr

structure DupCmdCacheEntry where
  key : DupCmdKey := {}
  lastResult : ScheduleApplyAckPayload := {}
  cachedAtMs : BitVec 64 := 0
  deriving DecidableEq, Repr

structure DupCmdCache where
  maxEntries : Nat
  entries : AList fun _ : DupCmdKey => DupCmdCacheEntry := ∅
  fifo : List DupCmdKey := []

namespace DupCmdCache

/-- `max_entries == 0 ? 1 : max_entries`. -/
def atLeastOne (maxEntries : Nat) : Nat := if maxEntries = 0 then 1 else maxEntries

/-- The constructor. -/
def new (maxEntries : Nat) : DupCmdCache := { maxEntries := atLeastOne maxEntries }

def size (cache : DupCmdCache) : Nat := KeyMap.size cache.entries

/-- `find`: `ack_out`, or `none` for `false`. -/
def find (cache : DupCmdCache) (key : DupCmdKey) : Option ScheduleApplyAckPayload :=
  (cache.entries.lookup key).map DupCmdCacheEntry.lastResult

/-- The front of `fifo_` leaves, and its entry with it. -/
def evictFront (cache : DupCmdCache) : DupCmdCache :=
  match cache.fifo with
  | [] => cache
  | evictKey :: rest => { cache with fifo := rest, entries := cache.entries.erase evictKey }

def upsert (cache : DupCmdCache) (key : DupCmdKey) (ack : ScheduleApplyAckPayload)
    (nowMs : BitVec 64) : DupCmdCache :=
  match cache.entries.lookup key with
  | some entry =>
    let entry := { entry with lastResult := ack, cachedAtMs := nowMs }
    { cache with entries := cache.entries.insert key entry }
  | none =>
    let cache := if cache.maxEntries ≤ cache.size then cache.evictFront else cache
    -- the key is absent, so that `emplace` inserts
    { cache with
      entries := cache.entries.insert key { key, lastResult := ack, cachedAtMs := nowMs }
      fifo := cache.fifo ++ [key] }

def clear (cache : DupCmdCache) : DupCmdCache := { cache with entries := ∅, fifo := [] }

/-- The loop of `set_max_entries`. -/
def shrink (maxEntries : Nat) :
    List DupCmdKey → (AList fun _ : DupCmdKey => DupCmdCacheEntry) → DupCmdCache
  | [], entries => { maxEntries, entries }
  | evictKey :: fifo, entries =>
    if maxEntries < KeyMap.size entries then shrink maxEntries fifo (entries.erase evictKey)
    else { maxEntries, entries, fifo := evictKey :: fifo }

def setMaxEntries (cache : DupCmdCache) (maxEntries : Nat) : DupCmdCache :=
  shrink (atLeastOne maxEntries) cache.fifo cache.entries

/-- The calls that are made to a cache. -/
inductive Call where
  | upsert (key : DupCmdKey) (ack : ScheduleApplyAckPayload) (nowMs : BitVec 64)
  | find (key : DupCmdKey)
  | clear
  | setMaxEntries (maxEntries : Nat)

/-- The keys that were cached before a call and are not afterwards. -/
def evicted (before after : DupCmdCache) : List DupCmdKey :=
    FifoMap.missing before.fifo after.entries

/-- One call, with what happened to the cached keys as output. -/
def step (cache : DupCmdCache) : Call → DupCmdCache × List (Event DupCmdKey DupCmdCacheEntry)
  | .upsert key ack nowMs =>
    let after := cache.upsert key ack nowMs
    (after, (evicted cache after).map .evict ++ [.put key { key, lastResult := ack, cachedAtMs := nowMs }])
  | .find _ => (cache, [])
  | .clear => (cache.clear, [.clear])
  | .setMaxEntries maxEntries =>
    let after := cache.setMaxEntries maxEntries
    (after, (evicted cache after).map .evict)

/-- A cache after the calls, and the trace of what happened on the way. -/
def runCalls (maxEntries : Nat) (calls : List Call) :
    DupCmdCache × List (Event DupCmdKey DupCmdCacheEntry) :=
  Machine.run step (new maxEntries) calls

end DupCmdCache

end Qdgz300.Protocol
