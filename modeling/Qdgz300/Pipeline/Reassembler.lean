import Mathlib.Data.List.AList
import Qdgz300.Lib.Bitmap
import Qdgz300.Lib.Machine
import Qdgz300.Protocol.Types

/-!
# The reassembler (`src/m01_receiver/pipeline/reassembler.cpp`)

Fragments are collected per key in a context; a context is completed when all its fragments are in,
or by a timeout or a flush, which also freezes its key for one timeout in a ring of frozen keys.

* The readings of `get_current_time_ms` are an arbitrary sequence (`SystemClock`); the state counts
  the readings made so far.
* `contexts_` is an unordered map: where the source iterates over it, the call gives the order
  (`IterOrder`).
* `std::bitset<1024>::test` throws for an index from 1024 on: a completion that throws is `none`,
  and the call ends there.
* The two entry points differ only in how a fragment is stored, which `FragmentStorage` records.
-/

namespace Qdgz300.Pipeline

open Protocol Bytes

structure ReassemblerConfig where
  timeoutMs : BitVec 32 := 100
  maxContexts : Nat := 1024
  maxTotalFrags : BitVec 16 := 1024
  sampleCountFixed : Nat := 4096
  maxReasmBytesPerKey : Nat := 16 * 1024 * 1024

/-- Who owns the bytes of a fragment: the packet's own buffer, or a copy. -/
inductive FragmentStorage where
  | pool | heap
  deriving DecidableEq, Repr

structure FragmentRef where
  storage : Option FragmentStorage := none
  data : Option (List Byte) := none
  dataSize : Nat := 0
  deriving DecidableEq, Repr

def FragmentRef.hasData (r : FragmentRef) : Bool := r.data.isSome && decide (0 < r.dataSize)

structure ReassemblyContext where
  key : ReassemblyKey
  totalFrags : BitVec 16
  tailFragPayloadBytes : BitVec 16
  firstFragTimeMs : BitVec 64
  dataTimestamp : BitVec 64
  executionSnapshot : ExecutionSnapshot := {}
  hasExecutionSnapshot : Bool := false
  receivedFragments : Bitmap := Bitmap.zeros 1024
  fragmentSizes : List Nat
  fragmentRefs : List FragmentRef
  totalPayloadSize : Nat := 0
  receivedCount : BitVec 16 := 0
  receivedPayloadBytes : Nat := 0
  isComplete : Bool := false
  deriving DecidableEq

namespace ReassemblyContext

def checkComplete (ctx : ReassemblyContext) : Bool := ctx.receivedCount == ctx.totalFrags

/-- The subtraction is unsigned and wraps. -/
def checkTimeout (ctx : ReassemblyContext) (currentTimeMs : BitVec 64)
    (timeoutMs : BitVec 32) : Bool :=
  decide (timeoutMs.toNat ≤ (currentTimeMs - ctx.firstFragTimeMs).toNat)

end ReassemblyContext

structure ReassembledFrame where
  key : ReassemblyKey
  data : List Byte
  totalSize : Nat
  dataTimestamp : BitVec 64
  executionSnapshot : ExecutionSnapshot
  hasExecutionSnapshot : Bool
  isComplete : Bool
  missingFragmentsCount : BitVec 16
  missingFragIndices : List Nat
  deriving DecidableEq

structure FrozenKeyEntry where
  key : ReassemblyKey := {}
  expireMs : BitVec 64 := 0
  valid : Bool := false
  deriving DecidableEq, Repr

structure ReassemblerStatistics where
  totalFragmentsReceived : Nat := 0
  duplicateFragments : Nat := 0
  lateFragments : Nat := 0
  framesCompleted : Nat := 0
  framesIncomplete : Nat := 0
  totalMissingFragments : Nat := 0
  contextsCreated : Nat := 0
  contextsDestroyed : Nat := 0
  contextsOverflow : Nat := 0
  reasmBytesOverflow : Nat := 0
  deriving DecidableEq, Repr

/-- `contexts_`. -/
abbrev ContextMap := AList fun _ : ReassemblyKey => ReassemblyContext

structure Reassembler where
  config : ReassemblerConfig
  contexts : ContextMap
  frozenKeysRing : List FrozenKeyEntry
  frozenKeysNextInsert : Nat
  stats : ReassemblerStatistics
  timeoutMsRuntime : BitVec 32
  reads : Nat

/-- The readings of `get_current_time_ms`. -/
abbrev SystemClock := Nat → BitVec 64

/-- The order in which the keys of a set are met by an iteration. -/
structure IterOrder where
  toFun : List ReassemblyKey → List ReassemblyKey
  perm : ∀ keys, (toFun keys).Perm keys

/-- A callback: the frame, and the clock reading at which its key was frozen, if it was. -/
structure Emission where
  frame : ReassembledFrame
  frozenAt : Option (BitVec 64)
  deriving DecidableEq

/-! ## Header checks -/

/-- What the header checks leave of a packet. -/
structure Fragment where
  specific : DataSpecificHeader
  key : ReassemblyKey
  tailSnapshot : Option ExecutionSnapshot
  payload : List Byte
  payloadSize : Nat
  deriving DecidableEq

def parseSpecificHeader (cfg : ReassemblerConfig) (payload : Option (List Byte))
    (payloadLen : Nat) :
    Option DataSpecificHeader :=
  match payload with
  | none => none
  | some bytes =>
    if payloadLen < specificSize then none
    else
      let header := DataSpecificHeader.decode bytes
      if header.totalFrags = 0 ∨ cfg.maxTotalFrags < header.totalFrags then none
      else if header.totalFrags ≤ header.fragIndex then none
      else some header

def extractKey (common : CommonHeader) (specific : DataSpecificHeader) : ReassemblyKey where
  controlEpoch := common.controlEpoch
  sourceId := common.sourceId
  frameCounter := specific.frameCounter
  beamId := specific.beamId
  cpiCount := specific.cpiCount
  pulseIndex := specific.pulseIndex
  channelMask := specific.channelMask
  dataType := specific.dataTypeRaw

/-- The part that `process_packet` and `process_packet_zero_copy` share before they read the
clock. -/
def fragmentOf (cfg : ReassemblerConfig) (packet : ParsedPacket) : Option Fragment :=
  let bytes := packet.payload.getD []
  let payloadLen := packet.header.payloadLen.toNat
  match parseSpecificHeader cfg packet.payload payloadLen with
  | none => none
  | some specific =>
    if specific.totalFrags = 0 ∨ cfg.maxTotalFrags < specific.totalFrags then none
    else if specific.isTailFragment then
      if payloadLen ≠ specificSize + snapshotSize + specific.tailFragPayloadBytes.toNat then none
      else some
        { specific
          key := extractKey packet.header specific
          tailSnapshot := some (ExecutionSnapshot.decode (slice bytes specificSize snapshotSize))
          payload := slice bytes (specificSize + snapshotSize)
            (payloadLen - (specificSize + snapshotSize))
          payloadSize := payloadLen - (specificSize + snapshotSize) }
    else if payloadLen < specificSize then none
    else some
      { specific
        key := extractKey packet.header specific
        tailSnapshot := none
        payload := slice bytes specificSize (payloadLen - specificSize)
        payloadSize := payloadLen - specificSize }

/-! ## Contexts -/

def newContext (frag : Fragment) (receiveTimeMs : BitVec 64) : ReassemblyContext where
  key := frag.key
  totalFrags := frag.specific.totalFrags
  tailFragPayloadBytes := frag.specific.tailFragPayloadBytes
  firstFragTimeMs := receiveTimeMs
  dataTimestamp := frag.specific.dataTimestamp
  fragmentSizes := List.replicate frag.specific.totalFrags.toNat 0
  fragmentRefs := List.replicate frag.specific.totalFrags.toNat {}

/-- The tail's snapshot is taken before the fragment itself is checked. -/
def takeSnapshot (ctx : ReassemblyContext) (frag : Fragment) : ReassemblyContext :=
  match frag.tailSnapshot with
  | some snapshot => { ctx with executionSnapshot := snapshot, hasExecutionSnapshot := true }
  | none => ctx

/-- The outcomes of `add_fragment`. -/
inductive AddOutcome where
  | rejected
  | duplicate
  | bytesOverflow
  | added (ctx : ReassemblyContext)

/-- A fragment entered into its slot. -/
def enterFragment (ctx : ReassemblyContext) (frag : Fragment) (storage : FragmentStorage) :
    ReassemblyContext :=
  let i := frag.specific.fragIndex.toNat
  let ctx1 := { ctx with
    fragmentRefs := if 0 < frag.payloadSize then
        ctx.fragmentRefs.set i
          { storage := some storage, data := some frag.payload, dataSize := frag.payloadSize }
      else ctx.fragmentRefs
    fragmentSizes := ctx.fragmentSizes.set i frag.payloadSize
    receivedFragments := ctx.receivedFragments.set i
    receivedCount := ctx.receivedCount + 1
    receivedPayloadBytes := ctx.receivedPayloadBytes + frag.payloadSize
    totalPayloadSize := ctx.totalPayloadSize + frag.payloadSize }
  { ctx1 with isComplete := ctx1.checkComplete }

/-- `add_fragment` and `add_fragment_zero_copy`. -/
def addFragment (cfg : ReassemblerConfig) (ctx : ReassemblyContext) (frag : Fragment)
    (storage : FragmentStorage) : AddOutcome :=
  let i := frag.specific.fragIndex
  if ctx.totalFrags ≤ i ∨ 1024 ≤ i.toNat then .rejected
  else if ctx.receivedFragments.test i.toNat then .duplicate
  else if cfg.maxReasmBytesPerKey < ctx.receivedPayloadBytes + frag.payloadSize then .bytesOverflow
  else if frag.specific.isTailFragment ∧ frag.payloadSize ≠ ctx.tailFragPayloadBytes.toNat then
    .rejected
  else if ¬ frag.specific.isTailFragment ∧ frag.payloadSize = 0 then .rejected
  else .added (enterFragment ctx frag storage)

/-! ## Frozen keys -/

/-- The scan of `is_key_frozen`, which drops expired entries up to the match. -/
def isKeyFrozen (key : ReassemblyKey) (nowMs : BitVec 64) :
    List FrozenKeyEntry → List FrozenKeyEntry × Bool
  | [] => ([], false)
  | entry :: rest =>
    let r := isKeyFrozen key nowMs rest
    if entry.valid = false then (entry :: r.1, r.2)
    else if entry.expireMs ≤ nowMs then ({ entry with valid := false } :: r.1, r.2)
    else if entry.key = key then (entry :: rest, true)
    else (entry :: r.1, r.2)

/-- The first valid entry of `key`, renewed; `none` when there is no such entry. -/
def renewEntry (key : ReassemblyKey) (expireMs : BitVec 64) :
    List FrozenKeyEntry → Option (List FrozenKeyEntry)
  | [] => none
  | entry :: rest =>
    if entry.valid ∧ entry.key = key then some ({ entry with expireMs := expireMs } :: rest)
    else (renewEntry key expireMs rest).map (entry :: ·)

namespace Reassembler

def new (config : ReassemblerConfig) : Reassembler where
  config
  contexts := ∅
  frozenKeysRing := List.replicate (max 1 (config.maxContexts * 2)) {}
  frozenKeysNextInsert := 0
  stats := {}
  timeoutMsRuntime := config.timeoutMs
  reads := 0

def addFrozenKey (s : Reassembler) (key : ReassemblyKey) (expireMs : BitVec 64) : Reassembler :=
  match renewEntry key expireMs s.frozenKeysRing with
  | some ring => { s with frozenKeysRing := ring }
  | none =>
    { s with
      frozenKeysRing := s.frozenKeysRing.set s.frozenKeysNextInsert { key, expireMs, valid := true }
      frozenKeysNextInsert := (s.frozenKeysNextInsert + 1) % s.frozenKeysRing.length }

def destroyContext (s : Reassembler) (key : ReassemblyKey) : Reassembler :=
  if key ∈ s.contexts then
    { s with
      contexts := s.contexts.erase key
      stats := { s.stats with contextsDestroyed := s.stats.contextsDestroyed + 1 } }
  else s

/-! ## Completion -/

/-- The product is a `size_t` and wraps. -/
def inferMissingFragmentSize (cfg : ReassemblerConfig) (ctx : ReassemblyContext) (fragIndex : Nat)
    (channelCount : Nat) (dataType : BitVec 8) : Nat :=
  if fragIndex + 1 = ctx.totalFrags.toNat then ctx.tailFragPayloadBytes.toNat
  else
    match (List.range ctx.totalFrags.toNat).find? fun i =>
        i + 1 ≠ ctx.totalFrags.toNat && decide (0 < ctx.fragmentSizes.getD i 0) with
    | some i => ctx.fragmentSizes.getD i 0
    | none => cfg.sampleCountFixed * (if dataType = 0x02 then 8 else 4) * channelCount % 2 ^ 64

/-- Whether slot `i` holds a received fragment with data. -/
def received (ctx : ReassemblyContext) (i : Nat) : Bool :=
  ctx.receivedFragments.test i && decide (i < ctx.fragmentRefs.length) &&
    (ctx.fragmentRefs.getD i {}).hasData

/-- The bytes of slot `i` in the assembled frame: the fragment's, or zeros. -/
def assembledPiece (cfg : ReassemblerConfig) (ctx : ReassemblyContext) (key : ReassemblyKey)
    (i : Nat) : List Byte :=
  if received ctx i then
    ((ctx.fragmentRefs.getD i {}).data.getD []).take (ctx.fragmentRefs.getD i {}).dataSize
  else List.replicate
    (inferMissingFragmentSize cfg ctx i (popcount16 key.channelMask) key.dataType) 0

/-- The size that the first pass counts for slot `i`. -/
def assembledSize (cfg : ReassemblerConfig) (ctx : ReassemblyContext) (key : ReassemblyKey)
    (i : Nat) : Nat :=
  if received ctx i then (ctx.fragmentRefs.getD i {}).dataSize
  else inferMissingFragmentSize cfg ctx i (popcount16 key.channelMask) key.dataType

def assembleFrame (cfg : ReassemblerConfig) (key : ReassemblyKey) (ctx : ReassemblyContext) :
    ReassembledFrame :=
  let indices := List.range ctx.totalFrags.toNat
  let missing := indices.filter fun i => !received ctx i
  { key
    data := indices.flatMap (assembledPiece cfg ctx key)
    totalSize := (indices.map (assembledSize cfg ctx key)).sum
    dataTimestamp := ctx.dataTimestamp
    executionSnapshot := ctx.executionSnapshot
    hasExecutionSnapshot := ctx.hasExecutionSnapshot
    isComplete := missing.isEmpty
    missingFragmentsCount := BitVec.ofNat 16 missing.length
    missingFragIndices := missing }

/-- The counters of a completed frame. -/
def countFrame (s : Reassembler) (frame : ReassembledFrame) (isTimeout : Bool) : Reassembler :=
  { s with stats :=
      if frame.missingFragmentsCount = 0 ∧ isTimeout = false then
        { s.stats with framesCompleted := s.stats.framesCompleted + 1 }
      else
        { s.stats with
          framesIncomplete := s.stats.framesIncomplete + 1
          totalMissingFragments :=
            s.stats.totalMissingFragments + frame.missingFragmentsCount.toNat } }

/-- `complete_reassembly`; `none` when it throws. -/
def completeReassembly (clk : SystemClock) (s : Reassembler) (key : ReassemblyKey)
    (ctx : ReassemblyContext) (isTimeout : Bool) : Option (Reassembler × Emission) :=
  if 1024 < ctx.totalFrags.toNat then none
  else
    let frame := assembleFrame s.config key ctx
    let s1 := s.countFrame frame isTimeout
    if isTimeout then
      let now := clk s1.reads
      let s2 := { s1 with reads := s1.reads + 1 }
      some (((s2.addFrozenKey key (now + s1.timeoutMsRuntime.setWidth 64)).destroyContext key),
        ⟨frame, some now⟩)
    else some (s1.destroyContext key, ⟨frame, none⟩)

/-! ## Calls -/

def countReceived (s : Reassembler) : Reassembler :=
  { s with stats := { s.stats with totalFragmentsReceived := s.stats.totalFragmentsReceived + 1 } }

def countLate (s : Reassembler) : Reassembler :=
  { s with stats := { s.stats with lateFragments := s.stats.lateFragments + 1 } }

/-- `get_or_create_context`; `none` when there is no free slot. -/
def getOrCreateContext (s : Reassembler) (frag : Fragment) (nowMs : BitVec 64) :
    Reassembler × Option ReassemblyContext :=
  match s.contexts.lookup frag.key with
  | some ctx => (s, some ctx)
  | none =>
    if s.config.maxContexts ≤ s.contexts.entries.length then
      ({ s with stats := { s.stats with contextsOverflow := s.stats.contextsOverflow + 1 } }, none)
    else
      ({ s with
        contexts := s.contexts.insert frag.key (newContext frag nowMs)
        stats := { s.stats with contextsCreated := s.stats.contextsCreated + 1 } },
        some (newContext frag nowMs))

def putContext (s : Reassembler) (key : ReassemblyKey) (ctx : ReassemblyContext) : Reassembler :=
  { s with contexts := s.contexts.insert key ctx }

/-- A fragment added to its context, and the frame it completes. -/
def storeFragment (clk : SystemClock) (s : Reassembler) (frag : Fragment)
    (storage : FragmentStorage) (ctx : ReassemblyContext) : Reassembler × List Emission :=
  let s1 := s.putContext frag.key ctx
  match addFragment s.config ctx frag storage with
  | .rejected => (s1, [])
  | .duplicate =>
    ({ s1 with stats := { s1.stats with duplicateFragments := s1.stats.duplicateFragments + 1 } }, [])
  | .bytesOverflow =>
    ({ s1 with stats := { s1.stats with reasmBytesOverflow := s1.stats.reasmBytesOverflow + 1 } }, [])
  | .added ctx' =>
    let s2 := s1.putContext frag.key ctx'
    if ctx'.checkComplete then
      match s2.completeReassembly clk frag.key ctx' false with
      | some (s3, e) => (s3, [e])
      | none => (s2, [])
    else (s2, [])

/-- What follows the header checks, at the reading `nowMs` of the clock. -/
def acceptFragment (clk : SystemClock) (s : Reassembler) (frag : Fragment)
    (storage : FragmentStorage) (nowMs : BitVec 64) : Reassembler × List Emission :=
  let s1 := { s with frozenKeysRing := (isKeyFrozen frag.key nowMs s.frozenKeysRing).1 }
  if (isKeyFrozen frag.key nowMs s.frozenKeysRing).2 then (s1.countLate, [])
  else
    match s1.getOrCreateContext frag nowMs with
    | (s2, none) => (s2, [])
    | (s2, some ctx) => s2.storeFragment clk frag storage (takeSnapshot ctx frag)

/-- `process_packet` (`heap`) and `process_packet_zero_copy` (`pool`). -/
def processWith (storage : FragmentStorage) (clk : SystemClock) (s : Reassembler)
    (packet : ParsedPacket) : Reassembler × List Emission :=
  match fragmentOf s.config packet with
  | none => (s.countReceived, [])
  | some frag =>
    ({ s.countReceived with reads := s.reads + 1 }).acceptFragment clk frag storage (clk s.reads)

def processPacket : SystemClock → Reassembler → ParsedPacket → Reassembler × List Emission :=
  processWith .heap

def processPacketZeroCopy : SystemClock → Reassembler → ParsedPacket →
    Reassembler × List Emission :=
  processWith .pool

/-- The completions of `check_timeouts` and `flush_all`. -/
def completeAll (clk : SystemClock) : List ReassemblyKey → Reassembler → Reassembler × List Emission
  | [], s => (s, [])
  | key :: keys, s =>
    match s.contexts.lookup key with
    | none => completeAll clk keys s
    | some ctx =>
      match s.completeReassembly clk key ctx true with
      | none => (s, [])
      | some (s', e) =>
        let r := completeAll clk keys s'
        (r.1, e :: r.2)

/-- The keys of the contexts that time out at `nowMs`. -/
def timedOut (s : Reassembler) (nowMs : BitVec 64) : List ReassemblyKey :=
  s.contexts.keys.filter fun key =>
    (s.contexts.lookup key).any (·.checkTimeout nowMs s.timeoutMsRuntime)

def checkTimeouts (clk : SystemClock) (order : IterOrder) (s : Reassembler) :
    Reassembler × List Emission :=
  completeAll clk (order.toFun (s.timedOut (clk s.reads))) { s with reads := s.reads + 1 }

def flushAll (clk : SystemClock) (order : IterOrder) (s : Reassembler) :
    Reassembler × List Emission :=
  completeAll clk (order.toFun s.contexts.keys) s

def resetStatistics (s : Reassembler) : Reassembler :=
  { s with
    stats := {}
    frozenKeysRing := s.frozenKeysRing.map fun entry => { entry with valid := false, expireMs := 0 }
    frozenKeysNextInsert := 0 }

def setTimeoutMs (s : Reassembler) (timeoutMs : BitVec 32) : Reassembler :=
  { s with timeoutMsRuntime := timeoutMs }

end Reassembler

/-- The calls on a reassembler. -/
inductive ReassemblerOp where
  | processPacket (packet : ParsedPacket)
  | processPacketZeroCopy (packet : ParsedPacket)
  | checkTimeouts (order : IterOrder)
  | flushAll (order : IterOrder)
  | setTimeoutMs (timeoutMs : BitVec 32)
  | resetStatistics

def Reassembler.step (clk : SystemClock) (s : Reassembler) :
    ReassemblerOp → Reassembler × List Emission
  | .processPacket packet => s.processPacket clk packet
  | .processPacketZeroCopy packet => s.processPacketZeroCopy clk packet
  | .checkTimeouts order => s.checkTimeouts clk order
  | .flushAll order => s.flushAll clk order
  | .setTimeoutMs timeoutMs => (s.setTimeoutMs timeoutMs, [])
  | .resetStatistics => (s.resetStatistics, [])

def Reassembler.run (clk : SystemClock) (s : Reassembler) (ops : List ReassemblerOp) :
    Reassembler × List Emission :=
  Machine.run (Reassembler.step clk) s ops

end Qdgz300.Pipeline
