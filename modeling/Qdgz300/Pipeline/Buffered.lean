import Qdgz300.Lib.KeyMap
import Qdgz300.Pipeline.Reassembler

/-!
# The two entry points over packet buffers (`src/m01_receiver/pipeline/reassembler.cpp`)

The reassembler with the memory its fragments are in. `process_packet` copies a fragment when it
arrives; `process_packet_zero_copy` takes over the packet's buffer and keeps a pointer into it, and
`complete_reassembly` reads the bytes through the pointers. The two paths are written out one by
one, as the source has them. `load` reads a state through its pointers.

Between two calls other packets may be received into any buffer (`writeBuffer`).
-/

namespace Qdgz300.Pipeline.Buffered

open Protocol Bytes

/-! ## Memory -/

/-- The bytes of the packet buffers. -/
abbrev Memory := Nat → List Byte

/-- A pointer into a packet buffer. -/
structure BufferPtr where
  buffer : Nat
  offset : Nat
  deriving DecidableEq, Repr

def BufferPtr.add (p : BufferPtr) (n : Nat) : BufferPtr := { p with offset := p.offset + n }

/-- The `n` bytes at a pointer. -/
def BufferPtr.read (mem : Memory) (p : BufferPtr) (n : Nat) : List Byte :=
  slice (mem p.buffer) p.offset n

/-- A parsed packet, with the payload where it was received. -/
structure ParsedPacket where
  header : CommonHeader
  payload : Option BufferPtr
  totalSize : Nat
  deriving DecidableEq, Repr

/-- The packet with the bytes that its payload points to. -/
def ParsedPacket.load (mem : Memory) (p : ParsedPacket) : Protocol.ParsedPacket where
  header := p.header
  payload := p.payload.map fun ptr => (mem ptr.buffer).drop ptr.offset
  totalSize := p.totalSize

/-- Where the bytes of a fragment are: in a packet buffer, or in the fragment's own copy. -/
inductive FragmentData where
  | pool (ptr : BufferPtr)
  | heap
  deriving DecidableEq, Repr

structure FragmentRef where
  poolBuffer : Option Nat := none
  heapBuffer : List Byte := []
  data : Option FragmentData := none
  dataSize : Nat := 0
  deriving DecidableEq, Repr

/-- `FragmentRef(PacketBuffer &&, payload, size)`. -/
def FragmentRef.ofBuffer (buffer : Nat) (payload : BufferPtr) (size : Nat) : FragmentRef where
  poolBuffer := some buffer
  data := some (.pool payload)
  dataSize := size

/-- `FragmentRef(src, size)`, which copies. -/
def FragmentRef.ofBytes (mem : Memory) (src : BufferPtr) (size : Nat) : FragmentRef where
  heapBuffer := src.read mem size
  data := some .heap
  dataSize := size

/-- The bytes of a fragment. -/
def FragmentRef.bytes (mem : Memory) (r : FragmentRef) : Option (List Byte) :=
  match r.data with
  | none => none
  | some (.pool ptr) => some (ptr.read mem r.dataSize)
  | some .heap => some r.heapBuffer

def FragmentRef.load (mem : Memory) (r : FragmentRef) : Pipeline.FragmentRef where
  storage := r.data.map fun _ => .heap
  data := r.bytes mem
  dataSize := r.dataSize

structure ReassemblyContext where
  key : ReassemblyKey
  totalFrags : BitVec 16
  tailFragPayloadBytes : BitVec 16
  firstFragTimeMs : BitVec 64
  dataTimestamp : BitVec 64
  executionSnapshot : ExecutionSnapshot := {}
  hasExecutionSnapshot : Bool := false
  receivedFragments : Bitmap := Bitmap.zeros 1024
  fragmentSizes : List Nat
  fragmentRefs : List FragmentRef
  totalPayloadSize : Nat := 0
  receivedCount : BitVec 16 := 0
  receivedPayloadBytes : Nat := 0
  isComplete : Bool := false
  deriving DecidableEq

def ReassemblyContext.checkComplete (ctx : ReassemblyContext) : Bool :=
  ctx.receivedCount == ctx.totalFrags

def ReassemblyContext.load (mem : Memory) (ctx : ReassemblyContext) :
    Pipeline.ReassemblyContext where
  key := ctx.key
  totalFrags := ctx.totalFrags
  tailFragPayloadBytes := ctx.tailFragPayloadBytes
  firstFragTimeMs := ctx.firstFragTimeMs
  dataTimestamp := ctx.dataTimestamp
  executionSnapshot := ctx.executionSnapshot
  hasExecutionSnapshot := ctx.hasExecutionSnapshot
  receivedFragments := ctx.receivedFragments
  fragmentSizes := ctx.fragmentSizes
  fragmentRefs := ctx.fragmentRefs.map (FragmentRef.load mem)
  totalPayloadSize := ctx.totalPayloadSize
  receivedCount := ctx.receivedCount
  receivedPayloadBytes := ctx.receivedPayloadBytes
  isComplete := ctx.isComplete

abbrev ContextMap := AList fun _ : ReassemblyKey => ReassemblyContext

structure Reassembler where
  config : ReassemblerConfig
  contexts : ContextMap
  frozenKeysRing : List FrozenKeyEntry
  frozenKeysNextInsert : Nat
  stats : ReassemblerStatistics
  timeoutMsRuntime : BitVec 32
  reads : Nat

/-- The state with the bytes of its fragments. -/
def Reassembler.load (mem : Memory) (s : Reassembler) : Pipeline.Reassembler where
  config := s.config
  contexts := KeyMap.map (ReassemblyContext.load mem) s.contexts
  frozenKeysRing := s.frozenKeysRing
  frozenKeysNextInsert := s.frozenKeysNextInsert
  stats := s.stats
  timeoutMsRuntime := s.timeoutMsRuntime
  reads := s.reads

/-- The buffer is held by a fragment of a live context. -/
def Reassembler.Holds (s : Reassembler) (buffer : Nat) : Prop :=
  ∃ key ctx, s.contexts.lookup key = some ctx ∧ ∃ r ∈ ctx.fragmentRefs, r.poolBuffer = some buffer

instance (s : Reassembler) (buffer : Nat) : Decidable (s.Holds buffer) :=
  decidable_of_iff
    (∃ e ∈ s.contexts.entries, ∃ r ∈ e.2.fragmentRefs, r.poolBuffer = some buffer)
    ⟨fun ⟨e, he, h⟩ => ⟨e.1, e.2, AList.mem_lookup_iff.2 he, h⟩,
      fun ⟨key, ctx, hl, h⟩ => ⟨⟨key, ctx⟩, AList.mem_lookup_iff.1 hl, h⟩⟩

/-! ## Contexts and completion -/

def newContext (key : ReassemblyKey) (specific : DataSpecificHeader) (receiveTimeMs : BitVec 64) :
    ReassemblyContext where
  key
  totalFrags := specific.totalFrags
  tailFragPayloadBytes := specific.tailFragPayloadBytes
  firstFragTimeMs := receiveTimeMs
  dataTimestamp := specific.dataTimestamp
  fragmentSizes := List.replicate specific.totalFrags.toNat 0
  fragmentRefs := List.replicate specific.totalFrags.toNat {}

namespace Reassembler

def new (config : ReassemblerConfig) : Reassembler where
  config
  contexts := ∅
  frozenKeysRing := List.replicate (max 1 (config.maxContexts * 2)) {}
  frozenKeysNextInsert := 0
  stats := {}
  timeoutMsRuntime := config.timeoutMs
  reads := 0

def addFrozenKey (s : Reassembler) (key : ReassemblyKey) (expireMs : BitVec 64) : Reassembler :=
  match renewEntry key expireMs s.frozenKeysRing with
  | some ring => { s with frozenKeysRing := ring }
  | none =>
    { s with
      frozenKeysRing := s.frozenKeysRing.set s.frozenKeysNextInsert { key, expireMs, valid := true }
      frozenKeysNextInsert := (s.frozenKeysNextInsert + 1) % s.frozenKeysRing.length }

def destroyContext (s : Reassembler) (key : ReassemblyKey) : Reassembler :=
  if key ∈ s.contexts then
    { s with
      contexts := s.contexts.erase key
      stats := { s.stats with contextsDestroyed := s.stats.contextsDestroyed + 1 } }
  else s

def countFrame (s : Reassembler) (frame : ReassembledFrame) (isTimeout : Bool) : Reassembler :=
  { s with stats :=
      if frame.missingFragmentsCount = 0 ∧ isTimeout = false then
        { s.stats with framesCompleted := s.stats.framesCompleted + 1 }
      else
        { s.stats with
          framesIncomplete := s.stats.framesIncomplete + 1
          totalMissingFragments :=
            s.stats.totalMissingFragments + frame.missingFragmentsCount.toNat } }

/-- `complete_reassembly`, which reads the fragments where they are. -/
def completeReassembly (clk : SystemClock) (mem : Memory) (s : Reassembler) (key : ReassemblyKey)
    (ctx : ReassemblyContext) (isTimeout : Bool) : Option (Reassembler × Emission) :=
  if 1024 < ctx.totalFrags.toNat then none
  else
    let frame := Pipeline.Reassembler.assembleFrame s.config key (ctx.load mem)
    let s1 := s.countFrame frame isTimeout
    if isTimeout then
      let now := clk s1.reads
      let s2 := { s1 with reads := s1.reads + 1 }
      some (((s2.addFrozenKey key (now + s1.timeoutMsRuntime.setWidth 64)).destroyContext key),
        ⟨frame, some now⟩)
    else some (s1.destroyContext key, ⟨frame, none⟩)

def countReceived (s : Reassembler) : Reassembler :=
  { s with stats := { s.stats with totalFragmentsReceived := s.stats.totalFragmentsReceived + 1 } }

def countLate (s : Reassembler) : Reassembler :=
  { s with stats := { s.stats with lateFragments := s.stats.lateFragments + 1 } }

def getOrCreateContext (s : Reassembler) (key : ReassemblyKey) (specific : DataSpecificHeader)
    (nowMs : BitVec 64) : Reassembler × Option ReassemblyContext :=
  match s.contexts.lookup key with
  | some ctx => (s, some ctx)
  | none =>
    if s.config.maxContexts ≤ s.contexts.entries.length then
      ({ s with stats := { s.stats with contextsOverflow := s.stats.contextsOverflow + 1 } }, none)
    else
      ({ s with
        contexts := s.contexts.insert key (newContext key specific nowMs)
        stats := { s.stats with contextsCreated := s.stats.contextsCreated + 1 } },
        some (newContext key specific nowMs))

def putContext (s : Reassembler) (key : ReassemblyKey) (ctx : ReassemblyContext) : Reassembler :=
  { s with contexts := s.contexts.insert key ctx }

def countDuplicate (s : Reassembler) : Reassembler :=
  { s with stats := { s.stats with duplicateFragments := s.stats.duplicateFragments + 1 } }

def countBytesOverflow (s : Reassembler) : Reassembler :=
  { s with stats := { s.stats with reasmBytesOverflow := s.stats.reasmBytesOverflow + 1 } }

end Reassembler

/-- The outcomes of `add_fragment` and `add_fragment_zero_copy`. -/
inductive AddOutcome where
  | rejected
  | duplicate
  | bytesOverflow
  | added (ctx : ReassemblyContext)

/-! ## The copying path -/

def addFragment (cfg : ReassemblerConfig) (mem : Memory) (ctx : ReassemblyContext)
    (header : DataSpecificHeader) (fragmentPayload : BufferPtr) (size : Nat) : AddOutcome :=
  let i := header.fragIndex
  if ctx.totalFrags ≤ i ∨ 1024 ≤ i.toNat then .rejected
  else if ctx.receivedFragments.test i.toNat then .duplicate
  else if cfg.maxReasmBytesPerKey < ctx.receivedPayloadBytes + size then .bytesOverflow
  else if header.isTailFragment ∧ size ≠ ctx.tailFragPayloadBytes.toNat then .rejected
  else if ¬ header.isTailFragment ∧ size = 0 then .rejected
  else
    let ctx1 := { ctx with
      fragmentRefs := if 0 < size then
          ctx.fragmentRefs.set i.toNat (.ofBytes mem fragmentPayload size)
        else ctx.fragmentRefs
      fragmentSizes := ctx.fragmentSizes.set i.toNat size
      receivedFragments := ctx.receivedFragments.set i.toNat
      receivedCount := ctx.receivedCount + 1
      receivedPayloadBytes := ctx.receivedPayloadBytes + size
      totalPayloadSize := ctx.totalPayloadSize + size }
    .added { ctx1 with isComplete := ctx1.checkComplete }

/-- `process_packet` after the header checks. -/
def Reassembler.acceptPacket (clk : SystemClock) (mem : Memory) (s : Reassembler)
    (key : ReassemblyKey) (specific : DataSpecificHeader) (tailSnapshot : Option ExecutionSnapshot)
    (fragmentPayload : BufferPtr) (size : Nat) : Reassembler × List Emission :=
  let nowMs := clk s.reads
  let scan := isKeyFrozen key nowMs s.frozenKeysRing
  let s := { s with reads := s.reads + 1, frozenKeysRing := scan.1 }
  if scan.2 then (s.countLate, [])
  else
    match s.getOrCreateContext key specific nowMs with
    | (s, none) => (s, [])
    | (s, some ctx) =>
      let ctx := match tailSnapshot with
        | some snapshot => { ctx with executionSnapshot := snapshot, hasExecutionSnapshot := true }
        | none => ctx
      let s := s.putContext key ctx
      match addFragment s.config mem ctx specific fragmentPayload size with
      | .rejected => (s, [])
      | .duplicate => (s.countDuplicate, [])
      | .bytesOverflow => (s.countBytesOverflow, [])
      | .added ctx =>
        let s := s.putContext key ctx
        if ctx.checkComplete then
          match s.completeReassembly clk mem key ctx false with
          | some (s, e) => (s, [e])
          | none => (s, [])
        else (s, [])

def Reassembler.processPacket (clk : SystemClock) (mem : Memory) (s : Reassembler)
    (packet : ParsedPacket) : Reassembler × List Emission :=
  let s := s.countReceived
  let payloadLen := packet.header.payloadLen.toNat
  match packet.payload, parseSpecificHeader s.config (packet.load mem).payload payloadLen with
  | some payload, some specific =>
    if specific.totalFrags = 0 ∨ s.config.maxTotalFrags < specific.totalFrags then (s, [])
    else if specific.isTailFragment then
      if payloadLen ≠ specificSize + snapshotSize + specific.tailFragPayloadBytes.toNat then (s, [])
      else s.acceptPacket clk mem (extractKey packet.header specific) specific
        (some (ExecutionSnapshot.decode ((payload.add specificSize).read mem snapshotSize)))
        (payload.add (specificSize + snapshotSize)) (payloadLen - (specificSize + snapshotSize))
    else if payloadLen < specificSize then (s, [])
    else s.acceptPacket clk mem (extractKey packet.header specific) specific none
      (payload.add specificSize) (payloadLen - specificSize)
  | _, _ => (s, [])

/-! ## The zero-copy path -/

def addFragmentZeroCopy (cfg : ReassemblerConfig) (ctx : ReassemblyContext)
    (header : DataSpecificHeader) (buffer : Nat) (fragmentPayload : BufferPtr) (size : Nat) :
    AddOutcome :=
  let i := header.fragIndex
  if ctx.totalFrags ≤ i ∨ 1024 ≤ i.toNat then .rejected
  else if ctx.receivedFragments.test i.toNat then .duplicate
  else if cfg.maxReasmBytesPerKey < ctx.receivedPayloadBytes + size then .bytesOverflow
  else if header.isTailFragment ∧ size ≠ ctx.tailFragPayloadBytes.toNat then .rejected
  else if ¬ header.isTailFragment ∧ size = 0 then .rejected
  else
    let ctx1 := { ctx with
      fragmentRefs := if 0 < size then
          ctx.fragmentRefs.set i.toNat (.ofBuffer buffer fragmentPayload size)
        else ctx.fragmentRefs
      fragmentSizes := ctx.fragmentSizes.set i.toNat size
      receivedFragments := ctx.receivedFragments.set i.toNat
      receivedCount := ctx.receivedCount + 1
      receivedPayloadBytes := ctx.receivedPayloadBytes + size
      totalPayloadSize := ctx.totalPayloadSize + size }
    .added { ctx1 with isComplete := ctx1.checkComplete }

/-- `process_packet_zero_copy` after the header checks. -/
def Reassembler.acceptPacketZeroCopy (clk : SystemClock) (mem : Memory) (s : Reassembler)
    (key : ReassemblyKey) (specific : DataSpecificHeader) (tailSnapshot : Option ExecutionSnapshot)
    (buffer : Nat) (fragmentPayload : BufferPtr) (size : Nat) : Reassembler × List Emission :=
  let nowMs := clk s.reads
  let scan := isKeyFrozen key nowMs s.frozenKeysRing
  let s := { s with reads := s.reads + 1, frozenKeysRing := scan.1 }
  if scan.2 then (s.countLate, [])
  else
    match s.getOrCreateContext key specific nowMs with
    | (s, none) => (s, [])
    | (s, some ctx) =>
      let ctx := match tailSnapshot with
        | some snapshot => { ctx with executionSnapshot := snapshot, hasExecutionSnapshot := true }
        | none => ctx
      let s := s.putContext key ctx
      match addFragmentZeroCopy s.config ctx specific buffer fragmentPayload size with
      | .rejected => (s, [])
      | .duplicate => (s.countDuplicate, [])
      | .bytesOverflow => (s.countBytesOverflow, [])
      | .added ctx =>
        let s := s.putContext key ctx
        if ctx.checkComplete then
          match s.completeReassembly clk mem key ctx false with
          | some (s, e) => (s, [e])
          | none => (s, [])
        else (s, [])

def Reassembler.processPacketZeroCopy (clk : SystemClock) (mem : Memory) (s : Reassembler)
    (packet : ParsedPacket) (buffer : Nat) : Reassembler × List Emission :=
  let s := s.countReceived
  let payloadLen := packet.header.payloadLen.toNat
  match packet.payload, parseSpecificHeader s.config (packet.load mem).payload payloadLen with
  | some payload, some specific =>
    if specific.totalFrags = 0 ∨ s.config.maxTotalFrags < specific.totalFrags then (s, [])
    else if specific.isTailFragment then
      if payloadLen ≠ specificSize + snapshotSize + specific.tailFragPayloadBytes.toNat then (s, [])
      else s.acceptPacketZeroCopy clk mem (extractKey packet.header specific) specific
        (some (ExecutionSnapshot.decode ((payload.add specificSize).read mem snapshotSize)))
        buffer (payload.add (specificSize + snapshotSize)) (payloadLen - (specificSize + snapshotSize))
    else if payloadLen < specificSize then (s, [])
    else s.acceptPacketZeroCopy clk mem (extractKey packet.header specific) specific none buffer
      (payload.add specificSize) (payloadLen - specificSize)
  | _, _ => (s, [])

/-! ## The other calls -/

namespace Reassembler

def completeAll (clk : SystemClock) (mem : Memory) :
    List ReassemblyKey → Reassembler → Reassembler × List Emission
  | [], s => (s, [])
  | key :: keys, s =>
    match s.contexts.lookup key with
    | none => completeAll clk mem keys s
    | some ctx =>
      match s.completeReassembly clk mem key ctx true with
      | none => (s, [])
      | some (s', e) =>
        let r := completeAll clk mem keys s'
        (r.1, e :: r.2)

/-- The subtraction is unsigned and wraps. -/
def timedOut (s : Reassembler) (nowMs : BitVec 64) : List ReassemblyKey :=
  s.contexts.keys.filter fun key => (s.contexts.lookup key).any fun ctx =>
    decide (s.timeoutMsRuntime.toNat ≤ (nowMs - ctx.firstFragTimeMs).toNat)

def checkTimeouts (clk : SystemClock) (mem : Memory) (order : IterOrder) (s : Reassembler) :
    Reassembler × List Emission :=
  completeAll clk mem (order.toFun (s.timedOut (clk s.reads))) { s with reads := s.reads + 1 }

def flushAll (clk : SystemClock) (mem : Memory) (order : IterOrder) (s : Reassembler) :
    Reassembler × List Emission :=
  completeAll clk mem (order.toFun s.contexts.keys) s

def setTimeoutMs (s : Reassembler) (timeoutMs : BitVec 32) : Reassembler :=
  { s with timeoutMsRuntime := timeoutMs }

end Reassembler

/-- The calls on the reassembler, and what else happens to the buffers. -/
inductive Op where
  | processPacket (packet : ParsedPacket)
  | processPacketZeroCopy (packet : ParsedPacket) (buffer : Nat)
  | checkTimeouts (order : IterOrder)
  | flushAll (order : IterOrder)
  | setTimeoutMs (timeoutMs : BitVec 32)
  | writeBuffer (buffer : Nat) (bytes : List Byte)

structure System where
  reassembler : Reassembler
  memory : Memory

def System.load (σ : System) : Pipeline.Reassembler := σ.reassembler.load σ.memory

/-- A call of the reassembler, which leaves the buffers as they are. -/
def System.put (σ : System) (r : Reassembler × List Emission) : System × List Emission :=
  ({ σ with reassembler := r.1 }, r.2)

def step (clk : SystemClock) (σ : System) : Op → System × List Emission
  | .processPacket packet => σ.put (σ.reassembler.processPacket clk σ.memory packet)
  | .processPacketZeroCopy packet buffer =>
    σ.put (σ.reassembler.processPacketZeroCopy clk σ.memory packet buffer)
  | .checkTimeouts order => σ.put (σ.reassembler.checkTimeouts clk σ.memory order)
  | .flushAll order => σ.put (σ.reassembler.flushAll clk σ.memory order)
  | .setTimeoutMs timeoutMs => σ.put (σ.reassembler.setTimeoutMs timeoutMs, [])
  | .writeBuffer buffer bytes => ({ σ with memory := Function.update σ.memory buffer bytes }, [])

def run (clk : SystemClock) (σ : System) (ops : List Op) : System × List Emission :=
  Machine.run (step clk) σ ops

end Qdgz300.Pipeline.Buffered
