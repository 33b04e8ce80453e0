import Qdgz300.Lib.Logged
import Qdgz300.Pipeline.Reassembler

/-!
# The accesses of the reassembler (`src/m01_receiver/pipeline/reassembler.cpp`)

The calls of the reassembler as computations that log each access to the containers of a context, to
the packet and to the buffer of a frame, where the source makes it. What they return is what the
calls of `Pipeline.Reassembler` return.

* `assembled_size` and `write_pos` are `size_t` and wrap.
* `make_unique` throws where the allocator refuses (`Allocator`); the completion and the call end
  there. The other allocations, of a fragment or of a context, are granted.
* A fragment of the zero-copy path stays in the buffer of its packet. `pointers` keeps where each
  slot's fragment starts in the payload that it came in.
-/

namespace Qdgz300.Pipeline.Accesses

open Protocol Logged

/-- A number as a `size_t`. -/
def sizeT (n : Nat) : Nat := n % 2 ^ 64

/-- Whether a request for so many bytes is granted. -/
abbrev Allocator := Nat → Bool

inductive Container where
  | receivedFragments
  | fragmentSizes
  | fragmentRefs
  deriving DecidableEq, Repr

/-- A pointer to `offset` in the payload of a packet whose header announces `payloadLen` bytes and
whose buffer holds `held` of them. -/
structure PayloadPtr where
  offset : Nat := 0
  payloadLen : Nat := 0
  held : Nat := 0
  deriving DecidableEq, Repr

inductive Access where
  /-- An element of a container with `size` elements, in a context of `totalFrags` fragments. -/
  | element (container : Container) (index totalFrags size : Nat)
  | readPayload (ptr : PayloadPtr) (n : Nat)
  /-- A read of `n` bytes from a fragment's own copy of `size` bytes. -/
  | readCopy (n size : Nat)
  /-- A write of `n` bytes at `pos` into the buffer of a frame, of `size` bytes. -/
  | writeFrame (pos n size : Nat)
  /-- The end of the second pass, which has written `written` bytes into a buffer of `size`
  bytes. -/
  | frameWritten (written size : Nat)
  deriving DecidableEq, Repr

/-- The access is in range. -/
def Access.InRange : Access → Prop
  | .element _ index totalFrags size => index < totalFrags ∧ totalFrags ≤ 1024 ∧ index < size
  | .readPayload ptr n => ptr.offset + n ≤ ptr.payloadLen ∧ ptr.offset + n ≤ ptr.held
  | .readCopy n size => n ≤ size
  | .writeFrame pos n size => pos + n ≤ size
  | .frameWritten written size => written = size

instance : DecidablePred Access.InRange
  | .element _ index totalFrags size =>
    inferInstanceAs (Decidable (index < totalFrags ∧ totalFrags ≤ 1024 ∧ index < size))
  | .readPayload ptr n =>
    inferInstanceAs (Decidable (ptr.offset + n ≤ ptr.payloadLen ∧ ptr.offset + n ≤ ptr.held))
  | .readCopy n size => inferInstanceAs (Decidable (n ≤ size))
  | .writeFrame pos n size => inferInstanceAs (Decidable (pos + n ≤ size))
  | .frameWritten written size => inferInstanceAs (Decidable (written = size))

/-- The access is to the buffer of a frame. -/
def Access.onFrame : Access → Bool
  | .writeFrame _ _ _ => true
  | .frameWritten _ _ => true
  | _ => false

/-- The number of elements of a container. -/
def Container.size (ctx : ReassemblyContext) : Container → Nat
  | .receivedFragments => 1024
  | .fragmentSizes => ctx.fragmentSizes.length
  | .fragmentRefs => ctx.fragmentRefs.length

/-- An access to element `i`. -/
def element (ctx : ReassemblyContext) (container : Container) (i : Nat) : Logged Access PUnit :=
  emit (.element container i ctx.totalFrags.toNat (container.size ctx))

/-! ## Header checks -/

def payloadPtr (packet : ParsedPacket) (offset : Nat) : PayloadPtr where
  offset
  payloadLen := packet.header.payloadLen.toNat
  held := (packet.payload.getD []).length

/-- `fragment_payload`. -/
def fragmentPtr (packet : ParsedPacket) (frag : Fragment) : PayloadPtr :=
  payloadPtr packet
    (if frag.specific.isTailFragment then specificSize + snapshotSize else specificSize)

/-- The header, and a tail's snapshot, are read from the packet. -/
def fragmentOf (cfg : ReassemblerConfig) (packet : ParsedPacket) :
    Logged Access (Option Fragment) :=
  let payloadLen := packet.header.payloadLen.toNat
  if packet.payload = none ∨ payloadLen < specificSize then pure none
  else do
    emit (.readPayload (payloadPtr packet 0) specificSize)
    match parseSpecificHeader cfg packet.payload payloadLen with
    | none => return none
    | some specific =>
      if specific.totalFrags = 0 ∨ cfg.maxTotalFrags < specific.totalFrags then return none
      else if specific.isTailFragment then
        if payloadLen ≠ specificSize + snapshotSize + specific.tailFragPayloadBytes.toNat then
          return none
        else
          emit (.readPayload (payloadPtr packet specificSize) snapshotSize)
          return Pipeline.fragmentOf cfg packet
      else return Pipeline.fragmentOf cfg packet

/-! ## Adding a fragment -/

/-- `add_fragment` and `add_fragment_zero_copy`; only the first one reads the payload. -/
def addFragment (cfg : ReassemblerConfig) (ctx : ReassemblyContext) (frag : Fragment)
    (storage : FragmentStorage) (ptr : PayloadPtr) : Logged Access AddOutcome :=
  let i := frag.specific.fragIndex
  if ctx.totalFrags ≤ i ∨ 1024 ≤ i.toNat then pure .rejected
  else do
    element ctx .receivedFragments i.toNat
    match Pipeline.addFragment cfg ctx frag storage with
    | .added ctx' =>
      if 0 < frag.payloadSize then
        if storage = .heap then emit (.readPayload ptr frag.payloadSize)
        element ctx .fragmentRefs i.toNat
      element ctx .fragmentSizes i.toNat
      element ctx .receivedFragments i.toNat
      return .added ctx'
    | outcome => return outcome

/-! ## Completion -/

/-- The loop of `infer_missing_fragment_size` over the indices. -/
def firstSize (ctx : ReassemblyContext) : List Nat → Logged Access (Option Nat)
  | [] => pure none
  | i :: is =>
    if i + 1 = ctx.totalFrags.toNat then firstSize ctx is
    else if i < ctx.fragmentSizes.length then do
      element ctx .fragmentSizes i
      if 0 < ctx.fragmentSizes.getD i 0 then
        element ctx .fragmentSizes i
        return some (ctx.fragmentSizes.getD i 0)
      else firstSize ctx is
    else firstSize ctx is

def inferMissingFragmentSize (cfg : ReassemblerConfig) (ctx : ReassemblyContext) (fragIndex : Nat)
    (channelCount : Nat) (dataType : BitVec 8) : Logged Access Nat :=
  if fragIndex + 1 = ctx.totalFrags.toNat then pure ctx.tailFragPayloadBytes.toNat
  else do
    match ← firstSize ctx (List.range ctx.totalFrags.toNat) with
    | some size => return size
    | none => return sizeT (cfg.sampleCountFixed * (if dataType = 0x02 then 8 else 4) * channelCount)

/-- The condition of both passes on slot `i`. -/
def received (ctx : ReassemblyContext) (i : Nat) : Logged Access Bool := do
  element ctx .receivedFragments i
  if ctx.receivedFragments.test i ∧ i < ctx.fragmentRefs.length then
    element ctx .fragmentRefs i
    return (ctx.fragmentRefs.getD i {}).hasData
  else return false

/-- The first pass over the slots, which computes `assembled_size`. -/
def firstPass (cfg : ReassemblerConfig) (key : ReassemblyKey) (ctx : ReassemblyContext) :
    List Nat → Nat → Logged Access Nat
  | [], assembledSize => pure assembledSize
  | i :: is, assembledSize => do
    if ← received ctx i then
      element ctx .fragmentRefs i
      firstPass cfg key ctx is (sizeT (assembledSize + (ctx.fragmentRefs.getD i {}).dataSize))
    else
      let missingSize ← inferMissingFragmentSize cfg ctx i (popcount16 key.channelMask) key.dataType
      firstPass cfg key ctx is (sizeT (assembledSize + missingSize))

/-- The bytes of a fragment are read where they are. -/
def readFragment (ref : FragmentRef) (ptr : PayloadPtr) : Logged Access PUnit :=
  match ref.storage with
  | some .pool => emit (.readPayload ptr ref.dataSize)
  | _ => emit (.readCopy ref.dataSize (ref.data.getD []).length)

/-- The second pass, which fills the buffer; the number of bytes written. -/
def secondPass (cfg : ReassemblerConfig) (key : ReassemblyKey) (ctx : ReassemblyContext)
    (ptr : Nat → PayloadPtr) (assembledSize : Nat) : List Nat → Nat → Nat → Logged Access Nat
  | [], _, written => pure written
  | i :: is, writePos, written => do
    if ← received ctx i then
      let ref := ctx.fragmentRefs.getD i {}
      element ctx .fragmentRefs i
      readFragment ref (ptr i)
      emit (.writeFrame writePos ref.dataSize assembledSize)
      secondPass cfg key ctx ptr assembledSize is (sizeT (writePos + ref.dataSize))
        (written + ref.dataSize)
    else
      let missingSize ← inferMissingFragmentSize cfg ctx i (popcount16 key.channelMask) key.dataType
      emit (.writeFrame writePos missingSize assembledSize)
      secondPass cfg key ctx ptr assembledSize is (sizeT (writePos + missingSize))
        (written + missingSize)

/-- The reassembler, and where the fragments of its slots start. -/
structure System where
  reassembler : Reassembler
  pointers : ReassemblyKey → Nat → PayloadPtr

def System.new (config : ReassemblerConfig) : System where
  reassembler := Reassembler.new config
  pointers := fun _ _ => {}

def completeReassembly (fits : Allocator) (clk : SystemClock) (σ : System) (key : ReassemblyKey)
    (ctx : ReassemblyContext) (isTimeout : Bool) : Logged Access (Option (System × Emission)) := do
  let indices := List.range ctx.totalFrags.toNat
  let cfg := σ.reassembler.config
  let assembledSize ← firstPass cfg key ctx indices 0
  if fits assembledSize then
    let written ← secondPass cfg key ctx (σ.pointers key) assembledSize indices 0 0
    emit (.frameWritten written assembledSize)
    return (σ.reassembler.completeReassembly clk key ctx isTimeout).map fun r =>
      ({ σ with reassembler := r.1 }, r.2)
  else return none

/-! ## Calls -/

/-- A fragment added to its context, and the frame it completes. -/
def storeFragment (fits : Allocator) (clk : SystemClock) (σ : System) (frag : Fragment)
    (storage : FragmentStorage) (ptr : PayloadPtr) (ctx : ReassemblyContext) :
    Logged Access (System × List Emission) := do
  let s1 := σ.reassembler.putContext frag.key ctx
  match ← addFragment s1.config ctx frag storage ptr with
  | .rejected => return ({ σ with reassembler := s1 }, [])
  | .duplicate =>
    return ({ σ with reassembler := { s1 with stats :=
      { s1.stats with duplicateFragments := s1.stats.duplicateFragments + 1 } } }, [])
  | .bytesOverflow =>
    return ({ σ with reassembler := { s1 with stats :=
      { s1.stats with reasmBytesOverflow := s1.stats.reasmBytesOverflow + 1 } } }, [])
  | .added ctx' =>
    let pointers := Function.update (σ.pointers frag.key) frag.specific.fragIndex.toNat ptr
    let σ2 : System :=
      { reassembler := s1.putContext frag.key ctx'
        pointers := Function.update σ.pointers frag.key pointers }
    if ctx'.checkComplete then
      match ← completeReassembly fits clk σ2 frag.key ctx' false with
      | some (σ3, e) => return (σ3, [e])
      | none => return (σ2, [])
    else return (σ2, [])

def acceptFragment (fits : Allocator) (clk : SystemClock) (σ : System) (frag : Fragment)
    (storage : FragmentStorage) (ptr : PayloadPtr) (nowMs : BitVec 64) :
    Logged Access (System × List Emission) :=
  let s := σ.reassembler
  let s1 := { s with frozenKeysRing := (isKeyFrozen frag.key nowMs s.frozenKeysRing).1 }
  if (isKeyFrozen frag.key nowMs s.frozenKeysRing).2 then
    pure ({ σ with reassembler := s1.countLate }, [])
  else
    match s1.getOrCreateContext frag nowMs with
    | (s2, none) => pure ({ σ with reassembler := s2 }, [])
    | (s2, some ctx) =>
      storeFragment fits clk { σ with reassembler := s2 } frag storage ptr (takeSnapshot ctx frag)

/-- `process_packet` (`heap`) and `process_packet_zero_copy` (`pool`). -/
def processWith (storage : FragmentStorage) (fits : Allocator) (clk : SystemClock) (σ : System)
    (packet : ParsedPacket) : Logged Access (System × List Emission) := do
  let s := σ.reassembler
  match ← fragmentOf s.config packet with
  | none => return ({ σ with reassembler := s.countReceived }, [])
  | some frag =>
    acceptFragment fits clk
      { σ with reassembler := { s.countReceived with reads := s.reads + 1 } } frag storage
      (fragmentPtr packet frag) (clk s.reads)

/-- The completions of `check_timeouts` and `flush_all`. -/
def completeAll (fits : Allocator) (clk : SystemClock) :
    List ReassemblyKey → System → Logged Access (System × List Emission)
  | [], σ => pure (σ, [])
  | key :: keys, σ =>
    match σ.reassembler.contexts.lookup key with
    | none => completeAll fits clk keys σ
    | some ctx => do
      match ← completeReassembly fits clk σ key ctx true with
      | none => return (σ, [])
      | some (σ', e) =>
        let r ← completeAll fits clk keys σ'
        return (r.1, e :: r.2)

/-- A call; what it returns, and its accesses. -/
def call (fits : Allocator) (clk : SystemClock) (σ : System) :
    ReassemblerOp → Logged Access (System × List Emission)
  | .processPacket packet => processWith .heap fits clk σ packet
  | .processPacketZeroCopy packet => processWith .pool fits clk σ packet
  | .checkTimeouts order =>
    let s := σ.reassembler
    completeAll fits clk (order.toFun (s.timedOut (clk s.reads)))
      { σ with reassembler := { s with reads := s.reads + 1 } }
  | .flushAll order => completeAll fits clk (order.toFun σ.reassembler.contexts.keys) σ
  | .setTimeoutMs timeoutMs =>
    pure ({ σ with reassembler := σ.reassembler.setTimeoutMs timeoutMs }, [])
  | .resetStatistics => pure ({ σ with reassembler := σ.reassembler.resetStatistics }, [])

def step (fits : Allocator) (clk : SystemClock) (σ : System) (op : ReassemblerOp) :
    System × List Access :=
  ((call fits clk σ op).value.1, (call fits clk σ op).log)

/-- A run of calls, with all accesses. -/
def run (fits : Allocator) (clk : SystemClock) (σ : System) (ops : List ReassemblerOp) :
    System × List Access :=
  Machine.run (step fits clk) σ ops

end Qdgz300.Pipeline.Accesses
