import Qdgz300.Pipeline.Buffered

/-!
# The zero-copy path refines the copying path

`load` reads a state through its pointers. Under it, each entry point of the reassembler over packet
buffers is the copying one over bytes (`load_processPacket`, `load_processPacketZeroCopy`), and a
write to a buffer that no fragment holds changes nothing (`load_writeBuffer`).

* **`zeroCopy_refines_copy`**: a run through any mixture of the two entry points emits the frames,
  and reaches the statistics and contents, of the run that copies every packet.
-/

namespace Qdgz300.Pipeline.Buffered

open Protocol Bytes

variable {clk : SystemClock} {mem : Memory} {s : Reassembler} {key : ReassemblyKey}

/-! ## Reading through pointers -/

theorem read_add (ptr : BufferPtr) (m n : Nat) :
    (ptr.add m).read mem n = slice ((mem ptr.buffer).drop ptr.offset) m n := by
  rw [BufferPtr.read, BufferPtr.add, slice, slice, List.drop_drop]

theorem load_ofBytes (ptr : BufferPtr) (size : Nat) :
    (FragmentRef.ofBytes mem ptr size).load mem = ⟨some .heap, some (ptr.read mem size), size⟩ := rfl

theorem load_ofBuffer (buffer : Nat) (ptr : BufferPtr) (size : Nat) :
    (FragmentRef.ofBuffer buffer ptr size).load mem =
      ⟨some .heap, some (ptr.read mem size), size⟩ :=
  rfl

theorem load_newContext (frag : Fragment) (now : BitVec 64) :
    (newContext frag.key frag.specific now).load mem = Pipeline.newContext frag now := by
  simp [newContext, Pipeline.newContext, ReassemblyContext.load, FragmentRef.load, FragmentRef.bytes]

@[simp] theorem load_checkComplete (ctx : ReassemblyContext) :
    (ctx.load mem).checkComplete = ctx.checkComplete := rfl

/-! ## The shared operations -/

theorem load_addFrozenKey (s : Reassembler) (key : ReassemblyKey) (expireMs : BitVec 64) :
    (s.addFrozenKey key expireMs).load mem = (s.load mem).addFrozenKey key expireMs := by
  unfold Reassembler.addFrozenKey Pipeline.Reassembler.addFrozenKey
  rw [show (s.load mem).frozenKeysRing = s.frozenKeysRing from rfl]
  cases renewEntry key expireMs s.frozenKeysRing <;> rfl

theorem load_destroyContext (s : Reassembler) (key : ReassemblyKey) :
    (s.destroyContext key).load mem = (s.load mem).destroyContext key := by
  unfold Reassembler.destroyContext Pipeline.Reassembler.destroyContext
  simp only [Reassembler.load, KeyMap.mem_map]
  split
  · simp
  · rfl

theorem load_putContext (s : Reassembler) (key : ReassemblyKey) (ctx : ReassemblyContext) :
    (s.putContext key ctx).load mem = (s.load mem).putContext key (ctx.load mem) := by
  simp [Reassembler.putContext, Pipeline.Reassembler.putContext, Reassembler.load]

theorem load_completeReassembly (s : Reassembler) (key : ReassemblyKey) (ctx : ReassemblyContext)
    (isTimeout : Bool) :
    (s.load mem).completeReassembly clk key (ctx.load mem) isTimeout =
      (s.completeReassembly clk mem key ctx isTimeout).map fun r => (r.1.load mem, r.2) := by
  unfold Reassembler.completeReassembly Pipeline.Reassembler.completeReassembly
  by_cases hbig : 1024 < ctx.totalFrags.toNat
  · rw [if_pos hbig, if_pos (show 1024 < (ctx.load mem).totalFrags.toNat from hbig)]
    rfl
  · rw [if_neg hbig, if_neg (show ¬ 1024 < (ctx.load mem).totalFrags.toNat from hbig)]
    cases isTimeout with
    | true =>
      simp only [if_true, Option.map_some, load_destroyContext, load_addFrozenKey]
      rfl
    | false =>
      simp only [Bool.false_eq_true, if_false, Option.map_some, load_destroyContext]
      rfl

/-- What a call leaves, read through the pointers. -/
def loadResult (mem : Memory) (r : Reassembler × List Emission) :
    Pipeline.Reassembler × List Emission :=
  (r.1.load mem, r.2)

theorem load_completeAll (clk : SystemClock) (mem : Memory) :
    ∀ (keys : List ReassemblyKey) (s : Reassembler),
      loadResult mem (s.completeAll clk mem keys) = (s.load mem).completeAll clk keys := by
  intro keys
  induction keys with
  | nil => exact fun s => rfl
  | cons key keys ih =>
    intro s
    have hl : (s.load mem).contexts.lookup key =
        (s.contexts.lookup key).map (ReassemblyContext.load mem) := KeyMap.lookup_map _ _ _
    unfold Reassembler.completeAll Pipeline.Reassembler.completeAll
    rw [hl]
    cases s.contexts.lookup key with
    | none => exact ih s
    | some ctx =>
      simp only [Option.map_some, load_completeReassembly]
      cases s.completeReassembly clk mem key ctx true with
      | none => rfl
      | some r =>
        simp only [Option.map_some, ← ih r.1]
        rfl

theorem load_timedOut (s : Reassembler) (now : BitVec 64) :
    (s.load mem).timedOut now = s.timedOut now := by
  unfold Pipeline.Reassembler.timedOut Reassembler.timedOut
  simp only [Reassembler.load, KeyMap.keys_map, KeyMap.lookup_map, Option.any_map]
  rfl

theorem load_checkTimeouts (clk : SystemClock) (mem : Memory) (s : Reassembler)
    (order : IterOrder) :
    loadResult mem (s.checkTimeouts clk mem order) = (s.load mem).checkTimeouts clk order := by
  unfold Reassembler.checkTimeouts Pipeline.Reassembler.checkTimeouts
  rw [load_completeAll, load_timedOut]
  rfl

theorem load_flushAll (clk : SystemClock) (mem : Memory) (s : Reassembler) (order : IterOrder) :
    loadResult mem (s.flushAll clk mem order) = (s.load mem).flushAll clk order := by
  unfold Reassembler.flushAll Pipeline.Reassembler.flushAll
  rw [load_completeAll, show (s.load mem).contexts.keys = s.contexts.keys from KeyMap.keys_map _ _]

/-! ## A packet -/

/-- The outcome of adding a fragment, read through the pointers. -/
def AddOutcome.load (mem : Memory) : AddOutcome → Pipeline.AddOutcome
  | .rejected => .rejected
  | .duplicate => .duplicate
  | .bytesOverflow => .bytesOverflow
  | .added ctx => .added (ctx.load mem)

/-- The fragment that the header checks leave, with the bytes that its payload points to. -/
def fragmentAt (mem : Memory) (key : ReassemblyKey) (specific : DataSpecificHeader)
    (tailSnapshot : Option ExecutionSnapshot) (ptr : BufferPtr) (size : Nat) : Fragment :=
  { specific, key, tailSnapshot, payload := ptr.read mem size, payloadSize := size }

section
variable {specific : DataSpecificHeader}
  {tailSnapshot : Option ExecutionSnapshot} {ptr : BufferPtr} {size : Nat}

/-- What the two ways of adding a fragment share: `ref` goes into the slot. -/
def addRef (cfg : ReassemblerConfig) (ctx : ReassemblyContext) (header : DataSpecificHeader)
    (ref : FragmentRef) (size : Nat) : AddOutcome :=
  let i := header.fragIndex
  if ctx.totalFrags ≤ i ∨ 1024 ≤ i.toNat then .rejected
  else if ctx.receivedFragments.test i.toNat then .duplicate
  else if cfg.maxReasmBytesPerKey < ctx.receivedPayloadBytes + size then .bytesOverflow
  else if header.isTailFragment ∧ size ≠ ctx.tailFragPayloadBytes.toNat then .rejected
  else if ¬ header.isTailFragment ∧ size = 0 then .rejected
  else
    let ctx1 := { ctx with
      fragmentRefs := if 0 < size then ctx.fragmentRefs.set i.toNat ref else ctx.fragmentRefs
      fragmentSizes := ctx.fragmentSizes.set i.toNat size
      receivedFragments := ctx.receivedFragments.set i.toNat
      receivedCount := ctx.receivedCount + 1
      receivedPayloadBytes := ctx.receivedPayloadBytes + size
      totalPayloadSize := ctx.totalPayloadSize + size }
    .added { ctx1 with isComplete := ctx1.checkComplete }

theorem addFragment_eq (cfg : ReassemblerConfig) (ctx : ReassemblyContext) :
    addFragment cfg mem ctx specific ptr size =
      addRef cfg ctx specific (.ofBytes mem ptr size) size := rfl

theorem addFragmentZeroCopy_eq (cfg : ReassemblerConfig) (ctx : ReassemblyContext) (buffer : Nat) :
    addFragmentZeroCopy cfg ctx specific buffer ptr size =
      addRef cfg ctx specific (.ofBuffer buffer ptr size) size := rfl

theorem load_refuse {p : Prop} [Decidable p] {refused rest : AddOutcome}
    {rest' : Pipeline.AddOutcome} (h : rest.load mem = rest') :
    (if p then refused else rest).load mem = if p then refused.load mem else rest' := by
  rw [apply_ite (AddOutcome.load mem), h]

theorem load_addRef {ref : FragmentRef}
    (href : ref.load mem = ⟨some .heap, some (ptr.read mem size), size⟩)
    (cfg : ReassemblerConfig) (ctx : ReassemblyContext) :
    (addRef cfg ctx specific ref size).load mem =
      Pipeline.addFragment cfg (ctx.load mem) (fragmentAt mem key specific tailSnapshot ptr size)
        .heap := by
  unfold addRef Pipeline.addFragment
  refine load_refuse (load_refuse (load_refuse (load_refuse (load_refuse ?_))))
  simp only [AddOutcome.load, ReassemblyContext.load, enterFragment, fragmentAt,
    apply_ite (List.map (FragmentRef.load mem)), List.map_set, href]
  rfl

/-! ## After the header checks -/

/-- The fragment added to its context in the way `add`, and the frame it completes. -/
def storeWith (clk : SystemClock) (mem : Memory) (s : Reassembler) (key : ReassemblyKey)
    (ctx : ReassemblyContext) (add : ReassemblerConfig → ReassemblyContext → AddOutcome) :
    Reassembler × List Emission :=
  let s := s.putContext key ctx
  match add s.config ctx with
  | .rejected => (s, [])
  | .duplicate => (s.countDuplicate, [])
  | .bytesOverflow => (s.countBytesOverflow, [])
  | .added ctx =>
    let s := s.putContext key ctx
    if ctx.checkComplete then
      match s.completeReassembly clk mem key ctx false with
      | some (s, e) => (s, [e])
      | none => (s, [])
    else (s, [])

/-- The tail's snapshot, taken into a context. -/
def withSnapshot (ctx : ReassemblyContext) : Option ExecutionSnapshot → ReassemblyContext
  | some snapshot => { ctx with executionSnapshot := snapshot, hasExecutionSnapshot := true }
  | none => ctx

/-- What the two paths share after the header checks. -/
def acceptWith (clk : SystemClock) (mem : Memory) (s : Reassembler) (key : ReassemblyKey)
    (specific : DataSpecificHeader) (tailSnapshot : Option ExecutionSnapshot)
    (add : ReassemblerConfig → ReassemblyContext → AddOutcome) : Reassembler × List Emission :=
  let nowMs := clk s.reads
  let scan := isKeyFrozen key nowMs s.frozenKeysRing
  let s := { s with reads := s.reads + 1, frozenKeysRing := scan.1 }
  if scan.2 then (s.countLate, [])
  else
    match s.getOrCreateContext key specific nowMs with
    | (s, none) => (s, [])
    | (s, some ctx) =>
      storeWith clk mem s key (withSnapshot ctx tailSnapshot) add

theorem acceptPacket_eq (s : Reassembler) :
    s.acceptPacket clk mem key specific tailSnapshot ptr size =
      acceptWith clk mem s key specific tailSnapshot fun cfg ctx =>
        addFragment cfg mem ctx specific ptr size := rfl

theorem acceptPacketZeroCopy_eq (s : Reassembler) (buffer : Nat) :
    s.acceptPacketZeroCopy clk mem key specific tailSnapshot buffer ptr size =
      acceptWith clk mem s key specific tailSnapshot fun cfg ctx =>
        addFragmentZeroCopy cfg ctx specific buffer ptr size := rfl

variable {add : ReassemblerConfig → ReassemblyContext → AddOutcome} {frag : Fragment}

theorem load_storeWith
    (hadd : ∀ cfg ctx, (add cfg ctx).load mem = Pipeline.addFragment cfg (ctx.load mem) frag .heap)
    (s : Reassembler) (ctx : ReassemblyContext) :
    loadResult mem (storeWith clk mem s frag.key ctx add) =
      (s.load mem).storeFragment clk frag .heap (ctx.load mem) := by
  unfold storeWith Pipeline.Reassembler.storeFragment
  have hcfg : (s.putContext frag.key ctx).config = s.config := rfl
  simp only [hcfg, ← load_putContext]
  rw [show (s.load mem).config = s.config from rfl, ← hadd]
  cases add s.config ctx with
  | rejected => rfl
  | duplicate => rfl
  | bytesOverflow => rfl
  | added ctx' =>
    simp only [AddOutcome.load, ← load_putContext, load_checkComplete, load_completeReassembly]
    split
    · cases ((s.putContext frag.key ctx).putContext frag.key ctx').completeReassembly clk
        mem frag.key ctx' false <;> rfl
    · rfl

theorem load_withSnapshot (ctx : ReassemblyContext) (frag : Fragment) :
    (withSnapshot ctx frag.tailSnapshot).load mem = takeSnapshot (ctx.load mem) frag := by
  unfold withSnapshot takeSnapshot
  cases frag.tailSnapshot <;> rfl

theorem load_acceptWith (hkey : frag.key = key) (hspec : frag.specific = specific)
    (hsnap : frag.tailSnapshot = tailSnapshot)
    (hadd : ∀ cfg ctx, (add cfg ctx).load mem = Pipeline.addFragment cfg (ctx.load mem) frag .heap)
    (s : Reassembler) :
    loadResult mem (acceptWith clk mem s key specific tailSnapshot add) =
      ({ s.load mem with reads := s.reads + 1 } : Pipeline.Reassembler).acceptFragment clk
        frag .heap (clk s.reads) := by
  subst hkey hspec hsnap
  unfold acceptWith Pipeline.Reassembler.acceptFragment
  simp only [show (s.load mem).frozenKeysRing = s.frozenKeysRing from rfl]
  cases hscan : (isKeyFrozen frag.key (clk s.reads) s.frozenKeysRing).2 with
  | true => rfl
  | false =>
    simp only [Bool.false_eq_true, if_false]
    unfold Reassembler.getOrCreateContext Pipeline.Reassembler.getOrCreateContext
    have hl : (s.load mem).contexts.lookup frag.key =
        (s.contexts.lookup frag.key).map (ReassemblyContext.load mem) := KeyMap.lookup_map _ _ _
    have hsize : (s.load mem).contexts.entries.length = s.contexts.entries.length :=
      KeyMap.size_map _ _
    simp only [hl]
    cases s.contexts.lookup frag.key with
    | some ctx =>
      simp only [Option.map_some]
      rw [load_storeWith hadd, load_withSnapshot]
      rfl
    | none =>
      simp only [Option.map_none, hsize]
      by_cases hfull : s.config.maxContexts ≤ s.contexts.entries.length
      · rw [if_pos hfull, if_pos (show (s.load mem).config.maxContexts ≤ _ from hfull)]
        rfl
      · rw [if_neg hfull, if_neg (show ¬ (s.load mem).config.maxContexts ≤ _ from hfull)]
        simp only
        rw [load_storeWith hadd, load_withSnapshot, load_newContext]
        simp only [Reassembler.load, KeyMap.map_insert, load_newContext]

/-! ## The header checks -/

/-- The header checks, before a way to accept what they leave. -/
def processWith (mem : Memory) (s : Reassembler) (packet : ParsedPacket)
    (accept : Reassembler → ReassemblyKey → DataSpecificHeader → Option ExecutionSnapshot →
      BufferPtr → Nat → Reassembler × List Emission) : Reassembler × List Emission :=
  let s := s.countReceived
  let payloadLen := packet.header.payloadLen.toNat
  match packet.payload, parseSpecificHeader s.config (packet.load mem).payload payloadLen with
  | some payload, some specific =>
    if specific.totalFrags = 0 ∨ s.config.maxTotalFrags < specific.totalFrags then (s, [])
    else if specific.isTailFragment then
      if payloadLen ≠ specificSize + snapshotSize + specific.tailFragPayloadBytes.toNat then (s, [])
      else accept s (extractKey packet.header specific) specific
        (some (ExecutionSnapshot.decode ((payload.add specificSize).read mem snapshotSize)))
        (payload.add (specificSize + snapshotSize)) (payloadLen - (specificSize + snapshotSize))
    else if payloadLen < specificSize then (s, [])
    else accept s (extractKey packet.header specific) specific none
      (payload.add specificSize) (payloadLen - specificSize)
  | _, _ => (s, [])

theorem processPacket_eq (s : Reassembler) (packet : ParsedPacket) :
    s.processPacket clk mem packet =
      processWith mem s packet (Reassembler.acceptPacket clk mem) := rfl

theorem processPacketZeroCopy_eq (s : Reassembler) (packet : ParsedPacket) (buffer : Nat) :
    s.processPacketZeroCopy clk mem packet buffer =
      processWith mem s packet fun s key specific tailSnapshot =>
        s.acceptPacketZeroCopy clk mem key specific tailSnapshot buffer := rfl

theorem load_processWith
    {accept : Reassembler → ReassemblyKey → DataSpecificHeader → Option ExecutionSnapshot →
      BufferPtr → Nat → Reassembler × List Emission}
    (haccept : ∀ s key specific tailSnapshot ptr size,
      loadResult mem (accept s key specific tailSnapshot ptr size) =
        ({ s.load mem with reads := s.reads + 1 } : Pipeline.Reassembler).acceptFragment clk
          (fragmentAt mem key specific tailSnapshot ptr size) .heap (clk s.reads))
    (s : Reassembler) (packet : ParsedPacket) :
    loadResult mem (processWith mem s packet accept) =
      (s.load mem).processPacket clk (packet.load mem) := by
  unfold processWith Pipeline.Reassembler.processPacket Pipeline.Reassembler.processWith fragmentOf
  have hcfg : (s.load mem).config = s.countReceived.config := rfl
  have hlen : (packet.load mem).header = packet.header := rfl
  simp only [hcfg, hlen]
  cases hp : packet.payload with
  | none =>
    have hnone : (packet.load mem).payload = none := by rw [ParsedPacket.load, hp]; rfl
    rw [hnone]
    rfl
  | some ptr =>
    have hbytes : (packet.load mem).payload = some ((mem ptr.buffer).drop ptr.offset) := by
      rw [ParsedPacket.load, hp]
      rfl
    simp only [hbytes, Option.getD_some]
    cases parseSpecificHeader s.countReceived.config (some ((mem ptr.buffer).drop ptr.offset))
      packet.header.payloadLen.toNat with
    | none => rfl
    | some specific =>
      simp only
      by_cases h1 : specific.totalFrags = 0 ∨
          s.countReceived.config.maxTotalFrags < specific.totalFrags
      · rw [if_pos h1, if_pos h1]
        rfl
      rw [if_neg h1, if_neg h1]
      by_cases htail : specific.isTailFragment = true
      · rw [if_pos htail, if_pos htail]
        by_cases h2 : packet.header.payloadLen.toNat ≠
            specificSize + snapshotSize + specific.tailFragPayloadBytes.toNat
        · rw [if_pos h2, if_pos h2]
          rfl
        · rw [if_neg h2, if_neg h2, haccept, fragmentAt, read_add, read_add]
          rfl
      · rw [if_neg htail, if_neg htail]
        by_cases h3 : packet.header.payloadLen.toNat < specificSize
        · rw [if_pos h3, if_pos h3]
          rfl
        · rw [if_neg h3, if_neg h3, haccept, fragmentAt, read_add]
          rfl

/-- **`process_packet`** over packet buffers is `process_packet` over bytes. -/
theorem load_processPacket (clk : SystemClock) (mem : Memory) (s : Reassembler)
    (packet : ParsedPacket) :
    loadResult mem (s.processPacket clk mem packet) =
      (s.load mem).processPacket clk (packet.load mem) := by
  rw [processPacket_eq]
  refine load_processWith (fun s key specific tailSnapshot ptr size => ?_) s packet
  rw [acceptPacket_eq]
  simp only [addFragment_eq]
  exact load_acceptWith rfl rfl rfl (load_addRef (load_ofBytes ptr size)) s

/-- **`process_packet_zero_copy`** is the same. -/
theorem load_processPacketZeroCopy (clk : SystemClock) (mem : Memory) (s : Reassembler)
    (packet : ParsedPacket) (buffer : Nat) :
    loadResult mem (s.processPacketZeroCopy clk mem packet buffer) =
      (s.load mem).processPacket clk (packet.load mem) := by
  rw [processPacketZeroCopy_eq]
  refine load_processWith (fun s key specific tailSnapshot ptr size => ?_) s packet
  rw [acceptPacketZeroCopy_eq]
  simp only [addFragmentZeroCopy_eq]
  exact load_acceptWith rfl rfl rfl (load_addRef (load_ofBuffer buffer ptr size)) s

end

/-! ## The fragments of the live contexts -/

/-- Every fragment of a live context satisfies `P`. -/
def Reassembler.Refs (P : FragmentRef → Prop) (s : Reassembler) : Prop :=
  ∀ key ctx, s.contexts.lookup key = some ctx → ∀ r ∈ ctx.fragmentRefs, P r

/-- A pointer into a packet buffer goes with the ownership of that buffer. -/
def FragmentRef.Owns (r : FragmentRef) : Prop :=
  ∀ ptr, r.data = some (.pool ptr) → r.poolBuffer = some ptr.buffer

/-- The fragment was copied. -/
def FragmentRef.Copied (r : FragmentRef) : Prop := ∀ ptr, r.data ≠ some (.pool ptr)

section
variable {P : FragmentRef → Prop} {specific : DataSpecificHeader}
  {tailSnapshot : Option ExecutionSnapshot}
  {add : ReassemblerConfig → ReassemblyContext → AddOutcome}

theorem Reassembler.Refs.erase (h : s.Refs P) (key : ReassemblyKey) {s' : Reassembler}
    (hs' : s'.contexts = s.contexts.erase key) : s'.Refs P := by
  intro k ctx hk
  rw [hs'] at hk
  exact h k ctx (KeyMap.lookup_erase_some hk).2

theorem Reassembler.Refs.put (h : s.Refs P) {ctx : ReassemblyContext}
    (hctx : ∀ r ∈ ctx.fragmentRefs, P r) (key : ReassemblyKey) : (s.putContext key ctx).Refs P := by
  intro k c hk
  rcases KeyMap.lookup_insert_cases hk with ⟨-, rfl⟩ | ⟨-, hk⟩
  · exact hctx
  · exact h k c hk

theorem contexts_destroyContext (s : Reassembler) (key : ReassemblyKey) :
    (s.destroyContext key).contexts = s.contexts.erase key := by
  unfold Reassembler.destroyContext
  split
  case isTrue h => rfl
  case isFalse h => rw [KeyMap.erase_of_lookup_none (AList.lookup_eq_none.2 h)]

theorem contexts_completeReassembly {s' : Reassembler} {ctx : ReassemblyContext} {isTimeout : Bool}
    {e : Emission} (h : s.completeReassembly clk mem key ctx isTimeout = some (s', e)) :
    s'.contexts = s.contexts.erase key := by
  unfold Reassembler.completeReassembly at h
  split at h
  · cases h
  simp only at h
  split at h
  · obtain ⟨rfl, -⟩ := Prod.mk.inj (Option.some.inj h)
    rw [contexts_destroyContext]
    unfold Reassembler.addFrozenKey
    split <;> rfl
  · obtain ⟨rfl, -⟩ := Prod.mk.inj (Option.some.inj h)
    rw [contexts_destroyContext]
    rfl

theorem completeAll_refs : ∀ (keys : List ReassemblyKey) (s : Reassembler), s.Refs P →
    (s.completeAll clk mem keys).1.Refs P := by
  intro keys
  induction keys with
  | nil => exact fun s h => h
  | cons key keys ih =>
    intro s h
    unfold Reassembler.completeAll
    cases s.contexts.lookup key with
    | none => exact ih s h
    | some ctx =>
      simp only
      cases hc : s.completeReassembly clk mem key ctx true with
      | none => exact h
      | some r => exact ih r.1 (h.erase key (contexts_completeReassembly hc))

theorem addRef_refs {cfg : ReassemblerConfig} {ctx ctx' : ReassemblyContext} {ref : FragmentRef}
    {size : Nat} (href : P ref) (hctx : ∀ r ∈ ctx.fragmentRefs, P r)
    (h : addRef cfg ctx specific ref size = .added ctx') : ∀ r ∈ ctx'.fragmentRefs, P r := by
  unfold addRef at h
  simp only at h
  split_ifs at h
  · obtain rfl := AddOutcome.added.inj h
    intro r hr
    rcases List.mem_or_eq_of_mem_set hr with hr | rfl
    · exact hctx r hr
    · exact href
  · obtain rfl := AddOutcome.added.inj h
    exact hctx

theorem storeWith_refs (hadd : ∀ cfg ctx ctx', (∀ r ∈ ctx.fragmentRefs, P r) →
      add cfg ctx = .added ctx' → ∀ r ∈ ctx'.fragmentRefs, P r)
    (h : s.Refs P) {ctx : ReassemblyContext} (hctx : ∀ r ∈ ctx.fragmentRefs, P r) :
    (storeWith clk mem s key ctx add).1.Refs P := by
  unfold storeWith
  simp only
  cases hout : add (s.putContext key ctx).config ctx with
  | rejected => exact h.put hctx key
  | duplicate => exact h.put hctx key
  | bytesOverflow => exact h.put hctx key
  | added ctx' =>
    have hput := (h.put hctx key).put (hadd _ _ _ hctx hout) key
    simp only
    split
    · split
      case h_1 s' e hc => exact hput.erase key (contexts_completeReassembly hc)
      case h_2 => exact hput
    · exact hput

theorem acceptWith_refs (h0 : P {}) (hadd : ∀ cfg ctx ctx', (∀ r ∈ ctx.fragmentRefs, P r) →
      add cfg ctx = .added ctx' → ∀ r ∈ ctx'.fragmentRefs, P r) (h : s.Refs P) :
    (acceptWith clk mem s key specific tailSnapshot add).1.Refs P := by
  have hsnap : ∀ ctx : ReassemblyContext, (∀ r ∈ ctx.fragmentRefs, P r) →
      ∀ r ∈ (withSnapshot ctx tailSnapshot).fragmentRefs, P r := by
    intro ctx hctx
    unfold withSnapshot
    cases tailSnapshot <;> exact hctx
  unfold acceptWith
  simp only
  split
  · exact h
  unfold Reassembler.getOrCreateContext
  simp only
  cases hl : s.contexts.lookup key with
  | some ctx =>
    refine storeWith_refs hadd ?_ (hsnap ctx (h key ctx hl))
    exact h
  | none =>
    by_cases hfull : s.config.maxContexts ≤ s.contexts.entries.length
    · simp only [if_pos hfull]
      exact h
    · simp only [if_neg hfull]
      have hnew : ∀ r ∈ (newContext key specific (clk s.reads)).fragmentRefs, P r := by
        intro r hr
        rw [List.eq_of_mem_replicate hr]
        exact h0
      refine storeWith_refs hadd ?_ (hsnap _ hnew)
      exact h.put hnew key

theorem processWith_refs {packet : ParsedPacket}
    {accept : Reassembler → ReassemblyKey → DataSpecificHeader → Option ExecutionSnapshot →
      BufferPtr → Nat → Reassembler × List Emission}
    (haccept : ∀ (s : Reassembler) key specific tailSnapshot payload n size,
      packet.payload = some payload → s.Refs P →
      (accept s key specific tailSnapshot (payload.add n) size).1.Refs P) (h : s.Refs P) :
    (processWith mem s packet accept).1.Refs P := by
  unfold processWith
  simp only
  split
  case h_1 payload specific hp hs =>
    split
    · exact h
    split
    · split
      · exact h
      · exact haccept _ _ _ _ payload _ _ hp h
    · split
      · exact h
      · exact haccept _ _ _ _ payload _ _ hp h
  case h_2 => exact h

theorem processPacket_refs (h0 : P {}) (hnew : ∀ ptr size, P (.ofBytes mem ptr size))
    (h : s.Refs P) (packet : ParsedPacket) : (s.processPacket clk mem packet).1.Refs P := by
  rw [processPacket_eq]
  refine processWith_refs (fun s key specific tailSnapshot payload n size _ h => ?_) h
  rw [acceptPacket_eq]
  refine acceptWith_refs h0 (fun cfg ctx ctx' hctx hadd => ?_) h
  rw [addFragment_eq] at hadd
  exact addRef_refs (hnew _ _) hctx hadd

theorem processPacketZeroCopy_refs {packet : ParsedPacket} {buffer : Nat} (h0 : P {})
    (hnew : ∀ payload n size, packet.payload = some payload →
      P (.ofBuffer buffer (payload.add n) size)) (h : s.Refs P) :
    (s.processPacketZeroCopy clk mem packet buffer).1.Refs P := by
  rw [processPacketZeroCopy_eq]
  refine processWith_refs (fun s key specific tailSnapshot payload n size hp h => ?_) h
  rw [acceptPacketZeroCopy_eq]
  refine acceptWith_refs h0 (fun cfg ctx ctx' hctx hadd => ?_) h
  rw [addFragmentZeroCopy_eq] at hadd
  exact addRef_refs (hnew _ _ _ hp) hctx hadd

end

/-- **A write to a buffer** that no fragment points into changes nothing that is read. -/
theorem load_writeBuffer {buffer : Nat} (h : s.Refs fun r => ∀ ptr, r.data = some (.pool ptr) →
      ptr.buffer ≠ buffer) (bytes : List Byte) :
    s.load (Function.update mem buffer bytes) = s.load mem := by
  have href : ∀ key ctx, s.contexts.lookup key = some ctx →
      ctx.load (Function.update mem buffer bytes) = ctx.load mem := by
    intro key ctx hl
    have hrefs : ctx.fragmentRefs.map (FragmentRef.load (Function.update mem buffer bytes)) =
        ctx.fragmentRefs.map (FragmentRef.load mem) := by
      refine List.map_congr_left fun r hr => ?_
      have hr := h key ctx hl r hr
      unfold FragmentRef.load FragmentRef.bytes
      cases hd : r.data with
      | none => rfl
      | some d =>
        cases d with
        | heap => rfl
        | pool ptr =>
          simp only [BufferPtr.read]
          rw [Function.update_of_ne (hr ptr hd)]
    unfold ReassemblyContext.load
    rw [hrefs]
  unfold Reassembler.load
  rw [KeyMap.map_congr href]

/-! ## Runs -/

/-- The call that copies the packet. -/
def Op.copying : Op → Op
  | .processPacketZeroCopy packet _ => .processPacket packet
  | op => op

/-- The payload of a packet handed over with its buffer is in that buffer, and no buffer is written
while a fragment holds it. -/
def Admissible (σ : System) : Op → Prop
  | .processPacketZeroCopy packet buffer => ∀ payload ∈ packet.payload, payload.buffer = buffer
  | .writeBuffer buffer _ => ¬ σ.reassembler.Holds buffer
  | _ => True

instance (σ : System) : ∀ op, Decidable (Admissible σ op)
  | .processPacketZeroCopy packet buffer =>
    inferInstanceAs (Decidable (∀ payload ∈ packet.payload, payload.buffer = buffer))
  | .writeBuffer buffer _ => inferInstanceAs (Decidable (¬ σ.reassembler.Holds buffer))
  | .processPacket _ => isTrue trivial
  | .checkTimeouts _ => isTrue trivial
  | .flushAll _ => isTrue trivial
  | .setTimeoutMs _ => isTrue trivial

/-- The two runs agree: the left one may hold buffers, the right one has copied everything. -/
structure Agree (σ τ : System) : Prop where
  memory : σ.memory = τ.memory
  load : σ.load = τ.load
  owns : σ.reassembler.Refs FragmentRef.Owns
  copied : τ.reassembler.Refs FragmentRef.Copied

theorem agree_new (cfg : ReassemblerConfig) (mem : Memory) :
    Agree ⟨.new cfg, mem⟩ ⟨.new cfg, mem⟩ :=
  ⟨rfl, rfl, fun _ _ h => (by cases h), fun _ _ h => (by cases h)⟩

section
variable {σ τ : System}

theorem owns_ofBuffer {packet : ParsedPacket} {buffer : Nat}
    (h : ∀ payload ∈ packet.payload, payload.buffer = buffer) (payload : BufferPtr) (n size : Nat)
    (hp : packet.payload = some payload) :
    (FragmentRef.ofBuffer buffer (payload.add n) size).Owns := by
  intro ptr hptr
  obtain rfl := FragmentData.pool.inj (Option.some.inj hptr)
  exact congrArg some (h payload hp).symm

theorem owns_ofBytes (ptr : BufferPtr) (size : Nat) : (FragmentRef.ofBytes mem ptr size).Owns := by
  intro p hp
  cases hp

theorem copied_ofBytes (ptr : BufferPtr) (size : Nat) :
    (FragmentRef.ofBytes mem ptr size).Copied := by
  intro p hp
  cases hp

theorem owns_empty : ({} : FragmentRef).Owns := fun _ h => by cases h

theorem copied_empty : ({} : FragmentRef).Copied := fun _ h => by cases h

theorem Agree.call (h : Agree σ τ) {r r' : Reassembler × List Emission}
    (hload : loadResult σ.memory r = loadResult τ.memory r')
    (howns : r.1.Refs FragmentRef.Owns) (hcopied : r'.1.Refs FragmentRef.Copied) :
    Agree (σ.put r).1 (τ.put r').1 ∧ (σ.put r).2 = (τ.put r').2 := by
  obtain ⟨hstate, hout⟩ := Prod.mk.inj hload
  exact ⟨⟨h.memory, hstate, howns, hcopied⟩, hout⟩

theorem pointsElsewhere {buffer : Nat} (h : s.Refs FragmentRef.Owns) (hfree : ¬ s.Holds buffer) :
    s.Refs fun r => ∀ ptr, r.data = some (.pool ptr) → ptr.buffer ≠ buffer := by
  intro key ctx hl r hr ptr hptr heq
  apply hfree
  exact ⟨key, ctx, hl, r, hr, by rw [h key ctx hl r hr ptr hptr, heq]⟩

/-- **A step.** -/
theorem Agree.step (h : Agree σ τ) (op : Op) (hop : Admissible σ op) :
    Agree (step clk σ op).1 (step clk τ op.copying).1 ∧
      (step clk σ op).2 = (step clk τ op.copying).2 := by
  have hmem := h.memory
  have hload : σ.reassembler.load σ.memory = τ.reassembler.load τ.memory := h.load
  cases op with
  | processPacket packet =>
    refine h.call ?_ (processPacket_refs owns_empty owns_ofBytes h.owns packet)
      (processPacket_refs copied_empty copied_ofBytes h.copied packet)
    rw [load_processPacket, load_processPacket, hload, hmem]
  | processPacketZeroCopy packet buffer =>
    refine h.call ?_ (processPacketZeroCopy_refs owns_empty (owns_ofBuffer hop) h.owns)
      (processPacket_refs copied_empty copied_ofBytes h.copied packet)
    rw [load_processPacketZeroCopy, load_processPacket, hload, hmem]
  | checkTimeouts order =>
    refine h.call ?_ (completeAll_refs _ _ h.owns) (completeAll_refs _ _ h.copied)
    rw [load_checkTimeouts, load_checkTimeouts, hload]
  | flushAll order =>
    refine h.call ?_ (completeAll_refs _ _ h.owns) (completeAll_refs _ _ h.copied)
    rw [load_flushAll, load_flushAll, hload]
  | setTimeoutMs timeoutMs =>
    refine h.call ?_ h.owns h.copied
    have := congrArg (fun s => s.setTimeoutMs timeoutMs) hload
    exact congrArg (·, []) this
  | writeBuffer buffer bytes =>
    have hcopied : τ.reassembler.Refs fun r => ∀ ptr, r.data = some (.pool ptr) →
        ptr.buffer ≠ buffer :=
      fun key ctx hl r hr ptr hptr => absurd hptr (h.copied key ctx hl r hr ptr)
    refine ⟨⟨?_, ?_, h.owns, h.copied⟩, rfl⟩
    · exact congrArg (fun mem => Function.update mem buffer bytes) hmem
    · change σ.reassembler.load (Function.update σ.memory buffer bytes) =
        τ.reassembler.load (Function.update τ.memory buffer bytes)
      rw [load_writeBuffer (pointsElsewhere h.owns hop), load_writeBuffer hcopied, hload]

end

/-- **The zero-copy path refines the copying path.** A run through any mixture of the two entry
points, among timeout checks, flushes and writes to buffers that are not held, emits the frames of
the run that copies every packet, and ends in a state with the same statistics, contexts and frozen
keys. -/
theorem zeroCopy_refines_copy (clk : SystemClock) (cfg : ReassemblerConfig) (mem : Memory)
    (ops : List Op) (h : Machine.RunAlong (step clk) Admissible ⟨.new cfg, mem⟩ ops) :
    (run clk ⟨.new cfg, mem⟩ ops).2 = (run clk ⟨.new cfg, mem⟩ (ops.map Op.copying)).2 ∧
    (run clk ⟨.new cfg, mem⟩ ops).1.reassembler.stats =
      (run clk ⟨.new cfg, mem⟩ (ops.map Op.copying)).1.reassembler.stats ∧
    (run clk ⟨.new cfg, mem⟩ ops).1.load =
      (run clk ⟨.new cfg, mem⟩ (ops.map Op.copying)).1.load := by
  obtain ⟨hagree, hout⟩ := Machine.run_sim (R := Agree) (fun σ τ op hR hop => hR.step op hop)
    (agree_new cfg mem) h
  exact ⟨hout, congrArg Pipeline.Reassembler.stats hagree.load, hagree.load⟩

/-- The bytes of a packet of two fragments: its header, then `body`. -/
def halfBytes (index : Byte) (body : List Byte) : List Byte :=
  List.replicate 32 0 ++ List.replicate 34 0 ++ [index, 0, 2, 0, 1, 0] ++ body

/-- The packet in `buffer`, with `len` bytes of payload. -/
def halfPacket (buffer : Nat) (len : BitVec 16) : ParsedPacket where
  header := { payloadLen := len }
  payload := some ⟨buffer, 32⟩
  totalSize := 32 + len.toNat

/-- The first fragment is kept in its buffer while the second one is received into another and
copied; then the first buffer is used again. -/
def mixedOps : List Op :=
  [.writeBuffer 0 (halfBytes 0 [7]), .processPacketZeroCopy (halfPacket 0 41) 0,
    .writeBuffer 1 (halfBytes 1 (List.replicate 40 0 ++ [8])), .processPacket (halfPacket 1 81),
    .writeBuffer 0 []]

theorem mixedOps_refine :
    ((run (fun _ => 0) ⟨.new { maxContexts := 1 }, fun _ => []⟩ mixedOps).2.map
      fun e => e.frame.data) = [[7, 8]] ∧
    (run (fun _ => 0) ⟨.new { maxContexts := 1 }, fun _ => []⟩ mixedOps).2 =
      (run (fun _ => 0) ⟨.new { maxContexts := 1 }, fun _ => []⟩ (mixedOps.map Op.copying)).2 :=
  ⟨by decide +kernel, (zeroCopy_refines_copy (fun _ => 0) { maxContexts := 1 } (fun _ => []) mixedOps
    (by decide +kernel)).1⟩

end Qdgz300.Pipeline.Buffered
