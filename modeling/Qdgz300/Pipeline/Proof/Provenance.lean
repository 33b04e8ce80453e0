import Qdgz300.Pipeline.Proof.Representation

/-!
# Which fragments are behind a frame

The history of a run keeps, for every live key, the fragment that created its context and those that
`add_fragment` has accepted since (`FragmentRecord`). It is carried beside the state and changes
nothing of it (`run_recordStep`).

* `Reassembler.arrival`: the context that a packet is brought to, and **`processWith_refused`**,
  `processWith_open`, `processWith_done`: what it does there.
* `Behind`: what a context holds is what its record says. **`recorded_step`** keeps it for every
  live key.
* **`Recorded.drained`**, **`Recorded.completed`**, `step_silent`: the context that an emitted frame
  is assembled from.
-/

namespace Qdgz300.Pipeline

open Protocol Bytes

/-- The fragment of a packet whose key is not frozen, and the context that it is brought to. -/
def Reassembler.arrival (clk : SystemClock) (s : Reassembler) (packet : ParsedPacket) :
    Option (Fragment × ReassemblyContext) :=
  match fragmentOf s.config packet with
  | none => none
  | some frag =>
    if (isKeyFrozen frag.key (clk s.reads) s.frozenKeysRing).2 then none
    else (s.getOrCreateContext frag (clk s.reads)).2.map fun ctx => (frag, ctx)

/-- The call accepts the packet as a new fragment. -/
def Reassembler.accepts (clk : SystemClock) (s : Reassembler) (storage : FragmentStorage)
    (packet : ParsedPacket) : Bool :=
  match s.arrival clk packet with
  | none => false
  | some (frag, ctx) => (addFragment s.config (takeSnapshot ctx frag) frag storage).isAdded

/-- A tail has the bytes that it announces. -/
def Fragment.TailSized (f : Fragment) : Prop :=
  f.specific.isTailFragment = true → f.payloadSize = f.specific.tailFragPayloadBytes.toNat

/-! ## What a packet does to its context -/

section
variable {clk : SystemClock} {s : Reassembler} {frag : Fragment} {ctx ctx' : ReassemblyContext}
  {storage : FragmentStorage} {packet : ParsedPacket} {cfg : ReassemblerConfig}

theorem fragmentOf_tailSized (h : fragmentOf cfg packet = some frag) :
    frag.TailSized := by
  obtain ⟨bytes, -, -, -, -, hcases⟩ := fragmentOf_spec h
  intro htail
  rcases hcases with ⟨-, -, hsize, -⟩ | ⟨hno, -⟩
  · exact hsize
  · rw [htail] at hno
    cases hno

theorem getOrCreateContext_eq_some {now : BitVec 64} :
    (s.getOrCreateContext frag now).2 = some ctx ↔
      ContextFor s.config.maxContexts s.contexts frag now ctx := by
  unfold Reassembler.getOrCreateContext
  cases hl : s.contexts.lookup frag.key with
  | some c =>
    constructor
    · intro h
      rw [← Option.some.inj h]
      exact .live hl
    · intro h
      cases h with
      | live h => rw [← hl, h]
      | fresh h =>
        rw [hl] at h
        cases h
  | none =>
    by_cases hfull : s.config.maxContexts ≤ s.contexts.entries.length
    · simp only [if_pos hfull]
      constructor
      · intro h
        cases h
      · intro h
        cases h with
        | live h =>
          rw [hl] at h
          cases h
        | fresh _ hfree => exact absurd hfull (Nat.not_le.2 hfree)
    · simp only [if_neg hfull]
      constructor
      · intro h
        rw [← Option.some.inj h]
        exact .fresh hl (Nat.lt_of_not_le hfull)
      · intro h
        cases h with
        | live h =>
          rw [hl] at h
          cases h
        | fresh => rfl

theorem arrival_eq_some : s.arrival clk packet = some (frag, ctx) ↔
    fragmentOf s.config packet = some frag ∧
      (isKeyFrozen frag.key (clk s.reads) s.frozenKeysRing).2 = false ∧
      ContextFor s.config.maxContexts s.contexts frag (clk s.reads) ctx := by
  unfold Reassembler.arrival
  cases hfrag : fragmentOf s.config packet with
  | none => simp
  | some f =>
    simp only [Option.some.injEq]
    by_cases hscan : (isKeyFrozen f.key (clk s.reads) s.frozenKeysRing).2 = true
    · rw [if_pos hscan]
      constructor
      · intro h
        cases h
      · rintro ⟨rfl, h, -⟩
        rw [hscan] at h
        cases h
    · rw [if_neg hscan, Option.map_eq_some_iff]
      constructor
      · rintro ⟨c, hc, heq⟩
        cases heq
        exact ⟨rfl, by simpa using hscan, getOrCreateContext_eq_some.1 hc⟩
      · rintro ⟨rfl, -, h⟩
        exact ⟨ctx, getOrCreateContext_eq_some.2 h, rfl⟩

/-- A packet that reaches no context. -/
theorem processWith_none_arrival (h : s.arrival clk packet = none) (storage : FragmentStorage) :
    (Reassembler.processWith storage clk s packet).1.contexts = s.contexts ∧
      (Reassembler.processWith storage clk s packet).2 = [] := by
  cases hfrag : fragmentOf s.config packet with
  | none =>
    rw [processWith_none storage clk hfrag]
    exact ⟨rfl, rfl⟩
  | some frag =>
    obtain ⟨contexts, stats, out, heq, heff⟩ := processWith_effect storage clk hfrag
    rw [heq]
    have hno : ∀ ctx, (isKeyFrozen frag.key (clk s.reads) s.frozenKeysRing).2 = false →
        ¬ ContextFor s.config.maxContexts s.contexts frag (clk s.reads) ctx := by
      intro ctx hscan hctx
      rw [arrival_eq_some.2 ⟨hfrag, hscan, hctx⟩] at h
      cases h
    cases heff with
    | late hf => exact ⟨rfl, rfl⟩
    | full hf hl hfull => exact ⟨rfl, rfl⟩
    | kept hf hctx htime => exact absurd hctx (hno _ hf)
    | completed hf hctx hkey => exact absurd hctx (hno _ hf)

theorem takeSnapshot_total (ctx : ReassemblyContext) (frag : Fragment) :
    (takeSnapshot ctx frag).totalFrags = ctx.totalFrags := by
  unfold takeSnapshot
  split <;> rfl

theorem takeSnapshot_count (ctx : ReassemblyContext) (frag : Fragment) :
    (takeSnapshot ctx frag).receivedCount = ctx.receivedCount := by
  unfold takeSnapshot
  split <;> rfl

theorem takeSnapshot_checkComplete (ctx : ReassemblyContext) (frag : Fragment) :
    (takeSnapshot ctx frag).checkComplete = ctx.checkComplete := by
  unfold takeSnapshot
  split <;> rfl

theorem completes_iff : (enterFragment (takeSnapshot ctx frag) frag storage).checkComplete = true ↔
    ctx.receivedCount + 1 = ctx.totalFrags := by
  rw [← takeSnapshot_count ctx frag, ← takeSnapshot_total ctx frag]
  exact beq_iff_eq

/-- A packet that reaches a context: what precedes `add_fragment` touches no other key. -/
theorem processWith_arrival (h : s.arrival clk packet = some (frag, ctx))
    (storage : FragmentStorage) :
    ∃ s₀ : Reassembler, Reassembler.processWith storage clk s packet =
        s₀.storeFragment clk frag storage (takeSnapshot ctx frag) ∧
      s₀.config = s.config ∧ (∀ c, s₀.contexts.insert frag.key c = s.contexts.insert frag.key c) ∧
      s₀.contexts.erase frag.key = s.contexts.erase frag.key ∧
      s₀.stats.framesCompleted = s.stats.framesCompleted := by
  obtain ⟨hfrag, hscan, hctx⟩ := arrival_eq_some.1 h
  unfold Reassembler.processWith
  rw [hfrag]
  cases hctx with
  | live hl =>
    exact ⟨_, acceptFragment_live (s := { s.countReceived with reads := s.reads + 1 }) hscan hl, rfl,
      fun _ => rfl, rfl, rfl⟩
  | fresh hl hfree =>
    exact ⟨_, acceptFragment_fresh (s := { s.countReceived with reads := s.reads + 1 }) hscan hl hfree,
      rfl, fun _ => AList.insert_insert _, KeyMap.erase_insert _ _ _, rfl⟩

/-- **A fragment that is refused**: its context stays, with the snapshot of a tail. -/
theorem processWith_refused (h : s.arrival clk packet = some (frag, ctx))
    (hadd : (addFragment s.config (takeSnapshot ctx frag) frag storage).isAdded = false) :
    (Reassembler.processWith storage clk s packet).1.contexts =
        s.contexts.insert frag.key (takeSnapshot ctx frag) ∧
      (Reassembler.processWith storage clk s packet).2 = [] := by
  obtain ⟨s₀, heq, hcfg, hins, -, -⟩ := processWith_arrival h storage
  rw [heq, Reassembler.storeFragment, hcfg, ← hins]
  cases hout : addFragment s.config (takeSnapshot ctx frag) frag storage with
  | rejected => exact ⟨rfl, rfl⟩
  | duplicate => exact ⟨rfl, rfl⟩
  | bytesOverflow => exact ⟨rfl, rfl⟩
  | added c =>
    rw [hout] at hadd
    cases hadd

theorem processWith_open (h : s.arrival clk packet = some (frag, ctx))
    (hadd : (addFragment s.config (takeSnapshot ctx frag) frag storage).isAdded = true)
    (hopen : (enterFragment (takeSnapshot ctx frag) frag storage).checkComplete = false) :
    (Reassembler.processWith storage clk s packet).1.contexts =
        s.contexts.insert frag.key (enterFragment (takeSnapshot ctx frag) frag storage) ∧
      (Reassembler.processWith storage clk s packet).2 = [] := by
  obtain ⟨s₀, heq, hcfg, hins, -, -⟩ := processWith_arrival h storage
  rw [heq, Reassembler.storeFragment, hcfg, addFragment_isAdded hadd]
  simp only [hopen, Bool.false_eq_true, if_false, Reassembler.putContext, AList.insert_insert, hins,
    and_self]

/-- **A fragment that completes its context** emits the frame; the counter of completed frames takes
it when no slot of the frame is empty. -/
theorem processWith_done (h : s.arrival clk packet = some (frag, ctx))
    (hadd : (addFragment s.config (takeSnapshot ctx frag) frag storage).isAdded = true)
    (hdone : (enterFragment (takeSnapshot ctx frag) frag storage).checkComplete = true)
    (hmax : (enterFragment (takeSnapshot ctx frag) frag storage).totalFrags.toNat ≤ 1024)
    {frame : ReassembledFrame}
    (hframe : frame = Reassembler.assembleFrame s.config frag.key
      (enterFragment (takeSnapshot ctx frag) frag storage)) :
    (Reassembler.processWith storage clk s packet).1.contexts = s.contexts.erase frag.key ∧
      (Reassembler.processWith storage clk s packet).2 = [⟨frame, none⟩] ∧
      (Reassembler.processWith storage clk s packet).1.stats.framesCompleted =
        s.stats.framesCompleted + if frame.missingFragmentsCount = 0 then 1 else 0 := by
  obtain ⟨s₀, heq, hcfg, -, herase, hcount⟩ := processWith_arrival h storage
  rw [heq, Reassembler.storeFragment, hcfg, addFragment_isAdded hadd]
  simp only [if_pos hdone]
  unfold Reassembler.completeReassembly
  simp only [if_neg (Nat.not_lt.2 hmax), Bool.false_eq_true, if_false, Reassembler.putContext]
  rw [destroyContext_of_mem ((AList.mem_insert _).2 (.inl rfl))]
  simp only [Reassembler.countFrame, AList.insert_insert, KeyMap.erase_insert, herase, hcfg, ← hframe,
    and_true, true_and]
  by_cases hmiss : frame.missingFragmentsCount = 0
  · rw [if_pos hmiss, if_pos hmiss, hcount]
  · rw [if_neg hmiss, if_neg hmiss, hcount]
    rfl

theorem addFragment_takeSnapshot :
    (addFragment cfg (takeSnapshot ctx frag) frag storage).isAdded =
      (addFragment cfg ctx frag storage).isAdded := by
  rw [Bool.eq_iff_iff, addFragment_isAdded_iff, addFragment_isAdded_iff]
  unfold takeSnapshot
  cases frag.tailSnapshot with
  | none => exact Iff.rfl
  | some snapshot => exact Iff.rfl

end

/-! ## Records -/

/-- The fragments of a live key: the one that created its context, and those added to it since. -/
structure FragmentRecord where
  creator : Option Fragment := none
  accepted : List Fragment := []
  deriving DecidableEq

abbrev History := ReassemblyKey → FragmentRecord

def FragmentRecord.add (r : FragmentRecord) (frag : Fragment) : FragmentRecord :=
  { r with accepted := r.accepted ++ [frag] }

@[simp] theorem FragmentRecord.accepted_add (r : FragmentRecord) (frag : Fragment) :
    (r.add frag).accepted = r.accepted ++ [frag] := rfl

/-- The record that a fragment finds: that of its live key, or one that it begins. -/
def Reassembler.begun (s : Reassembler) (h : History) (frag : Fragment) : FragmentRecord :=
  if frag.key ∈ s.contexts then h frag.key else { creator := some frag }

/-- The history after a call. -/
def Reassembler.record (clk : SystemClock) (s : Reassembler) (h : History) (op : ReassemblerOp) :
    History :=
  match op.packet? with
  | none => h
  | some (storage, packet) =>
    match s.arrival clk packet with
    | none => h
    | some (frag, _) =>
      Function.update h frag.key
        (if s.accepts clk storage packet then (s.begun h frag).add frag else s.begun h frag)

/-- A call that also keeps the history; each frame leaves with the record of its key. -/
def recordStep (clk : SystemClock) (st : Reassembler × History) (op : ReassemblerOp) :
    (Reassembler × History) × List (Emission × FragmentRecord) :=
  (((st.1.step clk op).1, st.1.record clk st.2 op),
    (st.1.step clk op).2.map fun e => (e, st.1.record clk st.2 op e.frame.key))

theorem run_recordStep (clk : SystemClock) : ∀ (ops : List ReassemblerOp) (s : Reassembler)
    (h : History), (Machine.run (recordStep clk) (s, h) ops).1.1 = (s.run clk ops).1 ∧
      (Machine.run (recordStep clk) (s, h) ops).2.map Prod.fst = (s.run clk ops).2
  | [], s, h => ⟨rfl, rfl⟩
  | op :: ops, s, h => by
    obtain ⟨h1, h2⟩ := run_recordStep clk ops (s.step clk op).1 (s.record clk h op)
    refine ⟨h1, ?_⟩
    simp only [Machine.run, Reassembler.run, recordStep, List.map_append, List.map_map] at h2 ⊢
    rw [h2]
    simp [Function.comp_def]

/-- A packet of the key `{}` with the given header fields; `body` follows the data-specific
header. -/
def dataPacket (fragIndex totalFrags tailFragPayloadBytes : Byte) (body : List Byte) :
    ParsedPacket where
  header := { payloadLen := BitVec.ofNat 16 (specificSize + body.length) }
  payload := some
    (List.replicate 34 0 ++ [fragIndex, 0, totalFrags, 0, tailFragPayloadBytes, 0] ++ body)
  totalSize := commonHeaderSize + specificSize + body.length

/-- What the context holds is what the record says; its fragments satisfy `P`. -/
structure Behind (P : Fragment → Prop) (ctx : ReassemblyContext) (r : FragmentRecord) : Prop where
  creator : ∃ c, P c ∧ r.creator = some c ∧ ctx.totalFrags = c.specific.totalFrags ∧
    ctx.tailFragPayloadBytes = c.specific.tailFragPayloadBytes
  words : ctx.receivedFragments.length = 16
  slots : ctx.fragmentSizes.length = ctx.totalFrags.toNat ∧
    ctx.fragmentRefs.length = ctx.totalFrags.toNat
  bits : ∀ i, ctx.receivedFragments.test i = true ↔ ∃ f ∈ r.accepted, f.index = i
  nodup : (r.accepted.map Fragment.index).Nodup
  count : ctx.receivedCount.toNat = r.accepted.length
  checked : ∀ f ∈ r.accepted, P f ∧ f.index < ctx.totalFrags.toNat ∧ f.index < 1024 ∧
    (f.specific.isTailFragment = true → f.payloadSize = ctx.tailFragPayloadBytes.toNat) ∧
    (f.specific.isTailFragment = false → 0 < f.payloadSize)
  full : ∀ f ∈ r.accepted, ctx.fragmentSizes.getD f.index 0 = f.payloadSize ∧
    (0 < f.payloadSize → ∃ storage, ctx.fragmentRefs.getD f.index {} =
      ⟨some storage, some f.payload, f.payloadSize⟩) ∧
    (f.payloadSize = 0 → ctx.fragmentRefs.getD f.index {} = {})
  clear : ∀ i, (∀ f ∈ r.accepted, f.index ≠ i) → ctx.fragmentSizes.getD i 0 = 0 ∧
    ctx.fragmentRefs.getD i {} = {}

section
variable {P : Fragment → Prop} {ctx : ReassemblyContext} {r : FragmentRecord} {frag : Fragment}
  {storage : FragmentStorage} {cfg : ReassemblerConfig}

theorem behind_new (hP : P frag) (now : BitVec 64) :
    Behind P (newContext frag now) { creator := some frag } := by
  constructor
  · exact ⟨frag, hP, rfl, rfl, rfl⟩
  · simp [newContext, Bitmap.zeros]
  · simp [newContext]
  · simp [newContext, Bitmap.test_zeros]
  · exact List.nodup_nil
  · simp [newContext]
  · simp
  · simp
  · intro i _
    simp only [newContext, List.getD_eq_getElem?_getD, List.getElem?_replicate]
    split <;> exact ⟨rfl, rfl⟩

theorem Behind.mono {Q : Fragment → Prop} (h : Behind P ctx r) (hPQ : ∀ f, P f → Q f) :
    Behind Q ctx r := by
  obtain ⟨c, hc, heq⟩ := h.creator
  exact ⟨⟨c, hPQ c hc, heq⟩, h.words, h.slots, h.bits, h.nodup, h.count,
    fun f hf => ⟨hPQ f (h.checked f hf).1, (h.checked f hf).2⟩, h.full, h.clear⟩

theorem Behind.takeSnapshot (h : Behind P ctx r) (frag : Fragment) :
    Behind P (takeSnapshot ctx frag) r := by
  unfold Pipeline.takeSnapshot
  cases frag.tailSnapshot with
  | none => exact h
  | some snapshot =>
    exact ⟨h.creator, h.words, h.slots, h.bits, h.nodup, h.count, h.checked, h.full, h.clear⟩

theorem Behind.subperm {n : Nat} (h : Behind P ctx r) (hn : ∀ f ∈ r.accepted, f.index < n) :
    (r.accepted.map Fragment.index).Subperm (List.range n) := by
  refine List.subperm_of_subset h.nodup fun i hi => ?_
  obtain ⟨f, hf, rfl⟩ := List.mem_map.1 hi
  exact List.mem_range.2 (hn f hf)

theorem Behind.length_le (h : Behind P ctx r) :
    r.accepted.length ≤ ctx.totalFrags.toNat ∧ r.accepted.length ≤ 1024 := by
  have h1 := (h.subperm fun f hf => (h.checked f hf).2.1).length_le
  have h2 := (h.subperm fun f hf => (h.checked f hf).2.2.1).length_le
  simp only [List.length_map, List.length_range] at h1 h2
  exact ⟨h1, h2⟩

/-- Every index of the context was accepted. -/
def FragmentRecord.Full (r : FragmentRecord) (n : Nat) : Prop :=
  ∀ i < n, ∃ f ∈ r.accepted, f.index = i

/-- A context is complete by its count exactly when every index was accepted. -/
theorem Behind.checkComplete_iff (h : Behind P ctx r) :
    ctx.checkComplete = true ↔ r.Full ctx.totalFrags.toNat := by
  have hsub := h.subperm fun f hf => (h.checked f hf).2.1
  rw [ReassemblyContext.checkComplete, beq_iff_eq, ← BitVec.toNat_inj, h.count]
  constructor
  · intro hlen i hi
    have hperm := hsub.perm_of_length_le (by simp [hlen])
    exact List.mem_map.1 (hperm.mem_iff.2 (List.mem_range.2 hi))
  · intro hfull
    have hle : (List.range ctx.totalFrags.toNat).length ≤
      (r.accepted.map Fragment.index).length := by
      refine (List.subperm_of_subset List.nodup_range fun i hi => ?_).length_le
      exact List.mem_map.2 (hfull i (List.mem_range.1 hi))
    have := hsub.length_le
    simp only [List.length_map, List.length_range] at hle this
    omega

/-- A slot is taken as received when its fragment was accepted with data. -/
theorem Behind.received_iff (h : Behind P ctx r) (i : Nat) :
    Reassembler.received ctx i = true ↔ ∃ f ∈ r.accepted, f.index = i ∧ 0 < f.payloadSize := by
  simp only [Reassembler.received, Bool.and_eq_true, decide_eq_true_eq]
  constructor
  · rintro ⟨⟨hbit, -⟩, hdata⟩
    obtain ⟨f, hf, rfl⟩ := (h.bits i).1 hbit
    refine ⟨f, hf, rfl, Nat.pos_of_ne_zero fun hzero => ?_⟩
    rw [(h.full f hf).2.2 hzero] at hdata
    cases hdata
  · rintro ⟨f, hf, rfl, hpos⟩
    obtain ⟨storage, href⟩ := (h.full f hf).2.1 hpos
    refine ⟨⟨(h.bits _).2 ⟨f, hf, rfl⟩, ?_⟩, ?_⟩
    · rw [h.slots.2]
      exact (h.checked f hf).2.1
    · rw [href]
      simp [FragmentRef.hasData, hpos]

/-- **A fragment added** to a context. -/
theorem Behind.enter (h : Behind P ctx r) (hP : P frag)
    (hadd : (addFragment cfg ctx frag storage).isAdded = true) :
    Behind P (enterFragment ctx frag storage) (r.add frag) := by
  obtain ⟨hi, hlt, hbit, -, htail, hinner⟩ := addFragment_isAdded_iff.1 hadd
  have hword : frag.index / 64 < ctx.receivedFragments.length := by
    rw [h.words]
    omega
  have hlen := h.length_le
  have hnew : ∀ f ∈ r.accepted, f.index ≠ frag.index := by
    intro f hf heq
    rw [(h.bits frag.index).2 ⟨f, hf, heq⟩] at hbit
    cases hbit
  have hsizes : frag.index < ctx.fragmentSizes.length := by
    rw [h.slots.1]
    exact hi
  have hrefs : frag.index < ctx.fragmentRefs.length := by
    rw [h.slots.2]
    exact hi
  constructor
  · exact h.creator
  · rw [length_words_enterFragment]
    exact h.words
  · rw [length_sizes_enterFragment, length_refs_enterFragment]
    exact h.slots
  · intro i
    simp only [test_enterFragment hword, Bool.or_eq_true, decide_eq_true_eq, h.bits,
      FragmentRecord.accepted_add, List.mem_append, List.mem_singleton, or_and_right, exists_or,
      exists_eq_left]
  · rw [FragmentRecord.accepted_add, List.map_append]
    refine List.nodup_append.2 ⟨h.nodup, List.nodup_singleton _, fun i hi j hj => ?_⟩
    obtain ⟨f, hf, rfl⟩ := List.mem_map.1 hi
    obtain rfl := List.mem_singleton.1 hj
    exact hnew f hf
  · have hcount := h.count
    simp only [enterFragment, FragmentRecord.accepted_add, List.length_append,
      List.length_singleton, BitVec.toNat_add, BitVec.ofNat_eq_ofNat, BitVec.toNat_ofNat]
    omega
  · intro f hf
    rcases List.mem_append.1 hf with hf | hf
    · exact h.checked f hf
    · obtain rfl := List.mem_singleton.1 hf
      exact ⟨hP, hi, hlt, htail, hinner⟩
  · intro f hf
    rcases List.mem_append.1 hf with hf | hf
    · have hne := Ne.symm (hnew f hf)
      rw [size_enterFragment_ne hne, ref_enterFragment_ne hne]
      exact h.full f hf
    · obtain rfl := List.mem_singleton.1 hf
      refine ⟨size_enterFragment_self hsizes, fun hpos => ?_, fun hzero => ?_⟩
      · exact ⟨storage, ref_enterFragment_self hrefs hpos⟩
      · rw [refs_enterFragment_empty hzero]
        exact (h.clear f.index hnew).2
  · intro i hno
    have hne : frag.index ≠ i := hno frag (List.mem_append_right _ (List.mem_singleton_self _))
    rw [size_enterFragment_ne hne, ref_enterFragment_ne hne]
    exact h.clear i fun f hf => hno f (List.mem_append_left _ hf)

end

/-! ## The completions of a timeout or a flush -/

/-- What the completion loop does: it only takes contexts out, and each frame is assembled from one
of them as it was before the loop. -/
structure Drains (s : Reassembler) (r : Reassembler × List Emission) : Prop where
  config : r.1.config = s.config
  lookup : ∀ key ctx, r.1.contexts.lookup key = some ctx → s.contexts.lookup key = some ctx
  frames : ∀ e ∈ r.2, ∃ ctx, s.contexts.lookup e.frame.key = some ctx ∧
    ctx.totalFrags.toNat ≤ 1024 ∧ e.frame = Reassembler.assembleFrame s.config e.frame.key ctx
  missing : r.1.stats.totalMissingFragments = s.stats.totalMissingFragments +
    (r.2.map fun e => e.frame.missingFragmentsCount.toNat).sum

section
variable {clk : SystemClock} {s s' : Reassembler} {key : ReassemblyKey} {ctx : ReassemblyContext}

theorem Drains.refl (s : Reassembler) : Drains s (s, []) :=
  ⟨rfl, fun _ _ h => h, by simp, by simp⟩

theorem Drains.cons {e : Emission} {r : Reassembler × List Emission} (h1 : Drains s (s', [e]))
    (h2 : Drains s' r) : Drains s (r.1, e :: r.2) := by
  constructor
  · exact h2.config.trans h1.config
  · exact fun k c hk => h1.lookup k c (h2.lookup k c hk)
  · intro e' he'
    rcases List.mem_cons.1 he' with rfl | he'
    · exact h1.frames _ List.mem_cons_self
    · obtain ⟨c, hc, hmax, hframe⟩ := h2.frames e' he'
      exact ⟨c, h1.lookup _ c hc, hmax, by rw [← h1.config]; exact hframe⟩
  · have hm1 := h1.missing
    have hm2 := h2.missing
    simp only [List.map_cons, List.map_nil, List.sum_cons, List.sum_nil] at hm1 ⊢
    omega

theorem countFrame_missing (s : Reassembler) (frame : ReassembledFrame) :
    (s.countFrame frame true).stats.totalMissingFragments =
      s.stats.totalMissingFragments + frame.missingFragmentsCount.toNat := by
  simp [Reassembler.countFrame]

theorem addFrozenKey_stats (s : Reassembler) (key : ReassemblyKey) (expire : BitVec 64) :
    (s.addFrozenKey key expire).stats = s.stats := by
  unfold Reassembler.addFrozenKey
  split <;> rfl

theorem destroyContext_missing (s : Reassembler) (key : ReassemblyKey) :
    (s.destroyContext key).stats.totalMissingFragments = s.stats.totalMissingFragments := by
  unfold Reassembler.destroyContext
  split <;> rfl

theorem timeout_drains {e : Emission} (hl : s.contexts.lookup key = some ctx)
    (h : s.completeReassembly clk key ctx true = some (s', e)) : Drains s (s', [e]) := by
  have hmissing : s'.stats.totalMissingFragments =
      s.stats.totalMissingFragments + e.frame.missingFragmentsCount.toNat := by
    unfold Reassembler.completeReassembly at h
    split at h
    · cases h
    · simp only [if_true, Option.some.injEq, Prod.mk.injEq] at h
      obtain ⟨rfl, rfl⟩ := h
      rw [destroyContext_missing, addFrozenKey_stats, countFrame_missing]
  have hmax : ctx.totalFrags.toNat ≤ 1024 := by
    unfold Reassembler.completeReassembly at h
    split at h
    case isTrue => cases h
    case isFalse hle => exact Nat.le_of_not_lt hle
  obtain ⟨⟨stats, rfl⟩, rfl⟩ := completeReassembly_timeout h
  constructor
  · exact addFrozenKey_config
  · exact fun k c hk => (KeyMap.lookup_erase_some hk).2
  · intro e he
    rw [List.mem_singleton.1 he]
    exact ⟨ctx, hl, hmax, rfl⟩
  · simpa using hmissing

/-- **The completion loop.** -/
theorem completeAll_drains (clk : SystemClock) : ∀ (keys : List ReassemblyKey) (s : Reassembler),
    Drains s (Reassembler.completeAll clk keys s) := by
  intro keys
  induction keys with
  | nil => exact Drains.refl
  | cons key keys ih =>
    intro s
    unfold Reassembler.completeAll
    cases hl : s.contexts.lookup key with
    | none => exact ih s
    | some ctx =>
      simp only
      cases hc : s.completeReassembly clk key ctx true with
      | none => exact Drains.refl s
      | some r => exact (timeout_drains hl hc).cons (ih r.1)

/-- The calls without a packet, `reset_statistics` apart, whose counters start again. -/
theorem step_drains {op : ReassemblerOp} (hop : op.packet? = none)
    (hreset : op ≠ .resetStatistics) :
    Drains s (s.step clk op) := by
  cases op with
  | processPacket packet => cases hop
  | processPacketZeroCopy packet => cases hop
  | checkTimeouts order =>
    have h := completeAll_drains clk (order.toFun (s.timedOut (clk s.reads)))
      { s with reads := s.reads + 1 }
    exact ⟨h.config, h.lookup, h.frames, h.missing⟩
  | flushAll order => exact completeAll_drains clk _ s
  | setTimeoutMs timeoutMs => exact ⟨rfl, fun _ _ h => h, by simp [Reassembler.step], by
      simp [Reassembler.step, Reassembler.setTimeoutMs]⟩
  | resetStatistics => exact absurd rfl hreset

end

/-! ## Steps -/

/-- Every live key has its record, and a fragment of it is missing. -/
structure Recorded (P : Fragment → Prop) (cfg : ReassemblerConfig) (st : Reassembler × History) :
    Prop where
  config : st.1.config = cfg
  behind : ∀ key ctx, st.1.contexts.lookup key = some ctx → Behind P ctx (st.2 key)
  missing : ∀ key ctx, st.1.contexts.lookup key = some ctx → ctx.checkComplete = false

theorem recorded_new (P : Fragment → Prop) (cfg : ReassemblerConfig) (h : History) :
    Recorded P cfg (Reassembler.new cfg, h) := by
  refine ⟨rfl, ?_, ?_⟩
  · intro key ctx hl
    cases hl
  · intro key ctx hl
    cases hl

section
variable {P : Fragment → Prop} {clk : SystemClock} {cfg : ReassemblerConfig} {s : Reassembler}
  {h : History} {op : ReassemblerOp} {storage : FragmentStorage} {packet : ParsedPacket}
  {frag : Fragment} {ctx : ReassemblyContext}

theorem record_none (hop : op.packet? = none) : s.record clk h op = h := by
  unfold Reassembler.record
  rw [hop]

theorem record_none_arrival (hop : op.packet? = some (storage, packet))
    (harr : s.arrival clk packet = none) : s.record clk h op = h := by
  unfold Reassembler.record
  rw [hop]
  simp only [harr]

theorem record_arrival (hop : op.packet? = some (storage, packet))
    (harr : s.arrival clk packet = some (frag, ctx)) :
    s.record clk h op = Function.update h frag.key
      (if (addFragment s.config (takeSnapshot ctx frag) frag storage).isAdded then
        (s.begun h frag).add frag else s.begun h frag) := by
  unfold Reassembler.record Reassembler.accepts
  rw [hop]
  simp only [harr]

/-- **The context that a packet is brought to**, before `add_fragment`. -/
theorem Recorded.arrives (hr : Recorded P cfg (s, h))
    (harr : s.arrival clk packet = some (frag, ctx)) (hP : P frag) :
    Behind P (takeSnapshot ctx frag) (s.begun h frag) ∧ ctx.checkComplete = false := by
  obtain ⟨hfrag, -, hctx⟩ := arrival_eq_some.1 harr
  cases hctx with
  | live hl =>
    rw [Reassembler.begun, if_pos (KeyMap.mem_of_lookup hl)]
    exact ⟨(hr.behind _ _ hl).takeSnapshot frag, hr.missing _ _ hl⟩
  | fresh hl hfree =>
    rw [Reassembler.begun, if_neg (AList.lookup_eq_none.1 hl)]
    refine ⟨(behind_new hP _).takeSnapshot frag, ?_⟩
    have hpos := (fragmentOf_total hfrag).1
    rw [ReassemblyContext.checkComplete, beq_eq_false_iff_ne]
    intro heq
    have : (0 : BitVec 16).toNat = frag.specific.totalFrags.toNat := congrArg BitVec.toNat heq
    simp only [BitVec.ofNat_eq_ofNat, BitVec.toNat_ofNat, Nat.zero_mod] at this
    omega

theorem Recorded.put {s' : Reassembler} {key : ReassemblyKey} {r : FragmentRecord}
    (hr : Recorded P cfg (s, h)) (hcfg : s'.config = s.config)
    (hcontexts : s'.contexts = s.contexts.insert key ctx) (hbehind : Behind P ctx r)
    (hmissing : ctx.checkComplete = false) : Recorded P cfg (s', Function.update h key r) := by
  refine ⟨hcfg.trans hr.config, fun k c hk => ?_, fun k c hk => ?_⟩
  · simp only [hcontexts] at hk
    rcases KeyMap.lookup_insert_cases hk with ⟨rfl, rfl⟩ | ⟨hne, hk⟩
    · simp only [Function.update_self]
      exact hbehind
    · simp only [Function.update_of_ne hne]
      exact hr.behind k c hk
  · simp only [hcontexts] at hk
    rcases KeyMap.lookup_insert_cases hk with ⟨rfl, rfl⟩ | ⟨hne, hk⟩
    · exact hmissing
    · exact hr.missing k c hk

theorem Recorded.erase {s' : Reassembler} {key : ReassemblyKey} (hr : Recorded P cfg (s, h))
    (hcfg : s'.config = s.config) (hcontexts : s'.contexts = s.contexts.erase key)
    (r : FragmentRecord) : Recorded P cfg (s', Function.update h key r) := by
  refine ⟨hcfg.trans hr.config, fun k c hk => ?_, fun k c hk => ?_⟩
  · simp only [hcontexts] at hk
    obtain ⟨hne, hk⟩ := KeyMap.lookup_erase_some hk
    simp only [Function.update_of_ne hne]
    exact hr.behind k c hk
  · simp only [hcontexts] at hk
    exact hr.missing k c (KeyMap.lookup_erase_some hk).2

theorem Recorded.sub {s' : Reassembler} (hr : Recorded P cfg (s, h)) (hcfg : s'.config = s.config)
    (hlookup : ∀ k c, s'.contexts.lookup k = some c → s.contexts.lookup k = some c) :
    Recorded P cfg (s', h) :=
  ⟨hcfg.trans hr.config, fun k c hk => hr.behind k c (hlookup k c hk),
    fun k c hk => hr.missing k c (hlookup k c hk)⟩

theorem processWith_config (storage : FragmentStorage) (clk : SystemClock) (s : Reassembler)
    (packet : ParsedPacket) : (Reassembler.processWith storage clk s packet).1.config =
      s.config := by
  cases hfrag : fragmentOf s.config packet with
  | none =>
    rw [processWith_none storage clk hfrag]
    rfl
  | some frag =>
    obtain ⟨contexts, stats, out, heq, -⟩ := processWith_effect storage clk hfrag
    rw [heq]

theorem Behind.total_le {r : FragmentRecord} (hb : Behind P ctx r)
    (hdone : ctx.checkComplete = true) : ctx.totalFrags.toNat ≤ 1024 := by
  have hlen := hb.length_le.2
  rw [ReassemblyContext.checkComplete, beq_iff_eq] at hdone
  rw [← hdone, hb.count]
  exact hlen

/-- **A step** keeps the records. -/
theorem recorded_step (hP : ∀ storage packet f, op.packet? = some (storage, packet) →
      fragmentOf cfg packet = some f → P f) (hr : Recorded P cfg (s, h)) :
    Recorded P cfg (recordStep clk (s, h) op).1 := by
  simp only [recordStep]
  cases hop : op.packet? with
  | none =>
    rw [record_none hop]
    by_cases hreset : op = .resetStatistics
    · subst hreset
      exact hr.sub rfl fun k c hk => hk
    · have hd : Drains s (s.step clk op) := step_drains hop hreset
      exact hr.sub hd.config hd.lookup
  | some sp =>
    obtain ⟨storage, packet⟩ := sp
    have hcfg := processWith_config storage clk s packet
    rw [step_packet hop]
    cases harr : s.arrival clk packet with
    | none =>
      rw [record_none_arrival hop harr]
      refine hr.sub hcfg fun k c hk => ?_
      rwa [(processWith_none_arrival harr storage).1] at hk
    | some fc =>
      obtain ⟨frag, ctx⟩ := fc
      have hfrag := (arrival_eq_some.1 harr).1
      rw [hr.config] at hfrag
      have hPf := hP storage packet frag hop hfrag
      obtain ⟨hbehind, hopen⟩ := hr.arrives harr hPf
      rw [record_arrival hop harr]
      cases hadd : (addFragment s.config (takeSnapshot ctx frag) frag storage).isAdded with
      | false =>
        rw [if_neg Bool.false_ne_true]
        refine hr.put hcfg (processWith_refused harr hadd).1 hbehind ?_
        rwa [takeSnapshot_checkComplete]
      | true =>
        have hentered := hbehind.enter hPf hadd
        rw [if_pos rfl]
        cases hdone : (enterFragment (takeSnapshot ctx frag) frag storage).checkComplete with
        | false => exact hr.put hcfg (processWith_open harr hadd hdone).1 hentered hdone
        | true =>
          have hmax := hentered.total_le hdone
          exact hr.erase hcfg (processWith_done harr hadd hdone hmax rfl).1 _

/-- **A run** keeps the records. -/
theorem run_recorded {ops : List ReassemblerOp}
    (hP : ∀ op ∈ ops, ∀ storage packet f, op.packet? = some (storage, packet) →
      fragmentOf cfg packet = some f → P f) (h : History) :
    Recorded P cfg (Machine.run (recordStep clk) (Reassembler.new cfg, h) ops).1 :=
  Machine.run_inv (fun _ op hop hr => recorded_step (hP op hop) hr) (recorded_new P cfg h)

/-- **A frame that leaves by a timeout or a flush** is assembled from a live context. -/
theorem Recorded.drained {e : Emission} (hr : Recorded P cfg (s, h)) (hop : op.packet? = none)
    (he : e ∈ (s.step clk op).2) :
    ∃ ctx, s.contexts.lookup e.frame.key = some ctx ∧
      Behind P ctx (s.record clk h op e.frame.key) ∧ ctx.checkComplete = false ∧
      ctx.totalFrags.toNat ≤ 1024 ∧
      e.frame = Reassembler.assembleFrame s.config e.frame.key ctx := by
  have hreset : op ≠ .resetStatistics := by
    rintro rfl
    cases he
  have hd : Drains s (s.step clk op) := step_drains hop hreset
  obtain ⟨ctx, hl, hmax, hframe⟩ := hd.frames e he
  rw [record_none hop]
  exact ⟨ctx, hl, hr.behind _ ctx hl, hr.missing _ ctx hl, hmax, hframe⟩

/-- The packet brings its context the last fragment that it misses. -/
structure Completing (clk : SystemClock) (s : Reassembler) (op : ReassemblerOp) (frag : Fragment)
    (ctx : ReassemblyContext) : Prop where
  arrives : ∃ storage packet, op.packet? = some (storage, packet) ∧
    s.arrival clk packet = some (frag, ctx) ∧ s.accepts clk storage packet = true
  last : ctx.receivedCount + 1 = ctx.totalFrags

theorem Completing.arrival (hc : Completing clk s op frag ctx)
    (hop : op.packet? = some (storage, packet)) : s.arrival clk packet = some (frag, ctx) ∧
      (addFragment s.config (takeSnapshot ctx frag) frag storage).isAdded = true := by
  obtain ⟨storage', packet', hop', harr, hacc⟩ := hc.arrives
  rw [hop] at hop'
  cases hop'
  exact ⟨harr, by simpa [Reassembler.accepts, harr] using hacc⟩

/-- **A frame that a packet completes** is assembled from the context that it was brought to. -/
theorem Recorded.completed (hr : Recorded P cfg (s, h)) (hop : op.packet? = some (storage, packet))
    (hP : ∀ f, fragmentOf cfg packet = some f → P f) (hc : Completing clk s op frag ctx)
    {ctx' : ReassemblyContext} (hctx' : ctx' = enterFragment (takeSnapshot ctx frag) frag storage) :
    Behind P ctx' ((s.begun h frag).add frag) ∧ ctx'.checkComplete = true ∧
      ctx'.totalFrags.toNat ≤ 1024 ∧ s.record clk h op frag.key = (s.begun h frag).add frag ∧
      (s.step clk op).2 = [⟨Reassembler.assembleFrame s.config frag.key ctx', none⟩] ∧
      (s.step clk op).1.stats.framesCompleted = s.stats.framesCompleted +
        if (Reassembler.assembleFrame s.config frag.key ctx').missingFragmentsCount = 0 then 1
        else 0 := by
  subst hctx'
  obtain ⟨harr, hadd⟩ := hc.arrival hop
  have hfrag := (arrival_eq_some.1 harr).1
  rw [hr.config] at hfrag
  have hentered := (hr.arrives harr (hP frag hfrag)).1.enter (hP frag hfrag) hadd
  have hdone : (enterFragment (takeSnapshot ctx frag) frag storage).checkComplete = true :=
    completes_iff.2 hc.last
  have hmax := hentered.total_le hdone
  obtain ⟨-, hout, hcount⟩ := processWith_done harr hadd hdone hmax rfl
  refine ⟨hentered, hdone, hmax, ?_, ?_, ?_⟩
  · rw [record_arrival hop harr, if_pos hadd, Function.update_self]
  · rw [step_packet hop]
    exact hout
  · rw [step_packet hop]
    exact hcount

/-- A packet that completes nothing emits nothing. -/
theorem step_silent (hop : op.packet? = some (storage, packet))
    (hno : ∀ frag ctx, ¬ Completing clk s op frag ctx) : (s.step clk op).2 = [] := by
  rw [step_packet hop]
  cases harr : s.arrival clk packet with
  | none => exact (processWith_none_arrival harr storage).2
  | some fc =>
    obtain ⟨frag, ctx⟩ := fc
    cases hadd : (addFragment s.config (takeSnapshot ctx frag) frag storage).isAdded with
    | false => exact (processWith_refused harr hadd).2
    | true =>
      cases hdone : (enterFragment (takeSnapshot ctx frag) frag storage).checkComplete with
      | false => exact (processWith_open harr hadd hdone).2
      | true =>
        have hacc : s.accepts clk storage packet = true := by
          simpa [Reassembler.accepts, harr] using hadd
        exact absurd ⟨⟨storage, packet, hop, harr, hacc⟩, completes_iff.1 hdone⟩ (hno frag ctx)

/-- A packet that emits a frame has completed the context that it was brought to. -/
theorem Recorded.packet_emits {e : Emission} (hr : Recorded P cfg (s, h))
    (hP : ∀ f, fragmentOf cfg packet = some f → P f) (hop : op.packet? = some (storage, packet))
    (he : e ∈ (s.step clk op).2) :
    ∃ frag ctx, s.arrival clk packet = some (frag, ctx) ∧
      (addFragment s.config (takeSnapshot ctx frag) frag storage).isAdded = true ∧
      Behind P (enterFragment (takeSnapshot ctx frag) frag storage) ((s.begun h frag).add frag) ∧
      (enterFragment (takeSnapshot ctx frag) frag storage).totalFrags.toNat ≤ 1024 ∧
      s.record clk h op frag.key = (s.begun h frag).add frag ∧
      e.frame = Reassembler.assembleFrame s.config frag.key
        (enterFragment (takeSnapshot ctx frag) frag storage) := by
  have hsome : ∃ frag ctx, Completing clk s op frag ctx := by
    by_contra hno
    rw [step_silent hop fun frag ctx hc => hno ⟨frag, ctx, hc⟩] at he
    cases he
  obtain ⟨frag, ctx, hc⟩ := hsome
  obtain ⟨harr, hadd⟩ := hc.arrival hop
  obtain ⟨hbehind, -, hmax, hrecord, hout, -⟩ := hr.completed hop hP hc rfl
  rw [hout, List.mem_singleton] at he
  exact ⟨frag, ctx, harr, hadd, hbehind, hmax, hrecord, congrArg Emission.frame he⟩

/-- **Every emitted frame** is assembled from a context with its record. -/
theorem Recorded.emitted {e : Emission} (hr : Recorded P cfg (s, h))
    (hP : ∀ storage packet f, op.packet? = some (storage, packet) → fragmentOf cfg packet = some f →
      P f) (he : e ∈ (s.step clk op).2) :
    ∃ ctx, Behind P ctx (s.record clk h op e.frame.key) ∧ ctx.totalFrags.toNat ≤ 1024 ∧
      e.frame = Reassembler.assembleFrame cfg e.frame.key ctx := by
  have hcfg : s.config = cfg := hr.config
  cases hop : op.packet? with
  | none =>
    obtain ⟨ctx, -, hbehind, -, hmax, hframe⟩ := hr.drained hop he
    exact ⟨ctx, hbehind, hmax, hcfg ▸ hframe⟩
  | some sp =>
    obtain ⟨storage, packet⟩ := sp
    obtain ⟨frag, ctx, -, -, hbehind, hmax, hrecord, hframe⟩ :=
      hr.packet_emits (fun f => hP storage packet f hop) hop he
    have hkey : e.frame.key = frag.key := by rw [hframe]; rfl
    rw [hkey, hrecord]
    exact ⟨_, hbehind, hmax, hcfg ▸ hframe⟩

/-- The frames of a run. -/
theorem run_emitted {ops : List ReassemblerOp} {e : Emission}
    (hP : ∀ op ∈ ops, ∀ storage packet f, op.packet? = some (storage, packet) →
      fragmentOf cfg packet = some f → P f) (hr : Recorded P cfg (s, h))
    (he : e ∈ (s.run clk ops).2) :
    ∃ ctx r, Behind P ctx r ∧ ctx.totalFrags.toNat ≤ 1024 ∧
      e.frame = Reassembler.assembleFrame cfg e.frame.key ctx := by
  induction ops generalizing s h with
  | nil => cases he
  | cons op ops ih =>
    have hPop := hP op List.mem_cons_self
    rcases List.mem_append.1 he with he | he
    · obtain ⟨ctx, hframe⟩ := hr.emitted hPop he
      exact ⟨ctx, _, hframe⟩
    · exact ih (fun op' hop' => hP op' (List.mem_cons_of_mem _ hop')) (recorded_step hPop hr) he

end

end Qdgz300.Pipeline
