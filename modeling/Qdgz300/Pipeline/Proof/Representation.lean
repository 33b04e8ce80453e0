import Qdgz300.Pipeline.Proof.FrozenRing

/-!
# The representation invariant of the reassembler

`Accounts` is what holds of the map, the ring and the counters together, whatever the contexts hold:
a live key has no valid entry in the ring, so a freeze takes a slot of its own, and every context
that is destroyed is counted as one frame. `ContextOk` is what holds of one live context.

* `completeReassembly_accounts`, `acceptFragment_represents`, `completeAll_represents`: the
  operations.
* **`run_represents`**: every reachable state satisfies both.
-/

namespace Qdgz300.Pipeline

open Protocol

/-- A live context: its bits, its counters and its slots agree, and a fragment is missing. -/
structure ContextOk (cfg : ReassemblerConfig) (ctx : ReassemblyContext) : Prop where
  total : ctx.totalFrags.toNat ≤ 1024
  words : ctx.receivedFragments.length = 16
  within : ∀ i, ctx.receivedFragments.test i = true → i < ctx.totalFrags.toNat
  count : ctx.receivedCount.toNat = ctx.receivedFragments.count
  missing : ctx.receivedCount.toNat < ctx.totalFrags.toNat
  bytes : ctx.receivedPayloadBytes = ctx.totalPayloadSize
  sum : ctx.totalPayloadSize = ctx.fragmentSizes.sum
  limit : ctx.receivedPayloadBytes ≤ cfg.maxReasmBytesPerKey
  slots : ctx.fragmentSizes.length = ctx.totalFrags.toNat ∧
    ctx.fragmentRefs.length = ctx.totalFrags.toNat
  sizes : ∀ i, 0 < ctx.fragmentSizes.getD i 0 → ctx.receivedFragments.test i = true
  refs : ∀ i, (ctx.fragmentRefs.getD i {}).hasData = true → ctx.receivedFragments.test i = true

/-- The map, the ring and the counters. -/
structure Accounts (cfg : ReassemblerConfig) (s : Reassembler) : Prop where
  config : s.config = cfg
  size : KeyMap.size s.contexts ≤ cfg.maxContexts
  unfrozen : ∀ key ∈ s.contexts, ∀ e ∈ s.frozenKeysRing, e.valid = true → e.key ≠ key
  distinct : ∀ (i j : Nat) (a b : FrozenKeyEntry), s.frozenKeysRing[i]? = some a →
    s.frozenKeysRing[j]? = some b → a.valid = true → b.valid = true → a.key = b.key → i = j
  created : s.stats.contextsCreated = s.stats.contextsDestroyed + KeyMap.size s.contexts
  frames : s.stats.framesCompleted + s.stats.framesIncomplete = s.stats.contextsDestroyed

/-- The contexts of a state. -/
def ContextsOk (cfg : ReassemblerConfig) (s : Reassembler) : Prop :=
  ∀ key ctx, s.contexts.lookup key = some ctx → ContextOk cfg ctx

/-- The representation invariant. -/
structure Represents (cfg : ReassemblerConfig) (s : Reassembler) : Prop where
  accounts : Accounts cfg s
  contexts : ContextsOk cfg s

theorem represents_new (cfg : ReassemblerConfig) : Represents cfg (Reassembler.new cfg) := by
  refine ⟨⟨rfl, Nat.zero_le _, ?_, ?_, rfl, rfl⟩, ?_⟩
  · intro key h
    cases h
  · intro i j a b ha hb hv
    rw [List.eq_of_mem_replicate (List.mem_of_getElem? ha)] at hv
    cases hv
  · intro key ctx h
    cases h

section
variable {clk : SystemClock} {cfg : ReassemblerConfig} {s s' : Reassembler} {frag : Fragment}
  {key : ReassemblyKey} {ctx : ReassemblyContext} {storage : FragmentStorage}

/-! ## One context -/

theorem contextOk_new (now : BitVec 64) (hpos : 0 < frag.specific.totalFrags.toNat)
    (hmax : frag.specific.totalFrags.toNat ≤ 1024) : ContextOk cfg (newContext frag now) := by
  refine ⟨hmax, by simp [newContext, Bitmap.zeros], ?_, ?_, hpos, rfl, ?_, Nat.zero_le _, ?_, ?_, ?_⟩
  · intro i hi
    rw [newContext, Bitmap.test_zeros] at hi
    cases hi
  · rw [newContext, Bitmap.count_zeros]
    rfl
  · simp [newContext]
  · simp [newContext]
  · intro i hi
    simp only [newContext, List.getD_eq_getElem?_getD, List.getElem?_replicate] at hi
    split at hi <;> simp at hi
  · intro i hi
    simp only [newContext, List.getD_eq_getElem?_getD, List.getElem?_replicate] at hi
    split at hi <;> cases hi

theorem ContextOk.takeSnapshot (h : ContextOk cfg ctx) (frag : Fragment) :
    ContextOk cfg (takeSnapshot ctx frag) := by
  unfold Pipeline.takeSnapshot
  cases frag.tailSnapshot with
  | none => exact h
  | some snapshot =>
    exact ⟨h.total, h.words, h.within, h.count, h.missing, h.bytes, h.sum, h.limit, h.slots, h.sizes,
      h.refs⟩

theorem addFragment_checked {ctx' : ReassemblyContext}
    (h : addFragment cfg ctx frag storage = .added ctx') :
    frag.specific.fragIndex.toNat < ctx.totalFrags.toNat ∧
      ctx.receivedFragments.test frag.specific.fragIndex.toNat = false ∧
      ctx.receivedPayloadBytes + frag.payloadSize ≤ cfg.maxReasmBytesPerKey := by
  obtain ⟨hi, -, hclear, hbytes, -⟩ := addFragment_isAdded_iff.1 (by rw [h]; rfl)
  exact ⟨hi, hclear, hbytes⟩

theorem sum_set_zero : ∀ {l : List Nat} {i : Nat}, i < l.length → l.getD i 0 = 0 → ∀ x : Nat,
    (l.set i x).sum = l.sum + x
  | [], _, hi, _, _ => absurd hi (Nat.not_lt_zero _)
  | a :: l, 0, _, ha, x => by
    have : a = 0 := ha
    rw [List.set_cons_zero, List.sum_cons, List.sum_cons, this]
    omega
  | a :: l, i + 1, hi, ha, x => by
    rw [List.set_cons_succ, List.sum_cons, List.sum_cons,
      sum_set_zero (Nat.lt_of_succ_lt_succ hi) (by simpa using ha) x, Nat.add_assoc]

/-- **A fragment added** that does not complete its context. -/
theorem ContextOk.enter (h : ContextOk cfg ctx)
    (hi : frag.specific.fragIndex.toNat < ctx.totalFrags.toNat)
    (hclear : ctx.receivedFragments.test frag.specific.fragIndex.toNat = false)
    (hbytes : ctx.receivedPayloadBytes + frag.payloadSize ≤ cfg.maxReasmBytesPerKey)
    (hopen : (enterFragment ctx frag storage).checkComplete = false) :
    ContextOk cfg (enterFragment ctx frag storage) := by
  have htotal := h.total
  have hmissing := h.missing
  have hword : frag.specific.fragIndex.toNat / 64 < ctx.receivedFragments.length := by
    rw [h.words]
    omega
  have hzero : ctx.fragmentSizes.getD frag.specific.fragIndex.toNat 0 = 0 := by
    by_contra hne
    rw [h.sizes _ (Nat.pos_of_ne_zero hne)] at hclear
    cases hclear
  have hcount : (ctx.receivedCount + 1).toNat = ctx.receivedCount.toNat + 1 := by
    rw [BitVec.toNat_add]
    simp only [BitVec.ofNat_eq_ofNat, BitVec.toNat_ofNat]
    omega
  have hne : (ctx.receivedCount + 1).toNat ≠ ctx.totalFrags.toNat := by
    intro heq
    rw [enterFragment, ReassemblyContext.checkComplete, beq_eq_false_iff_ne] at hopen
    exact hopen (BitVec.eq_of_toNat_eq heq)
  constructor
  · exact htotal
  · rw [length_words_enterFragment]
    exact h.words
  · intro j hj
    simp only [test_enterFragment hword, Bool.or_eq_true, decide_eq_true_eq] at hj
    rcases hj with hj | rfl
    · exact h.within j hj
    · exact hi
  · simp only [enterFragment]
    rw [hcount, Bitmap.count_set hword hclear, h.count]
  · simp only [enterFragment]
    omega
  · simp only [enterFragment]
    rw [h.bytes]
  · simp only [enterFragment]
    rw [sum_set_zero (by rw [h.slots.1]; exact hi) hzero, h.sum]
  · exact hbytes
  · rw [length_sizes_enterFragment, length_refs_enterFragment]
    exact h.slots
  · intro j hj
    simp only [test_enterFragment hword, Bool.or_eq_true, decide_eq_true_eq]
    by_cases hij : frag.index = j
    · exact .inr hij
    · rw [size_enterFragment_ne hij] at hj
      exact .inl (h.sizes j hj)
  · intro j hj
    simp only [test_enterFragment hword, Bool.or_eq_true, decide_eq_true_eq]
    by_cases hij : frag.index = j
    · exact .inr hij
    · rw [ref_enterFragment_ne hij] at hj
      exact .inl (h.refs j hj)

/-! ## The map, the ring and the counters -/

/-- The other fields of the state and the other counters do not matter. -/
theorem Accounts.of_eq (h : Accounts cfg s) (hconfig : s'.config = s.config)
    (hcontexts : s'.contexts = s.contexts) (hring : s'.frozenKeysRing = s.frozenKeysRing)
    (hcreated : s'.stats.contextsCreated = s.stats.contextsCreated)
    (hdestroyed : s'.stats.contextsDestroyed = s.stats.contextsDestroyed)
    (hframes : s'.stats.framesCompleted + s'.stats.framesIncomplete =
      s.stats.framesCompleted + s.stats.framesIncomplete) : Accounts cfg s' := by
  constructor
  · exact hconfig.trans h.config
  · rw [hcontexts]
    exact h.size
  · rw [hcontexts, hring]
    exact h.unfrozen
  · rw [hring]
    exact h.distinct
  · rw [hcreated, hdestroyed, hcontexts]
    exact h.created
  · rw [hframes, hdestroyed]
    exact h.frames

theorem Accounts.putContext (h : Accounts cfg s) (hkey : key ∈ s.contexts)
    (ctx : ReassemblyContext) :
    Accounts cfg (s.putContext key ctx) := by
  obtain ⟨old, hold⟩ := Option.isSome_iff_exists.1 (AList.lookup_isSome.2 hkey)
  have hsize : KeyMap.size (s.contexts.insert key ctx) = KeyMap.size s.contexts :=
    KeyMap.size_insert_of_some hold ctx
  refine ⟨h.config, ?_, ?_, h.distinct, ?_, h.frames⟩
  · exact hsize ▸ h.size
  · intro k hk
    rcases (AList.mem_insert _).1 hk with rfl | hk
    · exact h.unfrozen k hkey
    · exact h.unfrozen k hk
  · exact hsize ▸ h.created

/-- A new context of a key that has no valid entry in the ring. -/
theorem Accounts.create (h : Accounts cfg s) (hnone : s.contexts.lookup key = none)
    (hfree : KeyMap.size s.contexts < s.config.maxContexts)
    (hkey : ∀ e ∈ s.frozenKeysRing, e.valid = true → e.key ≠ key) (ctx : ReassemblyContext) :
    Accounts cfg { s with
      contexts := s.contexts.insert key ctx
      stats := { s.stats with contextsCreated := s.stats.contextsCreated + 1 } } := by
  have hsize : KeyMap.size (s.contexts.insert key ctx) = KeyMap.size s.contexts + 1 :=
    KeyMap.size_insert_of_none hnone ctx
  refine ⟨h.config, ?_, ?_, h.distinct, ?_, h.frames⟩
  · rw [hsize, ← h.config]
    exact hfree
  · intro k hk
    rcases (AList.mem_insert _).1 hk with rfl | hk
    · exact hkey
    · exact h.unfrozen k hk
  · have := h.created
    simp only [hsize]
    omega

/-- The scan only invalidates entries. -/
theorem Accounts.scan (h : Accounts cfg s) (key : ReassemblyKey) (now : BitVec 64) :
    Accounts cfg { s with frozenKeysRing := (isKeyFrozen key now s.frozenKeysRing).1 } := by
  -- a valid entry of the scanned ring is the old one in its place
  have hold : ∀ (i : Nat) (e : FrozenKeyEntry),
      (isKeyFrozen key now s.frozenKeysRing).1[i]? = some e → e.valid = true →
        s.frozenKeysRing[i]? = some e := by
    intro i e he hv
    rcases isKeyFrozen_entry key now s.frozenKeysRing i with hsame | ⟨e', -, -, hinv⟩
    · rw [← hsame]
      exact he
    · rw [he] at hinv
      cases hinv
      cases hv
  refine ⟨h.config, h.size, ?_, ?_, h.created, h.frames⟩
  · intro k hk e he hv
    exact h.unfrozen k hk e (isKeyFrozen_valid he hv) hv
  · intro i j a b ha hb hva hvb
    exact h.distinct i j a b (hold i a ha hva) (hold j b hb hvb) hva hvb

/-- A context destroyed as its frame is counted. -/
theorem Accounts.destroy (h : Accounts cfg s) (hkey : key ∈ s.contexts)
    {stats : ReassemblerStatistics} (hcreated : stats.contextsCreated = s.stats.contextsCreated)
    (hdestroyed : stats.contextsDestroyed = s.stats.contextsDestroyed + 1)
    (hframes : stats.framesCompleted + stats.framesIncomplete =
      s.stats.framesCompleted + s.stats.framesIncomplete + 1) :
    Accounts cfg { s with contexts := s.contexts.erase key, stats := stats } := by
  obtain ⟨ctx, hctx⟩ := Option.isSome_iff_exists.1 (AList.lookup_isSome.2 hkey)
  have hsize := KeyMap.size_erase hctx
  have hle := h.size
  have hc := h.created
  have hf := h.frames
  refine ⟨h.config, ?_, ?_, h.distinct, ?_, ?_⟩
  · simp only
    omega
  · exact fun k hk => h.unfrozen k (AList.mem_erase.1 hk).2
  · simp only
    omega
  · simp only
    omega

/-- The freeze of a key whose context is gone. -/
theorem Accounts.freeze (h : Accounts cfg s) (hgone : key ∉ s.contexts)
    (hfresh : ∀ e ∈ s.frozenKeysRing, e.valid = true → e.key ≠ key) (expire : BitVec 64) (i : Nat)
    (next reads : Nat) :
    Accounts cfg { s with
      frozenKeysRing := s.frozenKeysRing.set i { key := key, expireMs := expire, valid := true }
      frozenKeysNextInsert := next
      reads := reads } := by
  refine ⟨h.config, h.size, ?_, ?_, h.created, h.frames⟩
  · intro k hk e he hv
    rcases List.mem_or_eq_of_mem_set he with he | rfl
    · exact h.unfrozen k hk e he hv
    · rintro rfl
      exact hgone hk
  · intro j l a b ha hb hva hvb heq
    rw [List.getElem?_set] at ha hb
    split at ha
    case isTrue hij =>
      split at hb
      case isTrue hil => rw [← hij, ← hil]
      case isFalse hil =>
        split at ha
        · obtain rfl := Option.some.inj ha
          exact absurd heq.symm (hfresh b (List.mem_of_getElem? hb) hvb)
        · cases ha
    case isFalse hij =>
      split at hb
      case isTrue hil =>
        split at hb
        · obtain rfl := Option.some.inj hb
          exact absurd heq (hfresh a (List.mem_of_getElem? ha) hva)
        · cases hb
      case isFalse hil => exact h.distinct j l a b ha hb hva hvb heq

theorem frames_countFrame (s : Reassembler) (frame : ReassembledFrame) (isTimeout : Bool) :
    (s.countFrame frame isTimeout).stats.framesCompleted +
        (s.countFrame frame isTimeout).stats.framesIncomplete =
      s.stats.framesCompleted + s.stats.framesIncomplete + 1 ∧
    (s.countFrame frame isTimeout).stats.contextsCreated = s.stats.contextsCreated ∧
    (s.countFrame frame isTimeout).stats.contextsDestroyed = s.stats.contextsDestroyed := by
  unfold Reassembler.countFrame
  simp only
  split
  · refine ⟨?_, rfl, rfl⟩
    simp only
    omega
  · refine ⟨?_, rfl, rfl⟩
    simp only
    omega

/-- **A completion** destroys the context, counts its frame, and freezes the key on a timeout. -/
theorem completeReassembly_accounts {isTimeout : Bool} {e : Emission} (h : Accounts cfg s)
    (hkey : key ∈ s.contexts)
    (hc : s.completeReassembly clk key ctx isTimeout = some (s', e)) :
    Accounts cfg s' ∧ s'.contexts = s.contexts.erase key := by
  unfold Reassembler.completeReassembly at hc
  split at hc
  · cases hc
  obtain ⟨hframes, hcreated, hdestroyed⟩ :=
    frames_countFrame s (Reassembler.assembleFrame s.config key ctx) isTimeout
  have hdone : Accounts cfg { s with
      contexts := s.contexts.erase key
      stats := { (s.countFrame (Reassembler.assembleFrame s.config key ctx) isTimeout).stats with
        contextsDestroyed :=
          (s.countFrame (Reassembler.assembleFrame s.config key ctx) isTimeout).stats.contextsDestroyed
            + 1 } } :=
    h.destroy hkey hcreated (congrArg (· + 1) hdestroyed) hframes
  have hgone : key ∉ s.contexts.erase key := fun hmem => (AList.mem_erase.1 hmem).1 rfl
  simp only at hc
  split at hc
  case isTrue hto =>
    obtain ⟨rfl, -⟩ := Prod.mk.inj (Option.some.inj hc)
    rw [addFrozenKey_fresh, destroyContext_of_mem]
    · exact ⟨hdone.freeze hgone (h.unfrozen key hkey) _ _ _ _, rfl⟩
    · exact hkey
    · exact h.unfrozen key hkey
  case isFalse hto =>
    obtain ⟨rfl, -⟩ := Prod.mk.inj (Option.some.inj hc)
    rw [destroyContext_of_mem]
    · exact ⟨hdone, rfl⟩
    · exact hkey

theorem completeReassembly_none {isTimeout : Bool}
    (hc : s.completeReassembly clk key ctx isTimeout = none) : 1024 < ctx.totalFrags.toNat := by
  unfold Reassembler.completeReassembly at hc
  split at hc
  case isTrue hbig => exact hbig
  case isFalse =>
    simp only at hc
    split at hc <;> cases hc

/-! ## The calls -/

theorem fragmentOf_total {packet : ParsedPacket} (h : fragmentOf cfg packet = some frag) :
    0 < frag.specific.totalFrags.toNat ∧
      frag.specific.totalFrags.toNat ≤ cfg.maxTotalFrags.toNat := by
  obtain ⟨-, -, -, hpos, hmax, -⟩ := fragmentOf_spec h
  exact ⟨hpos, hmax⟩

/-- A fragment brought to its live context. -/
theorem storeFragment_represents (h : Accounts cfg s) (hkey : frag.key ∈ s.contexts)
    (hothers : ∀ k c, k ≠ frag.key → s.contexts.lookup k = some c → ContextOk cfg c)
    (hctx : ContextOk cfg ctx) :
    Represents cfg (s.storeFragment clk frag storage ctx).1 := by
  have hput : ∀ c, ContextOk cfg c → ContextsOk cfg (s.putContext frag.key c) := by
    intro c hc k c' hk
    rcases KeyMap.lookup_insert_cases hk with ⟨-, rfl⟩ | ⟨hne, hk⟩
    · exact hc
    · exact hothers k c' hne hk
  have hacc := h.putContext hkey ctx
  unfold Reassembler.storeFragment
  simp only
  rw [h.config]
  cases hadd : addFragment cfg ctx frag storage with
  | rejected => exact ⟨hacc, hput ctx hctx⟩
  | duplicate => exact ⟨hacc.of_eq rfl rfl rfl rfl rfl rfl, hput ctx hctx⟩
  | bytesOverflow => exact ⟨hacc.of_eq rfl rfl rfl rfl rfl rfl, hput ctx hctx⟩
  | added ctx' =>
    have hmem : frag.key ∈ (s.putContext frag.key ctx).contexts := (AList.mem_insert _).2 (.inl rfl)
    have hacc' := hacc.putContext hmem ctx'
    obtain ⟨hi, hclear, hbytes⟩ := addFragment_checked hadd
    obtain rfl := addFragment_added hadd
    simp only
    cases hdone : (enterFragment ctx frag storage).checkComplete with
    | false =>
      rw [if_neg Bool.false_ne_true]
      refine ⟨hacc', ?_⟩
      rw [Reassembler.putContext, Reassembler.putContext, AList.insert_insert]
      exact hput _ (hctx.enter hi hclear hbytes hdone)
    | true =>
      rw [if_pos rfl]
      cases hc : ((s.putContext frag.key ctx).putContext frag.key
          (enterFragment ctx frag storage)).completeReassembly clk frag.key
          (enterFragment ctx frag storage) false with
      | none =>
        have hthrow := completeReassembly_none hc
        exact absurd hthrow (Nat.not_lt.2 hctx.total)
      | some r =>
        obtain ⟨s', e⟩ := r
        have hmem' : frag.key ∈ ((s.putContext frag.key ctx).putContext frag.key
            (enterFragment ctx frag storage)).contexts := (AList.mem_insert _).2 (.inl rfl)
        obtain ⟨hr, hcontexts⟩ := completeReassembly_accounts hacc' hmem' hc
        refine ⟨hr, fun k c hk => ?_⟩
        rw [hcontexts, Reassembler.putContext, Reassembler.putContext, AList.insert_insert,
          KeyMap.erase_insert] at hk
        obtain ⟨hne, hk⟩ := KeyMap.lookup_erase_some hk
        exact hothers k c hne hk

/-- What follows the header checks. -/
theorem acceptFragment_represents (h : Represents cfg s) (hpos : 0 < frag.specific.totalFrags.toNat)
    (htotal : frag.specific.totalFrags.toNat ≤ 1024) (now : BitVec 64) :
    Represents cfg (s.acceptFragment clk frag storage now).1 := by
  have hscanned := h.accounts.scan frag.key now
  cases hscan : (isKeyFrozen frag.key now s.frozenKeysRing).2 with
  | true =>
    rw [acceptFragment_frozen hscan]
    exact ⟨hscanned.of_eq rfl rfl rfl rfl rfl rfl, h.contexts⟩
  | false =>
    cases hl : s.contexts.lookup frag.key with
    | some ctx =>
      rw [acceptFragment_live hscan hl]
      exact storeFragment_represents hscanned (KeyMap.mem_of_lookup hl)
        (fun k c _ hk => h.contexts k c hk) ((h.contexts _ ctx hl).takeSnapshot frag)
    | none =>
      by_cases hfull : s.config.maxContexts ≤ KeyMap.size s.contexts
      · rw [acceptFragment_full hscan hl hfull]
        exact ⟨hscanned.of_eq rfl rfl rfl rfl rfl rfl, h.contexts⟩
      · have hfree := Nat.lt_of_not_le hfull
        have hnew : ContextOk cfg (newContext frag now) := contextOk_new now hpos htotal
        rw [acceptFragment_fresh hscan hl hfree]
        apply storeFragment_represents (hscanned.create hl hfree (isKeyFrozen_clears _ hscan) _)
        · exact (AList.mem_insert _).2 (.inl rfl)
        · intro k c hne hk
          rw [AList.lookup_insert_ne hne] at hk
          exact h.contexts k c hk
        · exact hnew.takeSnapshot frag

/-- **A packet.** -/
theorem processWith_represents (hmax : cfg.maxTotalFrags.toNat ≤ 1024) (h : Represents cfg s)
    (storage : FragmentStorage) (packet : ParsedPacket) :
    Represents cfg (Reassembler.processWith storage clk s packet).1 := by
  cases hfrag : fragmentOf s.config packet with
  | none =>
    rw [processWith_none storage clk hfrag]
    exact ⟨h.accounts.of_eq rfl rfl rfl rfl rfl rfl, h.contexts⟩
  | some frag =>
    obtain ⟨hpos, htotal⟩ := fragmentOf_total (h.accounts.config ▸ hfrag)
    rw [Reassembler.processWith, hfrag]
    apply acceptFragment_represents _ hpos (Nat.le_trans htotal hmax)
    exact ⟨h.accounts.of_eq rfl rfl rfl rfl rfl rfl, h.contexts⟩

/-- **The completion loop** of `check_timeouts` and `flush_all`. -/
theorem completeAll_represents (keys : List ReassemblyKey) (h : Represents cfg s) :
    Represents cfg (Reassembler.completeAll clk keys s).1 := by
  refine completeAll_keeps (fun s key ctx s' e h hl hc => ?_) keys h
  obtain ⟨hr, hcontexts⟩ := completeReassembly_accounts h.accounts (KeyMap.mem_of_lookup hl) hc
  refine ⟨hr, fun k c hk => ?_⟩
  rw [hcontexts] at hk
  exact h.contexts k c (KeyMap.lookup_erase_some hk).2

/-- **The representation invariant** holds in every reachable state. -/
theorem run_represents {ops : List ReassemblerOp} (hmax : cfg.maxTotalFrags.toNat ≤ 1024)
    (hops : ∀ op ∈ ops, op ≠ .resetStatistics) :
    Represents cfg ((Reassembler.new cfg).run clk ops).1 := by
  refine Machine.run_inv (fun s op hop h => ?_) (represents_new cfg)
  have hread : Represents cfg { s with reads := s.reads + 1 } :=
    ⟨h.accounts.of_eq rfl rfl rfl rfl rfl rfl, h.contexts⟩
  cases op with
  | processPacket packet => exact processWith_represents hmax h .heap packet
  | processPacketZeroCopy packet => exact processWith_represents hmax h .pool packet
  | checkTimeouts order => exact completeAll_represents _ hread
  | flushAll order => exact completeAll_represents _ h
  | setTimeoutMs timeoutMs => exact ⟨h.accounts.of_eq rfl rfl rfl rfl rfl rfl, h.contexts⟩
  | resetStatistics => exact absurd rfl (hops _ hop)

end

/-- A fragment, its timeout, and a repeat of it that comes late. -/
def lateRepeat : List ReassemblerOp :=
  [.processPacket firstOfTwo, .checkTimeouts .same, .processPacketZeroCopy firstOfTwo]

theorem lateRepeat_represents :
    ((Reassembler.new { maxContexts := 1 }).run stepClock lateRepeat).1.stats.framesIncomplete = 1 ∧
    Represents { maxContexts := 1 }
      ((Reassembler.new { maxContexts := 1 }).run stepClock lateRepeat).1 := by
  refine ⟨by decide, run_represents (by decide) fun op hop => ?_⟩
  simp only [lateRepeat, List.mem_cons, List.not_mem_nil, or_false] at hop
  rcases hop with rfl | rfl | rfl <;> nofun

end Qdgz300.Pipeline
