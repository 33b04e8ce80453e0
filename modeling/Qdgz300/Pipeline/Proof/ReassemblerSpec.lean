import Qdgz300.Lib.Circular
import Qdgz300.Lib.KeyMap
import Qdgz300.Pipeline.Reassembler

/-!
# What the calls of the reassembler do

* `isKeyFrozen_iff`, `isKeyFrozen_entry`, `isKeyFrozen_clears`: the scan of the frozen ring.
* `fragmentOf_spec`, `addFragment_isAdded_iff`: what the header checks and `add_fragment` let
  through.
* **`processWith_effect`**: a packet that passes the header checks is late, finds no free slot,
  stays in its context or completes it (`PacketEffect`).
* **`completeReassembly_timeout`**: a timeout emits the frame, freezes the key and erases the
  context. `completeAll_keeps` is the invariant rule of the loop over timeouts.
-/

namespace Qdgz300.Pipeline

open Protocol Bytes

/-! ## The frozen ring -/

section
variable {key : ReassemblyKey} {now : BitVec 64}

/-- The scan finds exactly the valid entries of the key that have not expired. -/
theorem isKeyFrozen_iff : ∀ ring : List FrozenKeyEntry, (isKeyFrozen key now ring).2 = true ↔
    ∃ e ∈ ring, e.valid = true ∧ now < e.expireMs ∧ e.key = key
  | [] => by simp [isKeyFrozen]
  | e :: ring => by
    have ih := isKeyFrozen_iff ring
    unfold isKeyFrozen
    simp only
    by_cases hv : e.valid = false
    · rw [if_pos hv]
      simp [ih, hv]
    rw [if_neg hv]
    by_cases hx : e.expireMs ≤ now
    · rw [if_pos hx]
      have : ¬ now < e.expireMs := BitVec.not_lt.2 hx
      simp [ih, this]
    rw [if_neg hx]
    by_cases hk : e.key = key
    · rw [if_pos hk]
      simp only [true_iff]
      exact ⟨e, List.mem_cons_self, by simpa using hv, BitVec.not_le.1 hx, hk⟩
    · rw [if_neg hk]
      simp [ih, hk]

/-- The scan keeps every entry, or invalidates it when it has expired. -/
theorem isKeyFrozen_entry (key : ReassemblyKey) (now : BitVec 64) :
    ∀ (ring : List FrozenKeyEntry) (i : Nat),
    (isKeyFrozen key now ring).1[i]? = ring[i]? ∨
      ∃ e, ring[i]? = some e ∧ e.expireMs ≤ now ∧
        (isKeyFrozen key now ring).1[i]? = some { e with valid := false }
  | [], i => by simp [isKeyFrozen]
  | e :: ring, i => by
    have ih := isKeyFrozen_entry key now ring
    unfold isKeyFrozen
    simp only
    cases i with
    | zero =>
      by_cases hv : e.valid = false
      · rw [if_pos hv]
        exact .inl rfl
      rw [if_neg hv]
      by_cases hx : e.expireMs ≤ now
      · rw [if_pos hx]
        exact .inr ⟨e, rfl, hx, rfl⟩
      rw [if_neg hx]
      split <;> exact .inl rfl
    | succ i =>
      by_cases hv : e.valid = false
      · rw [if_pos hv]
        exact ih i
      rw [if_neg hv]
      by_cases hx : e.expireMs ≤ now
      · rw [if_pos hx]
        exact ih i
      rw [if_neg hx]
      by_cases hk : e.key = key
      · rw [if_pos hk]
        exact .inl rfl
      · rw [if_neg hk]
        exact ih i

theorem length_isKeyFrozen (key : ReassemblyKey) (now : BitVec 64) : ∀ ring : List FrozenKeyEntry,
    (isKeyFrozen key now ring).1.length = ring.length
  | [] => rfl
  | e :: ring => by
    have ih := length_isKeyFrozen key now ring
    unfold isKeyFrozen
    simp only
    split
    · simp [ih]
    split
    · simp [ih]
    split <;> simp [ih]

theorem isKeyFrozen_valid {ring : List FrozenKeyEntry} {e : FrozenKeyEntry}
    (h : e ∈ (isKeyFrozen key now ring).1) (hv : e.valid = true) : e ∈ ring := by
  obtain ⟨i, hi⟩ := List.mem_iff_getElem?.1 h
  rcases isKeyFrozen_entry key now ring i with hsame | ⟨e', -, -, hinv⟩
  · rw [hsame] at hi
    exact List.mem_of_getElem? hi
  · rw [hi] at hinv
    cases hinv
    cases hv

/-- A scan that finds nothing leaves no valid entry of the key. -/
theorem isKeyFrozen_clears : ∀ ring : List FrozenKeyEntry, (isKeyFrozen key now ring).2 = false →
    ∀ e ∈ (isKeyFrozen key now ring).1, e.valid = true → e.key ≠ key
  | [], _, e, he, _ => by cases he
  | e :: ring, h, e', he', hv' => by
    have ih := isKeyFrozen_clears ring
    unfold isKeyFrozen at h he'
    simp only at h he'
    by_cases hv : e.valid = false
    · rw [if_pos hv] at h he'
      rcases List.mem_cons.1 he' with rfl | he'
      · rw [hv] at hv'
        cases hv'
      · exact ih h e' he' hv'
    rw [if_neg hv] at h he'
    by_cases hx : e.expireMs ≤ now
    · rw [if_pos hx] at h he'
      rcases List.mem_cons.1 he' with rfl | he'
      · cases hv'
      · exact ih h e' he' hv'
    rw [if_neg hx] at h he'
    by_cases hk : e.key = key
    · rw [if_pos hk] at h
      cases h
    · rw [if_neg hk] at h he'
      rcases List.mem_cons.1 he' with rfl | he'
      · exact hk
      · exact ih h e' he' hv'

theorem renewEntry_none {expire : BitVec 64} : ∀ {ring : List FrozenKeyEntry},
    (∀ e ∈ ring, e.valid = true → e.key ≠ key) → renewEntry key expire ring = none
  | [], _ => rfl
  | e :: ring, h => by
    unfold renewEntry
    rw [if_neg fun hc => h e List.mem_cons_self hc.1 hc.2,
      renewEntry_none fun e' he' => h e' (List.mem_cons_of_mem _ he')]
    rfl

end

/-! ## Packets -/

def Fragment.index (f : Fragment) : Nat := f.specific.fragIndex.toNat

/-- `add_fragment` returned true. -/
def AddOutcome.isAdded : AddOutcome → Bool
  | .added _ => true
  | _ => false

section
variable {clk : SystemClock} {s : Reassembler} {frag : Fragment} {storage : FragmentStorage}
  {packet : ParsedPacket} {key : ReassemblyKey} {ctx : ReassemblyContext} {cfg : ReassemblerConfig}

/-- The context that a fragment is added to: the live one of its key, or a new one in a free
slot. -/
inductive ContextFor (maxContexts : Nat) (m : ContextMap) (frag : Fragment) (now : BitVec 64) :
    ReassemblyContext → Prop
  | live {ctx : ReassemblyContext} (h : m.lookup frag.key = some ctx) :
      ContextFor maxContexts m frag now ctx
  | fresh (h : m.lookup frag.key = none) (hfree : KeyMap.size m < maxContexts) :
      ContextFor maxContexts m frag now (newContext frag now)

/-- What a packet does to the contexts `m`, and what it emits; `frozen` is the answer of the
scan. -/
inductive PacketEffect (maxContexts : Nat) (m : ContextMap) (frozen : Bool) (frag : Fragment)
    (now : BitVec 64) : ContextMap → List Emission → Prop
  | late (h : frozen = true) : PacketEffect maxContexts m frozen frag now m []
  | full (hfrozen : frozen = false) (h : m.lookup frag.key = none)
      (hfull : maxContexts ≤ KeyMap.size m) : PacketEffect maxContexts m frozen frag now m []
  | kept {ctx ctx' : ReassemblyContext} (hfrozen : frozen = false)
      (h : ContextFor maxContexts m frag now ctx)
      (htime : ctx'.firstFragTimeMs = ctx.firstFragTimeMs) :
      PacketEffect maxContexts m frozen frag now (m.insert frag.key ctx') []
  | completed {ctx : ReassemblyContext} {frame : ReassembledFrame} (hfrozen : frozen = false)
      (h : ContextFor maxContexts m frag now ctx) (hkey : frame.key = frag.key) :
      PacketEffect maxContexts m frozen frag now (m.erase frag.key) [⟨frame, none⟩]

/-- **What the header checks leave** of a packet, under the key of its headers: a tail with its
snapshot and the bytes it announces, or another fragment with what follows the header. -/
theorem fragmentOf_spec (h : fragmentOf cfg packet = some frag) :
    ∃ bytes, packet.payload = some bytes ∧ frag.key = extractKey packet.header frag.specific ∧
      0 < frag.specific.totalFrags.toNat ∧ frag.specific.totalFrags.toNat ≤
        cfg.maxTotalFrags.toNat ∧
      (frag.specific.isTailFragment = true ∧ frag.tailSnapshot.isSome = true ∧
          frag.payloadSize = frag.specific.tailFragPayloadBytes.toNat ∧
          packet.header.payloadLen.toNat = specificSize + snapshotSize + frag.payloadSize ∧
          frag.payload = slice bytes (specificSize + snapshotSize) frag.payloadSize ∨
        frag.specific.isTailFragment = false ∧ frag.tailSnapshot = none ∧
          packet.header.payloadLen.toNat = specificSize + frag.payloadSize ∧
          frag.payload = slice bytes specificSize frag.payloadSize) := by
  unfold fragmentOf at h
  simp only at h
  split at h
  case h_1 => cases h
  case h_2 specific hs =>
  obtain ⟨bytes, hbytes⟩ : ∃ bytes, packet.payload = some bytes := by
    unfold parseSpecificHeader at hs
    split at hs
    · cases hs
    · exact ⟨_, ‹_›⟩
  rw [hbytes, Option.getD_some] at h
  split at h
  case isTrue => cases h
  case isFalse hbad =>
  rw [not_or, BitVec.not_lt, BitVec.le_def, ← BitVec.toNat_inj] at hbad
  simp only [BitVec.ofNat_eq_ofNat, BitVec.toNat_ofNat, Nat.zero_mod] at hbad
  split at h
  case isTrue htail =>
    split at h
    case isTrue => cases h
    case isFalse hlen =>
      obtain rfl := Option.some.inj h
      refine ⟨bytes, hbytes, rfl, Nat.pos_of_ne_zero hbad.1, hbad.2, .inl ⟨htail, rfl, ?_, ?_, rfl⟩⟩
      · simp only
        omega
      · simp only
        omega
  case isFalse htail =>
    split at h
    case isTrue => cases h
    case isFalse hlen =>
      obtain rfl := Option.some.inj h
      refine ⟨bytes, hbytes, rfl, Nat.pos_of_ne_zero hbad.1, hbad.2,
        .inr ⟨by simpa using htail, rfl, ?_, rfl⟩⟩
      simp only
      omega

theorem takeSnapshot_time (ctx : ReassemblyContext) (frag : Fragment) :
    (takeSnapshot ctx frag).firstFragTimeMs = ctx.firstFragTimeMs := by
  unfold takeSnapshot
  split <;> rfl

theorem addFragment_added {ctx' : ReassemblyContext}
    (h : addFragment cfg ctx frag storage = .added ctx') :
      ctx' = enterFragment ctx frag storage := by
  unfold addFragment at h
  simp only at h
  split at h
  · cases h
  split at h
  · cases h
  split at h
  · cases h
  split at h
  · cases h
  split at h
  · cases h
  · exact (AddOutcome.added.inj h).symm

theorem addFragment_isAdded (h : (addFragment cfg ctx frag storage).isAdded = true) :
    addFragment cfg ctx frag storage = .added (enterFragment ctx frag storage) := by
  cases hout : addFragment cfg ctx frag storage with
  | added c => rw [addFragment_added hout]
  | rejected => rw [hout] at h; cases h
  | duplicate => rw [hout] at h; cases h
  | bytesOverflow => rw [hout] at h; cases h

/-- **What `add_fragment` checks** before it returns true. -/
theorem addFragment_isAdded_iff : (addFragment cfg ctx frag storage).isAdded = true ↔
    frag.index < ctx.totalFrags.toNat ∧ frag.index < 1024 ∧
      ctx.receivedFragments.test frag.index = false ∧
      ctx.receivedPayloadBytes + frag.payloadSize ≤ cfg.maxReasmBytesPerKey ∧
      (frag.specific.isTailFragment = true → frag.payloadSize = ctx.tailFragPayloadBytes.toNat) ∧
      (frag.specific.isTailFragment = false → 0 < frag.payloadSize) := by
  unfold addFragment Fragment.index
  simp only [BitVec.le_def]
  split
  case isTrue hrange =>
    simp only [AddOutcome.isAdded, Bool.false_eq_true, false_iff]
    omega
  case isFalse hrange =>
  split
  case isTrue hbit =>
    simp only [AddOutcome.isAdded, hbit]
    simp
  case isFalse hbit =>
  split
  case isTrue hbytes =>
    simp only [AddOutcome.isAdded, Bool.false_eq_true, false_iff]
    omega
  case isFalse hbytes =>
  split
  case isTrue htail => simp [AddOutcome.isAdded, htail]
  case isFalse htail =>
  split
  case isTrue hempty => simp [AddOutcome.isAdded, hempty]
  case isFalse hempty =>
    simp only [AddOutcome.isAdded, true_iff]
    simp only [not_and, not_not] at htail
    simp only [Bool.not_eq_true, not_and] at hempty
    refine ⟨by omega, by omega, by simpa using hbit, by omega, htail, fun hinner => ?_⟩
    exact Nat.pos_of_ne_zero (hempty hinner)

/-! ### A fragment entered into its slot -/

theorem test_enterFragment (h : frag.index / 64 < ctx.receivedFragments.length) (i : Nat) :
    (enterFragment ctx frag storage).receivedFragments.test i =
      (ctx.receivedFragments.test i || decide (frag.index = i)) :=
  Bitmap.test_set h i

@[simp] theorem length_words_enterFragment :
    (enterFragment ctx frag storage).receivedFragments.length = ctx.receivedFragments.length :=
  Bitmap.length_set _ _

@[simp] theorem length_sizes_enterFragment :
    (enterFragment ctx frag storage).fragmentSizes.length = ctx.fragmentSizes.length :=
  List.length_set

@[simp] theorem length_refs_enterFragment :
    (enterFragment ctx frag storage).fragmentRefs.length = ctx.fragmentRefs.length := by
  simp only [enterFragment]
  split
  · exact List.length_set
  · rfl

theorem size_enterFragment_self (h : frag.index < ctx.fragmentSizes.length) :
    (enterFragment ctx frag storage).fragmentSizes.getD frag.index 0 = frag.payloadSize :=
  Circular.getD_set_self h

theorem size_enterFragment_ne {i : Nat} (h : frag.index ≠ i) :
    (enterFragment ctx frag storage).fragmentSizes.getD i 0 = ctx.fragmentSizes.getD i 0 :=
  Circular.getD_set_ne h

theorem ref_enterFragment_self (h : frag.index < ctx.fragmentRefs.length)
    (hpos : 0 < frag.payloadSize) :
    (enterFragment ctx frag storage).fragmentRefs.getD frag.index {} =
      ⟨some storage, some frag.payload, frag.payloadSize⟩ := by
  simp only [enterFragment, if_pos hpos]
  exact Circular.getD_set_self h

theorem refs_enterFragment_empty (hzero : frag.payloadSize = 0) :
    (enterFragment ctx frag storage).fragmentRefs = ctx.fragmentRefs := by
  simp only [enterFragment, hzero, Nat.lt_irrefl, if_false]

theorem ref_enterFragment_ne {i : Nat} (h : frag.index ≠ i) :
    (enterFragment ctx frag storage).fragmentRefs.getD i {} = ctx.fragmentRefs.getD i {} := by
  simp only [enterFragment]
  split
  · exact Circular.getD_set_ne h
  · rfl

/-- A key without a valid entry has nothing to renew: its freeze takes the slot at the insertion
point. -/
theorem addFrozenKey_fresh (h : ∀ e ∈ s.frozenKeysRing, e.valid = true → e.key ≠ key)
    (expire : BitVec 64) :
    s.addFrozenKey key expire =
      { s with
        frozenKeysRing := s.frozenKeysRing.set s.frozenKeysNextInsert
          { key := key, expireMs := expire, valid := true }
        frozenKeysNextInsert := (s.frozenKeysNextInsert + 1) % s.frozenKeysRing.length } := by
  rw [Reassembler.addFrozenKey, renewEntry_none h]

theorem addFrozenKey_config {key' : ReassemblyKey} {expire : BitVec 64} :
    (s.addFrozenKey key' expire).config = s.config := by
  unfold Reassembler.addFrozenKey
  split <;> rfl

theorem destroyContext_of_mem (h : key ∈ s.contexts) :
    s.destroyContext key =
      { s with
        contexts := s.contexts.erase key
        stats := { s.stats with contextsDestroyed := s.stats.contextsDestroyed + 1 } } := by
  rw [Reassembler.destroyContext, if_pos h]

theorem destroyContext_eq (s : Reassembler) (key : ReassemblyKey) :
    ∃ stats, s.destroyContext key = { s with contexts := s.contexts.erase key, stats := stats } := by
  unfold Reassembler.destroyContext
  split
  case isTrue h => exact ⟨_, rfl⟩
  case isFalse h =>
    refine ⟨s.stats, ?_⟩
    rw [KeyMap.erase_of_lookup_none (AList.lookup_eq_none.2 h)]

theorem completeReassembly_done {s' : Reassembler} {e : Emission}
    (h : s.completeReassembly clk key ctx false = some (s', e)) :
    (∃ stats, s' = { s with contexts := s.contexts.erase key, stats := stats }) ∧
      e = ⟨Reassembler.assembleFrame s.config key ctx, none⟩ := by
  unfold Reassembler.completeReassembly at h
  split at h
  · cases h
  · simp only [Bool.false_eq_true, if_false, Option.some.injEq, Prod.mk.injEq] at h
    obtain ⟨rfl, rfl⟩ := h
    obtain ⟨stats, hd⟩ := destroyContext_eq
      (s.countFrame (Reassembler.assembleFrame s.config key ctx) false) key
    exact ⟨⟨stats, hd⟩, rfl⟩

/-- **A timeout** emits the frame, freezes the key at the next reading and erases the context. -/
theorem completeReassembly_timeout {s' : Reassembler} {e : Emission}
    (h : s.completeReassembly clk key ctx true = some (s', e)) :
    (∃ stats, s' =
      { s.addFrozenKey key (clk s.reads + s.timeoutMsRuntime.setWidth 64) with
        contexts := s.contexts.erase key
        reads := s.reads + 1
        stats := stats }) ∧
      e = ⟨Reassembler.assembleFrame s.config key ctx, some (clk s.reads)⟩ := by
  unfold Reassembler.completeReassembly at h
  split at h
  · cases h
  · simp only [if_true, Option.some.injEq, Prod.mk.injEq] at h
    obtain ⟨hs', rfl⟩ := h
    refine ⟨?_, rfl⟩
    obtain ⟨stats, hd⟩ := destroyContext_eq
      (({ s.countFrame (Reassembler.assembleFrame s.config key ctx) true with
        reads := s.reads + 1 } : Reassembler).addFrozenKey key
        (clk s.reads + s.timeoutMsRuntime.setWidth 64)) key
    refine ⟨stats, hs'.symm.trans (hd.trans ?_)⟩
    unfold Reassembler.addFrozenKey
    simp only [Reassembler.countFrame]
    split <;> rfl

/-- A fragment brought to its context stays there, or completes it. -/
theorem storeFragment_effect (clk : SystemClock) (s : Reassembler) (frag : Fragment)
    (storage : FragmentStorage) (ctx : ReassemblyContext) :
    ∃ contexts stats out, s.storeFragment clk frag storage ctx =
      ({ s with contexts := contexts, stats := stats }, out) ∧
      ((∃ ctx', ctx'.firstFragTimeMs = ctx.firstFragTimeMs ∧
          contexts = s.contexts.insert frag.key ctx' ∧ out = []) ∨
        ∃ frame : ReassembledFrame, frame.key = frag.key ∧ contexts = s.contexts.erase frag.key ∧
          out = [⟨frame, none⟩]) := by
  unfold Reassembler.storeFragment
  simp only [Reassembler.putContext, AList.insert_insert]
  cases hadd : addFragment s.config ctx frag storage with
  | rejected => exact ⟨_, _, _, rfl, .inl ⟨ctx, rfl, rfl, rfl⟩⟩
  | duplicate => exact ⟨_, _, _, rfl, .inl ⟨ctx, rfl, rfl, rfl⟩⟩
  | bytesOverflow => exact ⟨_, _, _, rfl, .inl ⟨ctx, rfl, rfl, rfl⟩⟩
  | added ctx' =>
    have htime : ctx'.firstFragTimeMs = ctx.firstFragTimeMs := by
      rw [addFragment_added hadd]
      rfl
    simp only
    by_cases hdone : ctx'.checkComplete
    · rw [if_pos hdone]
      split
      case h_1 s3 e hc =>
        obtain ⟨⟨stats, rfl⟩, rfl⟩ := completeReassembly_done hc
        exact ⟨_, _, _, rfl, .inr ⟨_, rfl, KeyMap.erase_insert _ _ _, rfl⟩⟩
      case h_2 hc => exact ⟨_, _, _, rfl, .inl ⟨ctx', htime, rfl, rfl⟩⟩
    · rw [if_neg hdone]
      exact ⟨_, _, _, rfl, .inl ⟨ctx', htime, rfl, rfl⟩⟩

theorem acceptFragment_frozen {now : BitVec 64}
    (hscan : (isKeyFrozen frag.key now s.frozenKeysRing).2 = true) :
    s.acceptFragment clk frag storage now =
      (Reassembler.countLate
        { s with frozenKeysRing := (isKeyFrozen frag.key now s.frozenKeysRing).1 }, []) := by
  unfold Reassembler.acceptFragment
  simp only [hscan, if_true]

theorem acceptFragment_live {now : BitVec 64}
    (hscan : (isKeyFrozen frag.key now s.frozenKeysRing).2 = false)
    (hl : s.contexts.lookup frag.key = some ctx) :
    s.acceptFragment clk frag storage now =
      ({ s with frozenKeysRing := (isKeyFrozen frag.key now s.frozenKeysRing).1 } :
        Reassembler).storeFragment clk frag storage (takeSnapshot ctx frag) := by
  unfold Reassembler.acceptFragment
  simp only [hscan, Bool.false_eq_true, if_false, Reassembler.getOrCreateContext, hl]

theorem acceptFragment_fresh {now : BitVec 64}
    (hscan : (isKeyFrozen frag.key now s.frozenKeysRing).2 = false)
    (hl : s.contexts.lookup frag.key = none)
    (hfree : KeyMap.size s.contexts < s.config.maxContexts) :
    s.acceptFragment clk frag storage now =
      ({ s with
        contexts := s.contexts.insert frag.key (newContext frag now)
        frozenKeysRing := (isKeyFrozen frag.key now s.frozenKeysRing).1
        stats := { s.stats with contextsCreated := s.stats.contextsCreated + 1 } } :
        Reassembler).storeFragment clk frag storage (takeSnapshot (newContext frag now) frag) := by
  have hfree' : ¬ s.config.maxContexts ≤ s.contexts.entries.length := Nat.not_le.2 hfree
  unfold Reassembler.acceptFragment
  simp only [hscan, Bool.false_eq_true, if_false, Reassembler.getOrCreateContext, hl, if_neg hfree']

theorem acceptFragment_full {now : BitVec 64}
    (hscan : (isKeyFrozen frag.key now s.frozenKeysRing).2 = false)
    (hl : s.contexts.lookup frag.key = none)
    (hfull : s.config.maxContexts ≤ KeyMap.size s.contexts) :
    s.acceptFragment clk frag storage now =
      ({ s with
        frozenKeysRing := (isKeyFrozen frag.key now s.frozenKeysRing).1
        stats := { s.stats with contextsOverflow := s.stats.contextsOverflow + 1 } }, []) := by
  have hfull' : s.config.maxContexts ≤ s.contexts.entries.length := hfull
  unfold Reassembler.acceptFragment
  simp only [hscan, Bool.false_eq_true, if_false, Reassembler.getOrCreateContext, hl, if_pos hfull']

theorem acceptFragment_effect (clk : SystemClock) (s : Reassembler) (frag : Fragment)
    (storage : FragmentStorage) (now : BitVec 64) :
    ∃ contexts stats out, s.acceptFragment clk frag storage now =
      ({ s with
        contexts := contexts
        frozenKeysRing := (isKeyFrozen frag.key now s.frozenKeysRing).1
        stats := stats }, out) ∧
      PacketEffect s.config.maxContexts s.contexts (isKeyFrozen frag.key now s.frozenKeysRing).2 frag
        now contexts out := by
  cases hscan : (isKeyFrozen frag.key now s.frozenKeysRing).2 with
  | true =>
    unfold Reassembler.acceptFragment
    simp only [hscan, if_true]
    exact ⟨_, _, _, rfl, .late rfl⟩
  | false =>
    cases hl : s.contexts.lookup frag.key with
    | none =>
      by_cases hfull : s.config.maxContexts ≤ KeyMap.size s.contexts
      · rw [acceptFragment_full hscan hl hfull]
        exact ⟨_, _, _, rfl, .full rfl hl hfull⟩
      · have hfree := Nat.lt_of_not_le hfull
        rw [acceptFragment_fresh hscan hl hfree]
        obtain ⟨contexts, stats, out, heq, heff⟩ := storeFragment_effect clk
          { s with
            contexts := s.contexts.insert frag.key (newContext frag now)
            frozenKeysRing := (isKeyFrozen frag.key now s.frozenKeysRing).1
            stats := { s.stats with contextsCreated := s.stats.contextsCreated + 1 } }
          frag storage (takeSnapshot (newContext frag now) frag)
        refine ⟨contexts, stats, out, heq, ?_⟩
        rcases heff with ⟨ctx', htime, rfl, rfl⟩ | ⟨frame, hkey, rfl, rfl⟩
        · rw [AList.insert_insert]
          exact .kept rfl (.fresh hl hfree) (htime.trans (takeSnapshot_time _ _))
        · rw [KeyMap.erase_insert]
          exact .completed rfl (.fresh hl hfree) hkey
    | some ctx =>
      rw [acceptFragment_live hscan hl]
      obtain ⟨contexts, stats, out, heq, heff⟩ := storeFragment_effect clk
        { s with frozenKeysRing := (isKeyFrozen frag.key now s.frozenKeysRing).1 }
        frag storage (takeSnapshot ctx frag)
      refine ⟨contexts, stats, out, heq, ?_⟩
      rcases heff with ⟨ctx', htime, rfl, rfl⟩ | ⟨frame, hkey, rfl, rfl⟩
      · exact .kept rfl (.live hl) (htime.trans (takeSnapshot_time _ _))
      · exact .completed rfl (.live hl) hkey

/-- **A packet that passes the header checks.** -/
theorem processWith_effect (storage : FragmentStorage) (clk : SystemClock)
    (h : fragmentOf s.config packet = some frag) :
    ∃ contexts stats out, Reassembler.processWith storage clk s packet =
      ({ s with
        contexts := contexts
        frozenKeysRing := (isKeyFrozen frag.key (clk s.reads) s.frozenKeysRing).1
        stats := stats
        reads := s.reads + 1 }, out) ∧
      PacketEffect s.config.maxContexts s.contexts
        (isKeyFrozen frag.key (clk s.reads) s.frozenKeysRing).2 frag
          (clk s.reads) contexts out := by
  unfold Reassembler.processWith
  rw [h]
  exact acceptFragment_effect clk { s.countReceived with reads := s.reads + 1 } frag storage
    (clk s.reads)

theorem processWith_none (storage : FragmentStorage) (clk : SystemClock)
    (h : fragmentOf s.config packet = none) :
    Reassembler.processWith storage clk s packet = (s.countReceived, []) := by
  unfold Reassembler.processWith
  rw [h]

/-- **The completion loop** keeps what the completion of a live context keeps. -/
theorem completeAll_keeps {I : Reassembler → Prop}
    (hstep : ∀ s key ctx s' e, I s → s.contexts.lookup key = some ctx →
      s.completeReassembly clk key ctx true = some (s', e) → I s') :
    ∀ (keys : List ReassemblyKey) {s : Reassembler}, I s →
      I (Reassembler.completeAll clk keys s).1 := by
  intro keys
  induction keys with
  | nil => exact fun h => h
  | cons key keys ih =>
    intro s h
    unfold Reassembler.completeAll
    cases hl : s.contexts.lookup key with
    | none => exact ih h
    | some ctx =>
      simp only
      cases hc : s.completeReassembly clk key ctx true with
      | none => exact h
      | some r => exact ih (hstep s key ctx r.1 r.2 h hl hc)

end

end Qdgz300.Pipeline
