import Qdgz300.Pipeline.Proof.AccessRange

/-!
# Runs whose accesses stay in range

* `fragmentOf_inRange`, `addFragment_inRange`: a packet that holds the bytes it announces is read
  within them, and its fragment enters a slot that exists.
* `bounded_new`, `Bounded.takeSnapshot`, `Bounded.enter`: what a context goes through keeps it
  bounded.
* `processWith_safe`, `completeAll_safe`: the step lemmas.
* **`run_inRange`**: the accesses of every run are in range, those to the buffer of a frame under
  `NoOverrun`.
-/

namespace Qdgz300.Pipeline.Accesses

open Protocol Logged

/-- The bytes of a fragment lie in the packet that it came in. -/
structure FromPacket (frag : Fragment) (p : PayloadPtr) : Prop where
  short : frag.payloadSize < 65536
  sized : frag.Sized
  inside : (Access.readPayload p frag.payloadSize).InRange

section
variable {cfg : ReassemblerConfig} {ctx ctx' : ReassemblyContext} {key : ReassemblyKey}
  {packet : ParsedPacket} {frag : Fragment} {storage : FragmentStorage} {ptr : Nat → PayloadPtr}
  {p : PayloadPtr} {clk : SystemClock} {σ : System} {fits : Allocator} {C : Prop}

/-! ## Packets -/

theorem payloadPtr_inRange {bytes : List Byte} (hheld : packet.Holds)
    (hbytes : packet.payload = some bytes) {offset n : Nat}
    (hn : offset + n ≤ packet.header.payloadLen.toNat) :
    (Access.readPayload (payloadPtr packet offset) n).InRange := by
  have hlen := hheld bytes (by rw [hbytes]; rfl)
  refine ⟨hn, ?_⟩
  simp only [payloadPtr, hbytes, Option.getD_some]
  omega

theorem fragmentOf_inRange (cfg : ReassemblerConfig) (hheld : packet.Holds) :
    All Access.InRange (fragmentOf cfg packet) := by
  unfold fragmentOf
  simp only
  split
  case isTrue => exact all_pure _
  case isFalse hlong =>
    obtain ⟨hnull, hlong⟩ := not_or.1 hlong
    obtain ⟨bytes, hbytes⟩ := Option.ne_none_iff_exists'.1 hnull
    refine all_bind.2 ⟨all_emit.2 (payloadPtr_inRange hheld hbytes (by omega)), ?_⟩
    cases parseSpecificHeader cfg packet.payload packet.header.payloadLen.toNat with
    | none => exact all_pure _
    | some specific =>
      simp only
      split
      · exact all_pure _
      split
      case isFalse => exact all_pure _
      case isTrue =>
      split
      case isTrue => exact all_pure _
      case isFalse hlen =>
        exact all_bind.2 ⟨all_emit.2 (payloadPtr_inRange hheld hbytes (by omega)), all_pure _⟩

theorem fromPacket (hheld : packet.Holds) (hfrag : Pipeline.fragmentOf cfg packet = some frag) :
    FromPacket frag (fragmentPtr packet frag) := by
  have hlen := packet.header.payloadLen.isLt
  obtain ⟨bytes, hbytes, -, -, -, hcases⟩ := fragmentOf_spec hfrag
  rcases hcases with ⟨htail, -, -, hpl, -⟩ | ⟨htail, -, hpl, -⟩
  · refine ⟨by omega, fragmentOf_sized hheld hfrag, ?_⟩
    rw [fragmentPtr, if_pos htail]
    exact payloadPtr_inRange hheld hbytes (by omega)
  · refine ⟨by omega, fragmentOf_sized hheld hfrag, ?_⟩
    rw [fragmentPtr, if_neg (by rw [htail]; exact Bool.false_ne_true)]
    exact payloadPtr_inRange hheld hbytes (by omega)

theorem popcount_channelMask (h : DataSpecificHeader) : popcount16 h.channelMask ≤ 12 := by
  have hbits : ∀ i ∈ List.range 16, (0x0FFF#16).getLsbD i = true → i < 12 := by decide
  refine (List.countP_mono_left (q := fun i => decide (i < 12)) fun i hi hbit => ?_).trans
    (by decide)
  rw [DataSpecificHeader.channelMask, BitVec.getLsbD_and, Bool.and_eq_true] at hbit
  exact decide_eq_true (hbits i hi hbit.2)

/-! ## Contexts -/

theorem size_newContext (frag : Fragment) (now : BitVec 64) (i : Nat) :
    (newContext frag now).fragmentSizes.getD i 0 = 0 := by
  simp only [newContext, List.getD_eq_getElem?_getD, List.getElem?_replicate]
  split <;> rfl

theorem ref_newContext (frag : Fragment) (now : BitVec 64) (i : Nat) :
    (newContext frag now).fragmentRefs.getD i {} = {} := by
  simp only [newContext, List.getD_eq_getElem?_getD, List.getElem?_replicate]
  split <;> rfl

theorem bounded_new (hroom : 0 < cfg.maxContexts)
    (hfrag : Pipeline.fragmentOf cfg packet = some frag) (now : BitVec 64)
    (ptr : Nat → PayloadPtr) :
    Bounded cfg ptr (newContext frag now) := by
  obtain ⟨hpos, hle⟩ := fragmentOf_total hfrag
  refine ⟨hroom, hpos, hle, rfl, by simp [newContext], by simp [newContext], fun i => ?_, ?_, ?_⟩
  · rw [size_newContext]
    decide
  · intro i hdata
    rw [ref_newContext] at hdata
    cases hdata
  · intro i hdata
    rw [ref_newContext] at hdata
    cases hdata

theorem Bounded.takeSnapshot (hb : Bounded cfg ptr ctx) (frag : Fragment) :
    Bounded cfg ptr (takeSnapshot ctx frag) := by
  unfold Pipeline.takeSnapshot
  cases frag.tailSnapshot with
  | none => exact hb
  | some snapshot =>
    exact ⟨hb.room, hb.nonempty, hb.total, hb.words, hb.sizes, hb.refs, hb.short, hb.bits, hb.held⟩

/-- **A fragment that enters its slot** takes an empty one, and is read where it is. -/
theorem Bounded.enter (hb : Bounded cfg ptr ctx) (hp : FromPacket frag p)
    (hadd : (Pipeline.addFragment cfg ctx frag storage).isAdded = true) :
    Bounded cfg (Function.update ptr frag.index p) (enterFragment ctx frag storage) := by
  obtain ⟨hi, hsmall, hbit, -⟩ := addFragment_isAdded_iff.1 hadd
  have hword : frag.index / 64 < ctx.receivedFragments.length := by
    rw [hb.words]
    omega
  have hsizes : frag.index < ctx.fragmentSizes.length := hb.sizes.symm ▸ hi
  have hrefs : frag.index < ctx.fragmentRefs.length := hb.refs.symm ▸ hi
  have hempty : (ctx.fragmentRefs.getD frag.index {}).hasData = false := by
    by_contra hdata
    rw [Bool.not_eq_false] at hdata
    rw [hb.bits _ hdata] at hbit
    cases hbit
  refine ⟨hb.room, hb.nonempty, hb.total, by simp [hb.words], by simp [hb.sizes, enterFragment],
    by rw [length_refs_enterFragment]; exact hb.refs, fun i => ?_, fun i hdata => ?_, fun i hdata => ?_⟩
  · by_cases hne : frag.index = i
    · subst hne
      rw [size_enterFragment_self hsizes]
      exact hp.short
    · rw [size_enterFragment_ne hne]
      exact hb.short i
  · rw [test_enterFragment hword]
    by_cases hne : frag.index = i
    · simp [hne]
    · rw [ref_enterFragment_ne hne] at hdata
      rw [hb.bits i hdata]
      rfl
  · by_cases hne : frag.index = i
    · subst hne
      rcases Nat.eq_zero_or_pos frag.payloadSize with hzero | hpos
      · rw [refs_enterFragment_empty hzero, hempty] at hdata
        cases hdata
      · rw [ref_enterFragment_self hrefs hpos, size_enterFragment_self hsizes, Function.update_self]
        refine ⟨rfl, ?_⟩
        cases storage with
        | pool => exact all_emit.2 hp.inside
        | heap => exact all_emit.2 (Nat.le_of_eq hp.sized.symm)
    · rw [ref_enterFragment_ne hne] at hdata ⊢
      rw [size_enterFragment_ne hne, Function.update_of_ne (Ne.symm hne)]
      exact hb.held i hdata

theorem Bounded.addFragment_inRange (hb : Bounded cfg ptr ctx)
    (hmax : cfg.maxTotalFrags.toNat ≤ 1024) (hp : FromPacket frag p) :
    All Access.InRange (addFragment cfg ctx frag storage p) := by
  unfold addFragment
  simp only
  split
  case isTrue => exact all_pure _
  case isFalse hrange =>
    have hi : frag.specific.fragIndex.toNat < ctx.totalFrags.toNat :=
      BitVec.not_le.1 (not_or.1 hrange).1
    have helement := hb.element_inRange hmax hi
    refine all_bind.2 ⟨helement _, ?_⟩
    cases Pipeline.addFragment cfg ctx frag storage with
    | rejected => exact all_pure _
    | duplicate => exact all_pure _
    | bytesOverflow => exact all_pure _
    | added ctx' =>
      have hrest : All Access.InRange (do
          element ctx .fragmentSizes frag.specific.fragIndex.toNat
          element ctx .receivedFragments frag.specific.fragIndex.toNat
          return AddOutcome.added ctx') :=
        all_bind.2 ⟨helement _, all_bind.2 ⟨helement _, all_pure _⟩⟩
      simp only
      split
      · split
        · exact all_bind.2 ⟨all_emit.2 hp.inside, all_bind.2 ⟨helement _, hrest⟩⟩
        · exact all_bind.2 ⟨helement _, hrest⟩
      · exact hrest

/-! ## Calls -/

/-- The accesses of a call are in range, and it leaves bounded contexts. -/
structure Safe (cfg : ReassemblerConfig) (C : Prop) (x : Logged Access (System × List Emission)) :
    Prop where
  accesses : All (InRangeWhen C) x
  sound : Sound cfg x.value.1

theorem Safe.pure {es : List Emission} (hs : Sound cfg σ) : Safe cfg C (Pure.pure (σ, es)) :=
  ⟨all_pure _, hs⟩

theorem Safe.bind {α : Type} {x : Logged Access α} {f : α → Logged Access (System × List Emission)}
    (hx : All (InRangeWhen C) x) (hf : Safe cfg C (f x.value)) : Safe cfg C (x >>= f) :=
  ⟨all_bind.2 ⟨hx, hf.accesses⟩, hf.sound⟩

theorem sound_new (cfg : ReassemblerConfig) : Sound cfg (System.new cfg) :=
  ⟨rfl, fun _ _ hl => by cases hl⟩

theorem Sound.sub {s : Reassembler} (hs : Sound cfg σ) (hcfg : s.config = σ.reassembler.config)
    (hsub : ∀ key ctx, s.contexts.lookup key = some ctx →
      σ.reassembler.contexts.lookup key = some ctx) :
    Sound cfg { σ with reassembler := s } :=
  ⟨hcfg.trans hs.config, fun key ctx hl => hs.live key ctx (hsub key ctx hl)⟩

theorem Sound.put {s : Reassembler} {pointers : ReassemblyKey → Nat → PayloadPtr} (hs : Sound cfg σ)
    (hcfg : s.config = σ.reassembler.config)
    (hcontexts : s.contexts = σ.reassembler.contexts.insert key ctx)
    (hpointers : ∀ k ≠ key, pointers k = σ.pointers k)
    (hb : Bounded cfg (pointers key) ctx) (hmask : popcount16 key.channelMask ≤ 12) :
    Sound cfg { reassembler := s, pointers := pointers } := by
  refine ⟨hcfg.trans hs.config, fun k c hk => ?_⟩
  simp only [hcontexts] at hk
  rcases KeyMap.lookup_insert_cases hk with ⟨rfl, rfl⟩ | ⟨hne, hk⟩
  · exact ⟨hb, hmask⟩
  · simp only [hpointers k hne]
    exact hs.live k c hk

theorem Sound.complete {isTimeout : Bool} {r : System × Emission} (hs : Sound cfg σ)
    (hc : (completeReassembly fits clk σ key ctx isTimeout).value = some r) : Sound cfg r.1 := by
  unfold completeReassembly at hc
  simp only [value_bind] at hc
  split at hc
  case isFalse => cases hc
  case isTrue =>
    simp only [value_bind, value_pure, Option.map_eq_some_iff] at hc
    obtain ⟨⟨s', e⟩, hc, rfl⟩ := hc
    have herase : s'.config = σ.reassembler.config ∧
        s'.contexts = σ.reassembler.contexts.erase key := by
      cases isTimeout with
      | true =>
        obtain ⟨⟨stats, rfl⟩, -⟩ := completeReassembly_timeout hc
        exact ⟨addFrozenKey_config, rfl⟩
      | false =>
        obtain ⟨⟨stats, rfl⟩, -⟩ := completeReassembly_done hc
        exact ⟨rfl, rfl⟩
    exact hs.sub herase.1 fun k c hk => (KeyMap.lookup_erase_some (herase.2 ▸ hk)).2

theorem storeFragment_safe (hs : Sound cfg σ) (hmax : cfg.maxTotalFrags.toNat ≤ 1024)
    (hC : C → NoOverrun fits cfg) (hb : Bounded cfg (σ.pointers frag.key) ctx)
    (hmask : popcount16 frag.key.channelMask ≤ 12) (hp : FromPacket frag p) :
    Safe cfg C (storeFragment fits clk σ frag storage p ctx) := by
  have hcfg : (σ.reassembler.putContext frag.key ctx).config = cfg := hs.config
  have hkept : ∀ {s : Reassembler}, s.config = σ.reassembler.config →
      s.contexts = σ.reassembler.contexts.insert frag.key ctx →
      Sound cfg { σ with reassembler := s } := fun hcfg hcontexts =>
    hs.put hcfg hcontexts (fun _ _ => rfl) hb hmask
  unfold storeFragment
  refine Safe.bind (all_inRangeWhen (hcfg ▸ hb.addFragment_inRange hmax hp)) ?_
  rw [value_addFragment]
  cases hadd : Pipeline.addFragment (σ.reassembler.putContext frag.key ctx).config ctx frag
    storage with
  | rejected => exact Safe.pure (hkept rfl rfl)
  | duplicate => exact Safe.pure (hkept rfl rfl)
  | bytesOverflow => exact Safe.pure (hkept rfl rfl)
  | added ctx' =>
    rw [hcfg] at hadd
    have hentered : Bounded cfg (Function.update (σ.pointers frag.key) frag.index p) ctx' :=
      addFragment_added hadd ▸ hb.enter hp (by rw [hadd]; rfl)
    simp only
    have hs2 : Sound cfg
        { reassembler := (σ.reassembler.putContext frag.key ctx).putContext frag.key ctx'
          pointers := Function.update σ.pointers frag.key
            (Function.update (σ.pointers frag.key) frag.specific.fragIndex.toNat p) } := by
      refine hs.put rfl (AList.insert_insert _) (fun k hk => Function.update_of_ne hk _ _) ?_ hmask
      rw [Function.update_self]
      exact hentered
    split
    case isFalse => exact Safe.pure hs2
    case isTrue =>
      obtain ⟨hlive, -⟩ := hs2.live frag.key ctx' (AList.lookup_insert _)
      rw [← hs2.config] at hlive hmax hC
      refine Safe.bind (hlive.complete_inRange hmax hmask hC false) ?_
      cases hc : (completeReassembly fits clk _ frag.key ctx' false).value with
      | none => exact Safe.pure hs2
      | some r => exact Safe.pure (hs2.complete hc)

/-- **A packet.** -/
theorem processWith_safe (hs : Sound cfg σ) (hmax : cfg.maxTotalFrags.toNat ≤ 1024)
    (hC : C → NoOverrun fits cfg) (hheld : packet.Holds) :
    Safe cfg C (processWith storage fits clk σ packet) := by
  unfold processWith
  refine Safe.bind (all_inRangeWhen (fragmentOf_inRange _ hheld)) ?_
  rw [value_fragmentOf]
  cases hfrag : Pipeline.fragmentOf σ.reassembler.config packet with
  | none => exact Safe.pure (hs.sub rfl fun _ _ hl => hl)
  | some frag =>
    have hmask : popcount16 frag.key.channelMask ≤ 12 := by
      obtain ⟨-, -, hkey, -⟩ := fragmentOf_spec hfrag
      rw [hkey]
      exact popcount_channelMask frag.specific
    have hp := fromPacket hheld hfrag
    rw [hs.config] at hfrag
    simp only
    unfold acceptFragment
    simp only
    split
    case isTrue => exact Safe.pure (hs.sub rfl fun _ _ hl => hl)
    case isFalse =>
      unfold Reassembler.getOrCreateContext
      cases hl : σ.reassembler.contexts.lookup frag.key with
      | some ctx =>
        have hl' : σ.reassembler.countReceived.contexts.lookup frag.key = some ctx := hl
        simp only [hl']
        exact storeFragment_safe (hs.sub rfl fun _ _ hl => hl) hmax hC
          ((hs.live _ ctx hl).1.takeSnapshot frag) hmask hp
      | none =>
        have hl' : σ.reassembler.countReceived.contexts.lookup frag.key = none := hl
        simp only [hl']
        by_cases hfull : σ.reassembler.countReceived.config.maxContexts ≤
            σ.reassembler.countReceived.contexts.entries.length
        · rw [if_pos hfull]
          exact Safe.pure (hs.sub rfl fun _ _ hl => hl)
        · rw [if_neg hfull]
          have hroom : 0 < cfg.maxContexts := by
            rw [← hs.config]
            exact Nat.lt_of_le_of_lt (Nat.zero_le _) (Nat.lt_of_not_le hfull)
          have hnew := bounded_new hroom hfrag (clk σ.reassembler.reads) (σ.pointers frag.key)
          exact storeFragment_safe (hs.put rfl rfl (fun _ _ => rfl) hnew hmask) hmax hC
            (hnew.takeSnapshot frag) hmask hp

/-- **The completions** of a timeout check or a flush. -/
theorem completeAll_safe (hmax : cfg.maxTotalFrags.toNat ≤ 1024) (hC : C → NoOverrun fits cfg) :
    ∀ (keys : List ReassemblyKey) {σ : System}, Sound cfg σ →
    Safe cfg C (completeAll fits clk keys σ)
  | [], _, hs => Safe.pure hs
  | key :: keys, σ, hs => by
    unfold completeAll
    cases hl : σ.reassembler.contexts.lookup key with
    | none => exact completeAll_safe hmax hC keys hs
    | some ctx =>
      obtain ⟨hb, hmask⟩ := hs.live key ctx hl
      have hmax' := hmax
      have hC' := hC
      rw [← hs.config] at hb hmax' hC'
      simp only
      refine Safe.bind (hb.complete_inRange hmax' hmask hC' true) ?_
      cases hc : (completeReassembly fits clk σ key ctx true).value with
      | none => exact Safe.pure hs
      | some r =>
        have hrest := completeAll_safe hmax hC keys (hs.complete hc)
        exact Safe.bind hrest.accesses (Safe.pure hrest.sound)

/-- Every packet of the call holds the bytes that its header announces. -/
def Held (op : ReassemblerOp) : Prop :=
  ∀ storage packet, op.packet? = some (storage, packet) → packet.Holds

/-- **A call.** -/
theorem call_safe (hs : Sound cfg σ) (hmax : cfg.maxTotalFrags.toNat ≤ 1024)
    (hC : C → NoOverrun fits cfg) {op : ReassemblerOp} (hheld : Held op) :
    Safe cfg C (call fits clk σ op) := by
  cases op with
  | processPacket packet => exact processWith_safe hs hmax hC (hheld .heap packet rfl)
  | processPacketZeroCopy packet => exact processWith_safe hs hmax hC (hheld .pool packet rfl)
  | checkTimeouts order => exact completeAll_safe hmax hC _ (hs.sub rfl fun _ _ hl => hl)
  | flushAll order => exact completeAll_safe hmax hC _ hs
  | setTimeoutMs timeoutMs => exact Safe.pure (hs.sub rfl fun _ _ hl => hl)
  | resetStatistics => exact Safe.pure (hs.sub rfl fun _ _ hl => hl)

/-- **The accesses of a run** are in range; those to the buffer of a frame, if no frame overruns
it. -/
theorem run_inRange (clk : SystemClock) (hmax : cfg.maxTotalFrags.toNat ≤ 1024)
    (hC : C → NoOverrun fits cfg) {ops : List ReassemblerOp} (hheld : ∀ op ∈ ops, Held op) :
    ∀ a ∈ (run fits clk (System.new cfg) ops).2, InRangeWhen C a := by
  have hrun : ∀ {ops : List ReassemblerOp} {σ : System}, Sound cfg σ → (∀ op ∈ ops, Held op) →
      ∀ a ∈ (run fits clk σ ops).2, InRangeWhen C a := by
    intro ops
    induction ops with
    | nil =>
      intro σ _ _ a ha
      cases ha
    | cons op ops ih =>
      intro σ hs hheld a ha
      have hcall : Safe cfg C (call fits clk σ op) :=
        call_safe hs hmax hC (hheld op List.mem_cons_self)
      rcases List.mem_append.1 ha with ha | ha
      · exact hcall.accesses a ha
      · exact ih hcall.sound (fun o ho => hheld o (List.mem_cons_of_mem op ho)) a ha
  exact hrun (sound_new cfg) hheld

end

end Qdgz300.Pipeline.Accesses
