import Qdgz300.Pipeline.Proof.Accesses

/-!
# The accesses of the reassembler stay in range

`Bounded` is what keeps the accesses to a context in range, `Sound` says it of all live contexts.

* `received_inRange`, `infer_inRange`, `addFragment_inRange`, `fragmentOf_inRange`: the containers
  and the packet are accessed in range.
* `secondPass_inRange`: so is the buffer of a frame, when its size does not wrap.
* `Bounded.totalSize`: a size that wraps is that of a frame none of whose inner fragments has
  arrived.
* **`run_inRange`**: the accesses of every run, those to the buffer of a frame under the condition
  `NoOverrun` on the configuration.
-/

namespace Qdgz300.Pipeline.Accesses

open Protocol Logged

/-- The size of a missing fragment when no other one has a size. -/
def fallbackSize (cfg : ReassemblerConfig) (complexSize channelCount : Nat) : Nat :=
  sizeT (cfg.sampleCountFixed * complexSize * channelCount)

/-- There is no context; or the frame of a context that has received nothing but perhaps its tail
has a size that does not wrap, or one for which no buffer of the wrapped size is granted. -/
def NoOverrun (fits : Allocator) (cfg : ReassemblerConfig) : Prop :=
  cfg.maxContexts = 0 ∨
    ∀ missing < cfg.maxTotalFrags.toNat, ∀ tail < 65536, ∀ channelCount ≤ 12,
    ∀ complexSize ∈ [4, 8],
      missing * fallbackSize cfg complexSize channelCount + tail < 2 ^ 64 ∨
        fits (sizeT (missing * fallbackSize cfg complexSize channelCount + tail)) = false

/-- The access is in range, if it is not to the buffer of a frame or if `C` holds. -/
def InRangeWhen (C : Prop) (a : Access) : Prop := a.onFrame = false ∨ C → a.InRange

/-- What keeps the accesses to a context in range. -/
structure Bounded (cfg : ReassemblerConfig) (ptr : Nat → PayloadPtr) (ctx : ReassemblyContext) :
    Prop where
  room : 0 < cfg.maxContexts
  nonempty : 0 < ctx.totalFrags.toNat
  total : ctx.totalFrags.toNat ≤ cfg.maxTotalFrags.toNat
  words : ctx.receivedFragments.length = 16
  sizes : ctx.fragmentSizes.length = ctx.totalFrags.toNat
  refs : ctx.fragmentRefs.length = ctx.totalFrags.toNat
  short : ∀ i, ctx.fragmentSizes.getD i 0 < 65536
  bits : ∀ i, (ctx.fragmentRefs.getD i {}).hasData = true → ctx.receivedFragments.test i = true
  held : ∀ i, (ctx.fragmentRefs.getD i {}).hasData = true →
    (ctx.fragmentRefs.getD i {}).dataSize = ctx.fragmentSizes.getD i 0 ∧
      All Access.InRange (readFragment (ctx.fragmentRefs.getD i {}) (ptr i))

/-- Every live context is bounded. -/
structure Sound (cfg : ReassemblerConfig) (σ : System) : Prop where
  config : σ.reassembler.config = cfg
  live : ∀ key ctx, σ.reassembler.contexts.lookup key = some ctx →
    Bounded cfg (σ.pointers key) ctx ∧ popcount16 key.channelMask ≤ 12

section
variable {cfg : ReassemblerConfig} {ctx : ReassemblyContext} {key : ReassemblyKey}
  {packet : ParsedPacket} {frag : Fragment} {storage : FragmentStorage} {ptr : Nat → PayloadPtr}
  {clk : SystemClock} {σ : System} {fits : Allocator} {C : Prop}

theorem InRangeWhen.of_inRange {a : Access} (h : a.InRange) : InRangeWhen C a := fun _ => h

theorem all_inRangeWhen {α : Type} {x : Logged Access α} (h : All Access.InRange x) :
    All (InRangeWhen C) x :=
  h.mono fun _ ha => InRangeWhen.of_inRange ha

@[simp] theorem all_element {P : Access → Prop} {container : Container} {i : Nat} :
    All P (element ctx container i) ↔
      P (.element container i ctx.totalFrags.toNat (container.size ctx)) := all_emit

/-! ## Containers -/

theorem Bounded.element_inRange (hb : Bounded cfg ptr ctx) (hmax : cfg.maxTotalFrags.toNat ≤ 1024)
    {i : Nat} (hi : i < ctx.totalFrags.toNat) (container : Container) :
    All Access.InRange (element ctx container i) := by
  have htotal := hb.total
  have hsizes := hb.sizes
  have hrefs := hb.refs
  rw [all_element]
  refine ⟨hi, by omega, ?_⟩
  cases container with
  | receivedFragments =>
    simp only [Container.size]
    omega
  | fragmentSizes =>
    simp only [Container.size]
    omega
  | fragmentRefs =>
    simp only [Container.size]
    omega

theorem Bounded.received_inRange (hb : Bounded cfg ptr ctx) (hmax : cfg.maxTotalFrags.toNat ≤ 1024)
    {i : Nat} (hi : i < ctx.totalFrags.toNat) : All Access.InRange (received ctx i) := by
  unfold received
  refine all_bind.2 ⟨hb.element_inRange hmax hi _, ?_⟩
  split
  · exact all_bind.2 ⟨hb.element_inRange hmax hi _, all_pure _⟩
  · exact all_pure _

theorem Bounded.firstSize_inRange (hb : Bounded cfg ptr ctx)
    (hmax : cfg.maxTotalFrags.toNat ≤ 1024) :
    ∀ {is : List Nat}, (∀ i ∈ is, i < ctx.totalFrags.toNat) → All Access.InRange (firstSize ctx is)
  | [], _ => all_pure _
  | i :: is, his => by
    have hi := hb.element_inRange hmax (his i List.mem_cons_self) .fragmentSizes
    have ih := hb.firstSize_inRange hmax fun j hj => his j (List.mem_cons_of_mem i hj)
    unfold firstSize
    split
    · exact ih
    split
    · refine all_bind.2 ⟨hi, ?_⟩
      split
      · exact all_bind.2 ⟨hi, all_pure _⟩
      · exact ih
    · exact ih

theorem Bounded.infer_inRange (hb : Bounded cfg ptr ctx) (hmax : cfg.maxTotalFrags.toNat ≤ 1024)
    (i channelCount : Nat) (dataType : BitVec 8) :
    All Access.InRange (inferMissingFragmentSize cfg ctx i channelCount dataType) := by
  unfold inferMissingFragmentSize
  split
  · exact all_pure _
  · refine all_bind.2 ⟨hb.firstSize_inRange hmax fun i => List.mem_range.1, ?_⟩
    split <;> exact all_pure _

/-! ## Completion -/

theorem Bounded.firstPass_inRange (hb : Bounded cfg ptr ctx)
    (hmax : cfg.maxTotalFrags.toNat ≤ 1024) :
    ∀ {is : List Nat} (n : Nat), (∀ i ∈ is, i < ctx.totalFrags.toNat) →
      All Access.InRange (firstPass cfg key ctx is n)
  | [], _, _ => all_pure _
  | i :: is, n, his => by
    have hi := his i List.mem_cons_self
    have ih := fun n => hb.firstPass_inRange hmax n fun j hj => his j (List.mem_cons_of_mem i hj)
    unfold firstPass
    refine all_bind.2 ⟨hb.received_inRange hmax hi, ?_⟩
    split
    · exact all_bind.2 ⟨hb.element_inRange hmax hi _, ih _⟩
    · exact all_bind.2 ⟨hb.infer_inRange hmax _ _ _, ih _⟩

theorem Bounded.readFragment_inRange (hb : Bounded cfg ptr ctx) {i : Nat}
    (hrec : Reassembler.received ctx i = true) :
    All Access.InRange (readFragment (ctx.fragmentRefs.getD i {}) (ptr i)) := by
  simp only [Reassembler.received, Bool.and_eq_true] at hrec
  exact (hb.held i hrec.2).2

/-- **The second pass** stays in the buffer, where what is left to write fits behind `pos`. -/
theorem Bounded.secondPass_inRange (hb : Bounded cfg ptr ctx)
    (hmax : cfg.maxTotalFrags.toNat ≤ 1024) {size : Nat} :
    ∀ {is : List Nat} (pos written : Nat), (∀ i ∈ is, i < ctx.totalFrags.toNat) →
      (C → size < 2 ^ 64 ∧ pos + slotBytes cfg key ctx is ≤ size) →
      All (InRangeWhen C) (secondPass cfg key ctx ptr size is pos written)
  | [], _, _, _, _ => all_pure _
  | i :: is, pos, written, his, hC => by
    have hi := his i List.mem_cons_self
    have ih : ∀ pos written, (C → size < 2 ^ 64 ∧ pos + slotBytes cfg key ctx is ≤ size) →
        All (InRangeWhen C) (secondPass cfg key ctx ptr size is pos written) := fun pos written =>
      hb.secondPass_inRange hmax pos written fun j hj => his j (List.mem_cons_of_mem i hj)
    -- the position does not wrap before the end of the buffer
    have hnext : C → size < 2 ^ 64 ∧
        sizeT (pos + Reassembler.assembledSize cfg ctx key i) + slotBytes cfg key ctx is ≤
          size := by
      intro c
      obtain ⟨hsize, hfit⟩ := hC c
      rw [slotBytes_cons] at hfit
      unfold sizeT
      omega
    have hwrite : InRangeWhen C
        (.writeFrame pos (Reassembler.assembledSize cfg ctx key i) size) := by
      rintro (hframe | c)
      · cases hframe
      · have hfit := (hC c).2
        rw [slotBytes_cons] at hfit
        simp only [Access.InRange]
        omega
    rw [Reassembler.assembledSize] at hwrite hnext
    unfold secondPass
    refine all_bind.2 ⟨all_inRangeWhen (hb.received_inRange hmax hi), ?_⟩
    rw [value_received]
    cases hrec : Reassembler.received ctx i with
    | true =>
      rw [hrec, if_pos rfl] at hwrite hnext
      rw [if_pos rfl]
      exact all_bind.2 ⟨all_inRangeWhen (hb.element_inRange hmax hi _), all_bind.2
        ⟨all_inRangeWhen (hb.readFragment_inRange hrec), all_bind.2
        ⟨all_emit.2 hwrite, ih _ _ hnext⟩⟩⟩
    | false =>
      rw [hrec, if_neg Bool.false_ne_true] at hwrite hnext
      rw [if_neg Bool.false_ne_true]
      refine all_bind.2 ⟨all_inRangeWhen (hb.infer_inRange hmax _ _ _), ?_⟩
      rw [value_inferMissingFragmentSize]
      exact all_bind.2 ⟨all_emit.2 hwrite, ih _ _ hnext⟩

/-- The size inferred for an inner slot: that of the first inner fragment with a size, or the
configured one when there is none. -/
theorem infer_inner (cfg : ReassemblerConfig) (key : ReassemblyKey) {i : Nat}
    (hi : i + 1 ≠ ctx.totalFrags.toNat) :
    Reassembler.inferMissingFragmentSize cfg ctx i (popcount16 key.channelMask) key.dataType =
      (((List.range ctx.totalFrags.toNat).find? (Sizes ctx)).map fun j =>
        ctx.fragmentSizes.getD j 0).getD
        (fallbackSize cfg (if key.dataType = 0x02 then 8 else 4) (popcount16 key.channelMask)) := by
  rw [← value_inferMissingFragmentSize, inferMissingFragmentSize, if_neg hi, value_bind,
    value_firstSize]
  cases (List.range ctx.totalFrags.toNat).find? (Sizes ctx) with
  | none => rfl
  | some j => rfl

/-- It is small, or no inner fragment has a size. -/
theorem Bounded.infer_cases (hb : Bounded cfg ptr ctx) (key : ReassemblyKey) :
    (∀ i, i + 1 < ctx.totalFrags.toNat →
        Reassembler.inferMissingFragmentSize cfg ctx i (popcount16 key.channelMask) key.dataType <
          65536) ∨
      ∀ i, i + 1 < ctx.totalFrags.toNat → ctx.fragmentSizes.getD i 0 = 0 ∧
        Reassembler.inferMissingFragmentSize cfg ctx i (popcount16 key.channelMask) key.dataType =
          fallbackSize cfg (if key.dataType = 0x02 then 8 else 4) (popcount16 key.channelMask) := by
  cases hfind : (List.range ctx.totalFrags.toNat).find? (Sizes ctx) with
  | some j =>
    refine .inl fun i hi => ?_
    rw [infer_inner cfg key (by omega), hfind]
    exact hb.short j
  | none =>
    refine .inr fun i hi => ⟨?_, ?_⟩
    · by_contra hne
      refine List.find?_eq_none.1 hfind i (List.mem_range.2 (by omega)) ((sizes_iff i).2 ⟨?_, ?_⟩)
      · omega
      · exact Nat.pos_of_ne_zero hne
    · rw [infer_inner cfg key (by omega), hfind]
      rfl

theorem Bounded.size_received (hb : Bounded cfg ptr ctx) {i : Nat}
    (hrec : Reassembler.received ctx i = true) :
    (ctx.fragmentRefs.getD i {}).dataSize = ctx.fragmentSizes.getD i 0 ∧
      0 < ctx.fragmentSizes.getD i 0 := by
  simp only [Reassembler.received, Bool.and_eq_true] at hrec
  have hsize := (hb.held i hrec.2).1
  have hpos := hrec.2
  simp only [FragmentRef.hasData, Bool.and_eq_true, decide_eq_true_eq] at hpos
  exact ⟨hsize, hsize ▸ hpos.2⟩

theorem Bounded.last_lt (hb : Bounded cfg ptr ctx) (key : ReassemblyKey) {i : Nat}
    (hi : i + 1 = ctx.totalFrags.toNat) : Reassembler.assembledSize cfg ctx key i < 65536 := by
  unfold Reassembler.assembledSize
  split
  case isTrue hrec =>
    rw [(hb.size_received hrec).1]
    exact hb.short i
  case isFalse =>
    rw [Reassembler.inferMissingFragmentSize, if_pos hi]
    exact ctx.tailFragPayloadBytes.isLt

theorem slotBytes_succ (cfg : ReassemblerConfig) (key : ReassemblyKey) (ctx : ReassemblyContext)
    (n : Nat) : slotBytes cfg key ctx (List.range (n + 1)) =
      slotBytes cfg key ctx (List.range n) + Reassembler.assembledSize cfg ctx key n := by
  simp [slotBytes, List.range_succ]

theorem slotBytes_le {most : Nat} : ∀ {n : Nat},
    (∀ i < n, Reassembler.assembledSize cfg ctx key i ≤ most) →
      slotBytes cfg key ctx (List.range n) ≤ n * most
  | 0, _ => Nat.zero_le _
  | n + 1, h => by
    have ih := slotBytes_le fun i hi => h i (Nat.lt_succ_of_lt hi)
    have hlast := h n (Nat.lt_succ_self n)
    rw [slotBytes_succ, Nat.succ_mul]
    omega

theorem slotBytes_eq {size : Nat} : ∀ {n : Nat},
    (∀ i < n, Reassembler.assembledSize cfg ctx key i = size) →
      slotBytes cfg key ctx (List.range n) = n * size
  | 0, _ => (Nat.zero_mul size).symm
  | n + 1, h => by
    have ih := slotBytes_eq fun i hi => h i (Nat.lt_succ_of_lt hi)
    rw [slotBytes_succ, Nat.succ_mul, ih, h n (Nat.lt_succ_self n)]

/-- **The size of a frame**: it is small, or no inner fragment has arrived. -/
theorem Bounded.totalSize (hb : Bounded cfg ptr ctx) (hmax : cfg.maxTotalFrags.toNat ≤ 1024)
    (key : ReassemblyKey) :
    slotBytes cfg key ctx (List.range ctx.totalFrags.toNat) < 2 ^ 64 ∨
      ∃ missing < cfg.maxTotalFrags.toNat, ∃ tail < 65536,
        slotBytes cfg key ctx (List.range ctx.totalFrags.toNat) = missing *
          fallbackSize cfg (if key.dataType = 0x02 then 8 else 4) (popcount16 key.channelMask) +
            tail := by
  obtain ⟨inner, hn⟩ := Nat.exists_eq_add_one_of_ne_zero (Nat.pos_iff_ne_zero.1 hb.nonempty)
  have htotal := hb.total
  have hlast := hb.last_lt key hn.symm
  rw [hn, slotBytes_succ]
  rcases hb.infer_cases key with hsmall | hnone
  · have hinner : slotBytes cfg key ctx (List.range inner) ≤ inner * 65535 := by
      refine slotBytes_le fun i hi => ?_
      unfold Reassembler.assembledSize
      split
      case isTrue hrec =>
        have := hb.short i
        rw [(hb.size_received hrec).1]
        omega
      case isFalse =>
        have := hsmall i (by omega)
        omega
    left
    omega
  · have hinner := slotBytes_eq fun i (hi : i < inner) =>
      show Reassembler.assembledSize cfg ctx key i = _ by
        obtain ⟨hzero, hinfer⟩ := hnone i (by omega)
        unfold Reassembler.assembledSize
        split
        case isTrue hrec =>
          have := (hb.size_received hrec).2
          omega
        case isFalse => exact hinfer
    rw [hinner]
    exact .inr ⟨inner, by omega, _, hlast, rfl⟩

theorem mem_complexSizes (dataType : BitVec 8) : (if dataType = 0x02 then 8 else 4) ∈ [4, 8] := by
  split <;> simp

/-- **A completion**, under the condition on the configuration. -/
theorem Bounded.complete_inRange (hb : Bounded σ.reassembler.config (σ.pointers key) ctx)
    (hmax : σ.reassembler.config.maxTotalFrags.toNat ≤ 1024)
    (hmask : popcount16 key.channelMask ≤ 12)
    (hC : C → NoOverrun fits σ.reassembler.config) (isTimeout : Bool) :
    All (InRangeWhen C) (completeReassembly fits clk σ key ctx isTimeout) := by
  have hrange : ∀ i ∈ List.range ctx.totalFrags.toNat, i < ctx.totalFrags.toNat :=
    fun i => List.mem_range.1
  unfold completeReassembly
  refine all_bind.2 ⟨all_inRangeWhen (hb.firstPass_inRange hmax 0 hrange), ?_⟩
  rw [value_assembledSize]
  split
  case isFalse => exact all_pure _
  case isTrue hfits =>
    -- a granted buffer has the size of the frame
    have hsize : C → slotBytes σ.reassembler.config key ctx (List.range ctx.totalFrags.toNat) <
        2 ^ 64 := by
      intro c
      rcases hb.totalSize hmax key with hlt | ⟨missing, hmissing, tail, htail, heq⟩
      · exact hlt
      · rw [heq] at hfits ⊢
        have hsafe := (hC c).resolve_left (Nat.ne_of_gt hb.room)
        refine (hsafe missing hmissing tail htail _ hmask _ (mem_complexSizes _)).resolve_right
          fun hno => ?_
        rw [hno] at hfits
        cases hfits
    refine all_bind.2 ⟨hb.secondPass_inRange hmax 0 0 hrange fun c => ?_,
      all_bind.2 ⟨all_emit.2 ?_, all_pure _⟩⟩
    · have := hsize c
      unfold sizeT
      omega
    · rintro (hframe | c)
      · cases hframe
      · have := hsize c
        rw [value_secondPass, Nat.zero_add]
        simp only [Access.InRange, sizeT]
        omega

end

end Qdgz300.Pipeline.Accesses
