import Qdgz300.Pipeline.Accesses
import Qdgz300.Pipeline.Proof.FrameLayout

/-!
# What the calls with their accesses return

The computations of `Pipeline.Accesses` return what the functions of the reassembler's model return:
`value_fragmentOf`, `value_addFragment`, `value_received`, `value_inferMissingFragmentSize`. The
first pass computes the frame's size modulo `2 ^ 64` (`value_firstPass`), the second one writes that
many bytes (`value_secondPass`).

**`run_model`**: when every request for memory is granted, a run goes through the states of the
model.
-/

namespace Qdgz300.Pipeline.Accesses

open Protocol Logged

section
variable {cfg : ReassemblerConfig} {ctx : ReassemblyContext} {key : ReassemblyKey}
  {packet : ParsedPacket} {frag : Fragment} {storage : FragmentStorage} {ptr : PayloadPtr}
  {clk : SystemClock} {σ : System}

/-! ## Header checks and fragments -/

theorem value_fragmentOf : (fragmentOf cfg packet).value = Pipeline.fragmentOf cfg packet := by
  unfold fragmentOf
  simp only
  split
  case isTrue hshort =>
    have hparse : parseSpecificHeader cfg packet.payload packet.header.payloadLen.toNat = none := by
      unfold parseSpecificHeader
      rcases hshort with hnull | hshort
      · rw [hnull]
      · cases packet.payload with
        | none => rfl
        | some bytes => simp only [if_pos hshort]
    rw [Pipeline.fragmentOf, hparse]
    rfl
  case isFalse =>
    rw [value_bind]
    cases hparse : parseSpecificHeader cfg packet.payload packet.header.payloadLen.toNat with
    | none =>
      rw [Pipeline.fragmentOf, hparse]
      rfl
    | some specific =>
      simp only
      split
      case isTrue hbad =>
        rw [Pipeline.fragmentOf, hparse]
        simp only [if_pos hbad]
        rfl
      case isFalse hbad =>
      split
      case isFalse => rfl
      case isTrue htail =>
      split
      case isFalse => rfl
      case isTrue hlen =>
        rw [Pipeline.fragmentOf, hparse]
        simp only [if_neg hbad, htail, if_true, if_pos hlen]
        rfl

theorem value_addFragment :
    (addFragment cfg ctx frag storage ptr).value = Pipeline.addFragment cfg ctx frag storage := by
  unfold addFragment
  simp only
  split
  case isTrue hrange =>
    rw [Pipeline.addFragment]
    simp only [if_pos hrange]
    rfl
  case isFalse =>
    rw [value_bind]
    cases Pipeline.addFragment cfg ctx frag storage with
    | rejected => rfl
    | duplicate => rfl
    | bytesOverflow => rfl
    | added ctx' =>
      simp only
      split
      · split <;> rfl
      · rfl

/-! ## The two passes -/

theorem value_received (i : Nat) : (received ctx i).value = Reassembler.received ctx i := by
  unfold received Reassembler.received
  rw [value_bind]
  by_cases h : ctx.receivedFragments.test i = true ∧ i < ctx.fragmentRefs.length
  · rw [if_pos h, value_bind, h.1, decide_eq_true h.2]
    rfl
  · rw [if_neg h]
    cases hbit : ctx.receivedFragments.test i with
    | false => rfl
    | true =>
      have hlen : ¬ i < ctx.fragmentRefs.length := fun hlen => h ⟨hbit, hlen⟩
      simp [hlen]

/-- The slots whose size `infer_missing_fragment_size` takes. -/
def Sizes (ctx : ReassemblyContext) (i : Nat) : Bool :=
  i + 1 ≠ ctx.totalFrags.toNat && decide (0 < ctx.fragmentSizes.getD i 0)

theorem sizes_iff (i : Nat) : Sizes ctx i = true ↔
    i + 1 ≠ ctx.totalFrags.toNat ∧ 0 < ctx.fragmentSizes.getD i 0 := by
  simp only [Sizes, Bool.and_eq_true, decide_eq_true_eq]

theorem value_firstSize : ∀ is : List Nat,
    (firstSize ctx is).value = (is.find? (Sizes ctx)).map fun i => ctx.fragmentSizes.getD i 0
  | [] => rfl
  | i :: is => by
    have ih := value_firstSize is
    unfold firstSize
    by_cases hlast : i + 1 = ctx.totalFrags.toNat
    · rw [if_pos hlast, ih, List.find?_cons_of_neg fun h => ((sizes_iff i).1 h).1 hlast]
    rw [if_neg hlast]
    by_cases hlen : i < ctx.fragmentSizes.length
    · rw [if_pos hlen, value_bind]
      by_cases hpos : 0 < ctx.fragmentSizes.getD i 0
      · rw [if_pos hpos, List.find?_cons_of_pos ((sizes_iff i).2 ⟨hlast, hpos⟩)]
        rfl
      · rw [if_neg hpos, ih, List.find?_cons_of_neg fun h => hpos ((sizes_iff i).1 h).2]
    · have hzero : ctx.fragmentSizes.getD i 0 = 0 := by
        rw [List.getD_eq_getElem?_getD, List.getElem?_eq_none (Nat.le_of_not_lt hlen)]
        rfl
      have hnot : ¬ Sizes ctx i = true := fun h => by
        have := ((sizes_iff i).1 h).2
        omega
      rw [if_neg hlen, ih, List.find?_cons_of_neg hnot]

theorem value_inferMissingFragmentSize (i channelCount : Nat) (dataType : BitVec 8) :
    (inferMissingFragmentSize cfg ctx i channelCount dataType).value =
      Reassembler.inferMissingFragmentSize cfg ctx i channelCount dataType := by
  unfold inferMissingFragmentSize Reassembler.inferMissingFragmentSize
  split
  · rfl
  · rw [value_bind, value_firstSize]
    cases hfind : (List.range ctx.totalFrags.toNat).find? (Sizes ctx) with
    | none =>
      unfold Sizes at hfind
      rw [hfind]
      rfl
    | some slot =>
      unfold Sizes at hfind
      rw [hfind]
      rfl

/-- The bytes of the slots `is` in a frame. -/
def slotBytes (cfg : ReassemblerConfig) (key : ReassemblyKey) (ctx : ReassemblyContext)
    (is : List Nat) : Nat :=
  (is.map (Reassembler.assembledSize cfg ctx key)).sum

theorem slotBytes_cons (i : Nat) (is : List Nat) :
    slotBytes cfg key ctx (i :: is) =
      Reassembler.assembledSize cfg ctx key i + slotBytes cfg key ctx is := rfl

theorem sizeT_add (a b : Nat) : sizeT (sizeT a + b) = sizeT (a + b) := by
  unfold sizeT
  omega

/-- **The first pass** counts the bytes of all slots, modulo `2 ^ 64`. -/
theorem value_firstPass : ∀ (is : List Nat) (n : Nat),
    (firstPass cfg key ctx is (sizeT n)).value = sizeT (n + slotBytes cfg key ctx is)
  | [], _ => rfl
  | i :: is, n => by
    unfold firstPass
    rw [value_bind, value_received, slotBytes_cons, Reassembler.assembledSize, ← Nat.add_assoc]
    cases Reassembler.received ctx i with
    | true => simp only [if_true, value_bind, sizeT_add, value_firstPass is]
    | false =>
      simp only [Bool.false_eq_true, if_false, value_bind, value_inferMissingFragmentSize, sizeT_add,
        value_firstPass is]

theorem value_assembledSize (cfg : ReassemblerConfig) (key : ReassemblyKey)
    (ctx : ReassemblyContext) (n : Nat) : (firstPass cfg key ctx (List.range n) 0).value =
      sizeT (slotBytes cfg key ctx (List.range n)) := by
  have hfirst := @value_firstPass cfg ctx key (List.range n) 0
  rwa [Nat.zero_add, show sizeT 0 = 0 from rfl] at hfirst

/-- **The second pass** writes the bytes of all slots. -/
theorem value_secondPass {ptr : Nat → PayloadPtr} {size : Nat} : ∀ (is : List Nat)
    (pos written : Nat),
    (secondPass cfg key ctx ptr size is pos written).value = written + slotBytes cfg key ctx is
  | [], _, _ => rfl
  | i :: is, pos, written => by
    unfold secondPass
    rw [value_bind, value_received, slotBytes_cons, Reassembler.assembledSize, ← Nat.add_assoc]
    cases Reassembler.received ctx i with
    | true => simp only [if_true, value_bind, value_secondPass is]
    | false =>
      simp only [Bool.false_eq_true, if_false, value_bind, value_inferMissingFragmentSize,
        value_secondPass is]

/-! ## Calls -/

/-- The computation returns what a call of the model returns. -/
def Returns (x : Logged Access (System × List Emission)) (r : Reassembler × List Emission) : Prop :=
  (x.value.1.reassembler, x.value.2) = r

theorem value_completeReassembly (isTimeout : Bool) :
    (completeReassembly (fun _ => true) clk σ key ctx isTimeout).value =
      (σ.reassembler.completeReassembly clk key ctx isTimeout).map fun r =>
        ({ σ with reassembler := r.1 }, r.2) := rfl

theorem returns_storeFragment (clk : SystemClock) (σ : System) (frag : Fragment)
    (storage : FragmentStorage) (ptr : PayloadPtr) (ctx : ReassemblyContext) :
    Returns (storeFragment (fun _ => true) clk σ frag storage ptr ctx)
      (σ.reassembler.storeFragment clk frag storage ctx) := by
  unfold Returns storeFragment Reassembler.storeFragment
  simp only [value_bind, value_addFragment]
  have hcfg : (σ.reassembler.putContext frag.key ctx).config = σ.reassembler.config := rfl
  rw [hcfg]
  cases Pipeline.addFragment σ.reassembler.config ctx frag storage with
  | rejected => rfl
  | duplicate => rfl
  | bytesOverflow => rfl
  | added ctx' =>
    simp only
    split
    · simp only [value_bind, value_completeReassembly]
      cases Reassembler.completeReassembly clk _ frag.key ctx' false <;> rfl
    · rfl

theorem returns_processWith (storage : FragmentStorage) (clk : SystemClock) (σ : System)
    (packet : ParsedPacket) :
    Returns (processWith storage (fun _ => true) clk σ packet)
      (Reassembler.processWith storage clk σ.reassembler packet) := by
  unfold Returns processWith Reassembler.processWith
  simp only [value_bind, value_fragmentOf]
  cases Pipeline.fragmentOf σ.reassembler.config packet with
  | none => rfl
  | some frag =>
    simp only
    unfold acceptFragment Reassembler.acceptFragment
    simp only
    split
    · rfl
    · cases Reassembler.getOrCreateContext _ frag (clk σ.reassembler.reads) with
      | mk s2 found =>
        cases found with
        | none => rfl
        | some ctx => exact returns_storeFragment clk _ frag storage _ _

theorem returns_completeAll (clk : SystemClock) : ∀ (keys : List ReassemblyKey) (σ : System),
    Returns (completeAll (fun _ => true) clk keys σ)
      (Reassembler.completeAll clk keys σ.reassembler)
  | [], _ => rfl
  | key :: keys, σ => by
    have ih := returns_completeAll clk keys
    unfold completeAll Reassembler.completeAll
    cases σ.reassembler.contexts.lookup key with
    | none => exact ih σ
    | some ctx =>
      unfold Returns
      simp only [value_bind, value_completeReassembly]
      cases σ.reassembler.completeReassembly clk key ctx true with
      | none => rfl
      | some r =>
        have hrest := ih { σ with reassembler := r.1 }
        unfold Returns at hrest
        simp only [Option.map_some, value_bind, value_pure, ← hrest]

theorem returns_call (clk : SystemClock) (σ : System) (op : ReassemblerOp) :
    Returns (call (fun _ => true) clk σ op) (σ.reassembler.step clk op) := by
  cases op with
  | processPacket packet => exact returns_processWith .heap clk σ packet
  | processPacketZeroCopy packet => exact returns_processWith .pool clk σ packet
  | checkTimeouts order => exact returns_completeAll clk _ _
  | flushAll order => exact returns_completeAll clk _ _
  | setTimeoutMs timeoutMs => rfl
  | resetStatistics => rfl

/-- **The runs of the model**: when every request for memory is granted, the calls with their
accesses go through its states. -/
theorem run_model (clk : SystemClock) : ∀ (ops : List ReassemblerOp) (σ : System),
    (run (fun _ => true) clk σ ops).1.reassembler = (σ.reassembler.run clk ops).1
  | [], _ => rfl
  | op :: ops, σ => by
    have hcall := congrArg Prod.fst (returns_call clk σ op)
    have hrest := run_model clk ops (step (fun _ => true) clk σ op).1
    have hstate : (step (fun _ => true) clk σ op).1.reassembler =
      (σ.reassembler.step clk op).1 := hcall
    rw [hstate] at hrest
    exact hrest

end

end Qdgz300.Pipeline.Accesses
