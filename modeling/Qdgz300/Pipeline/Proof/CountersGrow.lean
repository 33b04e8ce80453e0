import Qdgz300.Pipeline.Proof.ResetStatistics
import Qdgz300.Pipeline.Reorderer

/-!
# Counters that only grow

Between two calls of `reset_statistics` no counter of a reassembler goes back, and the same holds of
the counters of a reorderer that the main loop reports. `Grown` also says what else the calls leave
alone, the timeout.

* `Reassembler.step_grown`, `Reorderer.step_grown`: one call.
-/

namespace Qdgz300.Pipeline

open Protocol

/-- `s'` comes after `s`. -/
structure Reassembler.Grown (s s' : Reassembler) : Prop where
  timeout : s'.timeoutMsRuntime = s.timeoutMsRuntime
  late : s.stats.lateFragments ≤ s'.stats.lateFragments
  duplicate : s.stats.duplicateFragments ≤ s'.stats.duplicateFragments
  incomplete : s.stats.framesIncomplete ≤ s'.stats.framesIncomplete
  contextsOverflow : s.stats.contextsOverflow ≤ s'.stats.contextsOverflow
  bytesOverflow : s.stats.reasmBytesOverflow ≤ s'.stats.reasmBytesOverflow
  missing : s.stats.totalMissingFragments ≤ s'.stats.totalMissingFragments
  created : s.stats.contextsCreated ≤ s'.stats.contextsCreated
  destroyed : s.stats.contextsDestroyed ≤ s'.stats.contextsDestroyed

namespace Reassembler

section
variable {clk : SystemClock} {s s' s'' : Reassembler} {frag : Fragment} {storage : FragmentStorage}
  {key : ReassemblyKey} {ctx : ReassemblyContext} {op : ReassemblerOp}

theorem Grown.refl (s : Reassembler) : Grown s s := by constructor <;> simp

theorem Grown.trans (h : Grown s s') (h' : Grown s' s'') : Grown s s'' where
  timeout := h'.timeout.trans h.timeout
  late := h.late.trans h'.late
  duplicate := h.duplicate.trans h'.duplicate
  incomplete := h.incomplete.trans h'.incomplete
  contextsOverflow := h.contextsOverflow.trans h'.contextsOverflow
  bytesOverflow := h.bytesOverflow.trans h'.bytesOverflow
  missing := h.missing.trans h'.missing
  created := h.created.trans h'.created
  destroyed := h.destroyed.trans h'.destroyed

theorem addFrozenKey_grown (s : Reassembler) (key : ReassemblyKey) (expireMs : BitVec 64) :
    Grown s (s.addFrozenKey key expireMs) := by
  unfold addFrozenKey
  split <;> constructor <;> simp

theorem destroyContext_grown (s : Reassembler) (key : ReassemblyKey) :
    Grown s (s.destroyContext key) := by
  unfold destroyContext
  split <;> constructor <;> simp

theorem countFrame_grown (s : Reassembler) (frame : ReassembledFrame) (isTimeout : Bool) :
    Grown s (s.countFrame frame isTimeout) := by
  unfold countFrame
  split <;> constructor <;> simp

theorem completeReassembly_grown {isTimeout : Bool} {e : Emission}
    (hc : s.completeReassembly clk key ctx isTimeout = some (s', e)) : Grown s s' := by
  unfold completeReassembly at hc
  split at hc
  · cases hc
  have hcount := countFrame_grown s (assembleFrame s.config key ctx) isTimeout
  simp only at hc
  split at hc
  · obtain ⟨rfl, -⟩ := Prod.mk.inj (Option.some.inj hc)
    have hread : Grown s { s.countFrame (assembleFrame s.config key ctx) isTimeout with
        reads := (s.countFrame (assembleFrame s.config key ctx) isTimeout).reads + 1 } := by
      obtain ⟨h1, h2, h3, h4, h5, h6, h7, h8, h9⟩ := hcount
      exact ⟨h1, h2, h3, h4, h5, h6, h7, h8, h9⟩
    exact (hread.trans (addFrozenKey_grown _ _ _)).trans (destroyContext_grown _ _)
  · obtain ⟨rfl, -⟩ := Prod.mk.inj (Option.some.inj hc)
    exact hcount.trans (destroyContext_grown _ _)

theorem putContext_grown (s : Reassembler) (key : ReassemblyKey) (ctx : ReassemblyContext) :
    Grown s (s.putContext key ctx) := by constructor <;> simp [putContext]

theorem storeFragment_grown : Grown s (s.storeFragment clk frag storage ctx).1 := by
  have hput := putContext_grown s frag.key ctx
  unfold storeFragment
  cases hadd : addFragment s.config ctx frag storage with
  | rejected => exact hput
  | duplicate => exact hput.trans (by constructor <;> simp)
  | bytesOverflow => exact hput.trans (by constructor <;> simp)
  | added ctx' =>
    have hput' := hput.trans (putContext_grown _ frag.key ctx')
    simp only
    split
    · split
      case h_1 s3 e hc => exact hput'.trans (completeReassembly_grown hc)
      case h_2 => exact hput'
    · exact hput'

theorem acceptFragment_grown {now : BitVec 64} :
    Grown s (s.acceptFragment clk frag storage now).1 := by
  have hscan : Grown s
      { s with frozenKeysRing := (isKeyFrozen frag.key now s.frozenKeysRing).1 } := by
    constructor <;> simp
  unfold acceptFragment
  simp only
  split
  · exact hscan.trans (by constructor <;> simp [countLate])
  · have hctx : Grown s (getOrCreateContext
        { s with frozenKeysRing := (isKeyFrozen frag.key now s.frozenKeysRing).1 } frag now).1 := by
      refine hscan.trans ?_
      unfold getOrCreateContext
      split
      · exact .refl _
      · split <;> constructor <;> simp
    split
    case h_1 s2 hr =>
      rw [hr] at hctx
      exact hctx
    case h_2 s2 ctx hr =>
      rw [hr] at hctx
      exact hctx.trans storeFragment_grown

/-- **A call** other than a reset or a new timeout. -/
theorem step_grown (hreset : op ≠ .resetStatistics)
    (hset : ∀ timeoutMs, op ≠ .setTimeoutMs timeoutMs) :
    Grown s (s.step clk op).1 := by
  have hpacket : ∀ (storage : FragmentStorage) (packet : ParsedPacket),
      Grown s (processWith storage clk s packet).1 := by
    intro storage packet
    have hread : Grown s { s.countReceived with reads := s.reads + 1 } := by
      constructor <;> simp [countReceived]
    unfold processWith
    split
    · constructor <;> simp [countReceived]
    · exact hread.trans acceptFragment_grown
  have hall : ∀ (keys : List ReassemblyKey) (t : Reassembler), Grown s t →
      Grown s (completeAll clk keys t).1 := fun keys t h =>
    completeAll_keeps (fun _ _ _ _ _ h _ hc => h.trans (completeReassembly_grown hc)) keys h
  cases op with
  | processPacket packet => exact hpacket .heap packet
  | processPacketZeroCopy packet => exact hpacket .pool packet
  | checkTimeouts order => exact hall _ _ (by constructor <;> simp)
  | flushAll order => exact hall _ _ (.refl s)
  | setTimeoutMs timeoutMs => exact absurd rfl (hset timeoutMs)
  | resetStatistics => exact absurd rfl hreset

end

end Reassembler

/-- `s'` comes after `s`. -/
structure Reorderer.Grown (s s' : Reorderer) : Prop where
  timeout : s'.timeoutMsRuntime = s.timeoutMsRuntime
  duplicate : s.stats.packetsDuplicate ≤ s'.stats.packetsDuplicate
  zeroFilled : s.stats.packetsZeroFilled ≤ s'.stats.packetsZeroFilled

namespace Reorderer

section
variable {clk : SteadyClock} {s s' s'' : Reorderer}

theorem Grown.refl (s : Reorderer) : Grown s s := ⟨rfl, Nat.le_refl _, Nat.le_refl _⟩

theorem Grown.trans (h : Grown s s') (h' : Grown s' s'') : Grown s s'' :=
  ⟨h'.timeout.trans h.timeout, h.duplicate.trans h'.duplicate, h.zeroFilled.trans h'.zeroFilled⟩

theorem advanceLoop_grown : ∀ (fuel : Nat) (s : Reorderer), Grown s (advanceLoop clk fuel s).1
  | 0, s => .refl s
  | fuel + 1, s => by
    have htake : Grown s (s.takeHead clk) := ⟨rfl, Nat.le_refl _, Nat.le_refl _⟩
    unfold advanceLoop
    split
    · exact .refl s
    · split
      · exact .refl s
      · exact htake.trans (advanceLoop_grown fuel _)

theorem advanceWindow_grown (s : Reorderer) :
    Grown s (advanceWindow clk (s.advanceNow clk)).1.syncBuffered := by
  have hadvance : Grown s (s.advanceNow clk) := ⟨rfl, Nat.le_refl _, Nat.le_refl _⟩
  exact (hadvance.trans (advanceLoop_grown _ _)).trans ⟨rfl, Nat.le_refl _, Nat.le_refl _⟩

theorem insertBody_grown (header : CommonHeader) (payload : Option (List Byte))
    (payloadSize : Nat) :
    Grown s (s.insertBody clk header payload payloadSize).1 := by
  have hdup : Grown s s.countDuplicate := ⟨rfl, Nat.le_succ _, Nat.le_refl _⟩
  have hin : Grown s s.countInOrder := ⟨rfl, Nat.le_refl _, Nat.le_refl _⟩
  unfold insertBody
  simp only
  split
  · exact hin.trans (advanceWindow_grown _)
  · split
    · exact hdup
    · split
      · exact hdup
      · split
        · exact hdup
        · exact ⟨rfl, Nat.le_refl _, Nat.le_refl _⟩

theorem insertOwned_grown (header : CommonHeader) (payload : Option (List Byte))
    (payloadSize : Nat) :
    Grown s (s.insertOwned clk header payload payloadSize).1 := by
  have hinit : Grown s (s.initWith header.sequenceNumber) := by
    unfold initWith
    split
    · exact .refl s
    · exact ⟨rfl, Nat.le_refl _, Nat.le_refl _⟩
  exact hinit.trans (insertBody_grown header payload payloadSize)

theorem checkTimeout_grown : Grown s (s.checkTimeout clk).1 := by
  have hzero : Grown s s.countZeroFilled := ⟨rfl, Nat.le_refl _, Nat.le_succ _⟩
  unfold checkTimeout skipExpected
  split
  · exact .refl s
  · split
    · exact ⟨rfl, Nat.le_refl _, Nat.le_refl _⟩
    · simp only
      split
      · exact hzero.trans (advanceWindow_grown _)
      · exact advanceWindow_grown _

end

end Reorderer

end Qdgz300.Pipeline
