import Qdgz300.Pipeline.Proof.FrameLayout
import Qdgz300.Pipeline.Proof.Interleave

/-!
# The age of a context that times out

`check_timeout` subtracts two readings of the system clock as unsigned values. A context is found
old enough when it is (`Aged`), and also when the clock was set back behind its first reading
(`SetBack`): the difference then wraps to a large number.

* `checkTimeout_iff`: what the check finds.
* `completesAged_of_kept`, `kept_of_completesAged`: a step, in both directions.
* **`timeouts_aged`**: along every run.
-/

namespace Qdgz300.Pipeline

open Protocol

/-- At reading `now` the context is at least one timeout old. -/
def Aged (ctx : ReassemblyContext) (now : BitVec 64) (timeoutMs : BitVec 32) : Prop :=
  ctx.firstFragTimeMs.toNat + timeoutMs.toNat ≤ now.toNat

/-- The reading `now` lies before the first reading of the context, but not so far that the wrapped
difference would be less than the timeout. -/
def SetBack (ctx : ReassemblyContext) (now : BitVec 64) (timeoutMs : BitVec 32) : Prop :=
  now.toNat < ctx.firstFragTimeMs.toNat ∧
    ctx.firstFragTimeMs.toNat + timeoutMs.toNat ≤ now.toNat + 2 ^ 64

/-- A timeout check completes only contexts that are a timeout old. -/
def CompletesAged (clk : SystemClock) (s : Reassembler) : ReassemblerOp → Prop
  | .checkTimeouts order => ∀ e ∈ (s.checkTimeouts clk order).2,
      ∃ ctx, s.contexts.lookup e.frame.key = some ctx ∧ Aged ctx (clk s.reads) s.timeoutMsRuntime
  | _ => True

/-- A timeout check meets no live context behind whose first reading the clock was set back. -/
def ClockKept (clk : SystemClock) (s : Reassembler) : ReassemblerOp → Prop
  | .checkTimeouts _ => ∀ key ∈ s.contexts.keys, ∀ ctx ∈ s.contexts.lookup key,
      ¬ SetBack ctx (clk s.reads) s.timeoutMsRuntime
  | _ => True

section
variable {clk : SystemClock} {cfg : ReassemblerConfig} {s : Reassembler} {ctx : ReassemblyContext}
  {key : ReassemblyKey} {op : ReassemblerOp} {now : BitVec 64} {timeoutMs : BitVec 32}

instance : Decidable (Aged ctx now timeoutMs) := Nat.decLe _ _

instance : Decidable (SetBack ctx now timeoutMs) := inferInstanceAs (Decidable (_ ∧ _))

instance : ∀ op : ReassemblerOp, Decidable (ClockKept clk s op)
  | .checkTimeouts _ => inferInstanceAs (Decidable (∀ key ∈ s.contexts.keys,
      ∀ ctx ∈ s.contexts.lookup key, ¬ SetBack ctx (clk s.reads) s.timeoutMsRuntime))
  | .processPacket _ | .processPacketZeroCopy _ | .flushAll _ | .setTimeoutMs _ | .resetStatistics =>
    isTrue trivial

instance : ∀ op : ReassemblerOp, Decidable (CompletesAged clk s op)
  | .checkTimeouts order =>
    decidable_of_iff (∀ e ∈ (s.checkTimeouts clk order).2, (s.contexts.lookup e.frame.key).any
      (fun ctx => decide (Aged ctx (clk s.reads) s.timeoutMsRuntime)) = true)
      (by simp [CompletesAged, Option.any_eq_true])
  | .processPacket _ | .processPacketZeroCopy _ | .flushAll _ | .setTimeoutMs _ | .resetStatistics =>
    isTrue trivial

/-- **The unsigned comparison.** -/
theorem checkTimeout_iff :
    ctx.checkTimeout now timeoutMs = true ↔ Aged ctx now timeoutMs ∨ SetBack ctx now timeoutMs := by
  have hfirst := ctx.firstFragTimeMs.isLt
  have hnow := now.isLt
  have htimeout := timeoutMs.isLt
  rw [ReassemblyContext.checkTimeout, decide_eq_true_iff, BitVec.toNat_sub]
  unfold Aged SetBack
  omega

theorem mem_timedOut :
    key ∈ s.timedOut now ↔ ∃ ctx, s.contexts.lookup key = some ctx ∧
      ctx.checkTimeout now s.timeoutMsRuntime = true := by
  rw [Reassembler.timedOut, List.mem_filter, Option.any_eq_true]
  constructor
  · exact fun h => h.2
  · rintro ⟨ctx, hl, hold⟩
    exact ⟨AList.mem_keys.1 (KeyMap.mem_of_lookup hl), ctx, hl, hold⟩

theorem checkTimeouts_timedOut {order : IterOrder} {e : Emission}
    (he : e ∈ (s.checkTimeouts clk order).2) : e.frame.key ∈ s.timedOut (clk s.reads) := by
  by_contra hno
  have hkeys : e.frame.key ∉ order.toFun (s.timedOut (clk s.reads)) :=
    fun hm => hno ((order.perm _).mem_iff.1 hm)
  exact (completeAll_aside _ { s with reads := s.reads + 1 } hkeys).silent e he rfl

theorem completesAged_of_kept (h : ClockKept clk s op) : CompletesAged clk s op := by
  cases op with
  | checkTimeouts order =>
    intro e he
    obtain ⟨ctx, hl, hold⟩ := mem_timedOut.1 (checkTimeouts_timedOut he)
    refine ⟨ctx, hl, (checkTimeout_iff.1 hold).resolve_right ?_⟩
    exact h _ (AList.mem_keys.1 (KeyMap.mem_of_lookup hl)) ctx hl
  | processPacket packet => trivial
  | processPacketZeroCopy packet => trivial
  | flushAll order => trivial
  | setTimeoutMs timeoutMs => trivial
  | resetStatistics => trivial

/-- A context behind whose first reading the clock was set back is completed, as no completion
throws. -/
theorem kept_of_completesAged
    (hmax : ∀ k c, s.contexts.lookup k = some c → c.totalFrags.toNat ≤ 1024)
    (h : CompletesAged clk s op) : ClockKept clk s op := by
  cases op with
  | checkTimeouts order =>
    intro key hkey ctx hl hback
    have hout : key ∈ s.timedOut (clk s.reads) :=
      mem_timedOut.2 ⟨ctx, hl, checkTimeout_iff.2 (.inr hback)⟩
    obtain ⟨e, he, rfl⟩ := completeAll_emits clk (order.toFun (s.timedOut (clk s.reads)))
      { s with reads := s.reads + 1 } hmax ((order.perm _).mem_iff.2 hout) (KeyMap.mem_of_lookup hl)
    obtain ⟨ctx', hl', haged⟩ := h e he
    obtain rfl : ctx = ctx' := Option.some.inj (Option.mem_def.1 hl ▸ hl')
    have := hback.1
    unfold Aged at haged
    omega
  | processPacket packet => trivial
  | processPacketZeroCopy packet => trivial
  | flushAll order => trivial
  | setTimeoutMs timeoutMs => trivial
  | resetStatistics => trivial

/-- The fragment announces no more fragments than the configuration allows. -/
def Fragment.Allowed (cfg : ReassemblerConfig) (f : Fragment) : Prop :=
  f.specific.totalFrags.toNat ≤ cfg.maxTotalFrags.toNat

/-- **No context is timed out early**, in any run in which no timeout check meets a context behind
whose first reading the clock was set back. Where the configuration bounds the fragments by the size
of the bitset, as `validate` demands, these are the only such runs. -/
theorem timeouts_aged (clk : SystemClock) (cfg : ReassemblerConfig) (ops : List ReassemblerOp) :
    (Machine.RunAlong (Reassembler.step clk) (ClockKept clk) (Reassembler.new cfg) ops →
      Machine.RunAlong (Reassembler.step clk) (CompletesAged clk) (Reassembler.new cfg) ops) ∧
    (cfg.maxTotalFrags.toNat ≤ 1024 →
      Machine.RunAlong (Reassembler.step clk) (CompletesAged clk) (Reassembler.new cfg) ops →
      Machine.RunAlong (Reassembler.step clk) (ClockKept clk) (Reassembler.new cfg) ops) := by
  constructor
  · intro h
    exact Machine.runAlong_mono _ (fun s op => completesAged_of_kept) h
  · intro hmax h
    -- every live context was created by a fragment that the header checks passed
    have hrec : ∀ s op, (∃ hist, Recorded (Fragment.Allowed cfg) cfg (s, hist)) →
        ∃ hist, Recorded (Fragment.Allowed cfg) cfg ((s.step clk op).1, hist) := by
      rintro s op ⟨hist, hr⟩
      exact ⟨_, recorded_step (fun storage packet f _ hfrag => (fragmentOf_total hfrag).2) hr⟩
    have hiff : ∀ s op, (∃ hist, Recorded (Fragment.Allowed cfg) cfg (s, hist)) →
        (CompletesAged clk s op ↔ ClockKept clk s op) := by
      rintro s op ⟨hist, hr⟩
      refine ⟨kept_of_completesAged fun k c hk => ?_, completesAged_of_kept⟩
      obtain ⟨f, hf, -, htotal, -⟩ := (hr.behind k c hk).creator
      rw [htotal]
      exact Nat.le_trans hf hmax
    exact (Machine.runAlong_iff _ hiff (fun s op hr _ => hrec s op hr)
      ⟨fun _ => {}, recorded_new (Fragment.Allowed cfg) cfg _⟩).1 h

end

/-- A fragment at `0`, and its timeout at `100`. -/
theorem firstOfTwo_aged :
    Machine.RunAlong (Reassembler.step stepClock) (CompletesAged stepClock) (Reassembler.new {})
      [.processPacket firstOfTwo, .checkTimeouts .same] :=
  (timeouts_aged stepClock {} _).1 (by decide +kernel)

/-- Reading `1000`, and `999` for ever after. -/
def setBackClock : SystemClock := fun k => BitVec.ofNat 64 (1000 - min k 1)

/-- The clock is set back by one millisecond between a fragment and the next check, which completes
the context although it is younger than the timeout of `100`. -/
theorem setBack_early :
    ((Reassembler.new {}).run setBackClock [.processPacket firstOfTwo, .checkTimeouts .same]).2.length =
      1 ∧
    ¬ Machine.RunAlong (Reassembler.step setBackClock) (CompletesAged setBackClock)
      (Reassembler.new {}) [.processPacket firstOfTwo, .checkTimeouts .same] := by
  decide +kernel

end Qdgz300.Pipeline
