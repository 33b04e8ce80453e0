import Qdgz300.Pipeline.Proof.Provenance

/-!
# What a refused fragment leaves behind

The header checks, the frozen keys and the limit on contexts refuse a packet before anything is
changed. `add_fragment` refuses it after its context has been found or created, and after a tail's
snapshot has been stored there: a fragment refused there leaves an empty context behind if its key
was not live, and its snapshot if it is a tail.

* `refuses_iff`: a refused packet changes nothing exactly when it gets to no context, or to a live
  one that has its snapshot already.
* **`refused_left_alone_iff`**: so along every run. `refused_not_left_alone` has a run for each of
  the two ways in which it goes wrong.
-/

namespace Qdgz300.Pipeline

open Protocol

/-- Only counters have changed, and expired entries of the ring of frozen keys. -/
structure LeftAlone (clk : SystemClock) (s : Reassembler) (r : Reassembler × List Emission) :
    Prop where
  contexts : ∀ key, r.1.contexts.lookup key = s.contexts.lookup key
  silent : r.2 = []
  config : r.1.config = s.config
  timeout : r.1.timeoutMsRuntime = s.timeoutMsRuntime
  next : r.1.frozenKeysNextInsert = s.frozenKeysNextInsert
  ring : ∀ i : Nat, r.1.frozenKeysRing[i]? = s.frozenKeysRing[i]? ∨
    ∃ e, s.frozenKeysRing[i]? = some e ∧ e.expireMs ≤ clk s.reads ∧
      r.1.frozenKeysRing[i]? = some { e with valid := false }

/-- A packet that is not accepted as a new fragment leaves no trace. -/
def RefusesWithoutTrace (clk : SystemClock) (s : Reassembler) (op : ReassemblerOp) : Prop :=
  ∀ storage packet, op.packet? = some (storage, packet) → s.accepts clk storage packet = false →
    LeftAlone clk s (s.step clk op)

/-- The context has the snapshot that the fragment brings, if it brings one. -/
def HasSnapshot (ctx : ReassemblyContext) (frag : Fragment) : Prop :=
  ∀ snapshot, frag.tailSnapshot = some snapshot →
    ctx.hasExecutionSnapshot = true ∧ ctx.executionSnapshot = snapshot

/-- A packet that is not accepted and gets as far as a context finds it live, and with its
snapshot. -/
def RefusedAtKnownContext (clk : SystemClock) (s : Reassembler) (op : ReassemblerOp) : Prop :=
  ∀ storage packet frag ctx, op.packet? = some (storage, packet) →
    s.accepts clk storage packet = false → s.arrival clk packet = some (frag, ctx) →
    frag.key ∈ s.contexts ∧ HasSnapshot ctx frag

section
variable {clk : SystemClock} {s : Reassembler} {op : ReassemblerOp} {storage : FragmentStorage}
  {packet : ParsedPacket} {frag : Fragment} {ctx : ReassemblyContext}

theorem takeSnapshot_eq_self_iff : takeSnapshot ctx frag = ctx ↔ HasSnapshot ctx frag := by
  unfold takeSnapshot HasSnapshot
  cases frag.tailSnapshot with
  | none => simp
  | some snapshot =>
    simp only [Option.some.injEq, forall_eq']
    constructor
    · intro h
      refine ⟨?_, ?_⟩
      · rw [← h]
      · rw [← h]
    · rintro ⟨h1, h2⟩
      rw [← h2, ← h1]

/-- A packet that completes nothing touches the ring and the counters, and the contexts. -/
theorem leftAlone_of_contexts
    (hcontexts : ∀ key, (Reassembler.processWith storage clk s packet).1.contexts.lookup key =
      s.contexts.lookup key)
    (hsilent : (Reassembler.processWith storage clk s packet).2 = []) :
    LeftAlone clk s (Reassembler.processWith storage clk s packet) := by
  cases hfrag : fragmentOf s.config packet with
  | none =>
    rw [processWith_none storage clk hfrag]
    exact ⟨fun _ => rfl, rfl, rfl, rfl, rfl, fun _ => .inl rfl⟩
  | some frag =>
    obtain ⟨contexts, stats, out, heq, -⟩ := processWith_effect storage clk hfrag
    rw [heq] at hcontexts hsilent ⊢
    exact ⟨hcontexts, hsilent, rfl, rfl, rfl, isKeyFrozen_entry frag.key (clk s.reads) _⟩

/-- The contexts after a refused fragment are those before it exactly when its key was live and had
its snapshot. -/
theorem lookup_insert_takeSnapshot_iff
    (hctx : ContextFor s.config.maxContexts s.contexts frag (clk s.reads) ctx) :
    (∀ key, (s.contexts.insert frag.key (takeSnapshot ctx frag)).lookup key =
      s.contexts.lookup key) ↔ frag.key ∈ s.contexts ∧ HasSnapshot ctx frag := by
  rw [← takeSnapshot_eq_self_iff]
  constructor
  · intro h
    have hkey := h frag.key
    rw [AList.lookup_insert] at hkey
    cases hctx with
    | live hl =>
      rw [hl] at hkey
      exact ⟨KeyMap.mem_of_lookup hl, Option.some.inj hkey⟩
    | fresh hl hfree =>
      rw [hl] at hkey
      cases hkey
  · rintro ⟨hmem, hsame⟩ key
    rw [hsame]
    by_cases hk : key = frag.key
    · subst hk
      rw [AList.lookup_insert]
      cases hctx with
      | live hl => exact hl.symm
      | fresh hl hfree => exact absurd hmem (AList.lookup_eq_none.1 hl)
    · rw [AList.lookup_insert_ne hk]

/-- **A refused packet** leaves no trace exactly when it reaches no context, or a live one that has
its snapshot. -/
theorem refuses_iff : RefusesWithoutTrace clk s op ↔ RefusedAtKnownContext clk s op := by
  cases hop : op.packet? with
  | none =>
    refine iff_of_true (fun storage packet h => ?_) fun storage packet frag ctx h => ?_
    · rw [hop] at h
      cases h
    · rw [hop] at h
      cases h
  | some sp =>
    obtain ⟨storage, packet⟩ := sp
    have hleft : RefusesWithoutTrace clk s op ↔ (s.accepts clk storage packet = false →
        LeftAlone clk s (Reassembler.processWith storage clk s packet)) := by
      simp [RefusesWithoutTrace, hop, step_packet hop]
    have hright : RefusedAtKnownContext clk s op ↔ (s.accepts clk storage packet = false →
        ∀ frag ctx, s.arrival clk packet = some (frag, ctx) →
          frag.key ∈ s.contexts ∧ HasSnapshot ctx frag) := by
      constructor
      · exact fun h hno frag ctx harr => h storage packet frag ctx hop hno harr
      · intro h storage' packet' frag ctx hop' hno harr
        rw [hop] at hop'
        cases hop'
        exact h hno frag ctx harr
    rw [hleft, hright]
    refine imp_congr_right fun hno => ?_
    cases harr : s.arrival clk packet with
    | none =>
      obtain ⟨hcontexts, hsilent⟩ := processWith_none_arrival harr storage
      refine iff_of_true (leftAlone_of_contexts (fun key => by rw [hcontexts]) hsilent) ?_
      intro frag ctx h
      cases h
    | some fc =>
      obtain ⟨frag, ctx⟩ := fc
      have hadd : (addFragment s.config (takeSnapshot ctx frag) frag storage).isAdded = false := by
        simpa [Reassembler.accepts, harr] using hno
      obtain ⟨hcontexts, hsilent⟩ := processWith_refused harr hadd
      have hiff := lookup_insert_takeSnapshot_iff (arrival_eq_some.1 harr).2.2
      constructor
      · intro hl frag' ctx' heq
        cases heq
        rw [← hiff, ← hcontexts]
        exact hl.contexts
      · intro h
        refine leftAlone_of_contexts ?_ hsilent
        rw [hcontexts]
        exact hiff.2 (h frag ctx rfl)

/-- **A rejected fragment leaves no trace** in exactly the runs in which every packet that is
refused after the frozen keys and the limit on contexts finds its key live and its snapshot
stored. -/
theorem refused_left_alone_iff (clk : SystemClock) (cfg : ReassemblerConfig)
    (ops : List ReassemblerOp) :
    Machine.RunAlong (Reassembler.step clk) (RefusesWithoutTrace clk) (Reassembler.new cfg) ops ↔
      Machine.RunAlong (Reassembler.step clk) (RefusedAtKnownContext clk)
        (Reassembler.new cfg) ops :=
  Machine.runAlong_iff (Reassembler.step clk) (I := fun _ => True) (fun _ _ _ => refuses_iff)
    (fun _ _ _ _ => trivial) trivial

end

/-- The tail of two fragments, with one byte and a snapshot of bytes `x`. -/
def tailOfTwo (x : Byte) : ParsedPacket := dataPacket 1 2 1 (List.replicate snapshotSize x ++ [7])

/-- The first of two fragments, with two bytes. -/
def headOfTwo : ParsedPacket := dataPacket 0 2 1 [5, 6]

/-- A repeated tail is counted as a duplicate, and its snapshot replaces the one of the tail that
was accepted; a first fragment over the limit of bytes is dropped, and leaves an empty context. -/
theorem refused_not_left_alone :
    ¬ Machine.RunAlong (Reassembler.step stepClock) (RefusesWithoutTrace stepClock)
        (Reassembler.new {}) [.processPacket (tailOfTwo 0), .processPacket (tailOfTwo 1)] ∧
    ¬ Machine.RunAlong (Reassembler.step stepClock) (RefusesWithoutTrace stepClock)
        (Reassembler.new { maxReasmBytesPerKey := 1 }) [.processPacketZeroCopy headOfTwo] := by
  refine ⟨fun h => ?_, fun h => ?_⟩
  · have hcontexts := (h.2.1 .heap (tailOfTwo 1) rfl (by decide +kernel)).contexts {}
    exact absurd hcontexts (by decide +kernel)
  · have hcontexts := (h.1 .pool headOfTwo rfl (by decide +kernel)).contexts {}
    exact absurd hcontexts (by decide +kernel)

end Qdgz300.Pipeline
