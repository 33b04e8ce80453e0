import Qdgz300.Pipeline.Proof.FrozenRing

/-!
# One frame per key within the timeout

A timeout freezes the key of its frame; a completion does not. So a packet of a key whose frame was
completed less than `timeout_ms` before starts the frame anew, unless there is no free context.
`NoReuse` excludes just that.

* **`one_frame_per_key`**: along every run without such a packet, packets of an emitted key are
  dropped for one timeout, and two frames of one key are at least a timeout apart.
* `repeated_frame_twice`: a frame of one fragment, received twice, is emitted twice.
-/

namespace Qdgz300.Pipeline

open Protocol

/-- A packet of a key whose frame was completed, less than a timeout before, finds no free
context. -/
def NoReuse (clk : SystemClock) (cfg : ReassemblerConfig) (st : Reassembler × List Stamp)
    (op : ReassemblerOp) : Prop :=
  ∀ storage packet frag, op.packet? = some (storage, packet) → fragmentOf cfg packet = some frag →
    ∀ h ∈ st.2, h.key = frag.key → h.frozen = false →
      (clk st.1.reads).toNat < h.time + cfg.timeoutMs.toNat →
      cfg.maxContexts ≤ KeyMap.size st.1.contexts

/-- No key is live for one timeout after its frame, and its frames are a timeout apart. -/
structure Once (clk : SystemClock) (cfg : ReassemblerConfig) (s : Reassembler)
    (hist : List Stamp) : Prop where
  remembers : Remembers clk cfg s hist
  past : ∀ h ∈ hist, h.time ≤ (clk s.reads).toNat
  quiet : ∀ h ∈ hist, (clk s.reads).toNat < h.time + cfg.timeoutMs.toNat → h.key ∉ s.contexts
  spaced : hist.Pairwise fun a b => a.key = b.key → a.time + cfg.timeoutMs.toNat ≤ b.time

section
variable {clk : SystemClock} {cfg : ReassemblerConfig} {s : Reassembler} {hist : List Stamp}
  {frag : Fragment} {key : ReassemblyKey}

theorem pairwise_concat {R : Stamp → Stamp → Prop} {g : Stamp} (h : hist.Pairwise R)
    (hg : ∀ a ∈ hist, R a g) : (hist ++ [g]).Pairwise R := by
  refine List.pairwise_append.2 ⟨h, List.pairwise_singleton _ _, fun a ha b hb => ?_⟩
  rw [List.mem_singleton.1 hb]
  exact hg a ha

/-- **A packet within one timeout of a frame of its key** is late or finds no free context. -/
theorem Once.dropped {contexts : ContextMap} {out : List Emission} {g : Stamp}
    (h : Once clk cfg s hist)
    (heff : PacketEffect s.config.maxContexts s.contexts
      (isKeyFrozen frag.key (clk s.reads) s.frozenKeysRing).2 frag (clk s.reads) contexts out)
    (hg : g ∈ hist) (hkey : g.key = frag.key)
    (hbefore : (clk s.reads).toNat < g.time + cfg.timeoutMs.toNat)
    (hfull : g.frozen = false → cfg.maxContexts ≤ KeyMap.size s.contexts) :
    contexts = s.contexts ∧ out = [] := by
  have hquiet := AList.lookup_eq_none.2 (h.quiet g hg hbefore)
  rw [hkey] at hquiet
  have hno : (isKeyFrozen frag.key (clk s.reads) s.frozenKeysRing).2 = false →
      ∀ ctx, ¬ ContextFor s.config.maxContexts s.contexts frag (clk s.reads) ctx := by
    intro hscan ctx hctx
    cases hctx with
    | live hl =>
      rw [hquiet] at hl
      cases hl
    | fresh hl hfree =>
      cases hfrozen : g.frozen with
      | true =>
        have := (h.remembers.guarded g hg hfrozen).frozen hbefore
        rw [hkey, hscan] at this
        cases this
      | false =>
        have := hfull hfrozen
        rw [h.remembers.base.config] at hfree
        omega
  cases heff with
  | late hf => exact ⟨rfl, rfl⟩
  | full hf hl hfull => exact ⟨rfl, rfl⟩
  | kept hf hctx htime => exact absurd hctx (hno hf _)
  | completed hf hctx hk => exact absurd hctx (hno hf _)

theorem Once.packet {contexts : ContextMap} {out : List Emission} (hclk : Steady clk)
    (h : Once clk cfg s hist)
    (heff : PacketEffect s.config.maxContexts s.contexts
      (isKeyFrozen frag.key (clk s.reads) s.frozenKeysRing).2 frag (clk s.reads) contexts out)
    (hfull : ∀ g ∈ hist, g.key = frag.key → g.frozen = false →
      (clk s.reads).toNat < g.time + cfg.timeoutMs.toNat → cfg.maxContexts ≤ KeyMap.size s.contexts)
    (stats : ReassemblerStatistics) : Once clk cfg (afterPacket clk s frag contexts stats)
      (hist ++ out.map (·.stamp (clk s.reads))) := by
  have hlater := hclk.next s.reads
  have hrem := h.remembers.packet hclk heff stats
  have hdrop : ∀ g ∈ hist, g.key = frag.key →
      (clk s.reads).toNat < g.time + cfg.timeoutMs.toNat → contexts = s.contexts ∧ out = [] :=
    fun g hg hk hb => h.dropped heff hg hk hb fun hf => hfull g hg hk hf hb
  have hpast : ∀ g ∈ hist, g.time ≤ (clk (s.reads + 1)).toNat := fun g hg =>
    Nat.le_trans (h.past g hg) hlater
  -- a key that is not live stays so, unless it is the key of the packet
  have hquiet : ∀ g ∈ hist, (clk (s.reads + 1)).toNat < g.time + cfg.timeoutMs.toNat →
      g.key ∉ contexts := by
    intro g hg hb
    have hb' : (clk s.reads).toNat < g.time + cfg.timeoutMs.toNat := Nat.lt_of_le_of_lt hlater hb
    by_cases hk : g.key = frag.key
    · rw [(hdrop g hg hk hb').1]
      exact h.quiet g hg hb'
    · have hq := h.quiet g hg hb'
      cases heff with
      | late hf => exact hq
      | full hf hl hfull => exact hq
      | kept hf hctx htime => exact fun hm => ((AList.mem_insert _).1 hm).elim hk hq
      | completed hf hctx hkey => exact fun hm => hq (AList.mem_erase.1 hm).2
  have hsilent : out = [] → Once clk cfg (afterPacket clk s frag contexts stats)
      (hist ++ out.map (·.stamp (clk s.reads))) := by
    rintro rfl
    rw [List.map_nil, List.append_nil] at hrem ⊢
    exact ⟨hrem, hpast, hquiet, h.spaced⟩
  cases heff with
  | late hf => exact hsilent rfl
  | full hf hl hfull => exact hsilent rfl
  | kept hf hctx htime => exact hsilent rfl
  | @completed ctx frame hf hctx hkey =>
    refine ⟨hrem, fun g hg => ?_, fun g hg hb => ?_, ?_⟩
    · rcases List.mem_append.1 hg with hg | hg
      · exact hpast g hg
      · rw [List.mem_singleton.1 hg]
        exact hlater
    · rcases List.mem_append.1 hg with hg | hg
      · exact hquiet g hg hb
      · rw [List.mem_singleton.1 hg]
        change frame.key ∉ s.contexts.erase frag.key
        rw [hkey]
        exact fun hm => (AList.mem_erase.1 hm).1 rfl
    · refine pairwise_concat h.spaced fun g hg hk => ?_
      by_contra hb
      have := (hdrop g hg (hk.trans hkey) (Nat.lt_of_not_le hb)).2
      cases this

theorem Once.timeout {ctx : ReassemblyContext} (hclk : Steady clk) (h : Once clk cfg s hist)
    (hl : s.contexts.lookup key = some ctx) (hdue : Due clk s key) (stats : ReassemblerStatistics) :
    Once clk cfg (afterTimeout clk s key stats) (hist ++ [⟨key, (clk s.reads).toNat, true⟩]) := by
  have hlater := hclk.next s.reads
  have hmem : key ∈ s.contexts := KeyMap.mem_of_lookup hl
  refine ⟨h.remembers.timeout hclk hl hdue stats, fun g hg => ?_, fun g hg hb hm => ?_, ?_⟩
  · rcases List.mem_append.1 hg with hg | hg
    · exact Nat.le_trans (h.past g hg) hlater
    · rw [List.mem_singleton.1 hg]
      exact hlater
  · obtain ⟨hne, hm⟩ := AList.mem_erase.1 hm
    rcases List.mem_append.1 hg with hg | hg
    · exact h.quiet g hg (Nat.lt_of_le_of_lt hlater hb) hm
    · rw [List.mem_singleton.1 hg] at hne
      exact hne rfl
  · refine pairwise_concat h.spaced fun g hg hk => ?_
    by_contra hb
    refine h.quiet g hg (Nat.lt_of_not_le hb) ?_
    rw [hk]
    exact hmem

theorem Once.read (hclk : Steady clk) (h : Once clk cfg s hist) :
    Once clk cfg { s with reads := s.reads + 1 } hist :=
  ⟨h.remembers.read hclk, fun g hg => Nat.le_trans (h.past g hg) (hclk.next _),
    fun g hg hb => h.quiet g hg (Nat.lt_of_le_of_lt (hclk.next _) hb), h.spaced⟩

theorem once_new (clk : SystemClock) (cfg : ReassemblerConfig) :
    Once clk cfg (Reassembler.new cfg) [] :=
  ⟨remembers_new clk cfg, by simp, by simp, List.Pairwise.nil⟩

/-- **A run** without reuse. -/
theorem run_once {ops : List ReassemblerOp} (hclk : Steady clk) (hops : ∀ op ∈ ops, op.Regular)
    (halong : Machine.RunAlong (traceStep clk) (NoReuse clk cfg) (Reassembler.new cfg, []) ops) :
    Once clk cfg (Machine.run (traceStep clk) (Reassembler.new cfg, []) ops).1.1
      (Machine.run (traceStep clk) (Reassembler.new cfg, []) ops).1.2 := by
  refine Machine.runAlong_inv _ (I := fun (st : Reassembler × List Stamp) _ => Once clk cfg st.1 st.2)
    (C := fun st op => NoReuse clk cfg st op ∧ op.Regular) ?_ [] (once_new clk cfg) ?_
  · intro st _ op h hop
    refine step_rule hclk hop.2 (fun _ _ h => h.remembers.base) (fun _ _ h => h.read hclk)
      (fun _ _ _ _ stats h hl hdue => h.timeout hclk hl hdue stats) ?_ ?_ h
    · exact fun _ _ _ _ => ⟨h.remembers.countReceived, h.past, h.quiet, h.spaced⟩
    · exact fun storage packet frag _ stats _ hp hf heff =>
        h.packet hclk heff (fun g hg hk hfr hb => hop.1 storage packet frag hp hf g hg hk hfr hb) stats
  · exact Machine.runAlong_and _ halong hops

/-- **At most one frame per key within the timeout**, along every run without reuse: the frames of
one key are at least `timeout_ms` apart, and a packet of a key that was emitted less than
`timeout_ms` before creates no context and emits nothing. -/
theorem one_frame_per_key {ops : List ReassemblerOp} {op : ReassemblerOp} (hclk : Steady clk)
    (hops : ∀ op' ∈ ops ++ [op], op'.Regular)
    (halong : Machine.RunAlong (traceStep clk) (NoReuse clk cfg) (Reassembler.new cfg, [])
      (ops ++ [op])) :
    (Machine.run (traceStep clk) (Reassembler.new cfg, []) (ops ++ [op])).1.2.Pairwise
      (fun a b => a.key = b.key → a.time + cfg.timeoutMs.toNat ≤ b.time) ∧
    ∀ storage packet frag, op.packet? = some (storage, packet) → fragmentOf cfg packet = some frag →
      ∀ h ∈ (Machine.run (traceStep clk) (Reassembler.new cfg, []) ops).1.2, h.key = frag.key →
        (clk ((Reassembler.new cfg).run clk ops).1.reads).toNat < h.time + cfg.timeoutMs.toNat →
        (((Reassembler.new cfg).run clk ops).1.step clk op).2 = [] ∧
        (((Reassembler.new cfg).run clk ops).1.step clk op).1.contexts =
          ((Reassembler.new cfg).run clk ops).1.contexts ∧
        frag.key ∉ ((Reassembler.new cfg).run clk ops).1.contexts := by
  refine ⟨(run_once hclk hops halong).spaced, ?_⟩
  obtain ⟨hbefore, hlast⟩ := (Machine.runAlong_append _).1 halong
  have honce := run_once hclk (fun op' hm => hops op' (List.mem_append_left _ hm)) hbefore
  have hreuse := hlast.1
  intro storage packet frag hp hf g hg hk hb
  have hstate := (run_traceStep clk ops (Reassembler.new cfg) []).1
  unfold NoReuse at hreuse
  rw [hstate] at honce hreuse
  rw [step_packet hp]
  have hfrag : fragmentOf ((Reassembler.new cfg).run clk ops).1.config packet = some frag := by
    rw [honce.remembers.base.config]
    exact hf
  obtain ⟨contexts, stats, out, heq, heff⟩ := processWith_effect storage clk hfrag
  obtain ⟨h1, h2⟩ := honce.dropped heff hg hk hb fun hfr =>
    hreuse storage packet frag hp hf g hg hk hfr hb
  rw [heq]
  refine ⟨h2, h1, ?_⟩
  rw [← hk]
  exact honce.quiet g hg hb

end

/-- A frame of one fragment, with one byte of payload. -/
def onlyFragment : ParsedPacket where
  header := { payloadLen := 81 }
  payload := some (List.replicate 36 0 ++ [1, 0, 1, 0] ++ List.replicate 40 0 ++ [7])
  totalSize := 113

/-- Two frames of one key, a timeout apart. -/
theorem onlyFragment_apart :
    (Machine.run (traceStep stepClock) (Reassembler.new { maxContexts := 1 }, [])
      ([.processPacket onlyFragment] ++ [.processPacket onlyFragment])).1.2.Pairwise
      (fun a b => a.key = b.key → a.time + 100 ≤ b.time) := by
  have hreuse : Machine.RunAlong (traceStep stepClock) (NoReuse stepClock { maxContexts := 1 })
      (Reassembler.new { maxContexts := 1 }, [])
      ([.processPacket onlyFragment] ++ [.processPacket onlyFragment]) := by
    refine ⟨?_, ?_, trivial⟩
    · intro storage packet frag hp hf h hh
      cases hh
    · intro storage packet frag hp hf h hh hk hfr hb
      have : h = ⟨{}, 0, false⟩ := List.mem_singleton.1 hh
      rw [this] at hb
      exact absurd hb (by decide)
  exact (one_frame_per_key steady_stepClock (by simp [ReassemblerOp.Regular]) hreuse).1

/-- The same packet twice at one reading: two frames of its key. -/
theorem repeated_frame_twice :
    (Machine.run (traceStep fun _ => 0) (Reassembler.new { maxContexts := 1 }, [])
      [.processPacket onlyFragment, .processPacket onlyFragment]).1.2 =
        [⟨{}, 0, false⟩, ⟨{}, 0, false⟩] := by
  decide

end Qdgz300.Pipeline
