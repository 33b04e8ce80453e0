import Qdgz300.Pipeline.Proof.Provenance

/-!
# Fragments that disagree with their context

All fragments of a key have to carry the same `total_frags` and `tail_frag_payload_bytes`. The
header checks compare a packet with itself, and `add_fragment` compares only the payload of a tail
with the context: any other fragment is added whatever it carries, and a tail whatever its
`total_frags`.

* `Behind.madeOf`: the payloads in a frame are those of accepted fragments.
* `consistent_iff`, `Agreeing.step`: one call.
* **`fragments_consistent_iff`**: no fragment that disagrees enters a frame, in exactly the runs in
  which every packet that disagrees with its live context is stopped by another check.
  `mixedFrame_not_consistent` is a run in which it is not.
-/

namespace Qdgz300.Pipeline

open Protocol

/-- The fragment carries the numbers of the context. -/
def Fragment.Agrees (f : Fragment) (ctx : ReassemblyContext) : Prop :=
  f.specific.totalFrags = ctx.totalFrags ∧
    f.specific.tailFragPayloadBytes = ctx.tailFragPayloadBytes

/-- The frame is made of the payloads of `fragments`, each in its slot, and of zeros. -/
def MadeOf (fragments : List Fragment) (frame : ReassembledFrame) : Prop :=
  ∃ (n : Nat) (piece : Nat → List Byte), frame.data = (List.range n).flatMap piece ∧
    ∀ i < n, (∃ f ∈ fragments, f.index = i ∧ piece i = f.payload.take f.payloadSize) ∨
      ∃ k, piece i = List.replicate k 0

/-- The fragments of the record carry the numbers of the one that created the context. -/
def FragmentRecord.Consistent (r : FragmentRecord) : Prop :=
  ∃ c, r.creator = some c ∧ ∀ f ∈ r.accepted, f.specific.totalFrags = c.specific.totalFrags ∧
    f.specific.tailFragPayloadBytes = c.specific.tailFragPayloadBytes

/-- A call that adds no packet to a live context with other numbers, and emits frames of consistent
fragments only. -/
structure KeepsConsistent (clk : SystemClock) (st : Reassembler × History) (op : ReassemblerOp) :
    Prop where
  added : ∀ storage packet frag ctx, op.packet? = some (storage, packet) →
    fragmentOf st.1.config packet = some frag → st.1.contexts.lookup frag.key = some ctx →
    ¬ frag.Agrees ctx → st.1.accepts clk storage packet = false
  frames : ∀ e ∈ (st.1.step clk op).2,
    MadeOf (st.1.record clk st.2 op e.frame.key).accepted e.frame ∧
      (st.1.record clk st.2 op e.frame.key).Consistent

/-- A check that stops the fragment: its key is frozen, its index is out of range or taken, the
bytes do not fit, it is a tail of another size than the context's, or another fragment without
payload. -/
def Stopped (cfg : ReassemblerConfig) (frozen : Bool) (ctx : ReassemblyContext) (frag : Fragment) :
    Prop :=
  frozen = true ∨ ctx.totalFrags.toNat ≤ frag.index ∨ 1024 ≤ frag.index ∨
    ctx.receivedFragments.test frag.index = true ∨
    cfg.maxReasmBytesPerKey < ctx.receivedPayloadBytes + frag.payloadSize ∨
    (frag.specific.isTailFragment = true ∧
      frag.specific.tailFragPayloadBytes ≠ ctx.tailFragPayloadBytes) ∨
    (frag.specific.isTailFragment = false ∧ frag.payloadSize = 0)

/-- Every packet that disagrees with the live context of its key is stopped by another check. -/
def DisagreeingStopped (clk : SystemClock) (st : Reassembler × History)
    (op : ReassemblerOp) : Prop :=
  ∀ storage packet frag ctx, op.packet? = some (storage, packet) →
    fragmentOf st.1.config packet = some frag → st.1.contexts.lookup frag.key = some ctx →
    ¬ frag.Agrees ctx →
    Stopped st.1.config (isKeyFrozen frag.key (clk st.1.reads) st.1.frozenKeysRing).2 ctx frag

/-- The fragments behind every live context are consistent. -/
def Agreeing (st : Reassembler × History) : Prop := ∀ key ∈ st.1.contexts, (st.2 key).Consistent

section
variable {P : Fragment → Prop} {clk : SystemClock} {cfg : ReassemblerConfig} {s : Reassembler}
  {h : History} {op : ReassemblerOp} {storage : FragmentStorage} {packet : ParsedPacket}
  {frag f : Fragment} {ctx : ReassemblyContext} {r : FragmentRecord}

/-! ## Frames -/

/-- **The payloads in a frame** are those of the fragments behind its context. -/
theorem Behind.madeOf (hb : Behind P ctx r) (cfg : ReassemblerConfig) (key : ReassemblyKey) :
    MadeOf r.accepted (Reassembler.assembleFrame cfg key ctx) := by
  refine ⟨ctx.totalFrags.toNat, Reassembler.assembledPiece cfg ctx key, rfl, fun i _ => ?_⟩
  unfold Reassembler.assembledPiece
  split
  case isTrue hrec =>
    obtain ⟨f, hf, rfl, hpos⟩ := (hb.received_iff i).1 hrec
    obtain ⟨storage, href⟩ := (hb.full f hf).2.1 hpos
    refine .inl ⟨f, hf, rfl, ?_⟩
    rw [href]
    rfl
  case isFalse => exact .inr ⟨_, rfl⟩

theorem Behind.consistent (hb : Behind P ctx r) (hagree : ∀ f ∈ r.accepted, f.Agrees ctx) :
    r.Consistent := by
  obtain ⟨c, -, hc, htotal, htail⟩ := hb.creator
  refine ⟨c, hc, fun f hf => ?_⟩
  rw [← htotal, ← htail]
  exact hagree f hf

theorem Behind.agrees (hb : Behind P ctx r) (hcons : r.Consistent) :
    ∀ f ∈ r.accepted, f.Agrees ctx := by
  obtain ⟨c, -, hc, htotal, htail⟩ := hb.creator
  obtain ⟨c', hc', hall⟩ := hcons
  obtain rfl := Option.some.inj (hc.symm.trans hc')
  intro f hf
  rw [Fragment.Agrees, htotal, htail]
  exact hall f hf

theorem agrees_takeSnapshot : f.Agrees (takeSnapshot ctx frag) ↔ f.Agrees ctx := by
  unfold takeSnapshot
  cases frag.tailSnapshot with
  | none => exact Iff.rfl
  | some snapshot => exact Iff.rfl

/-! ## Packets -/

/-- A fragment of a live key is added exactly when no check stops it. -/
theorem accepts_false_iff (hfrag : fragmentOf s.config packet = some frag)
    (hl : s.contexts.lookup frag.key = some ctx) : s.accepts clk storage packet = false ↔
      Stopped s.config (isKeyFrozen frag.key (clk s.reads) s.frozenKeysRing).2 ctx frag := by
  unfold Stopped
  cases hscan : (isKeyFrozen frag.key (clk s.reads) s.frozenKeysRing).2 with
  | true =>
    have harr : s.arrival clk packet = none := by
      simp [Reassembler.arrival, hfrag, hscan]
    simp [Reassembler.accepts, harr]
  | false =>
    have harr := arrival_eq_some.2 ⟨hfrag, hscan, .live hl⟩
    have htail : frag.specific.isTailFragment = true →
        (frag.payloadSize = ctx.tailFragPayloadBytes.toNat ↔
          frag.specific.tailFragPayloadBytes = ctx.tailFragPayloadBytes) := by
      intro htail
      rw [fragmentOf_tailSized hfrag htail, BitVec.toNat_inj]
    rw [← Bool.not_eq_true, Reassembler.accepts, harr]
    simp only [addFragment_takeSnapshot]
    rw [addFragment_isAdded_iff, ← Bool.not_eq_true (frag.specific.isTailFragment)]
    cases hbit : ctx.receivedFragments.test frag.index with
    | true => simp
    | false =>
      by_cases hlast : frag.specific.isTailFragment = true
      · simp only [hlast, htail hlast]
        by_cases hsame : frag.specific.tailFragPayloadBytes = ctx.tailFragPayloadBytes
        · simp [hsame]
          omega
        · simp [hsame]
      · simp only [hlast]
        simp
        omega

theorem added_iff : (∀ storage packet frag ctx, op.packet? = some (storage, packet) →
      fragmentOf s.config packet = some frag → s.contexts.lookup frag.key = some ctx →
      ¬ frag.Agrees ctx → s.accepts clk storage packet = false) ↔
    DisagreeingStopped clk (s, h) op := by
  constructor
  · intro hadded storage packet frag ctx hop hfrag hl hno
    exact (accepts_false_iff hfrag hl).1 (hadded storage packet frag ctx hop hfrag hl hno)
  · intro hstopped storage packet frag ctx hop hfrag hl hno
    exact (accepts_false_iff hfrag hl).2 (hstopped storage packet frag ctx hop hfrag hl hno)

theorem DisagreeingStopped.accepted (hd : DisagreeingStopped clk (s, h) op)
    (hop : op.packet? = some (storage, packet)) (harr : s.arrival clk packet = some (frag, ctx))
    (hacc : s.accepts clk storage packet = true) : frag.Agrees ctx := by
  obtain ⟨hfrag, -, hctx⟩ := arrival_eq_some.1 harr
  cases hctx with
  | live hl =>
    by_contra hno
    have hstop : s.accepts clk storage packet = false :=
      (accepts_false_iff hfrag hl).2 (hd storage packet frag ctx hop hfrag hl hno)
    rw [hacc] at hstop
    cases hstop
  | fresh hl hfree => exact ⟨rfl, rfl⟩

theorem processWith_other {key : ReassemblyKey} (hfrag : fragmentOf s.config packet = some frag)
    (hne : key ≠ frag.key) (storage : FragmentStorage) (clk : SystemClock) :
    (Reassembler.processWith storage clk s packet).1.contexts.lookup key =
      s.contexts.lookup key := by
  obtain ⟨contexts, stats, out, heq, heff⟩ := processWith_effect storage clk hfrag
  rw [heq]
  cases heff with
  | late hf => rfl
  | full hf hl hfull => rfl
  | kept hf hctx htime => exact AList.lookup_insert_ne hne
  | completed hf hctx hkey => exact AList.lookup_erase_ne hne

/-- **The record of the key of a packet** after the packet. -/
theorem record_consistent (hr : Recorded P cfg (s, h)) (ha : Agreeing (s, h))
    (hd : DisagreeingStopped clk (s, h) op)
    (hP : ∀ storage packet f, op.packet? = some (storage, packet) → fragmentOf cfg packet = some f →
      P f) (hop : op.packet? = some (storage, packet))
    (harr : s.arrival clk packet = some (frag, ctx)) :
    (s.record clk h op frag.key).Consistent := by
  obtain ⟨hfrag, -, hctx⟩ := arrival_eq_some.1 harr
  have hPf := hP storage packet frag hop (hr.config ▸ hfrag)
  have hbehind := (hr.arrives harr hPf).1
  -- what was there before the packet
  have hbegun : (s.begun h frag).Consistent := by
    unfold Reassembler.begun
    by_cases hmem : frag.key ∈ s.contexts
    · rw [if_pos hmem]
      exact ha frag.key hmem
    · rw [if_neg hmem]
      exact ⟨frag, rfl, by simp⟩
  rw [record_arrival hop harr, Function.update_self]
  split
  case isFalse => exact hbegun
  case isTrue hadd =>
    have hacc : s.accepts clk storage packet = true := by
      simpa [Reassembler.accepts, harr] using hadd
    refine (hbehind.enter hPf hadd).consistent fun f hf => ?_
    change f.Agrees (takeSnapshot ctx frag)
    rcases List.mem_append.1 hf with hf | hf
    · exact hbehind.agrees hbegun f hf
    · rw [List.mem_singleton.1 hf, agrees_takeSnapshot]
      exact hd.accepted hop harr hacc

/-! ## Runs -/

/-- **A call** that stops the packets that disagree keeps the live contexts consistent. -/
theorem Agreeing.step (hr : Recorded P cfg (s, h)) (ha : Agreeing (s, h))
    (hd : DisagreeingStopped clk (s, h) op)
    (hP : ∀ storage packet f, op.packet? = some (storage, packet) → fragmentOf cfg packet = some f →
      P f) : Agreeing (recordStep clk (s, h) op).1 := by
  intro key hkey
  simp only [recordStep] at hkey ⊢
  cases hop : op.packet? with
  | none =>
    rw [record_none hop]
    by_cases hreset : op = .resetStatistics
    · subst hreset
      exact ha key hkey
    · have hdrains : Drains s (s.step clk op) := step_drains hop hreset
      obtain ⟨c, hc⟩ := Option.isSome_iff_exists.1 (AList.lookup_isSome.2 hkey)
      exact ha key (KeyMap.mem_of_lookup (hdrains.lookup key c hc))
  | some sp =>
    obtain ⟨storage, packet⟩ := sp
    rw [step_packet hop] at hkey
    cases harr : s.arrival clk packet with
    | none =>
      rw [record_none_arrival hop harr]
      rw [(processWith_none_arrival harr storage).1] at hkey
      exact ha key hkey
    | some fc =>
      obtain ⟨frag, ctx⟩ := fc
      by_cases hk : key = frag.key
      · rw [hk]
        exact record_consistent hr ha hd hP hop harr
      · have hother := processWith_other (arrival_eq_some.1 harr).1 hk storage clk
        rw [← AList.lookup_isSome, hother, AList.lookup_isSome] at hkey
        rw [record_arrival hop harr, Function.update_of_ne hk]
        exact ha key hkey

/-- **A call** keeps frames consistent exactly when it stops the packets that disagree. -/
theorem consistent_iff (hr : Recorded (fun _ => True) cfg (s, h)) (ha : Agreeing (s, h)) :
    KeepsConsistent clk (s, h) op ↔ DisagreeingStopped clk (s, h) op := by
  refine ⟨fun hk => added_iff.1 hk.added, fun hd => ⟨added_iff.2 hd, fun e he => ?_⟩⟩
  cases hop : op.packet? with
  | none =>
    obtain ⟨ctx, hl, hbehind, -, -, hframe⟩ := hr.drained hop he
    have hmade := hbehind.madeOf s.config e.frame.key
    rw [← hframe] at hmade
    refine ⟨hmade, ?_⟩
    rw [record_none hop]
    exact ha _ (KeyMap.mem_of_lookup hl)
  | some sp =>
    obtain ⟨storage, packet⟩ := sp
    obtain ⟨frag, ctx, harr, -, hbehind, -, hrecord, hframe⟩ :=
      hr.packet_emits (fun _ _ => trivial) hop he
    have hkey : e.frame.key = frag.key := by rw [hframe]; rfl
    have hmade := hbehind.madeOf s.config frag.key
    rw [← hframe, ← hrecord, ← hkey] at hmade
    refine ⟨hmade, ?_⟩
    rw [hkey]
    exact record_consistent hr ha hd (fun _ _ _ _ _ => trivial) hop harr

/-- **Inconsistent fragments never enter a frame** in exactly the runs in which every packet that
disagrees with the live context of its key is stopped by another check. -/
theorem fragments_consistent_iff (clk : SystemClock) (cfg : ReassemblerConfig)
    (ops : List ReassemblerOp) :
    Machine.RunAlong (recordStep clk) (KeepsConsistent clk) (Reassembler.new cfg, fun _ => {}) ops ↔
      Machine.RunAlong (recordStep clk) (DisagreeingStopped clk)
        (Reassembler.new cfg, fun _ => {}) ops := by
  refine Machine.runAlong_iff (recordStep clk)
    (I := fun st => Recorded (fun _ => True) cfg st ∧ Agreeing st)
    (fun st op hI => consistent_iff hI.1 hI.2) (fun st op hI hk => ?_)
    ⟨recorded_new _ cfg _, fun key hkey => ?_⟩
  · have hd := (consistent_iff hI.1 hI.2).1 hk
    exact ⟨recorded_step (fun _ _ _ _ _ => trivial) hI.1,
      hI.2.step hI.1 hd fun _ _ _ _ _ => trivial⟩
  · cases hkey

end

/-- Fragment `0` of two, and fragment `1` of three. -/
def mixedFrame : List ReassemblerOp :=
  [.processPacket (dataPacket 0 2 1 [5]), .processPacket (dataPacket 1 3 9 [6])]

/-- The second is added to the context of the first, and completes it. -/
theorem mixedFrame_not_consistent :
    ((Reassembler.new {}).run stepClock mixedFrame).2.map
        (fun e => (e.frame.data, e.frame.isComplete)) = [([5, 6], true)] ∧
    ¬ Machine.RunAlong (recordStep stepClock) (KeepsConsistent stepClock)
        (Reassembler.new {}, fun _ => {}) mixedFrame := by
  refine ⟨by decide +kernel, fun hrun => ?_⟩
  have hadded := hrun.2.1.added .heap (dataPacket 1 3 9 [6])
  have hfields : (fragmentOf (recordStep stepClock (Reassembler.new {}, fun _ => {})
      (.processPacket (dataPacket 0 2 1 [5]))).1.1.config (dataPacket 1 3 9 [6])).map
      (fun f => (f.key, f.specific.totalFrags)) = some ({}, 3) := by
    decide +kernel
  have htotal : ((recordStep stepClock (Reassembler.new {}, fun _ => {})
      (.processPacket (dataPacket 0 2 1 [5]))).1.1.contexts.lookup {}).map (·.totalFrags) =
      some 2 := by
    decide +kernel
  obtain ⟨frag, hfrag, heq⟩ := Option.map_eq_some_iff.1 hfields
  obtain ⟨ctx, hctx, htwo⟩ := Option.map_eq_some_iff.1 htotal
  obtain ⟨hkey, hthree⟩ := Prod.mk.inj heq
  rw [← hkey] at hctx
  have hno : ¬ frag.Agrees ctx := by
    rintro ⟨hsame, -⟩
    rw [hthree, htwo] at hsame
    cases hsame
  exact absurd (hadded frag ctx rfl hfrag hctx hno) (by decide +kernel)

end Qdgz300.Pipeline
