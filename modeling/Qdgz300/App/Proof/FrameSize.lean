import Qdgz300.App.FacePipeline
import Qdgz300.Pipeline.Proof.FrameLayout

/-!
# The size of an emitted frame

`add_fragment` keeps the bytes received for a key within `max_reasm_bytes_per_key`. A frame also has
zeros for the fragments that it misses, which the limit does not count: as many as the tail
announces, as the first other fragment had, or as the configuration fixes.

* `Charged`: the bytes that a context has received, and **`charged_step`**, which keeps it.
* `Behind.totalSize_le`: the bytes received, and at most `largestFill` for each missing fragment.
* **`frame_size_bounded`**: so for every frame of every run. `tailOnly_exceeds` is a frame of more
  than the limit, nearly all of it zeros.
-/

namespace Qdgz300.Pipeline

open Protocol

/-- The payload bytes of the accepted fragments. -/
def receivedBytes (r : FragmentRecord) : Nat := (r.accepted.map Fragment.payloadSize).sum

/-- The most zeros that a missing fragment is given. -/
def largestFill (cfg : ReassemblerConfig) (key : ReassemblyKey) : Nat :=
  max 65535
    (cfg.sampleCountFixed * (if key.dataType = 0x02 then 8 else 4) * popcount16 key.channelMask)

/-- A context and the bytes it has received. -/
structure Charged (cfg : ReassemblerConfig) (ctx : ReassemblyContext) (r : FragmentRecord) :
    Prop where
  bytes : ctx.receivedPayloadBytes = receivedBytes r
  slots : ctx.fragmentSizes.sum = receivedBytes r
  limit : receivedBytes r ≤ cfg.maxReasmBytesPerKey

/-- A payload length of 16 bits. -/
def Short (f : Fragment) : Prop := f.payloadSize ≤ 65535

/-- Every live context has received what its record says. -/
def AllCharged (cfg : ReassemblerConfig) (st : Reassembler × History) : Prop :=
  ∀ key ctx, st.1.contexts.lookup key = some ctx → Charged cfg ctx (st.2 key)

section
variable {cfg : ReassemblerConfig} {ctx : ReassemblyContext} {r : FragmentRecord} {frag : Fragment}
  {storage : FragmentStorage} {packet : ParsedPacket} {key : ReassemblyKey} {clk : SystemClock}
  {s : Reassembler} {h : History} {op : ReassemblerOp}

theorem fragmentOf_short (hfrag : fragmentOf cfg packet = some frag) : Short frag := by
  obtain ⟨bytes, -, -, -, -, hcases⟩ := fragmentOf_spec hfrag
  have hlen := packet.header.payloadLen.isLt
  unfold Short
  rcases hcases with ⟨-, -, -, hpl, -⟩ | ⟨-, -, hpl, -⟩
  · omega
  · omega

/-! ## The bytes received -/

theorem charged_new (frag : Fragment) (now : BitVec 64) :
    Charged cfg (newContext frag now) { creator := some frag } :=
  ⟨rfl, by simp [newContext, receivedBytes], Nat.zero_le _⟩

theorem Charged.takeSnapshot (hc : Charged cfg ctx r) (frag : Fragment) :
    Charged cfg (takeSnapshot ctx frag) r := by
  unfold Pipeline.takeSnapshot
  cases frag.tailSnapshot with
  | none => exact hc
  | some snapshot => exact ⟨hc.bytes, hc.slots, hc.limit⟩

theorem receivedBytes_add (r : FragmentRecord) (frag : Fragment) :
    receivedBytes (r.add frag) = receivedBytes r + frag.payloadSize := by
  simp [receivedBytes]

/-- A fragment added: its slot was empty, and the limit was checked. -/
theorem Charged.enter (hc : Charged cfg ctx r) (hb : Behind Short ctx r)
    (hadd : (addFragment cfg ctx frag storage).isAdded = true) :
    Charged cfg (enterFragment ctx frag storage) (r.add frag) := by
  obtain ⟨hi, -, hbit, hbytes, -⟩ := addFragment_isAdded_iff.1 hadd
  have hnew : ∀ f ∈ r.accepted, f.index ≠ frag.index := by
    intro f hf heq
    rw [(hb.bits frag.index).2 ⟨f, hf, heq⟩] at hbit
    cases hbit
  have hlen : frag.index < ctx.fragmentSizes.length := by
    rw [hb.slots.1]
    exact hi
  have hsum := sum_set_zero hlen (hb.clear frag.index hnew).1 frag.payloadSize
  refine ⟨?_, ?_, ?_⟩
  · rw [receivedBytes_add, ← hc.bytes]
    rfl
  · rw [receivedBytes_add, ← hc.slots]
    exact hsum
  · rw [receivedBytes_add, ← hc.bytes]
    exact hbytes

theorem AllCharged.arrives {ctx : ReassemblyContext} (hc : AllCharged cfg (s, h))
    (harr : s.arrival clk packet = some (frag, ctx)) :
    Charged cfg (takeSnapshot ctx frag) (s.begun h frag) := by
  obtain ⟨-, -, hctx⟩ := arrival_eq_some.1 harr
  cases hctx with
  | live hl =>
    rw [Reassembler.begun, if_pos (KeyMap.mem_of_lookup hl)]
    exact (hc _ _ hl).takeSnapshot frag
  | fresh hl hfree =>
    rw [Reassembler.begun, if_neg (AList.lookup_eq_none.1 hl)]
    exact (charged_new frag _).takeSnapshot frag

theorem AllCharged.put {s' : Reassembler} (hc : AllCharged cfg (s, h))
    (hcontexts : s'.contexts = s.contexts.insert key ctx) (hctx : Charged cfg ctx r) :
    AllCharged cfg (s', Function.update h key r) := by
  intro k c hk
  simp only [hcontexts] at hk
  rcases KeyMap.lookup_insert_cases hk with ⟨rfl, rfl⟩ | ⟨hne, hk⟩
  · simp only [Function.update_self]
    exact hctx
  · simp only [Function.update_of_ne hne]
    exact hc k c hk

/-- **A step** keeps the bytes received. -/
theorem charged_step (hr : Recorded Short cfg (s, h)) (hc : AllCharged cfg (s, h)) :
    AllCharged cfg (recordStep clk (s, h) op).1 := by
  have hcfg : s.config = cfg := hr.config
  simp only [recordStep]
  cases hop : op.packet? with
  | none =>
    rw [record_none hop]
    intro k c hk
    by_cases hreset : op = .resetStatistics
    · subst hreset
      exact hc k c hk
    · have hd : Drains s (s.step clk op) := step_drains hop hreset
      exact hc k c (hd.lookup k c hk)
  | some sp =>
    obtain ⟨storage, packet⟩ := sp
    rw [step_packet hop]
    cases harr : s.arrival clk packet with
    | none =>
      rw [record_none_arrival hop harr]
      intro k c hk
      rw [(processWith_none_arrival harr storage).1] at hk
      exact hc k c hk
    | some fc =>
      obtain ⟨frag, ctx⟩ := fc
      have hfrag := (arrival_eq_some.1 harr).1
      obtain ⟨hbehind, -⟩ := hr.arrives harr (fragmentOf_short hfrag)
      have hctx := hc.arrives harr
      rw [record_arrival hop harr]
      cases hadd : (addFragment s.config (takeSnapshot ctx frag) frag storage).isAdded with
      | false =>
        rw [if_neg Bool.false_ne_true]
        exact hc.put (processWith_refused harr hadd).1 hctx
      | true =>
        rw [if_pos rfl]
        cases hdone : (enterFragment (takeSnapshot ctx frag) frag storage).checkComplete with
        | false =>
          exact hc.put (processWith_open harr hadd hdone).1 (hctx.enter hbehind (hcfg ▸ hadd))
        | true =>
          have hmax := (hbehind.enter (fragmentOf_short hfrag) hadd).total_le hdone
          intro k c hk
          rw [(processWith_done harr hadd hdone hmax rfl).1] at hk
          obtain ⟨hne, hk⟩ := KeyMap.lookup_erase_some hk
          simp only [Function.update_of_ne hne]
          exact hc k c hk

/-- **The context behind an emitted frame** has received no more than the limit. -/
theorem charged_emitted {e : Emission} (hr : Recorded Short cfg (s, h)) (hc : AllCharged cfg (s, h))
    (he : e ∈ (s.step clk op).2) :
    ∃ ctx, Behind Short ctx (s.record clk h op e.frame.key) ∧
      Charged cfg ctx (s.record clk h op e.frame.key) ∧
      e.frame = Reassembler.assembleFrame cfg e.frame.key ctx := by
  have hcfg : s.config = cfg := hr.config
  cases hop : op.packet? with
  | none =>
    obtain ⟨ctx, hl, hbehind, -, -, hframe⟩ := hr.drained hop he
    refine ⟨ctx, hbehind, ?_, hcfg ▸ hframe⟩
    rw [record_none hop]
    exact hc _ ctx hl
  | some sp =>
    obtain ⟨storage, packet⟩ := sp
    obtain ⟨frag, ctx, harr, hadd, hentered, -, hrecord, hframe⟩ :=
      hr.packet_emits (fun f hfrag => fragmentOf_short hfrag) hop he
    obtain ⟨hbehind, -⟩ := hr.arrives harr (fragmentOf_short (arrival_eq_some.1 harr).1)
    have hkey : e.frame.key = frag.key := by rw [hframe]; rfl
    rw [hkey, hrecord]
    exact ⟨_, hentered, (hc.arrives harr).enter hbehind (hcfg ▸ hadd), hcfg ▸ hframe⟩

/-! ## The size of a frame -/

/-- The zeros for a missing fragment. -/
theorem Behind.infer_le (hb : Behind Short ctx r) (key : ReassemblyKey) (i : Nat) :
    Reassembler.inferMissingFragmentSize cfg ctx i (popcount16 key.channelMask) key.dataType ≤
      largestFill cfg key := by
  have hfixed := Nat.le_max_right 65535
    (cfg.sampleCountFixed * (if key.dataType = 0x02 then 8 else 4) * popcount16 key.channelMask)
  unfold Reassembler.inferMissingFragmentSize
  split
  · have := ctx.tailFragPayloadBytes.isLt
    exact Nat.le_trans (by omega) (Nat.le_max_left _ _)
  · split
    case h_1 j hj =>
      refine Nat.le_trans ?_ (Nat.le_max_left _ _)
      by_cases hex : ∃ f ∈ r.accepted, f.index = j
      · obtain ⟨f, hf, rfl⟩ := hex
        rw [(hb.full f hf).1]
        exact (hb.checked f hf).1
      · rw [(hb.clear j fun f hf heq => hex ⟨f, hf, heq⟩).1]
        exact Nat.zero_le _
    case h_2 => exact Nat.le_trans (Nat.mod_le _ _) hfixed

theorem Behind.size_received (hb : Behind Short ctx r) {i : Nat}
    (hrec : Reassembler.received ctx i = true) :
    Reassembler.assembledSize cfg ctx key i = ctx.fragmentSizes.getD i 0 := by
  obtain ⟨f, hf, rfl, hpos⟩ := (hb.received_iff i).1 hrec
  obtain ⟨storage, href⟩ := (hb.full f hf).2.1 hpos
  rw [Reassembler.assembledSize, if_pos hrec, href, (hb.full f hf).1]

end

/-- A sum in which the entries that fail `p` count `most` at most. -/
theorem sum_le_filter {p : Nat → Bool} {f g : Nat → Nat} {most : Nat}
    (hin : ∀ i, p i = true → f i = g i) (hout : ∀ i, f i ≤ most ∨ p i = true) : ∀ l : List Nat,
    (l.map f).sum ≤ (l.map g).sum + (l.filter fun i => !p i).length * most
  | [] => Nat.zero_le _
  | i :: l => by
    have ih := sum_le_filter hin hout l
    cases hp : p i with
    | true =>
      simp only [List.map_cons, List.sum_cons, List.filter_cons, hp, Bool.not_true,
        Bool.false_eq_true, if_false, hin i hp]
      omega
    | false =>
      have hle : f i ≤ most := (hout i).resolve_right (by simp [hp])
      simp only [List.map_cons, List.sum_cons, List.filter_cons, hp, Bool.not_false, if_true,
        List.length_cons, Nat.add_mul]
      omega

theorem sum_getD (l : List Nat) : ((List.range l.length).map fun i => l.getD i 0).sum = l.sum := by
  congr 1
  refine List.ext_getElem (by simp) fun i h1 h2 => ?_
  simp [List.getElem?_eq_getElem h2]

section
variable {cfg : ReassemblerConfig} {ctx : ReassemblyContext} {r : FragmentRecord}
  {key : ReassemblyKey} {clk : SystemClock}

/-- **The size of a frame**: the bytes received, and the zeros for what is missing. -/
theorem Behind.totalSize_le (hb : Behind Short ctx r) (hc : Charged cfg ctx r)
    (key : ReassemblyKey) :
    (Reassembler.assembleFrame cfg key ctx).totalSize ≤ receivedBytes r +
      (Reassembler.assembleFrame cfg key ctx).missingFragIndices.length * largestFill cfg key := by
  rw [← hc.slots, ← sum_getD ctx.fragmentSizes, hb.slots.1]
  refine sum_le_filter (fun i hrec => hb.size_received hrec) (fun i => ?_) _
  cases hrec : Reassembler.received ctx i with
  | true => exact .inr rfl
  | false =>
    refine .inl ?_
    rw [Reassembler.assembledSize, hrec, if_neg Bool.false_ne_true]
    exact hb.infer_le key i

theorem Behind.totalSize_eq (hb : Behind Short ctx r) (hc : Charged cfg ctx r) (key : ReassemblyKey)
    (hfull : (Reassembler.assembleFrame cfg key ctx).missingFragIndices = []) :
    (Reassembler.assembleFrame cfg key ctx).totalSize = receivedBytes r := by
  rw [← hc.slots, ← sum_getD ctx.fragmentSizes, hb.slots.1]
  refine congrArg List.sum (List.map_congr_left fun i hi => hb.size_received ?_)
  have := List.filter_eq_nil_iff.1 hfull i hi
  simpa using this

end

end Qdgz300.Pipeline

namespace Qdgz300.App

open Protocol Pipeline

/-- **The size of an emitted frame.** In every run, the payload bytes received for a frame stay
within `max_reasm_bytes_per_key`; a frame that misses nothing has exactly these bytes, and every
missing fragment adds at most `largestFill` zeros. -/
theorem frame_size_bounded (config : Config.ReceiverConfig) (clk : SystemClock)
    (ops : List ReassemblerOp) :
    ∀ er ∈ (Machine.run (recordStep clk)
        (Reassembler.new (reassemblerConfig config), fun _ => {}) ops).2,
      receivedBytes er.2 ≤ config.reassembly.maxReasmBytesPerKey ∧
      (er.1.frame.missingFragIndices = [] → er.1.frame.totalSize = receivedBytes er.2) ∧
      er.1.frame.totalSize ≤ receivedBytes er.2 + er.1.frame.missingFragIndices.length *
        largestFill (reassemblerConfig config) er.1.frame.key := by
  have hrun : ∀ (ops : List ReassemblerOp) (st : Reassembler × History),
      Recorded Short (reassemblerConfig config) st → AllCharged (reassemblerConfig config) st →
      ∀ er ∈ (Machine.run (recordStep clk) st ops).2, ∃ ctx, Behind Short ctx er.2 ∧
        Charged (reassemblerConfig config) ctx er.2 ∧
        er.1.frame = Reassembler.assembleFrame (reassemblerConfig config) er.1.frame.key ctx := by
    intro ops
    induction ops with
    | nil =>
      intro st _ _ er her
      cases her
    | cons op ops ih =>
      intro st hr hc er her
      rcases List.mem_append.1 her with her | her
      · obtain ⟨e, he, rfl⟩ := List.mem_map.1 her
        exact charged_emitted hr hc he
      · exact ih _ (recorded_step (fun _ _ f _ hfrag => fragmentOf_short hfrag) hr)
          (charged_step hr hc) er her
  intro er her
  obtain ⟨ctx, hb, hc, hframe⟩ := hrun ops _ (recorded_new Short _ _)
    (fun _ _ hl => by cases hl) er her
  refine ⟨hc.limit, ?_, ?_⟩
  · rw [hframe]
    exact hb.totalSize_eq hc _
  · rw [hframe]
    exact hb.totalSize_le hc _

/-- The tail of 44 fragments, with one byte, of all twelve channels and samples of eight bytes. -/
def tailOnly : ParsedPacket where
  header := { payloadLen := 81 }
  payload := some
    (List.replicate 30 0 ++ [0xFF, 0x2F, 0, 0, 43, 0, 44, 0, 1, 0] ++ List.replicate 40 0 ++ [7])
  totalSize := 113

/-- With the default configuration, which is valid, a flush after this one packet emits a frame of
more than 16 MiB: one byte, and 43 missing fragments of 4096 samples. -/
theorem tailOnly_exceeds :
    Config.validate {} = true ∧
    ((Reassembler.new (reassemblerConfig {})).run stepClock
        [.processPacket tailOnly, .flushAll .same]).2.map (fun e => e.frame.totalSize) =
      [43 * (4096 * 8 * 12) + 1] ∧
    (reassemblerConfig {}).maxReasmBytesPerKey < 43 * (4096 * 8 * 12) + 1 := by
  refine ⟨by decide +kernel, by decide +kernel, by decide⟩

/-- That frame keeps to the bound. -/
theorem tailOnly_bounded :
    (Machine.run (recordStep stepClock) (Reassembler.new (reassemblerConfig {}), fun _ => {})
      [.processPacket tailOnly, .flushAll .same]).2.length = 1 ∧
    ∀ er ∈ (Machine.run (recordStep stepClock) (Reassembler.new (reassemblerConfig {}), fun _ => {})
        [.processPacket tailOnly, .flushAll .same]).2,
      er.1.frame.totalSize ≤ receivedBytes er.2 + er.1.frame.missingFragIndices.length *
        largestFill (reassemblerConfig {}) er.1.frame.key :=
  ⟨by decide +kernel, fun er her => (frame_size_bounded {} stepClock _ er her).2.2⟩

end Qdgz300.App
