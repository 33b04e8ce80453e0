import Qdgz300.App.FacePipeline
import Qdgz300.Pipeline.Proof.Interleave
import Qdgz300.Pipeline.Proof.ReorderInOrder

/-!
# From completed frames to ordered packets

Frames sent one after another (`Burst`), each with its fragments in any order, are all completed.
The reorderer knows them by `frame_counter` alone: of the frames that share a counter it hands out
the first, and takes the others for duplicates (`handed`). Between two calls either of them may read
its clock and do nothing else (`Idles`, `ReordererIdles`), as a scan does that finds no timeout.

* `bursts_completed`: the frames completed are the frames sent.
* `paced_onFrame`: what the reorderer hands out of them.
* **`frames_handed_out`**: no completed frame is lost exactly when each `frame_counter` is one more
  than the one before.
* `sameCounter_loses`: two beams of one counter.
-/

namespace Qdgz300.App

open Protocol Pipeline

/-! ## Bursts -/

/-- The fragments of one frame, each once, in the order of their arrival. -/
structure Burst (cfg : ReassemblerConfig) where
  frame : SentFrame cfg
  order : List (FragmentStorage × Nat)
  perm : (order.map Prod.snd).Perm (List.range frame.count)

def Burst.calls {cfg : ReassemblerConfig} (b : Burst cfg) : List (FragmentStorage × ParsedPacket) :=
  b.order.map fun c => (c.1, b.frame.packet c.2)

def Burst.counter {cfg : ReassemblerConfig} (b : Burst cfg) : BitVec 32 := b.frame.key.frameCounter

/-- The frames that the reassembler completes. -/
def completed (cfg : ReassemblerConfig) (sysClk : SystemClock)
    (calls : List (FragmentStorage × ParsedPacket)) : List ReassembledFrame :=
  (Machine.run (onData sysClk) (Reassembler.new cfg) calls).2.map Emission.frame

/-- A reassembler that has no context but that of `key`, and no frozen key. -/
structure Serving (cfg : ReassemblerConfig) (key : ReassemblyKey) (s : Reassembler) : Prop where
  config : s.config = cfg
  only : ∀ k ∈ s.contexts, k = key
  thawed : ∀ e ∈ s.frozenKeysRing, e.valid = false

/-- A reassembler between two bursts. -/
structure Resting (cfg : ReassemblerConfig) (s : Reassembler) : Prop where
  config : s.config = cfg
  none : ∀ k, k ∉ s.contexts
  thawed : ∀ e ∈ s.frozenKeysRing, e.valid = false

/-- Nothing has happened but readings of the clock. -/
def Idles (s t : Reassembler) : Prop := ∃ n, s.reads ≤ n ∧ t = { s with reads := n }

section
variable {cfg : ReassemblerConfig} {sysClk : SystemClock} {s t : Reassembler} {key : ReassemblyKey}
  {frag : Fragment} {packet : ParsedPacket}

theorem resting_new (cfg : ReassemblerConfig) : Resting cfg (Reassembler.new cfg) :=
  ⟨rfl, fun k hk => (AList.notMem_empty k) hk, fun e he => by rw [List.eq_of_mem_replicate he]⟩

theorem Resting.serving (h : Resting cfg s) (key : ReassemblyKey) : Serving cfg key s :=
  ⟨h.config, fun k hk => absurd hk (h.none k), h.thawed⟩

theorem Serving.resting (h : Serving cfg key s) (hnone : s.contexts.lookup key = none) :
    Resting cfg s := by
  refine ⟨h.config, fun k hk => ?_, h.thawed⟩
  rw [h.only k hk] at hk
  exact AList.lookup_eq_none.1 hnone hk

theorem Resting.idles (h : Resting cfg s) (hidle : Idles s t) : Resting cfg t := by
  obtain ⟨n, -, rfl⟩ := hidle
  exact ⟨h.config, h.none, h.thawed⟩

theorem Serving.idles {F : SentFrame cfg} {seen : Finset Nat}
    (h : Gathering sysClk F seen s ∧ Serving cfg F.key s) (hidle : Idles s t) :
    Gathering sysClk F seen t ∧ Serving cfg F.key t := by
  obtain ⟨hg, hs⟩ := h
  obtain ⟨n, hn, rfl⟩ := hidle
  exact ⟨⟨hg.config, hg.unfrozen.mono hn fun e he _ _ => he, hg.context⟩,
    hs.config, hs.only, hs.thawed⟩

theorem Serving.unfrozen (h : Serving cfg key s) : Unfrozen sysClk key s := by
  intro e he hv
  rw [h.thawed e he] at hv
  cases hv

theorem Serving.slot {F : SentFrame cfg} (h : Serving cfg F.key s) (hpos : 0 < cfg.maxContexts) :
    Slot F s := by
  intro hkey
  have hempty : KeyMap.size s.contexts = 0 :=
    KeyMap.size_eq_zero fun k hk => hkey (by rw [← h.only k hk]; exact hk)
  rw [hempty]
  exact hpos

/-- A packet of the key served. -/
theorem Serving.call (h : Serving cfg key s) (hfrag : fragmentOf s.config packet = some frag)
    (hkey : frag.key = key) (sysClk : SystemClock) (storage : FragmentStorage) :
    Serving cfg key (Reassembler.processWith storage sysClk s packet).1 := by
  obtain ⟨contexts, stats, out, heq, heff⟩ := processWith_effect storage sysClk hfrag
  rw [heq]
  refine ⟨h.config, fun k hk => ?_, fun e he => ?_⟩
  · cases heff with
    | late hf => exact h.only k hk
    | full hf hl hfull => exact h.only k hk
    | kept hf hctx htime =>
      rcases (AList.mem_insert _).1 hk with rfl | hk
      · exact hkey
      · exact h.only k hk
    | completed hf hctx hk' => exact h.only k (AList.mem_erase.1 hk).2
  · cases hv : e.valid with
    | false => rfl
    | true =>
      rw [h.thawed e (isKeyFrozen_valid he hv)] at hv
      cases hv

/-- **The rest of a burst**: the indices still to come complete the frame, and leave no context. -/
theorem burst_rest {F : SentFrame cfg} (hmax : F.count ≤ 1024) (hpos : 0 < cfg.maxContexts) :
    ∀ (order : List (FragmentStorage × Nat)) (seen : Finset Nat) (s : Reassembler)
      (es : List Emission) (u : Reassembler),
      Gathering sysClk F seen s → Serving cfg F.key s → order ≠ [] → (order.map Prod.snd).Nodup →
      (∀ i, i ∈ order.map Prod.snd ↔ i < F.count ∧ i ∉ seen) → (∀ i ∈ seen, i < F.count) →
      Machine.Paced (onData sysClk) Idles s (order.map fun c => (c.1, F.packet c.2)) es u →
      ∃ frame, IsFrameOf F frame ∧ es = [⟨frame, none⟩] ∧ Resting cfg u := by
  intro order
  induction order with
  | nil => exact fun _ _ _ _ _ _ hne => absurd rfl hne
  | cons c order ih =>
    intro seen s₀ es u hg hs _ hnodup hmem hseen hpaced
    obtain ⟨s, es, ⟨hg, hs⟩, rfl, hafter⟩ :=
      hpaced.cons (fun _ _ h hidle => Serving.idles h hidle) ⟨hg, hs⟩
    obtain ⟨storage, i⟩ := c
    obtain ⟨hi, hnew⟩ := (hmem i).1 List.mem_cons_self
    obtain ⟨hnot, hnodup⟩ := List.nodup_cons.1 hnodup
    have hslot := hs.slot hpos
    have hserve := hs.call (hg.fragmentOf_eq hi) rfl sysClk storage
    have hrest : ∀ j, j ∈ order.map Prod.snd ↔ j < F.count ∧ j ∉ insert i seen := by
      intro j
      have := hmem j
      rw [List.map_cons, List.mem_cons] at this
      rw [Finset.mem_insert, not_or]
      constructor
      · intro hj
        obtain ⟨h1, h2⟩ := this.1 (.inr hj)
        exact ⟨h1, fun heq => hnot (heq ▸ hj), h2⟩
      · rintro ⟨h1, h2, h3⟩
        exact (this.2 ⟨h1, h3⟩).resolve_left h2
    have hseen' : ∀ j ∈ insert i seen, j < F.count := by
      intro j hj
      rcases Finset.mem_insert.1 hj with rfl | hj
      · exact hi
      · exact hseen j hj
    cases order with
    | nil =>
      -- the last fragment
      have hfull : insert i seen = Finset.range F.count := by
        ext j
        rw [Finset.mem_range]
        refine ⟨hseen' j, fun hj => ?_⟩
        by_contra hc
        exact absurd ((hrest j).2 ⟨hj, hc⟩) List.not_mem_nil
      obtain ⟨⟨frame, hout, hframe⟩, hl⟩ := hg.last hmax hi hslot hnew hfull storage
      obtain ⟨rfl, hend⟩ := hafter.nil (fun _ _ => Resting.idles) (hserve.resting hl)
      exact ⟨frame, hframe, by simpa [onData] using hout, hend⟩
    | cons c' order' =>
      have hopen : insert i seen ≠ Finset.range F.count := by
        intro heq
        obtain ⟨h1, h2⟩ := (hrest c'.2).1 List.mem_cons_self
        exact h2 (by rw [heq]; exact Finset.mem_range.2 h1)
      obtain ⟨hg', hout⟩ := hg.fragment hmax hi hslot hopen storage
      obtain ⟨frame, hframe, hout', hend⟩ :=
        ih _ _ _ _ hg' hserve (by simp) hnodup hrest hseen' hafter
      refine ⟨frame, hframe, ?_, hend⟩
      rw [show (onData sysClk s (storage, F.packet i)).2 = [] from hout]
      exact hout'

theorem burst_completed (hmax : cfg.maxTotalFrags.toNat ≤ 1024) (hpos : 0 < cfg.maxContexts)
    (b : Burst cfg) (h : Resting cfg s) {es : List Emission} {u : Reassembler}
    (hpaced : Machine.Paced (onData sysClk) Idles s b.calls es u) :
    ∃ frame, IsFrameOf b.frame frame ∧ es = [⟨frame, none⟩] ∧ Resting cfg u := by
  have hs := h.serving b.frame.key
  have hstart : Gathering sysClk b.frame ∅ s :=
    ⟨h.config, hs.unfrozen, .inl ⟨rfl, AList.lookup_eq_none.2 (h.none _)⟩⟩
  refine burst_rest (b.frame.le.trans hmax) hpos b.order ∅ s es u hstart hs ?_ ?_ ?_
    (by simp) hpaced
  · intro hnil
    have hlen := b.perm.length_eq
    have hcount := b.frame.pos
    rw [hnil, List.length_range] at hlen
    simp only [List.map_nil, List.length_nil] at hlen
    omega
  · exact b.perm.nodup_iff.2 List.nodup_range
  · intro i
    rw [b.perm.mem_iff, List.mem_range]
    simp

/-- **The frames completed are the frames sent.** -/
theorem bursts_completed (hmax : cfg.maxTotalFrags.toNat ≤ 1024) (hpos : 0 < cfg.maxContexts) :
    ∀ (bursts : List (Burst cfg)) {s u : Reassembler} {es : List Emission}, Resting cfg s →
      Machine.Paced (onData sysClk) Idles s (bursts.flatMap Burst.calls) es u →
      ∃ frames, List.Forall₂ (fun (b : Burst cfg) frame => IsFrameOf b.frame frame) bursts frames ∧
        es = frames.map fun frame => ⟨frame, none⟩ := by
  intro bursts
  induction bursts with
  | nil =>
    intro s u es h hpaced
    exact ⟨[], .nil, (hpaced.nil (fun _ _ => Resting.idles) h).1⟩
  | cons b bursts ih =>
    intro s u es h hpaced
    obtain ⟨t, es₁, es₂, rfl, hburst, hrest⟩ := hpaced.append
    obtain ⟨frame, hframe, rfl, hend⟩ := burst_completed hmax hpos b h hburst
    obtain ⟨frames, hframes, rfl⟩ := ih hend hrest
    exact ⟨frame :: frames, .cons hframe hframes, rfl⟩

/-- Without contexts nothing is completed. -/
theorem none_completed (hzero : cfg.maxContexts = 0)
    (calls : List (FragmentStorage × ParsedPacket)) (h : Resting cfg s) :
    (Machine.run (onData sysClk) s calls).2 = [] := by
  induction calls generalizing s with
  | nil => rfl
  | cons call calls ih =>
    have hstep : (onData sysClk s call).2 = [] ∧ Resting cfg (onData sysClk s call).1 := by
      unfold onData
      cases hfrag : fragmentOf s.config call.2 with
      | none =>
        rw [processWith_none call.1 sysClk hfrag]
        exact ⟨rfl, h.config, h.none, h.thawed⟩
      | some frag =>
        have hserve := (h.serving frag.key).call hfrag rfl sysClk call.1
        obtain ⟨contexts, stats, out, heq, heff⟩ := processWith_effect call.1 sysClk hfrag
        have hno : ∀ ctx, ¬ ContextFor s.config.maxContexts s.contexts frag
          (sysClk s.reads) ctx := by
          intro ctx hctx
          cases hctx with
          | live hl => exact h.none frag.key (KeyMap.mem_of_lookup hl)
          | fresh hl hfree =>
            rw [h.config, hzero] at hfree
            exact absurd hfree (Nat.not_lt_zero _)
        rw [heq] at hserve ⊢
        cases heff with
        | late hf => exact ⟨rfl, hserve.resting (AList.lookup_eq_none.2 (h.none _))⟩
        | full hf hl hfull => exact ⟨rfl, hserve.resting hl⟩
        | kept hf hctx htime => exact absurd hctx (hno _)
        | completed hf hctx hkey => exact absurd hctx (hno _)
    rw [Machine.run, hstep.1, ih hstep.2]
    rfl

end

/-! ## The reorderer -/

/-- The counters of frames that follow each other: the same, or one more. -/
def Grows (a b : BitVec 32) : Prop := b = a ∨ b = a + 1

def ByOne (a b : BitVec 32) : Prop := b = a + 1

/-- What is handed out of the frames after a frame with counter `last`: those whose counter is not
the one before. -/
def handed : BitVec 32 → List ReassembledFrame → List ReassembledFrame
  | _, [] => []
  | last, frame :: frames =>
    if frame.key.frameCounter = last then handed last frames
    else frame :: handed frame.key.frameCounter frames

/-- Nothing has happened but readings of the clock. -/
def ReordererIdles (r q : Reorderer) : Prop := ∃ n, q = { r with reads := n }

/-- A reorderer that has not seen a packet. -/
structure Unstarted (r : Reorderer) : Prop where
  init : r.initialized = false
  empty : ∀ i, r.occupancyBitmap.test i = false

/-- A reorderer that has nothing buffered and awaits the number after `last`. -/
structure Synced (last : BitVec 32) (r : Reorderer) : Prop where
  init : r.initialized = true
  empty : ∀ i, r.occupancyBitmap.test i = false
  next : r.nextExpectedSeq = last + 1

section
variable {r q : Reorderer} {last : BitVec 32} {frame : ReassembledFrame}
  {frames : List ReassembledFrame}

theorem unstarted_new (cfg : ReorderConfig) (created : Int) :
    Unstarted (Reorderer.new cfg created) :=
  ⟨rfl, fun i => Bitmap.test_zeros _ i⟩

theorem Unstarted.idles (h : Unstarted r) (hidle : ReordererIdles r q) : Unstarted q := by
  obtain ⟨n, rfl⟩ := hidle
  exact ⟨h.init, h.empty⟩

theorem Synced.idles (h : Synced last r) (hidle : ReordererIdles r q) : Synced last q := by
  obtain ⟨n, rfl⟩ := hidle
  exact ⟨h.init, h.empty, h.next⟩

/-- The awaited number. -/
theorem onFrame_awaited (clk : SteadyClock) (hempty : ∀ i, r.occupancyBitmap.test i = false)
    (hinit : r.initialized = true) (hnext : r.nextExpectedSeq = frame.key.frameCounter)
    (o : Option (BitVec 64)) :
    (onFrame clk r ⟨frame, o⟩).2 = [orderedFrame frame] ∧
      Synced frame.key.frameCounter (onFrame clk r ⟨frame, o⟩).1 := by
  unfold onFrame Reorderer.insertOwned Reorderer.insertBody
  rw [Reorderer.initWith, if_pos hinit]
  simp only
  rw [if_pos (show (frameHeader frame).sequenceNumber = r.nextExpectedSeq from hnext.symm),
    advanceWindow_empty clk (s := Reorderer.advanceNow clk r.countInOrder) hempty]
  refine ⟨rfl, hinit, hempty, ?_⟩
  rw [← hnext]
  rfl

/-- The first frame of all. -/
theorem onFrame_first (clk : SteadyClock) (h : Unstarted r) (frame : ReassembledFrame)
    (o : Option (BitVec 64)) :
    (onFrame clk r ⟨frame, o⟩).2 = [orderedFrame frame] ∧
      Synced frame.key.frameCounter (onFrame clk r ⟨frame, o⟩).1 := by
  have hinit : r.initWith frame.key.frameCounter =
      { r with nextExpectedSeq := frame.key.frameCounter, initialized := true } := by
    rw [Reorderer.initWith, if_neg (by simp [h.init])]
  have hfirst : (onFrame clk (r.initWith frame.key.frameCounter) ⟨frame, o⟩).2 =
        [orderedFrame frame] ∧
      Synced frame.key.frameCounter (onFrame clk (r.initWith frame.key.frameCounter) ⟨frame, o⟩).1 :=
    onFrame_awaited clk (by rw [hinit]; exact h.empty) (by rw [hinit]) (by rw [hinit]) o
  have hsame : (r.initWith frame.key.frameCounter).initWith (frameHeader frame).sequenceNumber =
      r.initWith (frameHeader frame).sequenceNumber := by
    rw [hinit, Reorderer.initWith, if_pos rfl]
    exact hinit.symm
  unfold onFrame Reorderer.insertOwned at hfirst ⊢
  rwa [hsame] at hfirst

/-- A frame with the counter of the last one counts as a duplicate. -/
theorem onFrame_repeated (clk : SteadyClock) (h : Synced last r)
    (hkey : frame.key.frameCounter = last)
    (o : Option (BitVec 64)) : (onFrame clk r ⟨frame, o⟩).2 = [] ∧
      Synced last (onFrame clk r ⟨frame, o⟩).1 := by
  have hseq : (frameHeader frame).sequenceNumber = last := hkey
  have hne : last ≠ last + 1 := by bv_omega
  have hold : isSequenceNewer last (last + 1) = false := by
    have hdist : last - (last + 1) = 0xFFFFFFFF#32 := by bv_omega
    rw [isSequenceNewer, hdist]
    rfl
  unfold onFrame Reorderer.insertOwned Reorderer.insertBody
  rw [Reorderer.initWith, if_pos h.init]
  simp only
  rw [hseq, h.next, if_neg hne, if_pos hold]
  exact ⟨rfl, h.init, h.empty, h.next⟩

/-- **What the reorderer hands out** of frames whose counters grow. -/
theorem paced_onFrame (clk : SteadyClock) : ∀ (frames : List ReassembledFrame) (last : BitVec 32)
    {r q : Reorderer} {packets : List OrderedPacket}, Synced last r →
      (last :: frames.map fun f => f.key.frameCounter).IsChain Grows →
      Machine.Paced (onFrame clk) ReordererIdles r (frames.map fun f => ⟨f, none⟩) packets q →
      packets = (handed last frames).map orderedFrame := by
  intro frames
  induction frames with
  | nil => exact fun _ _ _ _ h _ hpaced => (hpaced.nil (fun _ _ => Synced.idles) h).1
  | cons frame frames ih =>
    intro last r₀ q packets h hchain hpaced
    obtain ⟨r, packets, h, rfl, hafter⟩ := hpaced.cons (fun _ _ => Synced.idles) h
    rw [List.map_cons, List.isChain_cons_cons] at hchain
    obtain ⟨hgrow, hchain⟩ := hchain
    rw [handed]
    by_cases hsame : frame.key.frameCounter = last
    · obtain ⟨hout, hsync⟩ := onFrame_repeated clk h hsame none
      rw [hsame] at hchain
      rw [if_pos hsame, hout, List.nil_append, ih last hsync hchain hafter]
    · have hnext : r.nextExpectedSeq = frame.key.frameCounter :=
        h.next.trans (hgrow.resolve_left hsame).symm
      obtain ⟨hout, hsync⟩ := onFrame_awaited clk h.empty h.init hnext none
      rw [if_neg hsame, hout, ih _ hsync hchain hafter]
      rfl

theorem handed_sublist : ∀ (frames : List ReassembledFrame) (last : BitVec 32),
    (handed last frames).Sublist frames
  | [], _ => List.Sublist.slnil
  | frame :: frames, last => by
    rw [handed]
    split
    · exact (handed_sublist frames last).cons frame
    · exact (handed_sublist frames _).cons_cons frame

/-- Everything is handed out exactly when every counter is one more than the one before. -/
theorem handed_eq_iff : ∀ (frames : List ReassembledFrame) (last : BitVec 32),
    (last :: frames.map fun f => f.key.frameCounter).IsChain Grows →
    (handed last frames = frames ↔
      (last :: frames.map fun f => f.key.frameCounter).IsChain ByOne) := by
  intro frames
  induction frames with
  | nil => exact fun last _ => ⟨fun _ => List.isChain_singleton last, fun _ => rfl⟩
  | cons frame frames ih =>
    intro last hchain
    rw [List.map_cons, List.isChain_cons_cons] at hchain ⊢
    obtain ⟨hgrow, hchain⟩ := hchain
    rw [handed]
    by_cases hsame : frame.key.frameCounter = last
    · rw [if_pos hsame]
      constructor
      · intro heq
        have hlen := (handed_sublist frames last).length_le
        rw [heq, List.length_cons] at hlen
        omega
      · rintro ⟨hone, -⟩
        have : last = last + 1 := hsame ▸ hone
        bv_omega
    · rw [if_neg hsame, List.cons.injEq, ih _ hchain]
      exact ⟨fun h => ⟨hgrow.resolve_left hsame, h.2⟩, fun h => ⟨rfl, h.2⟩⟩

/-- From the first frame on. -/
theorem onFrame_all_iff (clk : SteadyClock) (cfg : ReorderConfig) (created : Int)
    (hgrows : (frames.map fun f => f.key.frameCounter).IsChain Grows) :
    (Machine.run (onFrame clk) (Reorderer.new cfg created) (frames.map fun f => ⟨f, none⟩)).2.Perm
        (frames.map orderedFrame) ↔
      (frames.map fun f => f.key.frameCounter).IsChain ByOne := by
  cases frames with
  | nil => exact ⟨fun _ => List.IsChain.nil, fun _ => List.Perm.refl _⟩
  | cons frame frames =>
    obtain ⟨hout, hsync⟩ := onFrame_first clk (unstarted_new cfg created) frame none
    rw [List.map_cons] at hgrows
    rw [List.map_cons, Machine.run, hout, paced_onFrame clk frames _ hsync hgrows (.of_run _ _),
      List.map_cons, List.map_cons, ← handed_eq_iff frames _ hgrows]
    constructor
    · intro hperm
      have hlen := hperm.length_eq
      simp only [List.singleton_append, List.length_cons, List.length_map] at hlen
      exact (handed_sublist frames _).eq_of_length (by omega)
    · intro heq
      rw [heq]
      exact List.Perm.refl _

end

/-! ## The face -/

section
variable {cfg : ReassemblerConfig}

theorem counters_eq {bursts : List (Burst cfg)} {frames : List ReassembledFrame}
    (h : List.Forall₂ (fun (b : Burst cfg) frame => IsFrameOf b.frame frame) bursts frames) :
    frames.map (fun f => f.key.frameCounter) = bursts.map Burst.counter := by
  induction h with
  | nil => rfl
  | cons hframe _ ih => rw [List.map_cons, List.map_cons, ih, hframe.key, Burst.counter]

/-- **No completed frame is lost between the reassembler and the reorderer**, when the counters of
frames that follow each other are the same or grow by one, exactly if they grow by one every time
(or there is no context to complete a frame in). -/
theorem frames_handed_out (bursts : List (Burst cfg)) (reorder : ReorderConfig) (created : Int)
    (sysClk : SystemClock) (clk : SteadyClock) (hmax : cfg.maxTotalFrags.toNat ≤ 1024)
    (hgrows : (bursts.map Burst.counter).IsChain Grows) :
    ((FacePipeline.new cfg reorder created).run sysClk clk (bursts.flatMap Burst.calls)).2.Perm
        ((completed cfg sysClk (bursts.flatMap Burst.calls)).map orderedFrame) ↔
      cfg.maxContexts = 0 ∨ (bursts.map Burst.counter).IsChain ByOne := by
  rw [FacePipeline.run, FacePipeline.new, Machine.run_feed, completed]
  rcases Nat.eq_zero_or_pos cfg.maxContexts with hzero | hpos
  · rw [none_completed hzero _ (resting_new cfg)]
    exact ⟨fun _ => .inl hzero, fun _ => List.Perm.refl _⟩
  · have hpaced : Machine.Paced (onData sysClk) Idles (Reassembler.new cfg)
        (bursts.flatMap Burst.calls) _ _ := .of_run _ _
    obtain ⟨frames, hframes, hout⟩ := bursts_completed hmax hpos bursts (resting_new cfg) hpaced
    rw [← counters_eq hframes] at hgrows ⊢
    have hmap : (frames.map fun frame => (⟨frame, none⟩ : Emission)).map Emission.frame =
      frames := by
      rw [List.map_map]
      exact List.map_id _
    rw [hout, hmap, onFrame_all_iff clk reorder created hgrows]
    exact ⟨.inr, fun h => h.resolve_left (Nat.ne_of_gt hpos)⟩

end

/-- A frame of one fragment with one byte of payload, for a counter and a beam below 256. -/
def beamPacket (counter beam : Byte) : ParsedPacket where
  header := { payloadLen := 81 }
  payload := some (counter :: List.replicate 31 0 ++ [beam, 0, 0, 0, 1, 0, 1, 0] ++
    List.replicate 40 0 ++ [7])
  totalSize := 113

def beamBurst (counter beam : Byte) : Burst { maxContexts := 1 } where
  frame :=
    { key := extractKey {} (specificOf (beamPacket counter beam))
      count := 1
      tail := 1
      snapshot := {}
      packet := fun _ => beamPacket counter beam
      body := fun _ => [7]
      pos := Nat.le_refl _
      le := by decide
      fits := by decide
      fragment := by
        intro i hi
        obtain rfl : i = 0 := by omega
        exact ⟨rfl, rfl, rfl, rfl, rfl, by decide, fun h => absurd rfl h,
          fun _ => ⟨rfl, rfl, rfl, rfl⟩⟩ }
  order := [(.heap, 0)]
  perm := List.Perm.refl _

/-- Beam 0 of counter 0, then beam 5 of counter 1: both are handed out. -/
theorem nextCounter_handed :
    ((FacePipeline.new { maxContexts := 1 } { windowSize := 4 } 0).run (fun _ => 0) (fun _ => 0)
        ([beamBurst 0 0, beamBurst 1 5].flatMap Burst.calls)).2.Perm
      ((completed { maxContexts := 1 } (fun _ => 0)
        ([beamBurst 0 0, beamBurst 1 5].flatMap Burst.calls)).map orderedFrame) :=
  (frames_handed_out [beamBurst 0 0, beamBurst 1 5] { windowSize := 4 } 0 (fun _ => 0) (fun _ => 0)
    (by decide) (List.isChain_pair.2 (.inr rfl))).2 (.inr (List.isChain_pair.2 rfl))

/-- Beams 0 and 5 of counter 0: two keys, two frames completed, one handed out. -/
theorem sameCounter_loses :
    (beamBurst 0 0).frame.key ≠ (beamBurst 0 5).frame.key ∧
    ([beamBurst 0 0, beamBurst 0 5].map Burst.counter).IsChain Grows ∧
    ¬ ((FacePipeline.new { maxContexts := 1 } { windowSize := 4 } 0).run (fun _ => 0) (fun _ => 0)
        ([beamBurst 0 0, beamBurst 0 5].flatMap Burst.calls)).2.Perm
      ((completed { maxContexts := 1 } (fun _ => 0)
        ([beamBurst 0 0, beamBurst 0 5].flatMap Burst.calls)).map orderedFrame) :=
  ⟨by decide, List.isChain_pair.2 (.inl rfl), fun h => absurd h.length_eq (by decide)⟩

end Qdgz300.App
