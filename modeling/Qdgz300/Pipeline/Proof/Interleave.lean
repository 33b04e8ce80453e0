import Qdgz300.Pipeline.Proof.Collect
import Qdgz300.Pipeline.Proof.FrozenRing

/-!
# Frames among other traffic

`Foreign` calls keep off a key: they leave its context alone and emit no frame of it (`Aside`). So
the context of a frame depends on the set of its fragments that have arrived and on nothing else
(`Gathering`).

* `foreign_step`, `foreign_run`: calls that keep off a key.
* `Gathering.fragment`, `Gathering.last`: one fragment of the frame.
* **`reassembly_order_independent`**: whatever the order, the repeats and the traffic in between,
  the frame is emitted exactly once, when its last distinct fragment arrives.
-/

namespace Qdgz300.Pipeline

open Protocol

/-! ## Other calls -/

/-- No entry keeps `key` frozen at a reading from here on. -/
def Unfrozen (clk : SystemClock) (key : ReassemblyKey) (s : Reassembler) : Prop :=
  ∀ e ∈ s.frozenKeysRing, e.valid = true → e.key = key → ∀ j, s.reads ≤ j → e.expireMs ≤ clk j

/-- What a call that keeps off `key` leaves of it. -/
structure Aside (clk : SystemClock) (key : ReassemblyKey) (s : Reassembler)
    (r : Reassembler × List Emission) : Prop where
  lookup : r.1.contexts.lookup key = s.contexts.lookup key
  config : r.1.config = s.config
  unfrozen : Unfrozen clk key s → Unfrozen clk key r.1
  silent : ∀ e ∈ r.2, e.frame.key ≠ key

/-- A call that keeps off `key`: a packet of another key or one that the header checks refuse, a
timeout check that does not find `key`, a flush without it. -/
def Foreign (clk : SystemClock) (key : ReassemblyKey) (s : Reassembler) : ReassemblerOp → Prop
  | .processPacket packet => ∀ frag, fragmentOf s.config packet = some frag → frag.key ≠ key
  | .processPacketZeroCopy packet => ∀ frag, fragmentOf s.config packet = some frag → frag.key ≠ key
  | .checkTimeouts _ => key ∉ s.timedOut (clk s.reads)
  | .flushAll _ => key ∉ s.contexts
  | .setTimeoutMs _ => True
  | .resetStatistics => True

section
variable {clk : SystemClock} {key : ReassemblyKey} {s s' : Reassembler}

theorem unfrozen_of_scan (hclk : Steady clk)
    (h : (isKeyFrozen key (clk s.reads) s.frozenKeysRing).2 = false) : Unfrozen clk key s := by
  intro e he hv hk j hj
  have hmono := hclk.mono s.reads j hj
  have hno : ¬ clk s.reads < e.expireMs := fun hlt => by
    rw [(isKeyFrozen_iff _).2 ⟨e, he, hv, hlt, hk⟩] at h
    cases h
  rw [BitVec.lt_def] at hno
  rw [BitVec.le_def]
  omega

theorem Unfrozen.scan (h : Unfrozen clk key s) :
    (isKeyFrozen key (clk s.reads) s.frozenKeysRing).2 = false := by
  rw [← Bool.not_eq_true, isKeyFrozen_iff]
  rintro ⟨e, he, hv, hlt, hk⟩
  exact BitVec.not_lt.2 (h e he hv hk s.reads (Nat.le_refl _)) hlt

theorem Unfrozen.mono (h : Unfrozen clk key s) (hreads : s.reads ≤ s'.reads)
    (hring : ∀ e ∈ s'.frozenKeysRing, e.valid = true → e.key = key → e ∈ s.frozenKeysRing) :
    Unfrozen clk key s' :=
  fun e he hv hk j hj => h e (hring e he hv hk) hv hk j (Nat.le_trans hreads hj)

theorem renewEntry_mem {key' : ReassemblyKey} {expire : BitVec 64} {e : FrozenKeyEntry} :
    ∀ {ring ring' : List FrozenKeyEntry}, renewEntry key' expire ring = some ring' → e ∈ ring' →
      e ∈ ring ∨ e.key = key'
  | [], _, h, _ => by cases h
  | e' :: ring, ring', h, he => by
    unfold renewEntry at h
    split at h
    case isTrue hc =>
      cases h
      rcases List.mem_cons.1 he with rfl | he
      · exact .inr hc.2
      · exact .inl (List.mem_cons_of_mem _ he)
    case isFalse =>
      obtain ⟨r, hr, rfl⟩ := Option.map_eq_some_iff.1 h
      rcases List.mem_cons.1 he with rfl | he
      · exact .inl List.mem_cons_self
      · exact (renewEntry_mem hr he).imp_left (List.mem_cons_of_mem _)

theorem addFrozenKey_mem {key' : ReassemblyKey} {expire : BitVec 64} {e : FrozenKeyEntry}
    (he : e ∈ (s.addFrozenKey key' expire).frozenKeysRing) : e ∈ s.frozenKeysRing ∨
    e.key = key' := by
  unfold Reassembler.addFrozenKey at he
  split at he
  case h_1 ring hr => exact renewEntry_mem hr he
  case h_2 =>
    rcases List.mem_or_eq_of_mem_set he with he | rfl
    · exact .inl he
    · exact .inr rfl

theorem Aside.refl (clk : SystemClock) (key : ReassemblyKey) (s : Reassembler) :
    Aside clk key s (s, []) :=
  ⟨rfl, rfl, id, by simp⟩

theorem Aside.append {out : List Emission} {r : Reassembler × List Emission}
    (h1 : Aside clk key s (s', out)) (h2 : Aside clk key s' r) :
    Aside clk key s (r.1, out ++ r.2) :=
  ⟨h2.lookup.trans h1.lookup, h2.config.trans h1.config, fun h => h2.unfrozen (h1.unfrozen h),
    fun e he => (List.mem_append.1 he).elim (h1.silent e) (h2.silent e)⟩

theorem timeout_aside {key' : ReassemblyKey} {ctx : ReassemblyContext} {e : Emission}
    (hne : key' ≠ key) (h : s.completeReassembly clk key' ctx true = some (s', e)) :
    Aside clk key s (s', [e]) := by
  obtain ⟨⟨stats, rfl⟩, rfl⟩ := completeReassembly_timeout h
  refine ⟨AList.lookup_erase_ne (Ne.symm hne), addFrozenKey_config, fun hu => ?_, ?_⟩
  · refine hu.mono (Nat.le_succ _) fun e he _ hk => ?_
    exact (addFrozenKey_mem he).resolve_right fun hk' => hne (hk'.symm.trans hk)
  · intro e he
    rw [List.mem_singleton.1 he]
    exact hne

/-- The completion loop over other keys. -/
theorem completeAll_aside : ∀ (keys : List ReassemblyKey) (s : Reassembler), key ∉ keys →
    Aside clk key s (Reassembler.completeAll clk keys s)
  | [], s, _ => Aside.refl clk key s
  | key' :: keys, s, hkeys => by
    have hne : key' ≠ key := fun h => hkeys (h ▸ List.mem_cons_self)
    have ih := fun s => completeAll_aside keys s fun h => hkeys (List.mem_cons_of_mem _ h)
    unfold Reassembler.completeAll
    cases hl : s.contexts.lookup key' with
    | none => exact ih s
    | some ctx =>
      simp only
      cases hc : s.completeReassembly clk key' ctx true with
      | none => exact Aside.refl clk key s
      | some r => exact (timeout_aside hne hc).append (ih r.1)

theorem packet_aside {storage : FragmentStorage} {packet : ParsedPacket}
    (h : ∀ frag, fragmentOf s.config packet = some frag → frag.key ≠ key) :
    Aside clk key s (Reassembler.processWith storage clk s packet) := by
  cases hfrag : fragmentOf s.config packet with
  | none =>
    rw [processWith_none storage clk hfrag]
    exact ⟨rfl, rfl, id, by simp⟩
  | some frag =>
    have hne := h frag hfrag
    obtain ⟨contexts, stats, out, heq, heff⟩ := processWith_effect storage clk hfrag
    rw [heq]
    have hunfrozen : Unfrozen clk key s → Unfrozen clk key
        { s with
          contexts := contexts
          frozenKeysRing := (isKeyFrozen frag.key (clk s.reads) s.frozenKeysRing).1
          stats := stats
          reads := s.reads + 1 } := fun hu =>
      hu.mono (Nat.le_succ _) fun e he hv _ => isKeyFrozen_valid he hv
    cases heff with
    | late hf => exact ⟨rfl, rfl, hunfrozen, by simp⟩
    | full hf hl hfull => exact ⟨rfl, rfl, hunfrozen, by simp⟩
    | kept hf hctx htime => exact ⟨AList.lookup_insert_ne (Ne.symm hne), rfl, hunfrozen, by simp⟩
    | completed hf hctx hkey =>
      refine ⟨AList.lookup_erase_ne (Ne.symm hne), rfl, hunfrozen, fun e he => ?_⟩
      rw [List.mem_singleton.1 he]
      exact fun hk => hne (hkey.symm.trans hk)

/-- **A call that keeps off the key** leaves its context alone and emits no frame of it. -/
theorem foreign_step {op : ReassemblerOp} (h : Foreign clk key s op) :
    Aside clk key s (s.step clk op) := by
  cases op with
  | processPacket packet => exact packet_aside h
  | processPacketZeroCopy packet => exact packet_aside h
  | checkTimeouts order =>
    have hkeys : key ∉ order.toFun (s.timedOut (clk s.reads)) := fun hm =>
      h ((order.perm _).mem_iff.1 hm)
    have : Aside clk key { s with reads := s.reads + 1 } (s.checkTimeouts clk order) :=
      completeAll_aside _ _ hkeys
    exact ⟨this.lookup, this.config,
      fun hu => this.unfrozen (hu.mono (Nat.le_succ _) fun _ he _ _ => he), this.silent⟩
  | flushAll order =>
    exact completeAll_aside _ s fun hm => h (AList.mem_keys.2 ((order.perm _).mem_iff.1 hm))
  | setTimeoutMs timeoutMs => exact ⟨rfl, rfl, id, by simp [Reassembler.step]⟩
  | resetStatistics =>
    refine ⟨rfl, rfl, fun _ e he hv => ?_, by simp [Reassembler.step]⟩
    obtain ⟨e', -, rfl⟩ := List.mem_map.1 he
    cases hv

theorem foreign_run {ops : List ReassemblerOp}
    (h : Machine.RunAlong (Reassembler.step clk) (Foreign clk key) s ops) :
    Aside clk key s (s.run clk ops) :=
  Machine.runAlong_inv (Reassembler.step clk) (I := fun s' out => Aside clk key s (s', out))
    (fun _ _ _ hI hC => hI.append (foreign_step hC)) [] (Aside.refl clk key s) h

end

/-! ## The fragments of a frame -/

section
variable {cfg : ReassemblerConfig} {F : SentFrame cfg} {clk : SystemClock} {s : Reassembler}
  {seen : Finset Nat} {i l : Nat}

/-- The fragments of `F` with the indices in `seen` have arrived, and nothing stands in the way of
the others. -/
structure Gathering (clk : SystemClock) (F : SentFrame cfg) (seen : Finset Nat) (s : Reassembler) :
    Prop where
  config : s.config = cfg
  unfrozen : Unfrozen clk F.key s
  context : seen = ∅ ∧ s.contexts.lookup F.key = none ∨
    ∃ ctx, s.contexts.lookup F.key = some ctx ∧ Collects F seen ctx

/-- There is a free slot, should the key need one. -/
def Slot (F : SentFrame cfg) (s : Reassembler) : Prop :=
  F.key ∉ s.contexts → KeyMap.size s.contexts < cfg.maxContexts

theorem Gathering.aside {r : Reassembler × List Emission} (h : Gathering clk F seen s)
    (ha : Aside clk F.key s r) : Gathering clk F seen r.1 :=
  ⟨ha.config.trans h.config, ha.unfrozen h.unfrozen, by rw [ha.lookup]; exact h.context⟩

theorem Gathering.fragmentOf_eq (h : Gathering clk F seen s) (hi : i < F.count) :
    fragmentOf s.config (F.packet i) = some (F.frag i) := by
  rw [h.config]
  exact F.fragmentOf_eq hi

/-- A packet of the frame reaches the context of its key. -/
theorem Gathering.reaches (h : Gathering clk F seen s) (hi : i < F.count) (hslot : Slot F s)
    (storage : FragmentStorage) :
    ∃ s2 ctx, Reassembler.processWith storage clk s (F.packet i) =
        s2.storeFragment clk (F.frag i) storage ctx ∧ s2.config = cfg ∧ Unfrozen clk F.key s2 ∧
      Collects F seen ctx ∧ (i + 1 = F.count → ctx.executionSnapshot = F.snapshot ∧
        ctx.hasExecutionSnapshot = true) := by
  have hscan : (isKeyFrozen F.key (clk s.reads) s.frozenKeysRing).2 = false := h.unfrozen.scan
  have hring : ∀ contexts stats, Unfrozen clk F.key
      { s with
        contexts := contexts
        frozenKeysRing := (isKeyFrozen F.key (clk s.reads) s.frozenKeysRing).1
        stats := stats
        reads := s.reads + 1 } := fun contexts stats =>
    h.unfrozen.mono (Nat.le_succ _) fun e he hv _ => isKeyFrozen_valid he hv
  unfold Reassembler.processWith
  rw [h.fragmentOf_eq hi]
  simp only
  rcases h.context with ⟨rfl, hl⟩ | ⟨ctx, hl, hctx⟩
  · have hfree : KeyMap.size s.contexts < s.config.maxContexts := by
      rw [h.config]
      exact hslot (AList.lookup_eq_none.1 hl)
    have hnew := (collects_new hi (clk s.reads)).takeSnapshot i
    exact ⟨_, _, acceptFragment_fresh hscan hl hfree, h.config, hring _ _, hnew.1, hnew.2⟩
  · have hsnap := hctx.takeSnapshot i
    exact ⟨_, _, acceptFragment_live hscan hl, h.config, hring _ _, hsnap.1, hsnap.2⟩

/-- **A fragment that does not complete the frame**, new or repeated. -/
theorem Gathering.fragment (hmax : F.count ≤ 1024) (h : Gathering clk F seen s) (hi : i < F.count)
    (hslot : Slot F s) (hopen : insert i seen ≠ Finset.range F.count) (storage : FragmentStorage) :
    Gathering clk F (insert i seen) (Reassembler.processWith storage clk s (F.packet i)).1 ∧
      (Reassembler.processWith storage clk s (F.packet i)).2 = [] := by
  obtain ⟨s2, ctx, heq, hcfg, hun, hctx, hsnap⟩ := h.reaches hi hslot storage
  rw [heq]
  unfold Reassembler.storeFragment
  simp only [hcfg, hctx.addFragment hmax hi storage]
  by_cases hs : i ∈ seen
  · rw [if_pos hs, Finset.insert_eq_of_mem hs]
    exact ⟨⟨hcfg, hun, .inr ⟨ctx, AList.lookup_insert _, hctx⟩⟩, rfl⟩
  · have hctx' := hctx.enter hmax hi hs hsnap storage
    rw [if_neg hs]
    simp only
    rw [if_neg fun hc => hopen (hctx'.checkComplete_iff.1 hc)]
    exact ⟨⟨hcfg, hun, .inr ⟨_, AList.lookup_insert _, hctx'⟩⟩, rfl⟩

/-- The frame that `F` is sent for. -/
structure IsFrameOf (F : SentFrame cfg) (frame : ReassembledFrame) : Prop where
  key : frame.key = F.key
  complete : frame.isComplete = true
  missing : frame.missingFragIndices = []
  missingCount : frame.missingFragmentsCount = 0
  data : frame.data = (List.range F.count).flatMap F.body
  size : frame.totalSize = frame.data.length
  snapshot : frame.executionSnapshot = F.snapshot
  hasSnapshot : frame.hasExecutionSnapshot = true

/-- **The last distinct fragment** completes the frame and frees its context. -/
theorem Gathering.last (hmax : F.count ≤ 1024) (h : Gathering clk F seen s) (hi : i < F.count)
    (hslot : Slot F s) (hnew : i ∉ seen) (hfull : insert i seen = Finset.range F.count)
    (storage : FragmentStorage) :
    (∃ frame, (Reassembler.processWith storage clk s (F.packet i)).2 = [⟨frame, none⟩] ∧
      IsFrameOf F frame) ∧
      (Reassembler.processWith storage clk s (F.packet i)).1.contexts.lookup F.key = none := by
  obtain ⟨s2, ctx, heq, hcfg, hun, hctx, hsnap⟩ := h.reaches hi hslot storage
  have hctx' := hctx.enter hmax hi hnew hsnap storage
  rw [hfull] at hctx'
  have htotal : ¬ 1024 < (enterFragment ctx (F.frag i) storage).totalFrags.toNat := by
    rw [hctx'.total]
    omega
  rw [heq]
  unfold Reassembler.storeFragment
  simp only [hcfg, hctx.addFragment hmax hi storage]
  rw [if_neg hnew]
  simp only
  rw [if_pos (hctx'.checkComplete_iff.2 rfl)]
  split
  case h_1 s3 e hc =>
    obtain ⟨⟨stats, rfl⟩, rfl⟩ := completeReassembly_done hc
    refine ⟨⟨_, rfl, ?_⟩, AList.lookup_erase _ _⟩
    change IsFrameOf F (Reassembler.assembleFrame s2.config F.key _)
    rw [hcfg, hctx'.assembleFrame]
    exact ⟨rfl, rfl, rfl, rfl, rfl, rfl, rfl, rfl⟩
  case h_2 hc =>
    unfold Reassembler.completeReassembly at hc
    rw [if_neg htotal] at hc
    cases hc

/-! ## Runs -/

/-- A call before fragment `l`, the last one to come: it keeps off the key of `F`, or brings another
fragment of `F`, new or repeated. -/
def Gathers (clk : SystemClock) (F : SentFrame cfg) (l : Nat) (s : Reassembler)
    (op : ReassemblerOp) :
    Prop :=
  Foreign clk F.key s op ∨
    ∃ storage, ∃ i < F.count, i ≠ l ∧ op.packet? = some (storage, F.packet i) ∧ Slot F s

theorem foreign_packet {key : ReassemblyKey} {op : ReassemblerOp} {storage : FragmentStorage}
    {packet : ParsedPacket} {frag : Fragment} (h : Foreign clk key s op)
    (hp : op.packet? = some (storage, packet))
    (hfrag : fragmentOf s.config packet = some frag) : frag.key ≠ key := by
  cases op <;> cases hp
  · exact h frag hfrag
  · exact h frag hfrag

/-- **A call before the last fragment** emits no frame of the key, and adds the fragment it
brings. -/
theorem Gathering.step {op : ReassemblerOp} (hmax : F.count ≤ 1024) (hl : l < F.count)
    (h : Gathering clk F seen s) (hlast : l ∉ seen) (hop : Gathers clk F l s op) :
    ∃ seen', Gathering clk F seen' (s.step clk op).1 ∧ l ∉ seen' ∧ seen ⊆ seen' ∧
      (∀ e ∈ (s.step clk op).2, e.frame.key ≠ F.key) ∧
      ∀ i < F.count, ∀ storage, op.packet? = some (storage, F.packet i) → i ∈ seen' := by
  rcases hop with hfor | ⟨storage, i, hi, hne, hp, hslot⟩
  · have haside := foreign_step hfor
    refine ⟨seen, h.aside haside, hlast, Finset.Subset.refl _, haside.silent, ?_⟩
    intro i hi storage hp
    exact absurd rfl (foreign_packet hfor hp (h.fragmentOf_eq hi))
  · have hlast' : l ∉ insert i seen := by
      rw [Finset.mem_insert, not_or]
      exact ⟨Ne.symm hne, hlast⟩
    have hopen : insert i seen ≠ Finset.range F.count := fun heq =>
      hlast' (by rw [heq]; exact Finset.mem_range.2 hl)
    obtain ⟨h', hout⟩ := h.fragment hmax hi hslot hopen storage
    rw [step_packet hp]
    refine ⟨_, h', hlast', Finset.subset_insert _ _, by simp [hout], ?_⟩
    intro j hj storage' hp'
    rw [hp] at hp'
    rw [F.packet_inj hj hi (congrArg Prod.snd (Option.some.inj hp')).symm]
    exact Finset.mem_insert_self _ _

/-- The calls before the last fragment. -/
theorem Gathering.run (hmax : F.count ≤ 1024) (hl : l < F.count) :
    ∀ {ops : List ReassemblerOp} {s : Reassembler} {seen : Finset Nat}, Gathering clk F seen s →
      l ∉ seen → Machine.RunAlong (Reassembler.step clk) (Gathers clk F l) s ops →
      ∃ seen', Gathering clk F seen' (s.run clk ops).1 ∧ l ∉ seen' ∧ seen ⊆ seen' ∧
        (∀ e ∈ (s.run clk ops).2, e.frame.key ≠ F.key) ∧
        ∀ i < F.count, ∀ op ∈ ops, ∀ storage, op.packet? = some (storage, F.packet i) → i ∈ seen'
  | [], s, seen, h, hlast, _ =>
    ⟨seen, h, hlast, Finset.Subset.refl _, by simp [Reassembler.run], by simp⟩
  | op :: ops, s, seen, h, hlast, hrun => by
    obtain ⟨seen1, h1, hlast1, hsub1, hout1, hin1⟩ := h.step hmax hl hlast hrun.1
    obtain ⟨seen2, h2, hlast2, hsub2, hout2, hin2⟩ := Gathering.run hmax hl h1 hlast1 hrun.2
    refine ⟨seen2, h2, hlast2, hsub1.trans hsub2, ?_, ?_⟩
    · exact fun e he => (List.mem_append.1 he).elim (hout1 e) (hout2 e)
    · intro i hi op' hop' storage hp
      rcases List.mem_cons.1 hop' with rfl | hop'
      · exact hsub2 (hin1 i hi storage hp)
      · exact hin2 i hi op' hop' storage hp

/-- **Reassembly is independent of the order of arrival and of interleaving.** Let the key of the
frame `F` be neither frozen nor live. The calls `before` bring every fragment but `l`, in any order
and as often as they like, among calls that keep off the key, and find a free slot when they need
one; then `last` brings `l`; the calls `after` keep off the key. The frame is emitted exactly once,
at `last`: complete, with the bodies in index order. -/
theorem reassembly_order_independent (before after : List ReassemblerOp) (last : ReassemblerOp)
    {storage : FragmentStorage}
    (hmax : cfg.maxTotalFrags.toNat ≤ 1024) (hcfg : s.config = cfg) (hkey : F.key ∉ s.contexts)
    (hfrozen : Unfrozen clk F.key s)
    (hbefore : Machine.RunAlong (Reassembler.step clk) (Gathers clk F l) s before)
    (hall : ∀ i < F.count, i ≠ l → ∃ op ∈ before, ∃ storage, op.packet? = some (storage, F.packet i))
    (hl : l < F.count) (hlast : last.packet? = some (storage, F.packet l))
    (hslot : Slot F (s.run clk before).1)
    (hafter : Machine.RunAlong (Reassembler.step clk) (Foreign clk F.key)
      ((s.run clk before).1.step clk last).1 after) :
    (∀ e ∈ (s.run clk before).2, e.frame.key ≠ F.key) ∧
    (∃ frame, ((s.run clk before).1.step clk last).2 = [⟨frame, none⟩] ∧ IsFrameOf F frame) ∧
    ∀ e ∈ (((s.run clk before).1.step clk last).1.run clk after).2, e.frame.key ≠ F.key := by
  have hcount : F.count ≤ 1024 := F.le.trans hmax
  have hstart : Gathering clk F ∅ s :=
    ⟨hcfg, hfrozen, .inl ⟨rfl, AList.lookup_eq_none.2 hkey⟩⟩
  obtain ⟨seen, hg, hnew, -, hout, hin⟩ := hstart.run hcount hl (Finset.notMem_empty l) hbefore
  -- every index but `l` has been seen
  have hfull : insert l seen = Finset.range F.count := by
    ext i
    rw [Finset.mem_insert, Finset.mem_range]
    constructor
    · rintro (rfl | hi)
      · exact hl
      · rcases hg.context with ⟨rfl, -⟩ | ⟨ctx, -, hctx⟩
        · cases hi
        · exact hctx.within i hi
    · intro hi
      by_cases hil : i = l
      · exact .inl hil
      · obtain ⟨op, hop, storage', hp⟩ := hall i hi hil
        exact .inr (hin i hi op hop storage' hp)
  rw [step_packet hlast] at hafter ⊢
  have hdone := hg.last hcount hl hslot hnew hfull storage
  exact ⟨hout, hdone.1, (foreign_run hafter).silent⟩

end

/-- A fragment of a two-fragment frame: the first, or the tail with its snapshot. -/
def twoParts : Nat → ParsedPacket
  | 0 => ⟨{ payloadLen := 41 },
      some (List.replicate 34 0 ++ [0, 0, 2, 0, 1, 0] ++ [7]), 73⟩
  | _ => ⟨{ payloadLen := 81 },
      some (List.replicate 34 0 ++ [1, 0, 2, 0, 1, 0] ++ List.replicate 40 0 ++ [9]), 113⟩

/-- The frame of `twoParts`. -/
def twoFrame : SentFrame { maxContexts := 2 } where
  key := {}
  count := 2
  tail := 1
  snapshot := {}
  packet := twoParts
  body i := if i = 0 then [7] else [9]
  pos := by decide
  le := by decide
  fits := by decide
  fragment i hi := by
    have : i = 0 ∨ i = 1 := by omega
    rcases this with rfl | rfl
    · exact ⟨rfl, rfl, rfl, rfl, rfl, by decide, fun _ => ⟨rfl, rfl⟩, fun h => absurd h (by decide)⟩
    · exact ⟨rfl, rfl, rfl, rfl, rfl, by decide, fun h => absurd rfl h, fun _ => ⟨rfl, rfl, rfl, rfl⟩⟩

/-- A frame of one fragment for beam 5. -/
def beamFive : ParsedPacket where
  header := { payloadLen := 81 }
  payload := some (List.replicate 32 0 ++ [5, 0, 0, 0, 1, 0, 1, 0] ++ List.replicate 40 0 ++ [3])
  totalSize := 113

/-- The tail twice, with a frame of another beam in between. -/
def tailFirst : List ReassemblerOp :=
  [.processPacket (twoParts 1), .processPacketZeroCopy beamFive, .processPacket (twoParts 1)]

/-- The first fragment comes last. -/
theorem tailFirst_emitted :
    ∃ frame, (((Reassembler.new { maxContexts := 2 }).run (fun _ => 0) tailFirst).1.step (fun _ => 0)
      (.processPacket (twoParts 0))).2 = [⟨frame, none⟩] ∧ IsFrameOf twoFrame frame := by
  refine (reassembly_order_independent (F := twoFrame) (l := 0) tailFirst [] _ (by decide) rfl
    (by decide) ?_ ?_ ?_ (by decide) rfl ?_ trivial).2.1
  · exact unfrozen_of_scan ⟨fun _ _ _ => Nat.le_refl _, fun _ => by decide⟩ rfl
  · refine ⟨?_, ?_, ?_, trivial⟩
    · exact .inr ⟨.heap, 1, by decide, by decide, rfl, fun _ => by decide⟩
    · refine .inl fun frag hfrag => ?_
      cases hfrag
      decide
    · exact .inr ⟨.heap, 1, by decide, by decide, rfl, fun _ => by decide⟩
  · intro i hi hne
    have : i = 1 := by
      have : i < 2 := hi
      omega
    subst this
    exact ⟨_, List.mem_cons_self, .heap, rfl⟩
  · exact fun _ => by decide

end Qdgz300.Pipeline
