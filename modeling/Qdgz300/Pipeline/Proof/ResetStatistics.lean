import Qdgz300.Pipeline.Proof.Provenance

/-!
# What `reset_statistics` resets

Besides the counters it empties the ring of frozen keys. Two runs that differ in one reset go on
alike as long as no packet meets a key that was frozen before it: the contexts are the same, and the
ring of the run with the reset is the other one, turned so that its insertion point stands at `0`,
without the entries from before (`Alike`).

* `processWith_outcome`: what a packet does, but for the counters, as a function of the contexts and
  of the answer of the scan.
* `Untroubled`: the condition on a packet. `Turned.frozen_eq`: the two scans then answer alike.
* **`alike_step`**, `alike_run`: a call on both, and a run.
* `step_balanced`: what a call does to the counters of contexts.
* **`reset_statistics_harmless`**: the frames, and the counters.
-/

namespace Qdgz300.Pipeline

open Protocol

/-! ## A packet without its counters -/

/-- What a fragment does to the contexts once its own is found, and what it emits. -/
def storeOutcome (cfg : ReassemblerConfig) (m : ContextMap) (frag : Fragment)
    (storage : FragmentStorage) (ctx : ReassemblyContext) : ContextMap × List Emission :=
  match addFragment cfg ctx frag storage with
  | .added ctx' =>
    if ctx'.checkComplete ∧ ctx'.totalFrags.toNat ≤ 1024 then
      (m.erase frag.key, [⟨Reassembler.assembleFrame cfg frag.key ctx', none⟩])
    else (m.insert frag.key ctx', [])
  | _ => (m.insert frag.key ctx, [])

/-- What a fragment does to the contexts, `frozen` being the answer of the scan. -/
def packetOutcome (cfg : ReassemblerConfig) (m : ContextMap) (frozen : Bool) (frag : Fragment)
    (storage : FragmentStorage) (now : BitVec 64) : ContextMap × List Emission :=
  if frozen then (m, [])
  else
    match m.lookup frag.key with
    | some ctx => storeOutcome cfg m frag storage (takeSnapshot ctx frag)
    | none =>
      if cfg.maxContexts ≤ KeyMap.size m then (m, [])
      else storeOutcome cfg (m.insert frag.key (newContext frag now)) frag storage
        (takeSnapshot (newContext frag now) frag)

section
variable {clk : SystemClock} {s t : Reassembler} {frag : Fragment} {storage : FragmentStorage}
  {packet : ParsedPacket} {key : ReassemblyKey} {ctx : ReassemblyContext} {now : BitVec 64}

theorem storeFragment_outcome (clk : SystemClock) (s : Reassembler) (frag : Fragment)
    (storage : FragmentStorage) (ctx : ReassemblyContext) :
    (s.storeFragment clk frag storage ctx).1.contexts =
        (storeOutcome s.config s.contexts frag storage ctx).1 ∧
      (s.storeFragment clk frag storage ctx).2 =
        (storeOutcome s.config s.contexts frag storage ctx).2 := by
  unfold Reassembler.storeFragment storeOutcome
  cases hadd : addFragment s.config ctx frag storage with
  | rejected => exact ⟨rfl, rfl⟩
  | duplicate => exact ⟨rfl, rfl⟩
  | bytesOverflow => exact ⟨rfl, rfl⟩
  | added ctx' =>
    simp only
    cases hdone : ctx'.checkComplete with
    | false => simp [Reassembler.putContext, AList.insert_insert]
    | true =>
      simp only [if_true, true_and]
      cases hc : ((s.putContext frag.key ctx).putContext frag.key ctx').completeReassembly
          clk frag.key ctx' false with
      | none =>
        rw [if_neg (Nat.not_le.2 (completeReassembly_none hc))]
        simp [Reassembler.putContext, AList.insert_insert]
      | some r =>
        obtain ⟨s', e⟩ := r
        have hle : ctx'.totalFrags.toNat ≤ 1024 := by
          unfold Reassembler.completeReassembly at hc
          split at hc
          case isTrue => cases hc
          case isFalse h => exact Nat.le_of_not_lt h
        obtain ⟨⟨stats, rfl⟩, rfl⟩ := completeReassembly_done hc
        rw [if_pos hle]
        simp [Reassembler.putContext, AList.insert_insert, KeyMap.erase_insert]

theorem acceptFragment_outcome (clk : SystemClock) (s : Reassembler) (frag : Fragment)
    (storage : FragmentStorage) (now : BitVec 64) :
    (s.acceptFragment clk frag storage now).1.contexts = (packetOutcome s.config s.contexts
        (isKeyFrozen frag.key now s.frozenKeysRing).2 frag storage now).1 ∧
      (s.acceptFragment clk frag storage now).2 = (packetOutcome s.config s.contexts
        (isKeyFrozen frag.key now s.frozenKeysRing).2 frag storage now).2 := by
  unfold packetOutcome
  cases hscan : (isKeyFrozen frag.key now s.frozenKeysRing).2 with
  | true =>
    rw [acceptFragment_frozen hscan, if_pos rfl]
    exact ⟨rfl, rfl⟩
  | false =>
    rw [if_neg Bool.false_ne_true]
    cases hl : s.contexts.lookup frag.key with
    | some ctx =>
      rw [acceptFragment_live hscan hl]
      exact storeFragment_outcome clk _ frag storage _
    | none =>
      by_cases hfull : s.config.maxContexts ≤ KeyMap.size s.contexts
      · rw [acceptFragment_full hscan hl hfull]
        simp [hfull]
      · rw [acceptFragment_fresh hscan hl (Nat.lt_of_not_le hfull)]
        simp only [if_neg hfull]
        exact storeFragment_outcome clk _ frag storage _

/-- **A packet**: its effect but for the counters. -/
theorem processWith_outcome (storage : FragmentStorage) (clk : SystemClock)
    (h : fragmentOf s.config packet = some frag) :
    ∃ stats, Reassembler.processWith storage clk s packet =
      (afterPacket clk s frag (packetOutcome s.config s.contexts
          (isKeyFrozen frag.key (clk s.reads) s.frozenKeysRing).2 frag storage
            (clk s.reads)).1 stats,
        (packetOutcome s.config s.contexts
          (isKeyFrozen frag.key (clk s.reads) s.frozenKeysRing).2 frag storage
            (clk s.reads)).2) := by
  obtain ⟨contexts, stats, out, heq, -⟩ := processWith_effect storage clk h
  have hparts : contexts = (packetOutcome s.config s.contexts
        (isKeyFrozen frag.key (clk s.reads) s.frozenKeysRing).2 frag storage (clk s.reads)).1 ∧
      out = (packetOutcome s.config s.contexts
        (isKeyFrozen frag.key (clk s.reads) s.frozenKeysRing).2 frag storage (clk s.reads)).2 := by
    have hctx : contexts = (Reassembler.processWith storage clk s packet).1.contexts := by rw [heq]
    have hout : out = (Reassembler.processWith storage clk s packet).2 := by rw [heq]
    rw [hctx, hout]
    unfold Reassembler.processWith
    rw [h]
    exact acceptFragment_outcome clk { s.countReceived with reads := s.reads + 1 } frag storage
      (clk s.reads)
  refine ⟨stats, ?_⟩
  rw [← hparts.1, ← hparts.2]
  exact heq

end

/-! ## The ring -/

section
variable {clk : SystemClock} {s s' : Reassembler} {frag : Fragment} {storage : FragmentStorage}
  {packet : ParsedPacket} {key : ReassemblyKey} {ctx : ReassemblyContext}

theorem ringOk_completeAll (clk : SystemClock) (keys : List ReassemblyKey) (h : RingOk s) :
    RingOk (Reassembler.completeAll clk keys s).1 := by
  refine completeAll_keeps (fun s key ctx s' e h hl hc => ?_) keys h
  obtain ⟨⟨stats, rfl⟩, -⟩ := h.timeout_eq hl hc
  exact h.timeout key stats

theorem ringOk_processWith (storage : FragmentStorage) (clk : SystemClock) (packet : ParsedPacket)
    (h : RingOk s) : RingOk (Reassembler.processWith storage clk s packet).1 := by
  cases hfrag : fragmentOf s.config packet with
  | none =>
    rw [processWith_none storage clk hfrag]
    exact ⟨h.next, h.unfrozen⟩
  | some frag =>
    obtain ⟨contexts, stats, out, heq, heff⟩ := processWith_effect storage clk hfrag
    rw [heq]
    exact h.scanned heff stats

theorem RingOk.reset (h : RingOk s) : RingOk s.resetStatistics := by
  constructor
  · simp only [Reassembler.resetStatistics, List.length_map]
    exact Nat.lt_of_le_of_lt (Nat.zero_le _) h.next
  · intro k _ e he hv
    obtain ⟨e', -, rfl⟩ := List.mem_map.1 he
    cases hv

theorem ringOk_step (h : RingOk s) (op : ReassemblerOp) : RingOk (s.step clk op).1 := by
  cases op with
  | processPacket packet => exact ringOk_processWith .heap clk packet h
  | processPacketZeroCopy packet => exact ringOk_processWith .pool clk packet h
  | checkTimeouts order =>
    have hread : RingOk { s with reads := s.reads + 1 } := ⟨h.next, h.unfrozen⟩
    exact ringOk_completeAll clk _ hread
  | flushAll order => exact ringOk_completeAll clk _ h
  | setTimeoutMs timeoutMs => exact ⟨h.next, h.unfrozen⟩
  | resetStatistics => exact h.reset

theorem ringOk_run (clk : SystemClock) (cfg : ReassemblerConfig) (ops : List ReassemblerOp) :
    RingOk ((Reassembler.new cfg).run clk ops).1 := by
  refine Machine.run_inv (fun s op _ h => ?_) (ringOk_new cfg)
  exact ringOk_step h op

end

/-! ## Two runs -/

/-- An entry `a` of the ring and the entry `b` in its place of the ring that was reset: frozen since
then in both, and then valid in both, but for scans up to reading `m` that passed only one of them;
or from before, as it stands in `old`, and then not valid in `b`. -/
def Match (old : List FrozenKeyEntry) (m : Nat) (a b : FrozenKeyEntry) : Prop :=
  (a.key = b.key ∧ a.expireMs = b.expireMs ∧ (a.valid ≠ b.valid → a.expireMs.toNat ≤ m)) ∨
  (b.valid = false ∧ (a.valid = true → a ∈ old))

/-- The rings of two states agree when the one of `s` is read from slot `p` on. -/
structure Turned (old : List FrozenKeyEntry) (m p : Nat) (s t : Reassembler) : Prop where
  length : t.frozenKeysRing.length = s.frozenKeysRing.length
  start : p < s.frozenKeysRing.length
  next : s.frozenKeysNextInsert = (p + t.frozenKeysNextInsert) % s.frozenKeysRing.length
  entries : ∀ j < s.frozenKeysRing.length,
    Match old m (s.frozenKeysRing.getD ((p + j) % s.frozenKeysRing.length) {})
      (t.frozenKeysRing.getD j {})

/-- The state `s` of a run, and the state `t` of the run with a reset at which the ring held `old`;
`m` is the last reading that a scan made since. -/
structure Alike (old : List FrozenKeyEntry) (m : Nat) (s t : Reassembler) : Prop where
  config : t.config = s.config
  contexts : t.contexts = s.contexts
  timeout : t.timeoutMsRuntime = s.timeoutMsRuntime
  reads : t.reads = s.reads
  left : RingOk s
  right : RingOk t
  rings : ∃ p, Turned old m p s t

/-- The packet brings no fragment of a key that an entry from before the reset still freezes, and
its reading is not before the expiry of an entry of its key that an earlier reading since the reset
has reached. -/
def Untroubled (clk : SystemClock) (old : List FrozenKeyEntry) (st : Reassembler × Nat)
    (op : ReassemblerOp) : Prop :=
  ∀ sp ∈ op.packet?, ∀ frag ∈ fragmentOf st.1.config sp.2, ∀ e ∈ st.1.frozenKeysRing,
    e.key = frag.key → (clk st.1.reads).toNat < e.expireMs.toNat →
    ¬ (e.valid = true ∧ e ∈ old) ∧ ¬ e.expireMs.toNat ≤ st.2

/-- The latest reading of a scan. -/
def latestScan (clk : SystemClock) (st : Reassembler × Nat) (op : ReassemblerOp) : Nat :=
  match op.packet? with
  | some (_, packet) =>
    if (fragmentOf st.1.config packet).isSome then max st.2 (clk st.1.reads).toNat else st.2
  | none => st.2

/-- A call that also keeps the latest reading of a scan. -/
def scanStep (clk : SystemClock) (st : Reassembler × Nat) (op : ReassemblerOp) :
    (Reassembler × Nat) × List Emission :=
  (((st.1.step clk op).1, latestScan clk st op), (st.1.step clk op).2)

instance (clk : SystemClock) (old : List FrozenKeyEntry) (st : Reassembler × Nat)
    (op : ReassemblerOp) : Decidable (Untroubled clk old st op) :=
  inferInstanceAs (Decidable (∀ sp ∈ op.packet?, ∀ frag ∈ fragmentOf st.1.config sp.2,
    ∀ e ∈ st.1.frozenKeysRing, _ → _ → _ ∧ _))

section
variable {old : List FrozenKeyEntry} {m p : Nat} {a b : FrozenKeyEntry} {clk : SystemClock}
  {s t : Reassembler} {frag : Fragment} {packet : ParsedPacket} {key : ReassemblyKey}
  {ctx : ReassemblyContext} {now : BitVec 64}

/-- What a scan at `now` leaves of an entry. -/
def Scanned (now : BitVec 64) (e e' : FrozenKeyEntry) : Prop :=
  e' = e ∨ e.expireMs ≤ now ∧ e' = { e with valid := false }

theorem scanned_getD (key : ReassemblyKey) (now : BitVec 64) (ring : List FrozenKeyEntry)
    (i : Nat) :
    Scanned now (ring.getD i {}) ((isKeyFrozen key now ring).1.getD i {}) := by
  simp only [List.getD_eq_getElem?_getD]
  rcases isKeyFrozen_entry key now ring i with hsame | ⟨e, he, hle, hinv⟩
  · exact .inl (by rw [hsame])
  · exact .inr (by rw [he, hinv]; exact ⟨hle, rfl⟩)

/-- The scans of both rings at one reading. -/
theorem Match.scanned {a' b' : FrozenKeyEntry} (h : Match old m a b) (ha : Scanned now a a')
    (hb : Scanned now b b') : Match old (max m now.toNat) a' b' := by
  rcases h with ⟨hkey, hexp, hvalid⟩ | ⟨hbv, hav⟩
  · refine .inl ?_
    rcases ha with rfl | ⟨hale, rfl⟩
    · rcases hb with rfl | ⟨hble, rfl⟩
      · exact ⟨hkey, hexp, fun hne => Nat.le_trans (hvalid hne) (Nat.le_max_left _ _)⟩
      · exact ⟨hkey, hexp, fun _ => Nat.le_trans (hexp ▸ hble) (Nat.le_max_right _ _)⟩
    · have hle : a.expireMs.toNat ≤ max m now.toNat := Nat.le_trans hale (Nat.le_max_right _ _)
      rcases hb with rfl | ⟨hble, rfl⟩
      · exact ⟨hkey, hexp, fun _ => hle⟩
      · exact ⟨hkey, hexp, fun _ => hle⟩
  · refine .inr ⟨?_, ?_⟩
    · rcases hb with rfl | ⟨-, rfl⟩
      · exact hbv
      · rfl
    · rcases ha with rfl | ⟨-, rfl⟩
      · exact hav
      · intro hv
        cases hv

theorem mem_getD {ring : List FrozenKeyEntry} {i : Nat} (hi : i < ring.length) :
    ring.getD i {} ∈ ring := by
  rw [List.getD_eq_getElem?_getD, List.getElem?_eq_getElem hi]
  exact List.getElem_mem hi

theorem exists_getD {ring : List FrozenKeyEntry} {e : FrozenKeyEntry} (he : e ∈ ring) :
    ∃ i < ring.length, ring.getD i {} = e := by
  obtain ⟨i, hi, rfl⟩ := List.mem_iff_getElem.1 he
  exact ⟨i, hi, by rw [List.getD_eq_getElem?_getD, List.getElem?_eq_getElem hi]; rfl⟩

theorem resetStatistics_invalid (s : Reassembler) (i : Nat) :
    (s.resetStatistics.frozenKeysRing.getD i {}).valid = false := by
  rw [Reassembler.resetStatistics, List.getD_eq_getElem?_getD, List.getElem?_map]
  cases s.frozenKeysRing[i]? with
  | none => rfl
  | some e => rfl

/-- **The scans answer alike.** -/
theorem Turned.frozen_eq (h : Turned old m p s t)
    (hfree : ∀ e ∈ s.frozenKeysRing, e.key = key → now.toNat < e.expireMs.toNat →
      ¬ (e.valid = true ∧ e ∈ old) ∧ ¬ e.expireMs.toNat ≤ m) :
    (isKeyFrozen key now t.frozenKeysRing).2 = (isKeyFrozen key now s.frozenKeysRing).2 := by
  rw [Bool.eq_iff_iff, isKeyFrozen_iff, isKeyFrozen_iff]
  constructor
  · rintro ⟨b, hb, hv, hlt, rfl⟩
    obtain ⟨j, hj, rfl⟩ := exists_getD hb
    rw [h.length] at hj
    have hmem := mem_getD (Nat.mod_lt (p + j) (Nat.lt_of_le_of_lt (Nat.zero_le _) h.start))
    rcases h.entries j hj with ⟨hkey, hexp, hvalid⟩ | ⟨hinv, -⟩
    · refine ⟨_, hmem, ?_, hexp ▸ hlt, hkey⟩
      by_contra hne
      have hle := hvalid fun heq => hne (heq.trans hv)
      exact (hfree _ hmem hkey (hexp ▸ hlt)).2 hle
    · rw [hv] at hinv
      cases hinv
  · rintro ⟨a, ha, hv, hlt, hkey⟩
    obtain ⟨hold, hlate⟩ := hfree a ha hkey hlt
    obtain ⟨i, hi, rfl⟩ := exists_getD ha
    obtain ⟨j, hj, rfl⟩ := Circular.exists_turn h.start hi
    rcases h.entries j hj with ⟨hkey', hexp, hvalid⟩ | ⟨-, hin⟩
    · refine ⟨_, mem_getD (h.length ▸ hj), ?_, hexp ▸ hlt, hkey'.symm.trans hkey⟩
      by_contra hne
      exact hlate (hvalid fun heq => hne (heq.symm.trans hv))
    · exact absurd ⟨hv, hin hv⟩ hold

theorem Turned.scan (h : Turned old m p s t) (key : ReassemblyKey) (now : BitVec 64)
    {s' t' : Reassembler}
    (hs : s'.frozenKeysRing = (isKeyFrozen key now s.frozenKeysRing).1)
    (ht : t'.frozenKeysRing = (isKeyFrozen key now t.frozenKeysRing).1)
    (hsn : s'.frozenKeysNextInsert = s.frozenKeysNextInsert)
    (htn : t'.frozenKeysNextInsert = t.frozenKeysNextInsert) :
    Turned old (max m now.toNat) p s' t' := by
  have hlen : s'.frozenKeysRing.length = s.frozenKeysRing.length := by
    rw [hs, length_isKeyFrozen]
  refine ⟨?_, ?_, ?_, fun j hj => ?_⟩
  · rw [ht, length_isKeyFrozen, hlen]
    exact h.length
  · rw [hlen]
    exact h.start
  · rw [hlen, hsn, htn]
    exact h.next
  · rw [hlen] at hj ⊢
    rw [hs, ht]
    exact (h.entries j hj).scanned (scanned_getD key now _ _) (scanned_getD key now _ _)

/-- A freeze takes the slots at the two insertion points. -/
theorem Turned.freeze (h : Turned old m p s t)
    (htn : t.frozenKeysNextInsert < t.frozenKeysRing.length)
    (e : FrozenKeyEntry) {s' t' : Reassembler}
    (hs : s'.frozenKeysRing = s.frozenKeysRing.set s.frozenKeysNextInsert e)
    (ht : t'.frozenKeysRing = t.frozenKeysRing.set t.frozenKeysNextInsert e)
    (hsn : s'.frozenKeysNextInsert = (s.frozenKeysNextInsert + 1) % s.frozenKeysRing.length)
    (htn' : t'.frozenKeysNextInsert = (t.frozenKeysNextInsert + 1) % t.frozenKeysRing.length) :
    Turned old m p s' t' := by
  have hlen : s'.frozenKeysRing.length = s.frozenKeysRing.length := by rw [hs, List.length_set]
  have hstart := h.start
  have hlength := h.length
  refine ⟨?_, ?_, ?_, fun j hj => ?_⟩
  · rw [ht, List.length_set, hlen]
    exact hlength
  · rw [hlen]
    exact hstart
  · rw [hlen, hsn, htn', hlength, h.next, Circular.succ_mod, Nat.add_mod_mod, Nat.add_assoc]
  · rw [hlen] at hj ⊢
    rw [hs, ht]
    by_cases hjn : t.frozenKeysNextInsert = j
    · subst hjn
      rw [h.next, Circular.getD_set_self (Nat.mod_lt _ (by omega)), Circular.getD_set_self htn]
      exact .inl ⟨rfl, rfl, fun hne => absurd rfl hne⟩
    · have hne : s.frozenKeysNextInsert ≠ (p + j) % s.frozenKeysRing.length := by
        rw [h.next]
        intro heq
        have := Circular.mod_inj (Nat.le_add_right p _) (by omega) (Nat.le_add_right p _)
          (by omega) heq
        omega
      rw [Circular.getD_set_ne hne, Circular.getD_set_ne hjn]
      exact h.entries j hj

/-- A reset of both. -/
theorem Turned.reset (h : Turned old m p s t) :
    Turned old m 0 s.resetStatistics t.resetStatistics := by
  have hpos : 0 < s.frozenKeysRing.length := Nat.lt_of_le_of_lt (Nat.zero_le _) h.start
  have hlen : s.resetStatistics.frozenKeysRing.length = s.frozenKeysRing.length := List.length_map _
  refine ⟨?_, ?_, ?_, fun j hj => .inr ⟨?_, ?_⟩⟩
  · rw [hlen, ← h.length]
    exact List.length_map _
  · rw [hlen]
    exact hpos
  · rw [hlen]
    exact (Nat.zero_mod _).symm
  · exact resetStatistics_invalid t j
  · intro hv
    rw [resetStatistics_invalid] at hv
    cases hv

/-! ## A step of both -/

/-- A packet. -/
theorem Alike.processWith (h : Alike old m s t) (storage : FragmentStorage)
    (hfrag : fragmentOf s.config packet = some frag)
    (hfree : ∀ e ∈ s.frozenKeysRing, e.key = frag.key → (clk s.reads).toNat < e.expireMs.toNat →
      ¬ (e.valid = true ∧ e ∈ old) ∧ ¬ e.expireMs.toNat ≤ m) :
    Alike old (max m (clk s.reads).toNat) (Reassembler.processWith storage clk s packet).1
        (Reassembler.processWith storage clk t packet).1 ∧
      (Reassembler.processWith storage clk s packet).2 =
        (Reassembler.processWith storage clk t packet).2 := by
  have hleft := ringOk_processWith storage clk packet h.left
  have hright := ringOk_processWith storage clk packet h.right
  obtain ⟨p, hturned⟩ := h.rings
  obtain ⟨stats, hs⟩ := processWith_outcome storage clk hfrag
  obtain ⟨stats', ht⟩ := processWith_outcome storage clk (h.config ▸ hfrag)
  rw [h.config, h.contexts, h.reads, hturned.frozen_eq hfree] at ht
  rw [hs] at hleft ⊢
  rw [ht] at hright ⊢
  refine ⟨⟨h.config, rfl, h.timeout, congrArg (· + 1) h.reads, hleft, hright, p, ?_⟩, rfl⟩
  apply hturned.scan frag.key (clk s.reads)
  · rfl
  · simp only [afterPacket, h.reads]
  · rfl
  · rfl

/-- The timeouts of both. -/
theorem Alike.timeout_eq {e : Emission} {s' : Reassembler} (h : Alike old m s t)
    (hl : s.contexts.lookup key = some ctx)
    (hc : s.completeReassembly clk key ctx true = some (s', e)) :
    ∃ t', t.completeReassembly clk key ctx true = some (t', e) ∧ Alike old m s' t' := by
  cases hc' : t.completeReassembly clk key ctx true with
  | none =>
    have hbig := completeReassembly_none hc'
    rw [Reassembler.completeReassembly, if_pos hbig] at hc
    cases hc
  | some r =>
    obtain ⟨t', e'⟩ := r
    obtain ⟨p, hturned⟩ := h.rings
    obtain ⟨⟨stats, rfl⟩, rfl⟩ := h.left.timeout_eq hl hc
    obtain ⟨⟨stats', rfl⟩, rfl⟩ := h.right.timeout_eq (h.contexts ▸ hl) hc'
    refine ⟨afterTimeout clk t key stats', by rw [h.config, h.reads], ⟨h.config,
      congrArg (AList.erase key) h.contexts, h.timeout, congrArg (· + 1) h.reads,
      h.left.timeout key stats, h.right.timeout key stats', p, ?_⟩⟩
    apply hturned.freeze h.right.next
    · rfl
    · simp only [afterTimeout, h.reads, h.timeout]
    · rfl
    · rfl

theorem alike_completeAll (clk : SystemClock) : ∀ (keys : List ReassemblyKey) (s t : Reassembler),
    Alike old m s t →
    Alike old m (Reassembler.completeAll clk keys s).1 (Reassembler.completeAll clk keys t).1 ∧
      (Reassembler.completeAll clk keys s).2 = (Reassembler.completeAll clk keys t).2 := by
  intro keys
  induction keys with
  | nil => exact fun s t h => ⟨h, rfl⟩
  | cons key keys ih =>
    intro s t h
    unfold Reassembler.completeAll
    rw [h.contexts]
    cases hl : s.contexts.lookup key with
    | none => exact ih s t h
    | some ctx =>
      simp only
      cases hc : s.completeReassembly clk key ctx true with
      | none =>
        have hbig := completeReassembly_none hc
        rw [Reassembler.completeReassembly, if_pos hbig]
        exact ⟨h, rfl⟩
      | some r =>
        obtain ⟨s', e⟩ := r
        obtain ⟨t', hc', h'⟩ := h.timeout_eq hl hc
        obtain ⟨hend, hout⟩ := ih s' t' h'
        rw [hc']
        exact ⟨hend, congrArg (e :: ·) hout⟩

/-- **One call on both.** -/
theorem alike_step {op : ReassemblerOp} (h : Alike old m s t) (hop : Untroubled clk old (s, m) op) :
    Alike old (latestScan clk (s, m) op) (s.step clk op).1 (t.step clk op).1 ∧
      (s.step clk op).2 = (t.step clk op).2 := by
  have hpacket : ∀ storage packet, op.packet? = some (storage, packet) →
      Alike old (latestScan clk (s, m) op) (Reassembler.processWith storage clk s packet).1
        (Reassembler.processWith storage clk t packet).1 ∧
      (Reassembler.processWith storage clk s packet).2 =
        (Reassembler.processWith storage clk t packet).2 := by
    intro storage packet hsome
    cases hfrag : fragmentOf s.config packet with
    | none =>
      have hlatest : latestScan clk (s, m) op = m := by simp [latestScan, hsome, hfrag]
      rw [hlatest, processWith_none storage clk hfrag, processWith_none storage clk (h.config ▸ hfrag)]
      obtain ⟨p, hp⟩ := h.rings
      exact ⟨⟨h.config, h.contexts, h.timeout, h.reads, ⟨h.left.next, h.left.unfrozen⟩,
        ⟨h.right.next, h.right.unfrozen⟩, p, ⟨hp.length, hp.start, hp.next, hp.entries⟩⟩, rfl⟩
    | some frag =>
      have hlatest : latestScan clk (s, m) op = max m (clk s.reads).toNat := by
        simp [latestScan, hsome, hfrag]
      rw [hlatest]
      exact h.processWith storage hfrag (hop _ hsome frag hfrag)
  cases op with
  | processPacket packet => exact hpacket .heap packet rfl
  | processPacketZeroCopy packet => exact hpacket .pool packet rfl
  | checkTimeouts order =>
    obtain ⟨p, hp⟩ := h.rings
    have hkeys : t.timedOut (clk t.reads) = s.timedOut (clk s.reads) := by
      simp only [Reassembler.timedOut, h.contexts, h.timeout, h.reads]
    unfold Reassembler.step Reassembler.checkTimeouts
    rw [hkeys]
    exact alike_completeAll clk _ _ _ ⟨h.config, h.contexts, h.timeout, congrArg (· + 1) h.reads,
      ⟨h.left.next, h.left.unfrozen⟩, ⟨h.right.next, h.right.unfrozen⟩, p,
      ⟨hp.length, hp.start, hp.next, hp.entries⟩⟩
  | flushAll order =>
    unfold Reassembler.step Reassembler.flushAll
    rw [h.contexts]
    exact alike_completeAll clk _ s t h
  | setTimeoutMs timeoutMs =>
    obtain ⟨p, hp⟩ := h.rings
    exact ⟨⟨h.config, h.contexts, rfl, h.reads, ⟨h.left.next, h.left.unfrozen⟩,
      ⟨h.right.next, h.right.unfrozen⟩, p, ⟨hp.length, hp.start, hp.next, hp.entries⟩⟩, rfl⟩
  | resetStatistics =>
    obtain ⟨p, hp⟩ := h.rings
    exact ⟨⟨h.config, h.contexts, h.timeout, h.reads, h.left.reset, h.right.reset, 0, hp.reset⟩, rfl⟩

theorem alike_reset (h : RingOk s) : Alike s.frozenKeysRing 0 s s.resetStatistics := by
  refine ⟨rfl, rfl, rfl, rfl, h, h.reset, s.frozenKeysNextInsert, List.length_map _, h.next, ?_,
    fun j hj => .inr ⟨resetStatistics_invalid s j, fun _ => ?_⟩⟩
  · exact (Nat.mod_eq_of_lt h.next).symm
  · exact mem_getD (Nat.mod_lt _ (Nat.lt_of_le_of_lt (Nat.zero_le _) h.next))

/-- **Two runs.** -/
theorem alike_run {after : List ReassemblerOp} (h : Alike old m s t)
    (hrun : Machine.RunAlong (scanStep clk) (Untroubled clk old) (s, m) after) :
    (t.run clk after).2 = (s.run clk after).2 := by
  have hself : ∀ (st : Reassembler × Nat) (s : Reassembler) (op : ReassemblerOp), st.1 = s →
      Untroubled clk old st op →
      (scanStep clk st op).1.1 = (s.step clk op).1 ∧ (scanStep clk st op).2 =
        (s.step clk op).2 := by
    rintro st s op rfl -
    exact ⟨rfl, rfl⟩
  have hboth : ∀ (st : Reassembler × Nat) (t : Reassembler) (op : ReassemblerOp),
      Alike old st.2 st.1 t → Untroubled clk old st op →
      Alike old (scanStep clk st op).1.2 (scanStep clk st op).1.1 (t.step clk op).1 ∧
        (scanStep clk st op).2 = (t.step clk op).2 :=
    fun st t op hR hC => alike_step hR hC
  have hs := (Machine.run_sim (R := fun st s => st.1 = s) hself (s := (s, m)) rfl hrun).2
  have ht := (Machine.run_sim (R := fun st t => Alike old st.2 st.1 t) hboth h hrun).2
  rw [List.map_id'] at hs ht
  exact ht.symm.trans hs

end

/-! ## The counters of contexts -/

/-- The counters, when `n` contexts were live as they were last at zero. -/
def ContextsBalanced (n : Nat) (s : Reassembler) : Prop :=
  s.stats.contextsCreated + n = s.stats.contextsDestroyed + KeyMap.size s.contexts

section
variable {n : Nat} {clk : SystemClock} {s s' : Reassembler} {frag : Fragment}
  {storage : FragmentStorage} {packet : ParsedPacket} {key : ReassemblyKey}
  {ctx : ReassemblyContext} {now : BitVec 64} {op : ReassemblerOp}

theorem addFrozenKey_contexts (s : Reassembler) (key : ReassemblyKey) (expire : BitVec 64) :
    (s.addFrozenKey key expire).contexts = s.contexts := by
  unfold Reassembler.addFrozenKey
  split <;> rfl

theorem ContextsBalanced.putContext (h : ContextsBalanced n s) (hkey : key ∈ s.contexts)
    (ctx : ReassemblyContext) : ContextsBalanced n (s.putContext key ctx) := by
  obtain ⟨old, hold⟩ := Option.isSome_iff_exists.1 (AList.lookup_isSome.2 hkey)
  unfold ContextsBalanced Reassembler.putContext
  rw [KeyMap.size_insert_of_some hold ctx]
  exact h

/-- A completion. -/
theorem ContextsBalanced.complete {isTimeout : Bool} {e : Emission} (h : ContextsBalanced n s)
    (hkey : key ∈ s.contexts)
    (hc : s.completeReassembly clk key ctx isTimeout = some (s', e)) : ContextsBalanced n s' := by
  obtain ⟨old, hold⟩ := Option.isSome_iff_exists.1 (AList.lookup_isSome.2 hkey)
  have hsize := KeyMap.size_erase hold
  obtain ⟨-, hcreated, hdestroyed⟩ :=
    frames_countFrame s (Reassembler.assembleFrame s.config key ctx) isTimeout
  have hcounted : (s.countFrame (Reassembler.assembleFrame s.config key ctx) isTimeout).contexts =
      s.contexts := rfl
  unfold Reassembler.completeReassembly at hc
  split at hc
  · cases hc
  unfold ContextsBalanced at h ⊢
  simp only at hc
  split at hc
  case isTrue =>
    obtain ⟨rfl, -⟩ := Prod.mk.inj (Option.some.inj hc)
    rw [destroyContext_of_mem]
    · simp only [addFrozenKey_stats, addFrozenKey_contexts, hcounted]
      omega
    · rw [addFrozenKey_contexts]
      exact hkey
  case isFalse =>
    obtain ⟨rfl, -⟩ := Prod.mk.inj (Option.some.inj hc)
    rw [destroyContext_of_mem]
    · simp only [hcounted]
      omega
    · exact hkey

theorem storeFragment_balanced (h : ContextsBalanced n s) (hkey : frag.key ∈ s.contexts) :
    ContextsBalanced n (s.storeFragment clk frag storage ctx).1 := by
  have hput := h.putContext hkey ctx
  unfold Reassembler.storeFragment
  cases hadd : addFragment s.config ctx frag storage with
  | rejected => exact hput
  | duplicate => exact hput
  | bytesOverflow => exact hput
  | added ctx' =>
    have hmem : frag.key ∈ (s.putContext frag.key ctx).contexts := (AList.mem_insert _).2 (.inl rfl)
    have hput' := hput.putContext hmem ctx'
    simp only
    cases hdone : ctx'.checkComplete with
    | false => exact hput'
    | true =>
      simp only [if_true]
      cases hc : ((s.putContext frag.key ctx).putContext frag.key ctx').completeReassembly
          clk frag.key ctx' false with
      | none => exact hput'
      | some r => exact hput'.complete ((AList.mem_insert _).2 (.inl rfl)) hc

theorem acceptFragment_balanced (h : ContextsBalanced n s) :
    ContextsBalanced n (s.acceptFragment clk frag storage now).1 := by
  cases hscan : (isKeyFrozen frag.key now s.frozenKeysRing).2 with
  | true =>
    rw [acceptFragment_frozen hscan]
    exact h
  | false =>
    cases hl : s.contexts.lookup frag.key with
    | some ctx =>
      rw [acceptFragment_live hscan hl]
      exact storeFragment_balanced h (KeyMap.mem_of_lookup hl)
    | none =>
      by_cases hfull : s.config.maxContexts ≤ KeyMap.size s.contexts
      · rw [acceptFragment_full hscan hl hfull]
        exact h
      · rw [acceptFragment_fresh hscan hl (Nat.lt_of_not_le hfull)]
        refine storeFragment_balanced ?_ ((AList.mem_insert _).2 (.inl rfl))
        have hsize := KeyMap.size_insert_of_none hl (newContext frag now)
        unfold ContextsBalanced at h ⊢
        simp only
        omega

theorem processWith_balanced (h : ContextsBalanced n s) (storage : FragmentStorage)
    (packet : ParsedPacket) : ContextsBalanced n (Reassembler.processWith storage clk s packet).1 := by
  unfold Reassembler.processWith
  cases fragmentOf s.config packet with
  | none => exact h
  | some frag => exact acceptFragment_balanced h

theorem completeAll_balanced (keys : List ReassemblyKey) (h : ContextsBalanced n s) :
    ContextsBalanced n (Reassembler.completeAll clk keys s).1 :=
  completeAll_keeps (fun _ _ _ _ _ h hl hc => h.complete (KeyMap.mem_of_lookup hl) hc) keys h

/-- **A call** other than a reset keeps the balance. -/
theorem step_balanced (h : ContextsBalanced n s) (hop : op ≠ .resetStatistics) :
    ContextsBalanced n (s.step clk op).1 := by
  cases op with
  | processPacket packet => exact processWith_balanced h .heap packet
  | processPacketZeroCopy packet => exact processWith_balanced h .pool packet
  | checkTimeouts order =>
    have hread : ContextsBalanced n { s with reads := s.reads + 1 } := h
    exact completeAll_balanced _ hread
  | flushAll order => exact completeAll_balanced _ h
  | setTimeoutMs timeoutMs => exact h
  | resetStatistics => exact absurd rfl hop

theorem reset_balanced (s : Reassembler) :
    ContextsBalanced (KeyMap.size s.contexts) s.resetStatistics := rfl

end

/-- The run with a reset between `before` and `after`. -/
def Reassembler.runReset (clk : SystemClock) (s : Reassembler) (before after : List ReassemblerOp) :
    Reassembler × List Emission :=
  s.run clk (before ++ .resetStatistics :: after)

/-- The difference of the counters, the number of active contexts that the main loop reports, does
not underflow. -/
def Reassembler.CountersInOrder (s : Reassembler) : Prop :=
  s.stats.contextsDestroyed ≤ s.stats.contextsCreated

instance (s : Reassembler) : Decidable s.CountersInOrder := Nat.decLe _ _

/-- **What a reset leaves alone.** The frames of a run are the same with a reset put into it, if no
later packet meets a key that was frozen before, nor a reading behind an expiry that an earlier one
has reached. From a reset on until the next one the counters of contexts are in order exactly while
as many contexts are live as at the reset. -/
theorem reset_statistics_harmless (clk : SystemClock) (cfg : ReassemblerConfig)
    (before after : List ReassemblerOp) :
    let s := ((Reassembler.new cfg).run clk before).1
    let reset := (Reassembler.new cfg).runReset clk before after
    (Machine.RunAlong (scanStep clk) (Untroubled clk s.frozenKeysRing) (s, 0) after →
      reset.2 = ((Reassembler.new cfg).run clk (before ++ after)).2) ∧
    ((∀ op ∈ after, op ≠ .resetStatistics) →
      (reset.1.CountersInOrder ↔ KeyMap.size s.contexts ≤ KeyMap.size reset.1.contexts)) := by
  intro s reset
  have hplain : (Reassembler.new cfg).run clk (before ++ after) =
      ((s.run clk after).1, ((Reassembler.new cfg).run clk before).2 ++ (s.run clk after).2) :=
    Machine.run_append _ _ _ _
  have hreset : reset = ((s.resetStatistics.run clk after).1,
      ((Reassembler.new cfg).run clk before).2 ++ (s.resetStatistics.run clk after).2) :=
    Machine.run_append _ _ _ _
  constructor
  · intro hrun
    have hsame := alike_run (alike_reset (ringOk_run clk cfg before)) hrun
    rw [hplain, hreset]
    exact congrArg (((Reassembler.new cfg).run clk before).2 ++ ·) hsame
  · intro hops
    have hbalance : ContextsBalanced (KeyMap.size s.contexts) reset.1 := by
      rw [hreset]
      exact Machine.run_inv (fun s op hop h => step_balanced h (hops op hop)) (reset_balanced s)
    unfold ContextsBalanced at hbalance
    unfold Reassembler.CountersInOrder
    omega

/-- The same fragment of another epoch. -/
def otherOfTwo : ParsedPacket :=
  { firstOfTwo with header := { firstOfTwo.header with controlEpoch := 7 } }

/-- A key is frozen before the reset, and only another one is met after it. -/
theorem otherOfTwo_harmless :
    ((Reassembler.new { maxContexts := 2 }).runReset stepClock
        [.processPacket firstOfTwo, .checkTimeouts .same]
        [.processPacket otherOfTwo, .flushAll .same]).2 =
      ((Reassembler.new { maxContexts := 2 }).run stepClock
        [.processPacket firstOfTwo, .checkTimeouts .same, .processPacket otherOfTwo,
          .flushAll .same]).2 ∧
    ((Reassembler.new { maxContexts := 2 }).runReset stepClock
      [.processPacket firstOfTwo, .checkTimeouts .same]
      [.processPacket otherOfTwo, .flushAll .same]).1.CountersInOrder := by
  obtain ⟨hframes, hcounters⟩ := reset_statistics_harmless stepClock { maxContexts := 2 }
    [.processPacket firstOfTwo, .checkTimeouts .same] [.processPacket otherOfTwo, .flushAll .same]
  refine ⟨hframes (by decide +kernel), (hcounters ?_).2 (by decide +kernel)⟩
  intro op hop
  simp only [List.mem_cons, List.not_mem_nil, or_false] at hop
  rcases hop with rfl | rfl <;> nofun

/-- A key is frozen and another one live at the reset: a late repeat is then taken for a new frame,
and two contexts are destroyed while one was created. -/
theorem lateRepeat_after_reset :
    ((Reassembler.new { maxContexts := 2 }).runReset stepClock
        [.processPacket firstOfTwo, .checkTimeouts .same, .processPacket otherOfTwo]
        [.processPacket firstOfTwo, .flushAll .same]).2 ≠
      ((Reassembler.new { maxContexts := 2 }).run stepClock
        [.processPacket firstOfTwo, .checkTimeouts .same, .processPacket otherOfTwo,
          .processPacket firstOfTwo, .flushAll .same]).2 ∧
    ¬ ((Reassembler.new { maxContexts := 2 }).runReset stepClock
      [.processPacket firstOfTwo, .checkTimeouts .same, .processPacket otherOfTwo]
      [.processPacket firstOfTwo, .flushAll .same]).1.CountersInOrder := by
  decide +kernel

end Qdgz300.Pipeline
