import Qdgz300.Pipeline.Proof.ReassemblerSpec

/-!
# Frozen keys over whole runs

A key frozen at reading `t` has an entry in the ring until it expires. Nothing in the code checks
that the entry is not overwritten before; the reason is a count. A key that is frozen before `t`'s
expiry belongs to a context begun before `t`, and no context is begun before `t` any more: the
entry is at least as far ahead of the insertion point as there are such contexts (`Guarded`).

* `RingOk`: the part that needs no clock. `RingOk.scanned`, `RingOk.timeout` keep it.
* **`frozen_key_remembered`**: packets of a frozen key are dropped until its freeze expires.
-/

namespace Qdgz300.Pipeline

open Protocol

/-- A clock that does not go back, with readings below `2^63`. -/
structure Steady (clk : SystemClock) : Prop where
  mono : ∀ i j, i ≤ j → (clk i).toNat ≤ (clk j).toNat
  bound : ∀ i, (clk i).toNat < 2 ^ 63

theorem Steady.next {clk : SystemClock} (h : Steady clk) (n : Nat) :
    (clk n).toNat ≤ (clk (n + 1)).toNat :=
  h.mono _ _ (Nat.le_succ n)

/-- The insertion point is in the ring, and no live key has a valid entry. -/
structure RingOk (s : Reassembler) : Prop where
  next : s.frozenKeysNextInsert < s.frozenKeysRing.length
  unfrozen : ∀ key ∈ s.contexts, ∀ e ∈ s.frozenKeysRing, e.valid = true → e.key ≠ key

/-- What holds of every state: the ring and the contexts within their limits, no context from the
future, and no live key frozen. -/
structure Base (clk : SystemClock) (cfg : ReassemblerConfig) (s : Reassembler) : Prop where
  config : s.config = cfg
  timeout : s.timeoutMsRuntime = cfg.timeoutMs
  ring : s.frozenKeysRing.length = max 1 (cfg.maxContexts * 2)
  next : s.frozenKeysNextInsert < s.frozenKeysRing.length
  size : KeyMap.size s.contexts ≤ cfg.maxContexts
  begun : ∀ key ctx, s.contexts.lookup key = some ctx →
    ctx.firstFragTimeMs.toNat ≤ (clk s.reads).toNat
  unfrozen : ∀ key ∈ s.contexts, ∀ e ∈ s.frozenKeysRing, e.valid = true → e.key ≠ key

/-- The context was begun before `t`. -/
def begunBefore (t : Nat) (ctx : ReassemblyContext) : Bool := decide (ctx.firstFragTimeMs.toNat < t)

/-- The freeze of `key` at `t` is remembered: until it expires the ring holds an entry for it,
and that entry is at least as far ahead of the insertion point as there are contexts begun
before `t`. -/
structure Guarded (clk : SystemClock) (cfg : ReassemblerConfig) (key : ReassemblyKey) (t : Nat)
    (s : Reassembler) : Prop where
  past : t ≤ (clk s.reads).toNat
  entry : (clk s.reads).toNat < t + cfg.timeoutMs.toNat → ∃ j e, s.frozenKeysRing[j]? = some e ∧
    e.valid = true ∧ e.key = key ∧ t + cfg.timeoutMs.toNat ≤ e.expireMs.toNat ∧
    KeyMap.count (begunBefore t) s.contexts ≤
      Circular.ahead s.frozenKeysRing.length s.frozenKeysNextInsert j

theorem ringOk_new (cfg : ReassemblerConfig) : RingOk (Reassembler.new cfg) := by
  constructor
  · simp only [Reassembler.new, List.length_replicate]
    omega
  · intro key hkey
    cases hkey

theorem base_new (clk : SystemClock) (cfg : ReassemblerConfig) :
    Base clk cfg (Reassembler.new cfg) := by
  refine ⟨rfl, rfl, by simp [Reassembler.new], (ringOk_new cfg).next, Nat.zero_le _, ?_,
    (ringOk_new cfg).unfrozen⟩
  intro key ctx h
  cases h

theorem Base.ringOk {clk : SystemClock} {cfg : ReassemblerConfig} {s : Reassembler}
    (h : Base clk cfg s) : RingOk s :=
  ⟨h.next, h.unfrozen⟩

section
variable {clk : SystemClock} {cfg : ReassemblerConfig} {s s' : Reassembler} {frag : Fragment}
  {key : ReassemblyKey} {ctx : ReassemblyContext} {t : Nat}

/-! ## Packets -/

/-- The state after a packet with the effect `contexts`. -/
def afterPacket (clk : SystemClock) (s : Reassembler) (frag : Fragment) (contexts : ContextMap)
    (stats : ReassemblerStatistics) : Reassembler :=
  { s with
    contexts := contexts
    frozenKeysRing := (isKeyFrozen frag.key (clk s.reads) s.frozenKeysRing).1
    stats := stats
    reads := s.reads + 1 }

section
variable {m contexts : ContextMap} {maxContexts : Nat} {frozen : Bool} {now : BitVec 64}
  {out : List Emission}

theorem PacketEffect.size_le (heff : PacketEffect maxContexts m frozen frag now contexts out)
    (h : KeyMap.size m ≤ maxContexts) : KeyMap.size contexts ≤ maxContexts := by
  cases heff with
  | late hf => exact h
  | full hf hl hfull => exact h
  | kept hf hctx htime =>
    cases hctx with
    | live hl =>
      rw [KeyMap.size_insert_of_some hl]
      exact h
    | fresh hl hfree =>
      rw [KeyMap.size_insert_of_none hl]
      exact hfree
  | completed hf hctx hkey => exact Nat.le_trans (KeyMap.size_erase_le _ _) h

/-- No context is from the future. -/
theorem PacketEffect.begun (heff : PacketEffect maxContexts m frozen frag now contexts out)
    (h : ∀ key ctx, m.lookup key = some ctx → ctx.firstFragTimeMs.toNat ≤ now.toNat) :
    ∀ key ctx, contexts.lookup key = some ctx → ctx.firstFragTimeMs.toNat ≤ now.toNat := by
  intro k c hk
  cases heff with
  | late hf => exact h k c hk
  | full hf hl hfull => exact h k c hk
  | kept hf hctx htime =>
    rcases KeyMap.lookup_insert_cases hk with ⟨-, rfl⟩ | ⟨-, hk⟩
    · rw [htime]
      cases hctx with
      | live hl => exact h _ _ hl
      | fresh hl hfree => exact Nat.le_refl _
    · exact h k c hk
  | completed hf hctx hkey => exact h k c (KeyMap.lookup_erase_some hk).2

end

theorem RingOk.scanned {contexts : ContextMap} {out : List Emission} (h : RingOk s)
    (heff : PacketEffect s.config.maxContexts s.contexts
      (isKeyFrozen frag.key (clk s.reads) s.frozenKeysRing).2 frag (clk s.reads) contexts out)
    (stats : ReassemblerStatistics) : RingOk (afterPacket clk s frag contexts stats) := by
  refine ⟨by rw [afterPacket, length_isKeyFrozen]; exact h.next, fun k hk e he hv => ?_⟩
  have hold : k ∈ s.contexts → e.key ≠ k := fun hk => h.unfrozen k hk e (isKeyFrozen_valid he hv) hv
  cases heff with
  | late hf => exact hold hk
  | full hf hl hfull => exact hold hk
  | kept hf hctx htime =>
    rcases (AList.mem_insert _).1 hk with rfl | hk
    · exact isKeyFrozen_clears _ hf e he hv
    · exact hold hk
  | completed hf hctx hkey => exact hold (AList.mem_erase.1 hk).2

theorem packet_base {contexts : ContextMap} {out : List Emission} (hclk : Steady clk)
    (h : Base clk cfg s)
    (heff : PacketEffect s.config.maxContexts s.contexts
      (isKeyFrozen frag.key (clk s.reads) s.frozenKeysRing).2 frag (clk s.reads) contexts out)
    (stats : ReassemblerStatistics) : Base clk cfg (afterPacket clk s frag contexts stats) := by
  have hring := h.ringOk.scanned heff stats
  refine ⟨h.config, h.timeout, ?_, hring.next, ?_, fun k ctx hk => ?_, hring.unfrozen⟩
  · rw [afterPacket, length_isKeyFrozen]
    exact h.ring
  · rw [← h.config]
    exact heff.size_le (h.config.symm ▸ h.size)
  · exact Nat.le_trans (heff.begun h.begun k ctx hk) (hclk.next s.reads)

theorem packet_guarded {contexts : ContextMap} {out : List Emission} (hclk : Steady clk)
    (h : Guarded clk cfg key t s)
    (heff : PacketEffect s.config.maxContexts s.contexts
      (isKeyFrozen frag.key (clk s.reads) s.frozenKeysRing).2 frag (clk s.reads) contexts out)
    (stats : ReassemblerStatistics) :
    Guarded clk cfg key t (afterPacket clk s frag contexts stats) := by
  have hlater := hclk.next s.reads
  refine ⟨Nat.le_trans h.past hlater, fun hbefore => ?_⟩
  have hnow : (clk s.reads).toNat < t + cfg.timeoutMs.toNat := Nat.lt_of_le_of_lt hlater hbefore
  obtain ⟨j, e, hj, hv, hk, hexp, hcount⟩ := h.entry hnow
  -- the scan keeps an entry that has not expired
  have hkeep : (isKeyFrozen frag.key (clk s.reads) s.frozenKeysRing).1[j]? = some e := by
    rcases isKeyFrozen_entry frag.key (clk s.reads) s.frozenKeysRing j with
      hsame | ⟨e', he', hle, -⟩
    · rw [hsame, hj]
    · rw [hj] at he'
      cases he'
      rw [BitVec.le_def] at hle
      omega
  refine ⟨j, e, hkeep, hv, hk, hexp, ?_⟩
  simp only [afterPacket, length_isKeyFrozen]
  -- no context is begun before `t` any more
  refine Nat.le_trans ?_ hcount
  cases heff with
  | late hf => exact Nat.le_refl _
  | full hf hl hfull => exact Nat.le_refl _
  | kept hf hctx htime =>
    cases hctx with
    | live hl =>
      refine Nat.le_of_eq (KeyMap.count_insert_of_same _ hl ?_)
      rw [begunBefore, begunBefore, htime]
    | fresh hl hfree =>
      refine Nat.le_of_eq (KeyMap.count_insert_of_none _ hl ?_)
      rw [begunBefore, htime, decide_eq_false_iff_not]
      exact Nat.not_lt.2 h.past
  | completed hf hctx hkey => exact KeyMap.count_erase_le _ _ _

/-! ## Timeouts -/

/-- The context of `key` is due at the next reading. -/
def Due (clk : SystemClock) (s : Reassembler) (key : ReassemblyKey) : Prop :=
  ∀ ctx, s.contexts.lookup key = some ctx →
    ctx.firstFragTimeMs.toNat + s.timeoutMsRuntime.toNat ≤ (clk s.reads).toNat

/-- The state after the timeout of `key`. -/
def afterTimeout (clk : SystemClock) (s : Reassembler) (key : ReassemblyKey)
    (stats : ReassemblerStatistics) : Reassembler :=
  { s with
    frozenKeysRing := s.frozenKeysRing.set s.frozenKeysNextInsert
      { key := key, expireMs := clk s.reads + s.timeoutMsRuntime.setWidth 64, valid := true }
    frozenKeysNextInsert := (s.frozenKeysNextInsert + 1) % s.frozenKeysRing.length
    contexts := s.contexts.erase key
    reads := s.reads + 1
    stats := stats }

theorem RingOk.timeout_eq {e : Emission} (h : RingOk s) (hl : s.contexts.lookup key = some ctx)
    (hc : s.completeReassembly clk key ctx true = some (s', e)) :
    (∃ stats, s' = afterTimeout clk s key stats) ∧
      e = ⟨Reassembler.assembleFrame s.config key ctx, some (clk s.reads)⟩ := by
  obtain ⟨⟨stats, hs'⟩, he⟩ := completeReassembly_timeout hc
  rw [addFrozenKey_fresh (h.unfrozen key (KeyMap.mem_of_lookup hl))] at hs'
  exact ⟨⟨stats, hs'⟩, he⟩

theorem RingOk.timeout (h : RingOk s) (key : ReassemblyKey) (stats : ReassemblerStatistics) :
    RingOk (afterTimeout clk s key stats) := by
  have hpos : 0 < s.frozenKeysRing.length := Nat.lt_of_le_of_lt (Nat.zero_le _) h.next
  refine ⟨?_, fun k hk e he hv => ?_⟩
  · simp only [afterTimeout, List.length_set]
    exact Nat.mod_lt _ hpos
  · obtain ⟨hne, hk⟩ := AList.mem_erase.1 hk
    rcases List.mem_or_eq_of_mem_set he with he | rfl
    · exact h.unfrozen k hk e he hv
    · exact Ne.symm hne

theorem timeout_base (hclk : Steady clk) (h : Base clk cfg s) (key : ReassemblyKey)
    (stats : ReassemblerStatistics) : Base clk cfg (afterTimeout clk s key stats) := by
  have hring : RingOk (afterTimeout clk s key stats) := h.ringOk.timeout key stats
  refine ⟨h.config, h.timeout, by simpa [afterTimeout] using h.ring, hring.next,
    Nat.le_trans (KeyMap.size_erase_le _ _) h.size, fun k c hk => ?_, hring.unfrozen⟩
  exact Nat.le_trans (h.begun k c (KeyMap.lookup_erase_some hk).2) (hclk.next s.reads)

/-- The timeout of another context begun before `t` is one step of the insertion point towards the
entry, and one such context less. -/
theorem timeout_guarded {key' : ReassemblyKey} {ctx : ReassemblyContext} (hclk : Steady clk)
    (hb : Base clk cfg s) (h : Guarded clk cfg key t s)
    (hl : s.contexts.lookup key' = some ctx) (hdue : Due clk s key')
    (stats : ReassemblerStatistics) :
    Guarded clk cfg key t (afterTimeout clk s key' stats) := by
  have hlater := hclk.next s.reads
  refine ⟨Nat.le_trans h.past hlater, fun hbefore => ?_⟩
  have hnow : (clk s.reads).toNat < t + cfg.timeoutMs.toNat := Nat.lt_of_le_of_lt hlater hbefore
  obtain ⟨j, e, hj, hv, hk, hexp, hcount⟩ := h.entry hnow
  have hlt := (List.getElem?_eq_some_iff.1 hj).1
  have hbegun : begunBefore t ctx = true := by
    have := hdue ctx hl
    rw [hb.timeout] at this
    rw [begunBefore, decide_eq_true_eq]
    omega
  have hsplit := KeyMap.count_split (begunBefore t) hl
  rw [hbegun] at hsplit
  simp only [Bool.toNat_true] at hsplit
  have hne : j ≠ s.frozenKeysNextInsert := by
    intro he
    rw [he, Circular.ahead_self] at hcount
    omega
  have hstep := Circular.ahead_succ hb.next hlt hne
  refine ⟨j, e, ?_, hv, hk, hexp, ?_⟩
  · simp only [afterTimeout]
    rw [List.getElem?_set_ne (Ne.symm hne), hj]
  · simp only [afterTimeout, List.length_set]
    omega

/-- The timeout of a context guards its own key. -/
theorem timeout_guards {ctx : ReassemblyContext} (hclk : Steady clk) (hb : Base clk cfg s)
    (hl : s.contexts.lookup key = some ctx) (stats : ReassemblerStatistics) :
    Guarded clk cfg key (clk s.reads).toNat (afterTimeout clk s key stats) := by
  have hbound := hclk.bound s.reads
  have hT := cfg.timeoutMs.isLt
  have hsize := KeyMap.size_erase hl
  have hmax := hb.size
  have hring := hb.ring
  refine ⟨hclk.next _, fun _ => ⟨s.frozenKeysNextInsert,
    { key := key, expireMs := clk s.reads + s.timeoutMsRuntime.setWidth 64, valid := true },
    List.getElem?_set_self hb.next, rfl, rfl, ?_, ?_⟩⟩
  · simp only [hb.timeout, BitVec.toNat_add, BitVec.toNat_setWidth]
    omega
  · simp only [afterTimeout, List.length_set]
    rw [Circular.ahead_round hb.next]
    have := KeyMap.count_le_size (begunBefore (clk s.reads).toNat) (s.contexts.erase key)
    omega

/-! ## The completion loop -/

/-- A frame emitted: its key, the reading of its emission, and whether its key was frozen then. -/
structure Stamp where
  key : ReassemblyKey
  time : Nat
  frozen : Bool
  deriving DecidableEq

/-- A frame that does not freeze its key is dated by the reading `now` of its packet. -/
def Emission.stamp (now : BitVec 64) (e : Emission) : Stamp :=
  ⟨e.frame.key, (e.frozenAt.getD now).toNat, e.frozenAt.isSome⟩

theorem due_mono (hclk : Steady clk) {key' : ReassemblyKey} (h : Due clk s key')
    (stats : ReassemblerStatistics) : Due clk (afterTimeout clk s key stats) key' := by
  intro ctx hl
  have hlater := hclk.next s.reads
  exact Nat.le_trans (h ctx (KeyMap.lookup_erase_some hl).2) hlater

/-- **The rule of the completion loop**: what the timeout of each due context keeps, the loop
keeps. -/
theorem completeAll_inv {J : Reassembler → List Stamp → Prop} (hclk : Steady clk)
    (hbase : ∀ s hist, J s hist → Base clk cfg s)
    (hstep : ∀ s hist key ctx stats, J s hist → s.contexts.lookup key = some ctx → Due clk s key →
      J (afterTimeout clk s key stats) (hist ++ [⟨key, (clk s.reads).toNat, true⟩]))
    (now : BitVec 64) :
    ∀ (keys : List ReassemblyKey) (s : Reassembler) (hist : List Stamp), J s hist →
      (∀ key ∈ keys, Due clk s key) →
      J (Reassembler.completeAll clk keys s).1
        (hist ++ (Reassembler.completeAll clk keys s).2.map (·.stamp now)) := by
  intro keys
  induction keys with
  | nil => intro s hist h _; simpa [Reassembler.completeAll] using h
  | cons key keys ih =>
    intro s hist h hdue
    have htail : ∀ k ∈ keys, Due clk s k := fun k hk => hdue k (List.mem_cons_of_mem _ hk)
    unfold Reassembler.completeAll
    cases hl : s.contexts.lookup key with
    | none => exact ih s hist h htail
    | some ctx =>
      simp only
      cases hc : s.completeReassembly clk key ctx true with
      | none => simpa using h
      | some r =>
        obtain ⟨s', e⟩ := r
        obtain ⟨⟨stats, rfl⟩, rfl⟩ := (hbase s hist h).ringOk.timeout_eq hl hc
        have h' := hstep s hist key ctx stats h hl (hdue key List.mem_cons_self)
        have := ih _ _ h' fun k hk => due_mono hclk (htail k hk) stats
        rw [List.append_assoc] at this
        exact this

/-- The keys that time out are due. -/
theorem due_of_timedOut (hb : Base clk cfg s) (hclk : Steady clk) {key : ReassemblyKey}
    (h : key ∈ s.timedOut (clk s.reads)) : Due clk { s with reads := s.reads + 1 } key := by
  intro ctx hl
  have hlater := hclk.next s.reads
  have hany := (List.mem_filter.1 h).2
  rw [show s.contexts.lookup key = some ctx from hl, Option.any_some,
    ReassemblyContext.checkTimeout, decide_eq_true_eq] at hany
  have hbegun := hb.begun key ctx hl
  rw [BitVec.toNat_sub] at hany
  have hbound := hclk.bound s.reads
  have hsub : (2 ^ 64 - ctx.firstFragTimeMs.toNat + (clk s.reads).toNat) % 2 ^ 64 =
      (clk s.reads).toNat - ctx.firstFragTimeMs.toNat := by omega
  rw [hsub] at hany
  simp only
  omega

theorem base_read (hclk : Steady clk) (h : Base clk cfg s) :
    Base clk cfg { s with reads := s.reads + 1 } :=
  ⟨h.config, h.timeout, h.ring, h.next, h.size,
    fun k ctx hk => Nat.le_trans (h.begun k ctx hk) (hclk.next _), h.unfrozen⟩

theorem guarded_read (hclk : Steady clk) (h : Guarded clk cfg key t s) :
    Guarded clk cfg key t { s with reads := s.reads + 1 } :=
  ⟨Nat.le_trans h.past (hclk.next _),
    fun hbefore => h.entry (Nat.lt_of_le_of_lt (hclk.next _) hbefore)⟩

/-! ## Runs -/

/-- The calls of the frozen-key contract: packets and timeout checks. -/
def ReassemblerOp.Regular : ReassemblerOp → Prop
  | .processPacket _ => True
  | .processPacketZeroCopy _ => True
  | .checkTimeouts _ => True
  | _ => False

/-- The packet of a call, and how it is stored. -/
def ReassemblerOp.packet? : ReassemblerOp → Option (FragmentStorage × ParsedPacket)
  | .processPacket packet => some (.heap, packet)
  | .processPacketZeroCopy packet => some (.pool, packet)
  | _ => none

theorem step_packet {op : ReassemblerOp} {storage : FragmentStorage} {packet : ParsedPacket}
    (h : op.packet? = some (storage, packet)) :
    s.step clk op = Reassembler.processWith storage clk s packet := by
  cases op <;> cases h <;> rfl

/-- **The rule of a step**: what a dropped packet, a packet with an effect and the timeout of a due
context keep, every call keeps. -/
theorem step_rule {J : Reassembler → List Stamp → Prop} {op : ReassemblerOp} (hclk : Steady clk)
    (hop : op.Regular) (hbase : ∀ s hist, J s hist → Base clk cfg s)
    (hread : ∀ s hist, J s hist → J { s with reads := s.reads + 1 } hist)
    (htimeout : ∀ s hist key ctx stats, J s hist → s.contexts.lookup key = some ctx →
      Due clk s key → J (afterTimeout clk s key stats) (hist ++ [⟨key, (clk s.reads).toNat, true⟩]))
    {hist : List Stamp}
    (hdrop : ∀ storage packet, op.packet? = some (storage, packet) →
      fragmentOf cfg packet = none → J s.countReceived hist)
    (hpacket : ∀ storage packet frag contexts stats out, op.packet? = some (storage, packet) →
      fragmentOf cfg packet = some frag →
      PacketEffect s.config.maxContexts s.contexts
        (isKeyFrozen frag.key (clk s.reads) s.frozenKeysRing).2 frag (clk s.reads) contexts out →
      J (afterPacket clk s frag contexts stats) (hist ++ out.map (·.stamp (clk s.reads))))
    (h : J s hist) :
    J (s.step clk op).1 (hist ++ (s.step clk op).2.map (·.stamp (clk s.reads))) := by
  have hcfg := (hbase s hist h).config
  cases hpk : op.packet? with
  | some sp =>
    obtain ⟨storage, packet⟩ := sp
    rw [step_packet hpk]
    cases hfrag : fragmentOf s.config packet with
    | none =>
      rw [processWith_none storage clk hfrag]
      simpa using hdrop storage packet hpk (hcfg ▸ hfrag)
    | some frag =>
      obtain ⟨contexts, stats, out, heq, heff⟩ := processWith_effect storage clk hfrag
      rw [heq]
      exact hpacket storage packet frag contexts stats out hpk (hcfg ▸ hfrag) heff
  | none =>
    cases op with
    | processPacket packet => cases hpk
    | processPacketZeroCopy packet => cases hpk
    | checkTimeouts order =>
      refine completeAll_inv hclk hbase htimeout _ _ _ hist (hread s hist h) fun key hkey => ?_
      exact due_of_timedOut (hbase s hist h) hclk ((order.perm _).mem_iff.1 hkey)
    | flushAll order => cases hop
    | setTimeoutMs timeoutMs => cases hop
    | resetStatistics => cases hop

/-- A call, with the frames emitted so far. -/
def traceStep (clk : SystemClock) (s : Reassembler × List Stamp) (op : ReassemblerOp) :
    (Reassembler × List Stamp) × List Emission :=
  (((s.1.step clk op).1, s.2 ++ (s.1.step clk op).2.map (·.stamp (clk s.1.reads))),
    (s.1.step clk op).2)

theorem run_traceStep (clk : SystemClock) : ∀ (ops : List ReassemblerOp) (s : Reassembler)
    (hist : List Stamp), (Machine.run (traceStep clk) (s, hist) ops).1.1 = (s.run clk ops).1 ∧
      (Machine.run (traceStep clk) (s, hist) ops).2 = (s.run clk ops).2
  | [], s, hist => ⟨rfl, rfl⟩
  | op :: ops, s, hist => by
    obtain ⟨h1, h2⟩ := run_traceStep clk ops (s.step clk op).1
      (hist ++ (s.step clk op).2.map (·.stamp (clk s.reads)))
    exact ⟨h1, by
      simp only [Machine.run, Reassembler.run, traceStep] at h2 ⊢
      rw [h2]⟩

/-- Every frame that freezes its key is in the history with its freeze reading. -/
theorem frozen_mem_history (clk : SystemClock) {e : Emission} {f : BitVec 64}
    (hf : e.frozenAt = some f) : ∀ (ops : List ReassemblerOp) (s : Reassembler) (hist : List Stamp),
      e ∈ (s.run clk ops).2 ∨ ⟨e.frame.key, f.toNat, true⟩ ∈ hist →
      (⟨e.frame.key, f.toNat, true⟩ : Stamp) ∈ (Machine.run (traceStep clk) (s, hist) ops).1.2
  | [], s, hist, h => by
    rcases h with h | h
    · cases h
    · exact h
  | op :: ops, s, hist, h => by
    refine frozen_mem_history clk hf ops (s.step clk op).1 _ ?_
    rcases h with h | h
    · rcases List.mem_append.1 h with h | h
      · refine .inr (List.mem_append_right _ (List.mem_map.2 ⟨e, h, ?_⟩))
        rw [Emission.stamp, hf]
        rfl
      · exact .inl h
    · exact .inr (List.mem_append_left _ h)

/-- All frozen keys of the history are remembered. -/
structure Remembers (clk : SystemClock) (cfg : ReassemblerConfig) (s : Reassembler)
    (hist : List Stamp) : Prop where
  base : Base clk cfg s
  guarded : ∀ h ∈ hist, h.frozen = true → Guarded clk cfg h.key h.time s

theorem Remembers.timeout {hist : List Stamp} {ctx : ReassemblyContext} (hclk : Steady clk)
    (h : Remembers clk cfg s hist) (hl : s.contexts.lookup key = some ctx) (hdue : Due clk s key)
    (stats : ReassemblerStatistics) : Remembers clk cfg (afterTimeout clk s key stats)
      (hist ++ [⟨key, (clk s.reads).toNat, true⟩]) := by
  refine ⟨timeout_base hclk h.base key stats, fun g hg hfrozen => ?_⟩
  rcases List.mem_append.1 hg with hg | hg
  · exact timeout_guarded hclk h.base (h.guarded g hg hfrozen) hl hdue stats
  · rw [List.mem_singleton.1 hg]
    exact timeout_guards hclk h.base hl stats

theorem Remembers.packet {hist : List Stamp} {contexts : ContextMap} {out : List Emission}
    (hclk : Steady clk) (h : Remembers clk cfg s hist)
    (heff : PacketEffect s.config.maxContexts s.contexts
      (isKeyFrozen frag.key (clk s.reads) s.frozenKeysRing).2 frag (clk s.reads) contexts out)
    (stats : ReassemblerStatistics) : Remembers clk cfg (afterPacket clk s frag contexts stats)
      (hist ++ out.map (·.stamp (clk s.reads))) := by
  refine ⟨packet_base hclk h.base heff stats, fun g hg hfrozen => ?_⟩
  rcases List.mem_append.1 hg with hg | hg
  · exact packet_guarded hclk (h.guarded g hg hfrozen) heff stats
  · -- a packet freezes no key
    exfalso
    cases heff with
    | late hf => cases hg
    | full hf hl hfull => cases hg
    | kept hf hctx htime => cases hg
    | completed hf hctx hkey =>
      rw [List.mem_singleton.1 hg] at hfrozen
      cases hfrozen

theorem Remembers.read {hist : List Stamp} (hclk : Steady clk) (h : Remembers clk cfg s hist) :
    Remembers clk cfg { s with reads := s.reads + 1 } hist :=
  ⟨base_read hclk h.base, fun g hg hf => guarded_read hclk (h.guarded g hg hf)⟩

theorem Remembers.countReceived {hist : List Stamp} (h : Remembers clk cfg s hist) :
    Remembers clk cfg s.countReceived hist :=
  ⟨⟨h.base.config, h.base.timeout, h.base.ring, h.base.next, h.base.size, h.base.begun,
    h.base.unfrozen⟩, fun g hg hf => ⟨(h.guarded g hg hf).past, (h.guarded g hg hf).entry⟩⟩

theorem remembers_new (clk : SystemClock) (cfg : ReassemblerConfig) :
    Remembers clk cfg (Reassembler.new cfg) [] :=
  ⟨base_new clk cfg, by simp⟩

/-- **A run** remembers every key it has frozen. -/
theorem run_remembers {ops : List ReassemblerOp} (hclk : Steady clk)
    (hops : ∀ op ∈ ops, op.Regular) :
    Remembers clk cfg (Machine.run (traceStep clk) (Reassembler.new cfg, []) ops).1.1
      (Machine.run (traceStep clk) (Reassembler.new cfg, []) ops).1.2 := by
  refine Machine.run_inv (I := fun st : Reassembler × List Stamp => Remembers clk cfg st.1 st.2) ?_
    (remembers_new clk cfg)
  intro st op hop h
  refine step_rule hclk (hops op hop) (fun _ _ h => h.base) (fun _ _ h => h.read hclk)
    (fun _ _ _ _ stats h hl hdue => h.timeout hclk hl hdue stats) ?_ ?_ h
  · exact fun _ _ _ _ => h.countReceived
  · exact fun _ _ _ _ stats _ _ _ heff => h.packet hclk heff stats

theorem Guarded.frozen (h : Guarded clk cfg key t s)
    (hbefore : (clk s.reads).toNat < t + cfg.timeoutMs.toNat) :
    (isKeyFrozen key (clk s.reads) s.frozenKeysRing).2 = true := by
  obtain ⟨j, e, hj, hv, hk, hexp, -⟩ := h.entry hbefore
  refine (isKeyFrozen_iff _).2 ⟨e, List.mem_of_getElem? hj, hv, ?_, hk⟩
  rw [BitVec.lt_def]
  omega

/-- **The frozen ring never forgets a key that is still frozen.** In every run of packets and
timeout checks, when a frame of a key was emitted by a timeout with freeze reading `t`, the ring
holds an entry for that key until `t + timeout_ms`, and every packet of the key before that is
dropped as late. -/
theorem frozen_key_remembered {ops : List ReassemblerOp} {e : Emission} {f : BitVec 64}
    {packet : ParsedPacket} (storage : FragmentStorage) (hclk : Steady clk)
    (hops : ∀ op ∈ ops, op.Regular)
    (he : e ∈ ((Reassembler.new cfg).run clk ops).2) (hf : e.frozenAt = some f)
    (hfrag : fragmentOf cfg packet = some frag) (hkey : frag.key = e.frame.key)
    (hbefore : (clk ((Reassembler.new cfg).run clk ops).1.reads).toNat <
      f.toNat + cfg.timeoutMs.toNat) :
    (∃ entry ∈ ((Reassembler.new cfg).run clk ops).1.frozenKeysRing, entry.valid = true ∧
      entry.key = e.frame.key ∧ f.toNat + cfg.timeoutMs.toNat ≤ entry.expireMs.toNat) ∧
    (Reassembler.processWith storage clk ((Reassembler.new cfg).run clk ops).1 packet).2 = [] ∧
    (Reassembler.processWith storage clk ((Reassembler.new cfg).run clk ops).1 packet).1.contexts =
      ((Reassembler.new cfg).run clk ops).1.contexts ∧
    (Reassembler.processWith storage clk
        ((Reassembler.new cfg).run clk ops).1 packet).1.stats.lateFragments =
      ((Reassembler.new cfg).run clk ops).1.stats.lateFragments + 1 := by
  have hrem : Remembers clk cfg _ _ := run_remembers hclk hops
  have hmem := frozen_mem_history clk hf ops (Reassembler.new cfg) [] (.inl he)
  rw [(run_traceStep clk ops _ _).1] at hrem
  have hguard := hrem.guarded _ hmem rfl
  have hcfg := hrem.base.config
  generalize ((Reassembler.new cfg).run clk ops).1 = s at hrem hguard hbefore hcfg ⊢
  have hfrozen := hguard.frozen hbefore
  obtain ⟨j, entry, hj, hv, hk, hexp, -⟩ := hguard.entry hbefore
  refine ⟨⟨entry, List.mem_of_getElem? hj, hv, hk, hexp⟩, ?_⟩
  rw [← hkey] at hfrozen
  have hlate : Reassembler.processWith storage clk s packet =
      (({ s.countReceived with
        reads := s.reads + 1
        frozenKeysRing := (isKeyFrozen frag.key (clk s.reads) s.frozenKeysRing).1 } :
          Reassembler).countLate, []) := by
    unfold Reassembler.processWith
    rw [hcfg, hfrag]
    simp only
    unfold Reassembler.acceptFragment
    exact if_pos hfrozen
  rw [hlate]
  exact ⟨rfl, rfl, rfl⟩

/-- The first of two fragments, with one byte of payload. -/
def firstOfTwo : ParsedPacket where
  header := { payloadLen := 41 }
  payload := some (List.replicate 36 0 ++ [2, 0, 1, 0] ++ [7])
  totalSize := 73

/-- Readings `0`, then `100` for ever. -/
def stepClock : SystemClock := fun k => BitVec.ofNat 64 (min k 1 * 100)

theorem steady_stepClock : Steady stepClock := by
  have hval : ∀ k, (stepClock k).toNat = min k 1 * 100 := by
    intro k
    rw [stepClock, BitVec.toNat_ofNat, Nat.mod_eq_of_lt (by omega)]
  refine ⟨fun i j hij => ?_, fun i => ?_⟩
  · rw [hval, hval]
    omega
  · rw [hval]
    omega

/-- Iteration in the order of the map. -/
def IterOrder.same : IterOrder := ⟨id, fun _ => List.Perm.refl _⟩

/-- A fragment at `0`, its timeout at `100`, and a repeat of it then. -/
theorem firstOfTwo_late :
    (Reassembler.processPacket stepClock ((Reassembler.new { maxContexts := 1 }).run stepClock
      [.processPacket firstOfTwo, .checkTimeouts .same]).1
        firstOfTwo).1.stats.lateFragments = 1 := by
  have hops : ∀ op ∈ [.processPacket firstOfTwo, .checkTimeouts .same],
    ReassemblerOp.Regular op := by
    simp [ReassemblerOp.Regular]
  have hfrag : fragmentOf { maxContexts := 1 } firstOfTwo = some _ := rfl
  exact (frozen_key_remembered .heap steady_stepClock hops (List.mem_singleton_self _) rfl hfrag rfl
    (by decide)).2.2.2

end

end Qdgz300.Pipeline
