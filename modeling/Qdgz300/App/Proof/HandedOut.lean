import Qdgz300.App.Shutdown
import Qdgz300.Pipeline.Proof.Interleave
import Qdgz300.Pipeline.Proof.ReorderFlush

/-!
# When a face hands something out

The reorderer hands out a packet exactly when it is inserted with the awaited number (`Awaits`), and
one that it does not await leaves it waiting for the same number. So a run of frames hands out
nothing exactly when none of them is awaited at its start (`run_onFrame_nil_iff`); for `flush_all`
these are the frames of the contexts (`flushAll_nil_iff`).
-/

namespace Qdgz300.App

open Protocol Pipeline

/-- An insert of `seq` is handed out at once: the first insert of all, or the awaited number. -/
def Awaits (s : Reorderer) (seq : BitVec 32) : Prop :=
  s.initialized = false ∨ seq = s.nextExpectedSeq

instance (s : Reorderer) (seq : BitVec 32) : Decidable (Awaits s seq) :=
  inferInstanceAs (Decidable (_ ∨ _))

section
variable {s : Reorderer} {clk : SteadyClock} {header : CommonHeader} {payload : Option (List Byte)}
  {payloadSize : Nat} {seq : BitVec 32}

theorem awaits_iff_initWith : Awaits s seq ↔ seq = (s.initWith seq).nextExpectedSeq := by
  unfold Awaits Reorderer.initWith
  cases hinit : s.initialized with
  | true => simp
  | false => simp

/-- **An insert** hands something out exactly when its number is awaited. -/
theorem insertOwned_nil_iff :
    (s.insertOwned clk header payload payloadSize).2 = [] ↔ ¬ Awaits s header.sequenceNumber := by
  rw [awaits_iff_initWith]
  constructor
  · intro hnil heq
    unfold Reorderer.insertOwned Reorderer.insertBody at hnil
    simp only at hnil
    rw [if_pos heq] at hnil
    cases hnil
  · intro hne
    exact insertBody_silent (s := s.initWith header.sequenceNumber) clk
      ⟨header, payload, payloadSize⟩ hne

/-- An insert that is not awaited leaves the reorderer waiting for the same number. -/
theorem insertOwned_awaits (h : ¬ Awaits s header.sequenceNumber) :
    Awaits (s.insertOwned clk header payload payloadSize).1 seq ↔ Awaits s seq := by
  have hne := mt awaits_iff_initWith.2 h
  have hinit : s.initialized = true := by
    by_contra hinit
    exact h (.inl (Bool.not_eq_true _ ▸ hinit))
  have hsame : s.initWith header.sequenceNumber = s := by
    unfold Reorderer.initWith
    rw [if_pos hinit]
  rw [hsame] at hne
  unfold Reorderer.insertOwned Reorderer.insertBody
  rw [hsame]
  simp only
  rw [if_neg hne]
  unfold Awaits
  split
  · rfl
  · split
    · rfl
    · split <;> rfl

/-- **A run of frames** hands out nothing exactly when the reorderer awaits none of them. -/
theorem run_onFrame_nil_iff : ∀ {es : List Emission} {s : Reorderer},
    (Machine.run (onFrame clk) s es).2 = [] ↔ ∀ e ∈ es, ¬ Awaits s e.frame.key.frameCounter
  | [], _ => by simp
  | e :: es, s => by
    rw [Machine.run, List.append_eq_nil_iff, List.forall_mem_cons]
    have hhead : (onFrame clk s e).2 = [] ↔ ¬ Awaits s e.frame.key.frameCounter :=
      insertOwned_nil_iff
    rw [hhead]
    refine and_congr_right fun hne => ?_
    rw [run_onFrame_nil_iff]
    refine forall₂_congr fun e' _ => not_congr ?_
    exact insertOwned_awaits hne

/-- **A flush** hands out nothing exactly when nothing is buffered. -/
theorem flush_nil_iff : s.flush.2 = [] ↔ s.pending = [] := by
  rw [← List.length_eq_zero_iff, ← List.length_eq_zero_iff, ← (flushOrder_perm s).length_eq,
    ← flushLoop_length s.flushOrder s]
  rfl

end

section
variable {s : Reassembler} {clk : SystemClock} {order : IterOrder}

/-- The completion loop over contexts that do not throw emits the frame of each. -/
theorem completeAll_keys : ∀ {keys : List ReassemblyKey} {s : Reassembler}, keys.Nodup →
    (∀ key ∈ keys, ∃ ctx, s.contexts.lookup key = some ctx ∧ ctx.totalFrags.toNat ≤ 1024) →
    (Reassembler.completeAll clk keys s).2.map (·.frame.key) = keys
  | [], _, _, _ => rfl
  | key :: keys, s, hnodup, hctx => by
    obtain ⟨hfresh, hnodup⟩ := List.nodup_cons.1 hnodup
    obtain ⟨ctx, hl, hsmall⟩ := hctx key List.mem_cons_self
    cases hc : s.completeReassembly clk key ctx true with
    | none =>
      unfold Reassembler.completeReassembly at hc
      rw [if_neg (Nat.not_lt.2 hsmall)] at hc
      cases hc
    | some r =>
      obtain ⟨⟨stats, hr⟩, he⟩ := completeReassembly_timeout hc
      have hcontexts : r.1.contexts = s.contexts.erase key := by
        rw [hr]
      simp only [Reassembler.completeAll, hl, hc, List.map_cons]
      rw [completeAll_keys hnodup, he]
      · rfl
      · intro key' hkey'
        have hne : key' ≠ key := fun h => hfresh (h ▸ hkey')
        rw [hcontexts, AList.lookup_erase_ne hne]
        exact hctx key' (List.mem_cons_of_mem _ hkey')

theorem flushAll_keys (h : flushThrows s = false) :
    (s.flushAll clk order).2.map (·.frame.key) = order.toFun s.contexts.keys := by
  refine completeAll_keys ((order.perm _).nodup_iff.2 s.contexts.keys_nodup) fun key hkey => ?_
  have hmem := (order.perm _).mem_iff.1 hkey
  obtain ⟨ctx, hl⟩ := Option.isSome_iff_exists.1 (AList.lookup_isSome.2 hmem)
  have hsmall := List.any_eq_false.1 h key hmem
  rw [hl, Option.any_some, decide_eq_true_iff] at hsmall
  exact ⟨ctx, hl, Nat.not_lt.1 hsmall⟩

/-- **`flush_all`** hands out nothing exactly when the frame of no context is awaited. -/
theorem flushAll_nil_iff {r : Reorderer} {steady : SteadyClock} (h : flushThrows s = false) :
    (Machine.run (onFrame steady) r (s.flushAll clk order).2).2 = [] ↔
      ∀ key ∈ s.contexts.keys, ¬ Awaits r key.frameCounter := by
  rw [run_onFrame_nil_iff]
  constructor
  · intro hnone key hkey
    have hkeys : (s.flushAll clk order).2.map (·.frame.key) = order.toFun s.contexts.keys :=
      flushAll_keys h
    have hmem := (order.perm _).mem_iff.2 hkey
    rw [← hkeys] at hmem
    obtain ⟨e, he, rfl⟩ := List.mem_map.1 hmem
    exact hnone e he
  · intro hnone e he
    have hmem := List.mem_map_of_mem (f := fun e : Emission => e.frame.key) he
    rw [flushAll_keys h] at hmem
    exact hnone _ ((order.perm _).mem_iff.1 hmem)

end

end Qdgz300.App
