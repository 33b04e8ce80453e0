import Mathlib.Data.List.Basic
import Qdgz300.DataProc.Proof.TrackIds
import Qdgz300.Lib.Machine

/-!
# When a track is confirmed

The associations are arbitrary here (`processWith`). A tentative track is confirmed by its hits
(`confirmHits`), but one that coasts is confirmed by its next plot, whether it was confirmed before
or not: **`confirmed_earned_iff`** says which runs report no track as confirmed that has received
too few plots.
-/

namespace Qdgz300.DataProc

variable {ops : DoubleOps} {config : TrackManagerConfig} {m : TrackManager}
  {latestTs : BitVec 64} {plots : List Plot}

/-! ## One state in one call -/

@[simp] theorem TrackLifecycle.toByte_inj (a b : TrackLifecycle) : a.toByte = b.toByte ↔ a = b := by
  cases a <;> cases b <;> decide

theorem TrackState.update_confirmed {state : TrackState} {plot : Plot} :
    (state.update ops config latestTs plot).snapshot.lifecycleState =
        TrackLifecycle.confirmed.toByte ↔
      state.snapshot.lifecycleState = TrackLifecycle.confirmed.toByte ∨
        state.snapshot.lifecycleState = TrackLifecycle.coasting.toByte ∨
        state.snapshot.lifecycleState = TrackLifecycle.tentative.toByte ∧
          config.confirmHits ≤ state.hits + 1 := by
  simp only [TrackState.update]
  split_ifs with htentative hcoasting
  · simpa [htentative.1] using htentative.2
  · simp [hcoasting]
  · simpa [hcoasting] using fun htent hhits => absurd ⟨htent, hhits⟩ htentative

theorem TrackState.update_not_coasting {state : TrackState} {plot : Plot} :
    (state.update ops config latestTs plot).snapshot.lifecycleState ≠
      TrackLifecycle.coasting.toByte := by
  simp only [TrackState.update]
  split_ifs with htentative hcoasting
  · decide
  · decide
  · exact hcoasting

theorem TrackState.miss_confirmed {state : TrackState}
    (h : (state.miss config latestTs).snapshot.lifecycleState = TrackLifecycle.confirmed.toByte) :
    state.snapshot.lifecycleState = TrackLifecycle.confirmed.toByte := by
  simp only [TrackState.miss] at h
  split_ifs at h with hlost hcoasting
  · exact absurd h (by decide)
  · exact absurd h (by decide)
  · exact h

section
variable {state : TrackState} {n : Nat}

theorem update_hits {plot : Plot} (h : state.hits = BitVec.ofNat 32 n) :
    (state.update ops config latestTs plot).hits = BitVec.ofNat 32 (n + 1) := by
  rw [BitVec.ofNat_add, ← h]
  rfl

theorem foldl_update_hits (own : List Plot) (h : state.hits = BitVec.ofNat 32 n) :
    (own.foldl (fun state plot => state.update ops config latestTs plot) state).hits =
      BitVec.ofNat 32 (n + own.length) := by
  induction own generalizing state n with
  | nil => exact h
  | cons plot own ih =>
    rw [List.foldl_cons, ih (update_hits h), List.length_cons, Nat.add_assoc, Nat.add_comm 1]

theorem foldl_update_keeps (own : List Plot)
    (h : state.snapshot.lifecycleState = TrackLifecycle.confirmed.toByte) :
    (own.foldl (fun state plot => state.update ops config latestTs plot) state).snapshot.lifecycleState =
      TrackLifecycle.confirmed.toByte := by
  induction own generalizing state with
  | nil => exact h
  | cons plot own ih => exact ih (TrackState.update_confirmed.2 (Or.inl h))

/-- How plots confirm a track that has received `n` plots. -/
theorem foldl_update_confirmed (own : List Plot) (hhits : state.hits = BitVec.ofNat 32 n)
    (h : (own.foldl (fun state plot => state.update ops config latestTs plot)
      state).snapshot.lifecycleState = TrackLifecycle.confirmed.toByte) :
    state.snapshot.lifecycleState = TrackLifecycle.confirmed.toByte ∨
      state.snapshot.lifecycleState = TrackLifecycle.coasting.toByte ∧ own ≠ [] ∨
      config.confirmHits.toNat ≤ n + own.length := by
  induction own generalizing state n with
  | nil => exact Or.inl h
  | cons plot own ih =>
    obtain hconfirmed | ⟨hcoasting, -⟩ | hreceived := ih (update_hits hhits) h
    · obtain hbefore | hcoasting | ⟨-, hle⟩ := TrackState.update_confirmed.1 hconfirmed
      · exact Or.inl hbefore
      · exact Or.inr (Or.inl ⟨hcoasting, List.cons_ne_nil plot own⟩)
      · -- the counter may have wrapped, but is no more than the plots received
        have hcounter : (state.hits + 1).toNat ≤ n + 1 := by
          rw [hhits, show BitVec.ofNat 32 n + 1 = BitVec.ofNat 32 (n + 1) from
            (BitVec.ofNat_add ..).symm, BitVec.toNat_ofNat]
          exact Nat.mod_le ..
        refine Or.inr (Or.inr ?_)
        rw [List.length_cons]
        exact (BitVec.le_def.1 hle).trans (by omega)
    · exact absurd hcoasting TrackState.update_not_coasting
    · refine Or.inr (Or.inr ?_)
      rw [List.length_cons]
      omega

theorem after_hits (own : List Plot) (h : state.hits = BitVec.ofNat 32 n) :
    (state.after ops config latestTs own).hits = BitVec.ofNat 32 (n + own.length) := by
  cases own with
  | nil => exact h
  | cons plot own =>
    have hpredict : (state.predict ops config).hits = BitVec.ofNat 32 n := h
    exact foldl_update_hits (plot :: own) hpredict

theorem after_confirmed (own : List Plot) (hhits : state.hits = BitVec.ofNat 32 n)
    (h : (state.after ops config latestTs own).snapshot.lifecycleState =
      TrackLifecycle.confirmed.toByte) :
    state.snapshot.lifecycleState = TrackLifecycle.confirmed.toByte ∨
      state.snapshot.lifecycleState = TrackLifecycle.coasting.toByte ∧ own ≠ [] ∨
      config.confirmHits.toNat ≤ n + own.length := by
  cases own with
  | nil => exact Or.inl (TrackState.miss_confirmed h)
  | cons plot own =>
    have hpredict : (state.predict ops config).hits = BitVec.ofNat 32 n := hhits
    have hcases := foldl_update_confirmed (plot :: own) hpredict h
    exact hcases

theorem after_coasting (own : List Plot) (hown : own ≠ [])
    (h : state.snapshot.lifecycleState = TrackLifecycle.coasting.toByte) :
    (state.after ops config latestTs own).snapshot.lifecycleState =
      TrackLifecycle.confirmed.toByte := by
  cases own with
  | nil => exact absurd rfl hown
  | cons plot own =>
    exact foldl_update_keeps own (TrackState.update_confirmed.2 (Or.inr (Or.inl h)))

end

namespace TrackManager

/-! ## Notes on the tracks -/

section
variable {α : Type} (note : List Plot → α → α) (fresh : α) {notes : List α} {j : Nat} {n : α}

/-- Notes that are kept of the tracks, after a call: each is taken on by the plots of its track, and
a track that has been opened gets a fresh one. -/
def Call.takeOn (c : Call) (notes : List α) : List α :=
  (notes.mapIdx fun j n => note (c.own j) n) ++ List.replicate c.opened.length fresh

theorem Call.takeOn_kept (c : Call) (h : notes[j]? = some n) :
    (c.takeOn note fresh notes)[j]? = some (note (c.own j) n) := by
  have hlt : j < notes.length := (List.getElem?_eq_some_iff.1 h).1
  rw [takeOn, List.getElem?_append_left (by simpa using hlt), List.getElem?_mapIdx, h, Option.map_some]

theorem Call.takeOn_new (c : Call) (hle : notes.length ≤ j)
    (h : (c.takeOn note fresh notes)[j]? = some n) : n = fresh := by
  rw [takeOn, List.getElem?_append_right (by simpa using hle)] at h
  exact List.eq_of_mem_replicate (List.mem_of_getElem? h)

variable {note fresh} in
/-- **What a call does** to the tracks and the notes of them, when there is one for each. -/
theorem note_cases {associator : Associator} {batches : List (Option PlotBatch)}
    {state' : TrackState} (hlength : notes.length = m.states.length)
    (hstate : (m.processWith ops associator batches).states[j]? = some state')
    (hnote : ((m.callWith ops associator batches).takeOn note fresh notes)[j]? = some n) :
    (∃ state before, m.states[j]? = some state ∧ notes[j]? = some before ∧
      state' = state.after ops m.config (m.callWith ops associator batches).latestTs
        ((m.callWith ops associator batches).own j) ∧
      n = note ((m.callWith ops associator batches).own j) before) ∨
    state' ∈ createTracks ops (m.callWith ops associator batches).latestTs m.nextTrackId
      (m.callWith ops associator batches).opened ∧ n = fresh := by
  rcases state_cases hstate with ⟨state, hbefore, rfl⟩ | ⟨hle, hnew⟩
  · have hlt : j < notes.length := hlength ▸ (List.getElem?_eq_some_iff.1 hbefore).1
    have hkept := Call.takeOn_kept note fresh (m.callWith ops associator batches)
      (List.getElem?_eq_getElem hlt)
    exact .inl ⟨state, _, hbefore, List.getElem?_eq_getElem hlt, rfl,
      Option.some.inj (hnote.symm.trans hkept)⟩
  · exact .inr ⟨hnew, Call.takeOn_new note fresh _ (hlength ▸ hle) hnote⟩

theorem length_takeOn (associator : Associator) (batches : List (Option PlotBatch))
    (hlength : notes.length = m.states.length) :
    ((m.callWith ops associator batches).takeOn note fresh notes).length =
      (m.processWith ops associator batches).states.length := by
  rw [states_processWith, Call.takeOn, List.length_append, List.length_append, List.length_mapIdx,
    List.length_mapIdx, List.length_replicate, length_createTracks, hlength]

end

/-! ## Runs -/

/-- A tracker, and how many plots each of its tracks has received. -/
structure Tally where
  manager : TrackManager
  received : List Nat := []

/-- One call, with its associator; it puts out the returned tracks. -/
def Tally.step (ops : DoubleOps) (s : Tally) (i : Associator × List (Option PlotBatch)) :
    Tally × List (List Track) :=
  let c := s.manager.callWith ops i.1 i.2
  let manager := s.manager.processWith ops i.1 i.2
  ({ manager
     received := (s.received.mapIdx fun j n => n + (c.own j).length) ++
      List.replicate c.opened.length 1 }, [manager.tracks])

/-- A track that is reported as confirmed has received enough plots. -/
def Tally.Earned (s : Tally) : Prop :=
  ∀ (j : Nat) (state : TrackState) (n : Nat), s.manager.states[j]? = some state →
    s.received[j]? = some n → state.snapshot.lifecycleState = TrackLifecycle.confirmed.toByte →
    s.manager.config.confirmHits.toNat ≤ n

/-- No track that coasts gets a plot in the call while it has too few, those of the call
included. -/
def Tally.NoEarlyReturn (ops : DoubleOps) (s : Tally) (i : Associator × List (Option PlotBatch)) :
    Prop :=
  ∀ (j : Nat) (state : TrackState) (n : Nat), s.manager.states[j]? = some state →
    s.received[j]? = some n → state.snapshot.lifecycleState = TrackLifecycle.coasting.toByte →
    (s.manager.callWith ops i.1 i.2).own j ≠ [] →
    s.manager.config.confirmHits.toNat ≤ n + ((s.manager.callWith ops i.1 i.2).own j).length

/-- Every track has its count, and `hits` is the count in 32 bits. -/
structure Tally.Counted (s : Tally) : Prop where
  lengths : s.received.length = s.manager.states.length
  hits : ∀ (j : Nat) (state : TrackState) (n : Nat), s.manager.states[j]? = some state →
    s.received[j]? = some n → state.hits = BitVec.ofNat 32 n

namespace Tally
variable {s : Tally} {i : Associator × List (Option PlotBatch)}

theorem step_received (ops : DoubleOps) (s : Tally) (i : Associator × List (Option PlotBatch)) :
    (s.step ops i).1.received =
      (s.manager.callWith ops i.1 i.2).takeOn (fun own n => n + own.length) 1 s.received := rfl

theorem step_kept (ops : DoubleOps) (i : Associator × List (Option PlotBatch)) {j n : Nat}
    {state : TrackState} (hstate : s.manager.states[j]? = some state)
    (hreceived : s.received[j]? = some n) :
    (s.step ops i).1.manager.states[j]? = some (state.after ops s.manager.config
        (s.manager.callWith ops i.1 i.2).latestTs ((s.manager.callWith ops i.1 i.2).own j)) ∧
      (s.step ops i).1.received[j]? = some (n + ((s.manager.callWith ops i.1 i.2).own j).length) :=
  ⟨state_kept ops i.1 i.2 hstate, Call.takeOn_kept (fun own n => n + own.length) 1 _ hreceived⟩

/-- **What a call does**: a track was there before, or has been opened with one plot. -/
theorem step_cases (hcounted : s.Counted) {j n' : Nat} {state' : TrackState}
    (hstate : (s.step ops i).1.manager.states[j]? = some state')
    (hreceived : (s.step ops i).1.received[j]? = some n') :
    (∃ state n, s.manager.states[j]? = some state ∧ s.received[j]? = some n ∧
      state' = state.after ops s.manager.config (s.manager.callWith ops i.1 i.2).latestTs
        ((s.manager.callWith ops i.1 i.2).own j) ∧
      n' = n + ((s.manager.callWith ops i.1 i.2).own j).length) ∨
    state'.hits = 1 ∧ state'.snapshot.lifecycleState = TrackLifecycle.tentative.toByte ∧
    n' = 1 := by
  rw [step_received] at hreceived
  rcases note_cases hcounted.lengths hstate hreceived with hkept | ⟨hnew, hone⟩
  · exact .inl hkept
  · obtain ⟨plot, trackId, -, rfl⟩ := exists_new hnew
    exact .inr ⟨rfl, rfl, hone⟩

theorem Counted.step (h : s.Counted) : (s.step ops i).1.Counted := by
  refine ⟨?_, ?_⟩
  · exact length_takeOn (fun own n => n + own.length) 1 i.1 i.2 h.lengths
  · intro j state' n' hstate hreceived
    obtain ⟨state, n, hbefore, hn, rfl, rfl⟩ | ⟨hhits, -, rfl⟩ := step_cases h hstate hreceived
    · exact after_hits _ (h.hits j state n hbefore hn)
    · exact hhits

/-- **One call** reports a track as confirmed too early exactly when one that coasts returns
early. -/
theorem earned_step (h : s.Counted) (hearned : s.Earned) :
    (s.step ops i).1.Earned ↔ s.NoEarlyReturn ops i := by
  refine ⟨?_, ?_⟩
  · intro hnext j state n hstate hn hcoasting hown
    obtain ⟨hafter, hcount⟩ := step_kept ops i hstate hn
    exact hnext j _ _ hafter hcount (after_coasting _ hown hcoasting)
  · intro hreturn j state' n' hstate hreceived hconfirmed
    obtain ⟨state, n, hbefore, hn, rfl, rfl⟩ | ⟨-, htentative, -⟩ := step_cases h hstate hreceived
    · obtain hconfirmed | ⟨hcoasting, hown⟩ | hle :=
        after_confirmed _ (h.hits j state n hbefore hn) hconfirmed
      · exact (hearned j state n hbefore hn hconfirmed).trans (Nat.le_add_right ..)
      · exact hreturn j state n hbefore hn hcoasting hown
      · exact hle
    · rw [htentative] at hconfirmed
      exact absurd hconfirmed (by decide)

/-- **Which runs confirm no track early.** In every state of a run, a track that is reported as
confirmed has received at least `confirm_hits` plots, exactly when in no call a track that coasts
gets a plot and still has fewer than that. -/
theorem confirmed_earned_iff (ops : DoubleOps) (config : TrackManagerConfig)
    (calls : List (Associator × List (Option PlotBatch))) :
    (∀ earlier, earlier <+: calls →
      (Machine.run (Tally.step ops) { manager := { config } } earlier).1.Earned) ↔
    Machine.RunAlong (Tally.step ops) (Tally.NoEarlyReturn ops)
    { manager := { config } } calls := by
  apply Machine.run_always_iff (I := Counted)
  · exact fun s i h => h.step
  · exact fun s i h hearned => earned_step h hearned
  · exact ⟨rfl, fun j state n hstate => by simp at hstate⟩
  · exact fun j state n hstate => by simp at hstate

/-- A run with the associator of the code. -/
def ofCalls (ops : DoubleOps) (config : TrackManagerConfig)
    (calls : List (List (Option PlotBatch))) :
    Tally :=
  (Machine.run (Tally.step ops) { manager := { config } }
    (calls.map (associate (euclidean ops config.associationGateM), ·))).1

theorem run_associate : ∀ (calls : List (List (Option PlotBatch))) (s : Tally),
    (Machine.run (Tally.step ops) s (calls.map
      (associate (euclidean ops s.manager.config.associationGateM), ·))).1.manager =
        runCalls ops s.manager calls
  | [], _ => rfl
  | batches :: calls, s => run_associate calls
      (s.step ops (associate (euclidean ops s.manager.config.associationGateM), batches)).1

theorem ofCalls_manager (calls : List (List (Option PlotBatch))) :
    (ofCalls ops config calls).manager = runCalls ops { config } calls :=
  run_associate calls _

/-- One plot, three calls without any, and a plot again. -/
def missedThenHit : List (List (Option PlotBatch)) :=
  [[some plotAtRadar], [some noPlots], [some noPlots], [some noPlots], [some plotAtRadar]]

/-- **Confirmed with two plots**, where three are wanted: the track coasts after three calls without
a plot, and the next plot confirms it. -/
theorem coasted_confirmed_early :
    (ofCalls zeroOps {} missedThenHit).received = [2] ∧
    (runCalls zeroOps { config := {} } missedThenHit).tracks.map (·.lifecycleState) =
      [TrackLifecycle.confirmed.toByte] ∧
    ¬ (ofCalls zeroOps {} missedThenHit).Earned := by
  have hreceived : (ofCalls zeroOps {} missedThenHit).received = [2] := by decide +kernel
  have hstates : (runCalls zeroOps { config := {} } missedThenHit).states.map
      (·.snapshot.lifecycleState) = [TrackLifecycle.confirmed.toByte] := by
    decide +kernel
  refine ⟨hreceived, by decide +kernel, ?_⟩
  intro hearned
  rw [← ofCalls_manager] at hstates
  obtain ⟨state, hstate, hconfirmed⟩ := List.map_eq_singleton_iff.1 hstates
  have hle : 3 ≤ 2 := hearned 0 state 2 (by rw [hstate]; rfl) (by rw [hreceived]; rfl) hconfirmed
  exact absurd hle (by decide)

end Tally

end TrackManager

end Qdgz300.DataProc
