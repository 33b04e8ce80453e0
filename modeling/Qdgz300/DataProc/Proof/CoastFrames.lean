import Qdgz300.DataProc.Proof.Lifecycle

/-!
# What `coast_frames` counts

`misses` counts the calls since the last plot of a track, in 32 bits (`Coasts.Counted`), and a call
without a plot writes it to `coast_frames`. A plot sets `misses` back but not `coast_frames`:
**`coast_frames_iff`** says in which runs `coast_frames` is the number of calls since the last plot.
-/

namespace Qdgz300.DataProc

variable {ops : DoubleOps} {config : TrackManagerConfig} {latestTs : BitVec 64} {state : TrackState}

/-! ## One state in one call -/

/-- Plots set `misses` back, and leave `coast_frames` and whether the track is lost. -/
theorem foldl_update_counters (ops : DoubleOps) (config : TrackManagerConfig) (latestTs : BitVec 64)
    (own : List Plot) (state : TrackState) (hown : own ≠ []) :
    let state' := own.foldl (fun state plot => state.update ops config latestTs plot) state
    state'.misses = 0 ∧ state'.snapshot.coastFrames = state.snapshot.coastFrames ∧
      (state'.Lost ↔ state.Lost) := by
  have hfold : ∀ (own : List Plot) (state : TrackState), (own ≠ [] ∨ state.misses = 0) →
      let state' := own.foldl (fun state plot => state.update ops config latestTs plot) state
      state'.misses = 0 ∧ state'.snapshot.coastFrames = state.snapshot.coastFrames := by
    intro own
    induction own with
    | nil => exact fun state h => ⟨h.resolve_left fun hnil => hnil rfl, rfl⟩
    | cons plot own ih => exact fun state _ => ih (state.update ops config latestTs plot) (.inr rfl)
  obtain ⟨hmisses, hcoast⟩ := hfold own state (.inl hown)
  exact ⟨hmisses, hcoast, TrackState.lost_foldl_update own state⟩

theorem after_hit {own : List Plot} (hown : own ≠ []) :
    (state.after ops config latestTs own).misses = 0 ∧
      (state.after ops config latestTs own).snapshot.coastFrames = state.snapshot.coastFrames ∧
      ((state.after ops config latestTs own).Lost ↔ state.Lost) := by
  have hfold := foldl_update_counters ops config latestTs own (state.predict ops config) hown
  rw [TrackState.after, if_neg (by simpa using hown)]
  exact hfold

/-- The next call without a plot leaves the track in the returned list, or brings it back there. -/
def TrackState.StaysReturned (config : TrackManagerConfig) (state : TrackState) : Prop :=
  ¬ config.lostAfterMisses ≤ state.misses + 1 ∧
    (config.coastAfterMisses ≤ state.misses + 1 ∨ ¬ state.Lost)

/-- A call without a plot for the track. -/
theorem after_miss :
    (state.after ops config latestTs []).misses = state.misses + 1 ∧
      (state.after ops config latestTs []).snapshot.coastFrames = state.misses + 1 ∧
      (¬ (state.after ops config latestTs []).Lost ↔ state.StaysReturned config) := by
  refine ⟨rfl, rfl, ?_⟩
  have hlifecycle : (state.after ops config latestTs []).snapshot.lifecycleState =
      if config.lostAfterMisses ≤ state.misses + 1 then TrackLifecycle.lost.toByte
      else if config.coastAfterMisses ≤ state.misses + 1 then TrackLifecycle.coasting.toByte
      else state.snapshot.lifecycleState := rfl
  rw [TrackState.Lost, hlifecycle]
  split_ifs with hlost hcoasting
  · exact iff_of_false (fun h => h rfl) fun h => h.1 hlost
  · exact iff_of_true (by decide) ⟨hlost, .inl hcoasting⟩
  · exact ⟨fun h => ⟨hlost, .inr h⟩, fun h => h.2.resolve_left hcoasting⟩

namespace TrackManager

/-! ## Runs -/

/-- A tracker, and for each of its tracks the calls since the last that gave it a plot. -/
structure Coasts where
  manager : TrackManager
  since : List Nat := []

/-- One more call; a plot starts the count again. -/
def sinceNext (own : List Plot) (n : Nat) : Nat := if own.isEmpty then n + 1 else 0

/-- One call, with its associator; it puts out the returned tracks. -/
def Coasts.step (ops : DoubleOps) (s : Coasts) (i : Associator × List (Option PlotBatch)) :
    Coasts × List (List Track) :=
  let manager := s.manager.processWith ops i.1 i.2
  ({ manager, since := (s.manager.callWith ops i.1 i.2).takeOn sinceNext 0 s.since }, [manager.tracks])

namespace Coasts

/-- The returned tracks, those that are not lost, report how many calls ago they had a plot. -/
def Consecutive (s : Coasts) : Prop :=
  ∀ (j : Nat) (state : TrackState) (n : Nat), s.manager.states[j]? = some state →
    s.since[j]? = some n → ¬ state.Lost → state.snapshot.coastFrames.toNat = n

/-- No returned track that has coasted gets a plot in the call, and none is returned after `2 ^ 32`
calls without a plot. -/
def KeepsCount (ops : DoubleOps) (s : Coasts) (i : Associator × List (Option PlotBatch)) : Prop :=
  ∀ (j : Nat) (state : TrackState) (n : Nat), s.manager.states[j]? = some state →
    s.since[j]? = some n →
    if (s.manager.callWith ops i.1 i.2).own j = [] then
      state.StaysReturned s.manager.config → n + 1 < 2 ^ 32
    else ¬ state.Lost → state.snapshot.coastFrames = 0

/-- Every track has its count, and `misses` is the count in 32 bits. -/
structure Counted (s : Coasts) : Prop where
  lengths : s.since.length = s.manager.states.length
  misses : ∀ (j : Nat) (state : TrackState) (n : Nat), s.manager.states[j]? = some state →
    s.since[j]? = some n → state.misses = BitVec.ofNat 32 n

variable {s : Coasts} {i : Associator × List (Option PlotBatch)}

theorem Counted.step (h : s.Counted) : (s.step ops i).1.Counted := by
  refine ⟨length_takeOn sinceNext 0 i.1 i.2 h.lengths, fun j state' n' hstate hsince => ?_⟩
  rcases note_cases h.lengths hstate hsince with ⟨state, n, hbefore, hn, rfl, rfl⟩ | ⟨hnew, rfl⟩
  · by_cases hown : (s.manager.callWith ops i.1 i.2).own j = []
    · rw [hown, after_miss.1, h.misses j state n hbefore hn]
      exact (BitVec.ofNat_add ..).symm
    · rw [(after_hit hown).1, sinceNext, if_neg (by simpa using hown)]
      rfl
  · obtain ⟨plot, trackId, -, rfl⟩ := exists_new hnew
    rfl

/-- One track: what the call leaves of its `coast_frames` is right. -/
theorem after_consecutive_iff {state : TrackState} {own : List Plot} {n : Nat}
    (hmisses : state.misses = BitVec.ofNat 32 n) :
    (¬ (state.after ops config latestTs own).Lost →
      (state.after ops config latestTs own).snapshot.coastFrames.toNat = sinceNext own n) ↔
    if own = [] then state.StaysReturned config → n + 1 < 2 ^ 32
    else ¬ state.Lost → state.snapshot.coastFrames = 0 := by
  by_cases hown : own = []
  · subst hown
    obtain ⟨-, hcoast, hlost⟩ := @after_miss ops config latestTs state
    have hnext : state.misses + 1 = BitVec.ofNat 32 (n + 1) := by
      rw [hmisses]
      exact (BitVec.ofNat_add ..).symm
    rw [if_pos rfl, hlost, hcoast, hnext, BitVec.toNat_ofNat, sinceNext, if_pos List.isEmpty_nil]
    exact imp_congr_right fun _ => Nat.mod_eq_iff_lt (by decide)
  · obtain ⟨-, hcoast, hlost⟩ := @after_hit ops config latestTs state own hown
    rw [if_neg hown, hlost, hcoast, sinceNext, if_neg (by simpa using hown)]
    exact imp_congr_right fun _ => (@BitVec.toNat_eq 32 _ 0#32).symm

/-- **One call** leaves every `coast_frames` right exactly when it keeps the count. -/
theorem consecutive_step (h : s.Counted) :
    (s.step ops i).1.Consecutive ↔ s.KeepsCount ops i := by
  refine ⟨fun hnext j state n hstate hn => ?_, fun hkeeps j state' n' hstate hsince hlive => ?_⟩
  · have hafter := hnext j _ _ (state_kept ops i.1 i.2 hstate)
      (Call.takeOn_kept sinceNext 0 (s.manager.callWith ops i.1 i.2) hn)
    exact (after_consecutive_iff (h.misses j state n hstate hn)).1 hafter
  · rcases note_cases h.lengths hstate hsince with ⟨state, n, hbefore, hn, rfl, rfl⟩ | ⟨hnew, rfl⟩
    · have hkept := hkeeps j state n hbefore hn
      exact (after_consecutive_iff (h.misses j state n hbefore hn)).2 hkept hlive
    · obtain ⟨plot, trackId, -, rfl⟩ := exists_new hnew
      rfl

/-- **In which runs `coast_frames` counts consecutive misses**: in every state of a run every
returned track reports the number of calls since its last plot, exactly when in no call a returned
track whose `coast_frames` is not 0 gets a plot, and none is returned after `2 ^ 32` calls in a row
without one. -/
theorem coast_frames_iff (ops : DoubleOps) (config : TrackManagerConfig)
    (calls : List (Associator × List (Option PlotBatch))) :
    (∀ earlier, earlier <+: calls →
      (Machine.run (Coasts.step ops) { manager := { config } } earlier).1.Consecutive) ↔
    Machine.RunAlong (Coasts.step ops) (KeepsCount ops) { manager := { config } } calls := by
  apply Machine.run_always_iff (I := Counted)
  · exact fun s i h => h.step
  · exact fun s i h _ => consecutive_step h
  · exact ⟨rfl, fun j state n hstate => by simp at hstate⟩
  · exact fun j state n hstate => by simp at hstate

/-- A run with the associator of the code. -/
def ofCalls (ops : DoubleOps) (config : TrackManagerConfig)
    (calls : List (List (Option PlotBatch))) :
    Coasts :=
  (Machine.run (Coasts.step ops) { manager := { config } }
    (calls.map (associate (euclidean ops config.associationGateM), ·))).1

/-- A plot, a call without one, and a plot again. -/
def missedOnce : List (List (Option PlotBatch)) :=
  [[some plotAtRadar], [some noPlots], [some plotAtRadar]]

/-- **The miss is still counted** after the plot that ends the coasting: the track is returned with
`coast_frames` 1 by the call that gave it a plot. -/
theorem missedOnce_not_consecutive :
    (ofCalls zeroOps {} missedOnce).since = [0] ∧
    (runCalls zeroOps { config := {} } missedOnce).tracks.map (·.coastFrames) = [1] ∧
    ¬ (ofCalls zeroOps {} missedOnce).Consecutive := by
  have hsince : (ofCalls zeroOps {} missedOnce).since = [0] := by decide +kernel
  have hstates : (ofCalls zeroOps {} missedOnce).manager.states.map
      (fun state => (state.snapshot.coastFrames, state.snapshot.lifecycleState)) =
        [(1, TrackLifecycle.tentative.toByte)] := by decide +kernel
  refine ⟨hsince, by decide +kernel, fun hconsecutive => ?_⟩
  obtain ⟨state, hstate, hfields⟩ := List.map_eq_singleton_iff.1 hstates
  obtain ⟨hcoast, htentative⟩ := Prod.mk.inj hfields
  have hlive : ¬ state.Lost := by
    rw [TrackState.Lost, htentative]
    decide
  have hcount := hconsecutive 0 state 0 (by rw [hstate]; rfl) (by rw [hsince]; rfl) hlive
  rw [hcoast] at hcount
  exact absurd hcount (by decide)

end Coasts

end TrackManager

end Qdgz300.DataProc
