import Mathlib.Data.List.Basic
import Qdgz300.DataProc.Proof.Association
import Qdgz300.DataProc.TrackManager

/-!
# One call of the tracker

`processWith` is `process_plots` with any associator in the place of the code's
(`processWith_associate`). `states_processWith` says what a call does to each state, by the plots
that are associated with it, and which states it opens; `states_processPlots` is the same for the
code.

The ids are 64 bits wide: an association goes to the first state with its id (`targetOf`).
-/

namespace Qdgz300.DataProc

/-- `PlotAssociator::associate`, with its left-over plots. -/
abbrev Associator := List TrackPrediction → List Plot → List (Association Double) × List Nat

variable {ops : DoubleOps} {config : TrackManagerConfig} {m : TrackManager}
  {latestTs : BitVec 64} {plots : List Plot}

/-- The plots associated with the state at place `j`. -/
def ownPlots (states : List TrackState) (plots : List Plot)
    (associations : List (Association Double)) (j : Nat) : List Plot :=
  associations.filterMap fun a =>
    if targetOf states a.trackId = some j then plots[a.plotIndex]? else none

/-- What a call does to a state whose plots are `own`. -/
def TrackState.after (ops : DoubleOps) (config : TrackManagerConfig) (latestTs : BitVec 64)
    (own : List Plot) (state : TrackState) : TrackState :=
  if own.isEmpty then (state.predict ops config).miss config latestTs
  else own.foldl (fun state plot => state.update ops config latestTs plot)
    (state.predict ops config)

namespace TrackManager

/-- The first part of `process_plots` with any associator. -/
def callWith (ops : DoubleOps) (associator : Associator) (m : TrackManager)
    (batches : List (Option PlotBatch)) : Call :=
  let (plots, latestTs) := gatherPlots batches
  let predicted := m.states.map (·.predict ops m.config)
  let (associations, unassociated) := associator (predicted.map TrackState.prediction) plots
  { plots, latestTs, predicted, associations, unassociated }

/-- `process_plots` with any associator. -/
def processWith (ops : DoubleOps) (associator : Associator) (m : TrackManager)
    (batches : List (Option PlotBatch)) : TrackManager :=
  let c := m.callWith ops associator batches
  let (states, isMatched) := c.associations.foldl (applyAssociation ops m.config c.latestTs c.plots)
    (c.predicted, List.replicate c.predicted.length false)
  let states := List.zipWith
    (fun state hit => if hit then state else state.miss m.config c.latestTs) states isMatched
  let opened := c.unassociated.filterMap fun i => c.plots[i]?
  let states := states ++ createTracks ops c.latestTs m.nextTrackId opened
  { m with
    nextTrackId := m.nextTrackId + BitVec.ofNat 64 opened.length
    states
    tracks := syncSnapshots states }

/-- The plots of the call that are associated with the state at place `j`, and those that open
tracks. -/
def Call.own (c : Call) (j : Nat) : List Plot := ownPlots c.predicted c.plots c.associations j

def Call.opened (c : Call) : List Plot := c.unassociated.filterMap fun i => c.plots[i]?

theorem processWith_associate (batches : List (Option PlotBatch)) :
    m.processWith ops (associate (euclidean ops m.config.associationGateM)) batches =
      m.processPlots ops batches := rfl

end TrackManager

/-! ## The loop over the associations -/

theorem targetOf_congr {states states' : List TrackState} (id : BitVec 64)
    (h : states'.map (·.snapshot.trackId) = states.map (·.snapshot.trackId)) :
    targetOf states' id = targetOf states id := by
  have hmap : ∀ l : List TrackState,
      targetOf l id = (l.map (·.snapshot.trackId)).findIdx? fun x => x = id := by
    intro l
    rw [List.findIdx?_map]
    rfl
  rw [hmap, hmap, h]

theorem ownPlots_congr {states states' : List TrackState}
    (h : states'.map (·.snapshot.trackId) = states.map (·.snapshot.trackId))
    (associations : List (Association Double)) (j : Nat) :
    ownPlots states' plots associations j = ownPlots states plots associations j := by
  simp only [ownPlots, targetOf_congr _ h]

/-- An association changes no id. -/
theorem applyAssociation_ids (acc : List TrackState × List Bool) (a : Association Double) :
    (applyAssociation ops config latestTs plots acc a).1.map (·.snapshot.trackId) =
      acc.1.map (·.snapshot.trackId) := by
  unfold applyAssociation
  split
  case h_1 i plot htarget hplot =>
    apply List.ext_getElem?
    intro k
    simp only [List.getElem?_map, List.getElem?_modify]
    cases acc.1[k]? with
    | none => rfl
    | some state =>
      by_cases hk : i = k
      · simp [hk, TrackState.update]
      · simp [hk]
  case h_2 => rfl

theorem foldl_applyAssociation_ids (associations : List (Association Double)) :
    ∀ acc : List TrackState × List Bool,
      (associations.foldl (applyAssociation ops config latestTs plots) acc).1.map
        (·.snapshot.trackId) = acc.1.map (·.snapshot.trackId) := by
  induction associations with
  | nil => exact fun _ => rfl
  | cons a associations ih => exact fun acc => (ih _).trans (applyAssociation_ids acc a)

/-- One association goes to one state, or to none. -/
theorem applyAssociation_at (acc : List TrackState × List Bool) (a : Association Double) (j : Nat) :
    (applyAssociation ops config latestTs plots acc a).1[j]? = acc.1[j]?.map
        ((ownPlots acc.1 plots [a] j).foldl fun state plot => state.update ops config latestTs plot) ∧
      (applyAssociation ops config latestTs plots acc a).2[j]? =
        acc.2[j]?.map (· || !(ownPlots acc.1 plots [a] j).isEmpty) := by
  unfold applyAssociation
  split
  case h_1 i plot htarget hplot =>
    by_cases hij : i = j
    · subst hij
      have hown : ownPlots acc.1 plots [a] i = [plot] := by simp [ownPlots, htarget, hplot]
      rw [hown, List.getElem?_modify_eq, List.getElem?_set]
      refine ⟨rfl, ?_⟩
      by_cases hlt : i < acc.2.length
      · simp [hlt]
      · simp [hlt]
    · have hne : targetOf acc.1 a.trackId ≠ some j := by
        rw [htarget]
        exact fun heq => hij (Option.some.inj heq)
      simp [ownPlots, hne, hij]
  case h_2 hmiss =>
    have hown : ownPlots acc.1 plots [a] j = [] := by
      rw [ownPlots, List.filterMap_cons, List.filterMap_nil]
      split_ifs with htarget
      · cases hplot : plots[a.plotIndex]? with
        | none => rfl
        | some plot => exact absurd hplot (hmiss j plot htarget)
      · rfl
    simp [hown]

/-- **The loop over the associations** updates each state with its own plots, in their order, and
marks it when it has some. -/
theorem foldl_applyAssociation_at (j : Nat) :
    ∀ (associations : List (Association Double)) (acc : List TrackState × List Bool),
      (associations.foldl (applyAssociation ops config latestTs plots) acc).1[j]? = acc.1[j]?.map
          ((ownPlots acc.1 plots associations j).foldl fun state plot =>
            state.update ops config latestTs plot) ∧
        (associations.foldl (applyAssociation ops config latestTs plots) acc).2[j]? =
          acc.2[j]?.map (· || !(ownPlots acc.1 plots associations j).isEmpty)
  | [], acc => by simp [ownPlots]
  | a :: associations, acc => by
    obtain ⟨hstates, hmarks⟩ := foldl_applyAssociation_at j associations
      (applyAssociation ops config latestTs plots acc a)
    obtain ⟨hstate, hmark⟩ := applyAssociation_at acc a j
    have hsplit : ownPlots acc.1 plots (a :: associations) j =
        ownPlots acc.1 plots [a] j ++ ownPlots acc.1 plots associations j :=
      List.filterMap_append (l := [a])
    rw [ownPlots_congr (applyAssociation_ids acc a)] at hstates hmarks
    rw [List.foldl_cons, hstates, hmarks, hstate, hmark, hsplit]
    refine ⟨?_, ?_⟩
    · simp [List.foldl_append, Function.comp_def]
    · rw [Option.map_map]
      cases ownPlots acc.1 plots [a] j with
      | nil => simp [Function.comp_def]
      | cons plot own => simp [Function.comp_def]

/-! ## The tracks that are opened -/

/-- **Each plot opens a track** with the next id. -/
theorem getElem?_createTracks (latestTs : BitVec 64) (plots : List Plot) (id : BitVec 64)
    (k : Nat) :
    (createTracks ops latestTs id plots)[k]? =
      plots[k]?.map (TrackState.new ops latestTs (id + BitVec.ofNat 64 k)) := by
  induction plots generalizing id k with
  | nil => rfl
  | cons plot plots ih =>
    cases k with
    | zero =>
      rw [show BitVec.ofNat 64 0 = 0#64 from rfl, BitVec.add_zero]
      rfl
    | succ k =>
      have hid : id + 1 + BitVec.ofNat 64 k = id + BitVec.ofNat 64 (k + 1) := by
        rw [BitVec.add_assoc, Nat.add_comm k, BitVec.ofNat_add]
        rfl
      rw [createTracks, List.getElem?_cons_succ, List.getElem?_cons_succ, ih, hid]

theorem length_createTracks (latestTs : BitVec 64) :
    ∀ (plots : List Plot) (id : BitVec 64), (createTracks ops latestTs id plots).length =
      plots.length
  | [], _ => rfl
  | _ :: plots, id => congrArg (· + 1) (length_createTracks latestTs plots (id + 1))

theorem exists_new {id : BitVec 64} {state : TrackState}
    (h : state ∈ createTracks ops latestTs id plots) :
    ∃ plot trackId, plot ∈ plots ∧ state = .new ops latestTs trackId plot := by
  obtain ⟨k, hk⟩ := List.mem_iff_getElem?.1 h
  rw [getElem?_createTracks, Option.map_eq_some_iff] at hk
  obtain ⟨plot, hplot, rfl⟩ := hk
  exact ⟨plot, _, List.mem_of_getElem? hplot, rfl⟩

/-! ## The whole call -/

namespace TrackManager

/-- The states and the marks after the loop over the associations. -/
def Call.loop (ops : DoubleOps) (config : TrackManagerConfig) (c : Call) :
    List TrackState × List Bool :=
  c.associations.foldl (applyAssociation ops config c.latestTs c.plots)
    (c.predicted, List.replicate c.predicted.length false)

theorem Call.loop_at (ops : DoubleOps) (config : TrackManagerConfig) (c : Call) (j : Nat) :
    (c.loop ops config).1[j]? = c.predicted[j]?.map
        ((c.own j).foldl fun state plot => state.update ops config c.latestTs plot) ∧
      (c.loop ops config).2[j]? = c.predicted[j]?.map fun _ => !(c.own j).isEmpty := by
  obtain ⟨hstates, hmarks⟩ := foldl_applyAssociation_at j c.associations
    (c.predicted, List.replicate c.predicted.length false)
  refine ⟨hstates, Eq.trans hmarks ?_⟩
  by_cases hlt : j < c.predicted.length
  · simp [hlt, Call.own]
  · simp [hlt]

/-- **One call** takes each state on by its own plots, and opens the new tracks behind them. -/
theorem states_processWith (associator : Associator) (batches : List (Option PlotBatch)) :
    (m.processWith ops associator batches).states =
      (m.states.mapIdx fun j state => state.after ops m.config
        (m.callWith ops associator batches).latestTs ((m.callWith ops associator batches).own j)) ++
      createTracks ops (m.callWith ops associator batches).latestTs m.nextTrackId
        (m.callWith ops associator batches).opened := by
  have hloop : (m.processWith ops associator batches).states =
      List.zipWith (fun state hit => if hit then state else state.miss m.config
        (m.callWith ops associator batches).latestTs)
        ((m.callWith ops associator batches).loop ops m.config).1
        ((m.callWith ops associator batches).loop ops m.config).2 ++
      createTracks ops (m.callWith ops associator batches).latestTs m.nextTrackId
        (m.callWith ops associator batches).opened := rfl
  rw [hloop, List.append_cancel_right_eq]
  apply List.ext_getElem?
  intro j
  obtain ⟨hstates, hmarks⟩ := Call.loop_at ops m.config (m.callWith ops associator batches) j
  have hpredicted : (m.callWith ops associator batches).predicted[j]? =
      m.states[j]?.map (·.predict ops m.config) := List.getElem?_map ..
  rw [List.getElem?_zipWith, List.getElem?_mapIdx, hstates, hmarks, hpredicted]
  cases m.states[j]? with
  | none => rfl
  | some state =>
    simp only [Option.map_some, TrackState.after]
    cases (m.callWith ops associator batches).own j with
    | nil => rfl
    | cons plot own => rfl

theorem state_kept (ops : DoubleOps) (associator : Associator) (batches : List (Option PlotBatch))
    {j : Nat} {state : TrackState} (hstate : m.states[j]? = some state) :
    (m.processWith ops associator batches).states[j]? = some (state.after ops m.config
      (m.callWith ops associator batches).latestTs ((m.callWith ops associator batches).own j)) := by
  have hlt : j < m.states.length := (List.getElem?_eq_some_iff.1 hstate).1
  rw [states_processWith, List.getElem?_append_left (by simpa using hlt), List.getElem?_mapIdx, hstate,
    Option.map_some]

/-- A state that is there after a call: it was there before, or its track has been opened. -/
theorem state_cases {associator : Associator} {batches : List (Option PlotBatch)} {j : Nat}
    {state' : TrackState}
    (hstate : (m.processWith ops associator batches).states[j]? = some state') :
    (∃ state, m.states[j]? = some state ∧ state' = state.after ops m.config
      (m.callWith ops associator batches).latestTs ((m.callWith ops associator batches).own j)) ∨
    m.states.length ≤ j ∧ state' ∈ createTracks ops (m.callWith ops associator batches).latestTs
      m.nextTrackId (m.callWith ops associator batches).opened := by
  by_cases hlt : j < m.states.length
  · have hbefore := List.getElem?_eq_getElem hlt
    have hafter := state_kept ops associator batches hbefore
    exact .inl ⟨_, hbefore, Option.some.inj (hstate.symm.trans hafter)⟩
  · have hle : m.states.length ≤ j := Nat.le_of_not_lt hlt
    rw [states_processWith, List.getElem?_append_right (by simpa using hle)] at hstate
    exact .inr ⟨hle, List.mem_of_getElem? hstate⟩

/-! ## With the code's associator -/

section
variable {batches : List (Option PlotBatch)}

theorem states_processPlots (ops : DoubleOps) (m : TrackManager)
    (batches : List (Option PlotBatch)) :
    (m.processPlots ops batches).states =
      (m.states.mapIdx fun j state => state.after ops m.config (gatherPlots batches).2
        ((m.call ops batches).own j)) ++
      createTracks ops (gatherPlots batches).2 m.nextTrackId (m.call ops batches).opened := by
  rw [← processWith_associate]
  exact states_processWith (associate (euclidean ops m.config.associationGateM)) batches

end

end TrackManager

end Qdgz300.DataProc
