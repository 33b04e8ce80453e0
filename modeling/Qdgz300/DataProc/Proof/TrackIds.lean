import Mathlib.Data.List.Induction
import Qdgz300.DataProc.Proof.Detections
import Qdgz300.DataProc.Proof.GreedyMatching

/-!
# Track ids

A state is opened with the next id and keeps it, and no state is taken out: while `next_track_id_`
does not wrap, the ids in the list are the numbers from 1 on (`Numbered`). Hence an id finds the one
state that was opened with it, at the place where it was opened. **`track_ids_unique`** collects
what follows for a run.
-/

namespace Qdgz300.DataProc

variable {ops : DoubleOps} {config : TrackManagerConfig} {m : TrackManager}
  {batches : List (Option PlotBatch)}

/-- The ids of some states, as numbers. -/
def idsOf (states : List TrackState) : List Nat := states.map (·.snapshot.trackId.toNat)

theorem targetOf_of_increasing {states : List TrackState} {state : TrackState} {j : Nat}
    (h : (idsOf states).Pairwise (· < ·)) (hj : states[j]? = some state) :
    targetOf states state.snapshot.trackId = some j := by
  obtain ⟨hlt, rfl⟩ := List.getElem?_eq_some_iff.1 hj
  rw [targetOf, List.findIdx?_eq_some_iff_getElem]
  refine ⟨hlt, by simp, ?_⟩
  intro k hk
  have hless := List.pairwise_iff_getElem.1 h k j (by simp [idsOf]; omega)
    (by simp [idsOf]; omega) hk
  simp only [idsOf, List.getElem_map] at hless
  rw [decide_eq_true_iff]
  exact fun heq => Nat.lt_irrefl _ (heq ▸ hless)

/-- Tracks are opened with consecutive ids. -/
theorem idsOf_createTracks (latestTs : BitVec 64) :
    ∀ (plots : List Plot) (id : BitVec 64), id.toNat + plots.length < 2 ^ 64 →
      idsOf (createTracks ops latestTs id plots) = List.range' id.toNat plots.length
  | [], _, _ => rfl
  | plot :: plots, id, hwrap => by
    rw [List.length_cons] at hwrap
    have hnext : (id + 1).toNat = id.toNat + 1 := by
      rw [BitVec.toNat_add_of_lt (show id.toNat + 1 < 2 ^ 64 by omega)]
      rfl
    have ih := idsOf_createTracks latestTs plots (id + 1) (by omega)
    rw [hnext] at ih
    rw [List.length_cons, List.range'_succ, ← ih]
    rfl

namespace TrackManager

/-- The call does not take `next_track_id_` past its 64 bits. -/
def NoWrap (ops : DoubleOps) (m : TrackManager) (batches : List (Option PlotBatch)) : Prop :=
  m.nextTrackId.toNat + (m.call ops batches).unassociated.length < 2 ^ 64

/-- The ids are the numbers from 1 on, and the next one is the number after them. -/
structure Numbered (m : TrackManager) : Prop where
  ids : idsOf m.states = List.range' 1 m.states.length
  next : m.nextTrackId.toNat = m.states.length + 1

/-- How many plots a run left unassociated. -/
def leftOver (ops : DoubleOps) (m : TrackManager) : List (List (Option PlotBatch)) → Nat
  | [] => 0
  | batches :: calls =>
    (m.call ops batches).unassociated.length + leftOver ops (m.processPlots ops batches) calls

/-- The states in the loop over the associations, after those of `before`. -/
def statesAfter (ops : DoubleOps) (m : TrackManager) (batches : List (Option PlotBatch))
    (before : List (Association Double)) : List TrackState :=
  let c := m.call ops batches
  (before.foldl (applyAssociation ops m.config c.latestTs c.plots)
    (c.predicted, List.replicate c.predicted.length false)).1

/-- Every association, when its turn comes, finds the state whose prediction has chosen it, and no
two have the same state. -/
structure FindsStates (ops : DoubleOps) (m : TrackManager) (batches : List (Option PlotBatch)) :
    Prop where
  found : ∀ before a after, (m.call ops batches).associations = before ++ a :: after →
    ∃ t state, (m.call ops batches).predicted[t]? = some state ∧
      choose (euclidean ops m.config.associationGateM) (m.call ops batches).plots
        (m.takenBefore ops batches t) state.prediction = some a ∧
      targetOf (m.statesAfter ops batches before) a.trackId = some t
  apart : ((m.call ops batches).associations.map Association.trackId).Nodup

/-! ## One call -/

theorem idsOf_predicted : idsOf (m.call ops batches).predicted = idsOf m.states := by
  rw [idsOf, show (m.call ops batches).predicted = m.states.map (·.predict ops m.config) from rfl,
    List.map_map]
  rfl

theorem trackId_after (latestTs : BitVec 64) (own : List Plot) (state : TrackState) :
    (state.after ops config latestTs own).snapshot.trackId = state.snapshot.trackId := by
  have hfold : ∀ (own : List Plot) (state : TrackState),
      (own.foldl (fun state plot => state.update ops config latestTs plot) state).snapshot.trackId =
        state.snapshot.trackId := by
    intro own
    induction own with
    | nil => exact fun _ => rfl
    | cons plot own ih => exact fun state => ih (state.update ops config latestTs plot)
  cases own with
  | nil => rfl
  | cons plot own => exact hfold (plot :: own) (state.predict ops config)

theorem idsOf_kept (batches : List (Option PlotBatch)) :
    idsOf (m.states.mapIdx fun j state => state.after ops m.config (gatherPlots batches).2
      ((m.call ops batches).own j)) = idsOf m.states := by
  apply List.ext_getElem?
  intro j
  simp only [idsOf, List.getElem?_map, List.getElem?_mapIdx, Option.map_map, Function.comp_def,
    trackId_after]

/-- **One call** keeps the numbering. -/
theorem Numbered.processPlots (h : m.Numbered) (hwrap : m.NoWrap ops batches) :
    (m.processPlots ops batches).Numbered := by
  have hopened : (m.call ops batches).opened.length = (m.call ops batches).unassociated.length :=
    length_opened
  rw [NoWrap, ← hopened] at hwrap
  refine ⟨?_, ?_⟩
  · have hids : idsOf (m.processPlots ops batches).states = idsOf m.states ++
        idsOf (createTracks ops (gatherPlots batches).2 m.nextTrackId (m.call ops batches).opened) := by
      rw [states_processPlots, idsOf, List.map_append]
      exact congrArg (· ++ _) (idsOf_kept batches)
    rw [hids, idsOf_createTracks _ _ _ hwrap, length_processPlots, ← hopened, h.ids, h.next,
      Nat.add_comm m.states.length 1, List.range'_append_1]
  · rw [length_processPlots, ← hopened]
    have hnext : (m.processPlots ops batches).nextTrackId =
        m.nextTrackId + BitVec.ofNat 64 (m.call ops batches).opened.length := rfl
    rw [hnext, BitVec.toNat_add, BitVec.toNat_ofNat]
    have := h.next
    omega

theorem Numbered.increasing (h : m.Numbered) : (idsOf m.states).Pairwise (· < ·) := by
  rw [h.ids]
  exact List.pairwise_lt_range'

theorem Numbered.id_eq (h : m.Numbered) {j : Nat} {state : TrackState}
    (hj : m.states[j]? = some state) : state.snapshot.trackId.toNat = j + 1 := by
  have hlt : j < m.states.length := (List.getElem?_eq_some_iff.1 hj).1
  have hid : (idsOf m.states)[j]? = some state.snapshot.trackId.toNat := by
    rw [idsOf, List.getElem?_map, hj, Option.map_some]
  rw [h.ids, List.getElem?_range' hlt] at hid
  have := Option.some.inj hid
  omega

/-- The associations of a call find their states. -/
theorem Numbered.findsStates (h : m.Numbered) : m.FindsStates ops batches := by
  have hincreasing : (idsOf (m.call ops batches).predicted).Pairwise (· < ·) := by
    rw [idsOf_predicted]
    exact h.increasing
  refine ⟨?_, ?_⟩
  · intro before a after hsplit
    have ha : a ∈ (m.call ops batches).associations := by
      rw [hsplit]
      exact List.mem_append_right _ List.mem_cons_self
    obtain ⟨t, prediction, ht, hchoose⟩ := (associateFrom_iff _ _).1 ha
    rw [List.getElem?_map, Option.map_eq_some_iff] at ht
    obtain ⟨state, hstate, rfl⟩ := ht
    refine ⟨t, state, hstate, hchoose, ?_⟩
    -- the loop has changed no id
    have hids : (m.statesAfter ops batches before).map (·.snapshot.trackId) =
        (m.call ops batches).predicted.map (·.snapshot.trackId) :=
      foldl_applyAssociation_ids before _
    rw [targetOf_congr a.trackId hids, (choose_spec hchoose).1]
    exact targetOf_of_increasing hincreasing hstate
  · have hsub : ((m.call ops batches).associations.map Association.trackId).Sublist
        (((m.call ops batches).predicted.map TrackState.prediction).map TrackPrediction.trackId) :=
      associateFrom_in_order _ _
    apply List.Nodup.sublist hsub
    rw [List.map_map]
    apply List.Nodup.of_map BitVec.toNat
    rw [List.map_map]
    exact hincreasing.imp Nat.ne_of_lt

/-! ## Runs -/

theorem runCalls_concat (calls : List (List (Option PlotBatch)))
    (batches : List (Option PlotBatch)) :
    runCalls ops m (calls ++ [batches]) = (runCalls ops m calls).processPlots ops batches :=
  List.foldl_concat ..

theorem length_runCalls : ∀ (calls : List (List (Option PlotBatch))) (m : TrackManager),
    (runCalls ops m calls).states.length = m.states.length + leftOver ops m calls
  | [], _ => rfl
  | batches :: calls, m => by
    have hrest : (runCalls ops m (batches :: calls)).states.length =
        (m.processPlots ops batches).states.length +
          leftOver ops (m.processPlots ops batches) calls :=
      length_runCalls calls (m.processPlots ops batches)
    rw [hrest, length_processPlots, leftOver, Nat.add_assoc]

theorem leftOver_append (later : List (List (Option PlotBatch))) :
    ∀ (calls : List (List (Option PlotBatch))) (m : TrackManager),
      leftOver ops m (calls ++ later) = leftOver ops m calls + leftOver ops
        (runCalls ops m calls) later
  | [], m => (Nat.zero_add (leftOver ops m later)).symm
  | batches :: calls, m => by
    have ih := leftOver_append later calls (m.processPlots ops batches)
    simp only [List.cons_append, leftOver, ih, Nat.add_assoc]
    rfl

/-- Wrapping or not, the next id is no more than what was given out. -/
theorem nextTrackId_le : ∀ (calls : List (List (Option PlotBatch))) (m : TrackManager),
    (runCalls ops m calls).nextTrackId.toNat ≤ m.nextTrackId.toNat + leftOver ops m calls
  | [], _ => Nat.le_refl _
  | batches :: calls, m => by
    have hnext : (m.processPlots ops batches).nextTrackId.toNat ≤
        m.nextTrackId.toNat + (m.call ops batches).opened.length := by
      have heq : (m.processPlots ops batches).nextTrackId =
          m.nextTrackId + BitVec.ofNat 64 (m.call ops batches).opened.length := rfl
      rw [heq, BitVec.toNat_add, BitVec.toNat_ofNat]
      omega
    rw [length_opened] at hnext
    have hrest : (runCalls ops m (batches :: calls)).nextTrackId.toNat ≤
        (m.processPlots ops batches).nextTrackId.toNat +
          leftOver ops (m.processPlots ops batches) calls :=
      nextTrackId_le calls (m.processPlots ops batches)
    rw [leftOver]
    omega

theorem tracks_runCalls (calls : List (List (Option PlotBatch))) :
    (runCalls ops { config } calls).tracks = syncSnapshots (runCalls ops { config } calls).states := by
  induction calls using List.reverseRecOn with
  | nil => rfl
  | append_singleton calls batches _ => rw [runCalls_concat]; rfl

theorem numbered_runCalls {calls : List (List (Option PlotBatch))}
    (hwrap : ∀ earlier batches, earlier ++ [batches] <+: calls →
      (runCalls ops { config } earlier).NoWrap ops batches) :
    ∀ earlier, earlier <+: calls → (runCalls ops { config } earlier).Numbered := by
  intro earlier hprefix
  induction earlier using List.reverseRecOn with
  | nil => exact ⟨rfl, rfl⟩
  | append_singleton earlier batches ih =>
    rw [runCalls_concat]
    exact (ih ((List.prefix_append ..).trans hprefix)).processPlots (hwrap earlier batches hprefix)

/-- **When `next_track_id_` wraps**: when the plots left over are as many as there are ids. -/
theorem noWrap_iff (calls : List (List (Option PlotBatch))) :
    (∀ earlier batches, earlier ++ [batches] <+: calls →
      (runCalls ops { config } earlier).NoWrap ops batches) ↔
    leftOver ops { config } calls + 1 < 2 ^ 64 := by
  refine ⟨?_, ?_⟩
  · intro hwrap
    have hnext := (numbered_runCalls hwrap calls (List.prefix_refl _)).next
    rw [length_runCalls] at hnext
    have := (runCalls ops { config } calls).nextTrackId.isLt
    simp only [List.length_nil] at hnext
    omega
  · intro htotal earlier batches hprefix
    obtain ⟨later, rfl⟩ := hprefix
    have hnext : (runCalls ops { config } earlier).nextTrackId.toNat ≤ _ := nextTrackId_le earlier _
    rw [leftOver_append, leftOver_append] at htotal
    have hone : ({ config } : TrackManager).nextTrackId.toNat = 1 := rfl
    simp only [leftOver] at htotal
    rw [NoWrap]
    omega

/-- **Track ids are never used again.** After every call the ids increase along the list of states,
there are as many states as plots were left unassociated, an id that was returned finds the same
place of the list in the rest of the run, and every association of the next call finds its state. -/
theorem track_ids_unique (ops : DoubleOps) (config : TrackManagerConfig)
    (calls : List (List (Option PlotBatch)))
    (hwrap : ∀ earlier batches, earlier ++ [batches] <+: calls →
      (runCalls ops { config } earlier).NoWrap ops batches) :
    ∀ earlier, earlier <+: calls →
      (idsOf (runCalls ops { config } earlier).states).Pairwise (· < ·) ∧
      (runCalls ops { config } earlier).states.length = leftOver ops { config } earlier ∧
      (∀ track ∈ (runCalls ops { config } earlier).tracks, ∃ j, ∀ later, earlier <+: later →
        later <+: calls → targetOf (runCalls ops { config } later).states track.trackId = some j) ∧
      ∀ batches, earlier ++ [batches] <+: calls →
        (runCalls ops { config } earlier).FindsStates ops batches := by
  intro earlier hprefix
  have hnumbered := numbered_runCalls hwrap earlier hprefix
  refine ⟨hnumbered.increasing, ?_, ?_, fun batches _ => hnumbered.findsStates⟩
  · rw [length_runCalls]
    exact Nat.zero_add _
  · intro track htrack
    rw [tracks_runCalls, syncSnapshots] at htrack
    obtain ⟨state, hstate, rfl⟩ := List.mem_map.1 htrack
    obtain ⟨j, hj⟩ := List.mem_iff_getElem?.1 (List.mem_filter.1 hstate).1
    refine ⟨j, ?_⟩
    intro later hlater hrest
    have hlaterNumbered := numbered_runCalls hwrap later hrest
    have hlt : j < (runCalls ops { config } later).states.length :=
      (List.getElem?_eq_some_iff.1 hj).1.trans_le (length_states_mono hlater)
    obtain ⟨state', hj'⟩ : ∃ state', (runCalls ops { config } later).states[j]? = some state' :=
      ⟨_, List.getElem?_eq_getElem hlt⟩
    -- the id at place `j` is `j + 1` at both times
    have hsame : state'.snapshot.trackId = state.snapshot.trackId :=
      BitVec.eq_of_toNat_eq ((hlaterNumbered.id_eq hj').trans (hnumbered.id_eq hj).symm)
    rw [← hsame]
    exact targetOf_of_increasing hlaterNumbered.increasing hj'

/-- Batches of plots at the radar itself. -/
def plotsAtRadar (n : Nat) : List (Option PlotBatch) := List.replicate n (some plotAtRadar)

/-- Two plots open two tracks, which take two of the next three plots; the third opens a track. -/
theorem plotsAtRadar_ids :
    leftOver zeroOps { config := {} } [plotsAtRadar 2, [some noPlots], plotsAtRadar 3] = 3 ∧
    (idsOf (runCalls zeroOps { config := {} }
      [plotsAtRadar 2, [some noPlots], plotsAtRadar 3]).states).Pairwise (· < ·) ∧
    (runCalls zeroOps { config := {} }
      [plotsAtRadar 2, [some noPlots], plotsAtRadar 3]).states.length = 3 := by
  have htotal : leftOver zeroOps { config := {} }
      [plotsAtRadar 2, [some noPlots], plotsAtRadar 3] = 3 := by decide +kernel
  obtain ⟨hids, hlength, -, -⟩ := track_ids_unique zeroOps {}
    [plotsAtRadar 2, [some noPlots], plotsAtRadar 3] ((noWrap_iff _).2 (by rw [htotal]; decide)) _
    (List.prefix_refl _)
  exact ⟨htotal, hids, hlength.trans htotal⟩

end TrackManager

end Qdgz300.DataProc
