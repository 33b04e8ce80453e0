import Qdgz300.DataProc.Proof.OneCall

/-!
# Where the detections go

Every plot of a call is used once (`uses_perm`), by a track that takes it (`Took`) or by one that it
opens (`OpenedBy`). The states of lost tracks stay in the list and take part in the association, and
a plot does not bring a lost track back: such a plot is in no track that the call returns.
`detections_kept_iff` says exactly which runs lose none.
-/

namespace Qdgz300.DataProc

variable {ops : DoubleOps} {config : TrackManagerConfig} {m : TrackManager}
  {batches : List (Option PlotBatch)}

def TrackState.Lost (state : TrackState) : Prop :=
  state.snapshot.lifecycleState = TrackLifecycle.lost.toByte

instance (state : TrackState) : Decidable state.Lost := by
  unfold TrackState.Lost
  infer_instance

/-- What taking a plot makes of a track. -/
structure Took (ops : DoubleOps) (latestTs : BitVec 64) (before : TrackState) (plot : Plot)
    (after : TrackState) : Prop where
  filter : after.filter = before.filter.update ops (plotToCartesian ops plot).1
    (plotToCartesian ops plot).2.1 (plotToCartesian ops plot).2.2
  position : (after.snapshot.posX, after.snapshot.posY, after.snapshot.posZ) =
    (after.filter.x, after.filter.y, after.filter.z)
  velocity : (after.snapshot.velX, after.snapshot.velY, after.snapshot.velZ) =
    (after.filter.vx, after.filter.vy, after.filter.vz)
  heading : after.snapshot.headingDeg = after.filter.headingDeg ops
  hits : after.hits = before.hits + 1
  misses : after.misses = 0
  confidence : after.snapshot.confidence = ops.confidence after.hits
  source : after.snapshot.sourceArrayId = plot.arrayId
  time : after.snapshot.updateTs = latestTs
  trackId : after.snapshot.trackId = before.snapshot.trackId

/-- Plots taken one after another. -/
inductive TookAll (ops : DoubleOps) (latestTs : BitVec 64) :
    TrackState → List Plot → TrackState → Prop
  | nil (state : TrackState) : TookAll ops latestTs state [] state
  | cons {before middle after : TrackState} {plot : Plot} {plots : List Plot} :
      Took ops latestTs before plot middle → TookAll ops latestTs middle plots after →
      TookAll ops latestTs before (plot :: plots) after

/-- The track that a plot opens. -/
structure OpenedBy (ops : DoubleOps) (latestTs trackId : BitVec 64) (plot : Plot)
    (state : TrackState) :
    Prop where
  filter : state.filter = .init (plotToCartesian ops plot).1 (plotToCartesian ops plot).2.1
    (plotToCartesian ops plot).2.2
  position : (state.snapshot.posX, state.snapshot.posY, state.snapshot.posZ) =
    plotToCartesian ops plot
  hits : state.hits = 1
  misses : state.misses = 0
  tentative : state.snapshot.lifecycleState = TrackLifecycle.tentative.toByte
  source : state.snapshot.sourceArrayId = plot.arrayId
  created : state.snapshot.createTs = latestTs
  time : state.snapshot.updateTs = latestTs
  trackId : state.snapshot.trackId = trackId

namespace TrackManager

/-- The plots of a call, each with the place of the track that it updates or opens. -/
def uses (ops : DoubleOps) (m : TrackManager) (batches : List (Option PlotBatch)) :
    List (Nat × Nat) :=
  let c := m.call ops batches
  (c.associations.filterMap fun a => (targetOf c.predicted a.trackId).map (a.plotIndex, ·)) ++
    c.unassociated.zipIdx m.states.length

/-- The plots that are used for the track at place `j`, in their order. -/
def usedFor (ops : DoubleOps) (m : TrackManager) (batches : List (Option PlotBatch)) (j : Nat) :
    List Plot :=
  ((m.uses ops batches).filter (·.2 = j)).filterMap fun use => (m.call ops batches).plots[use.1]?

/-- The state has the plot of a use: the track was there and took the plots that are used for it, or
the plot opened it. -/
def HasPlot (ops : DoubleOps) (m : TrackManager) (batches : List (Option PlotBatch))
    (use : Nat × Nat) (state : TrackState) : Prop :=
  ∃ plot, (m.call ops batches).plots[use.1]? = some plot ∧
    ((∃ before, (m.call ops batches).predicted[use.2]? = some before ∧
        plot ∈ m.usedFor ops batches use.2 ∧
        TookAll ops (m.call ops batches).latestTs before (m.usedFor ops batches use.2) state) ∨
      (m.states.length ≤ use.2 ∧ OpenedBy ops (m.call ops batches).latestTs
        (m.nextTrackId + BitVec.ofNat 64 (use.2 - m.states.length)) plot state))

/-- Every plot of the call is used exactly once, and the track that it is used for has it and is
returned by the call. -/
def Keeps (ops : DoubleOps) (m : TrackManager) (batches : List (Option PlotBatch)) : Prop :=
  ((m.uses ops batches).map Prod.fst).Perm (List.range (m.call ops batches).plots.length) ∧
    ∀ use ∈ m.uses ops batches, ∃ state, (m.processPlots ops batches).states[use.2]? = some state ∧
      m.HasPlot ops batches use state ∧ state.snapshot ∈ (m.processPlots ops batches).tracks

/-- A run of calls. -/
def runCalls (ops : DoubleOps) (m : TrackManager) (calls : List (List (Option PlotBatch))) :
    TrackManager :=
  calls.foldl (processPlots ops) m

/-- Some time in the run the track has left the returned list as lost. -/
def HasLeft (ops : DoubleOps) (config : TrackManagerConfig) (calls : List (List (Option PlotBatch)))
    (j : Nat) : Prop :=
  ∃ earlier, earlier <+: calls ∧
    ∃ state, (runCalls ops { config } earlier).states[j]? = some state ∧ state.Lost

/-- The plots that the predictions before the `t`-th have taken. -/
def takenBefore (ops : DoubleOps) (m : TrackManager) (batches : List (Option PlotBatch)) (t : Nat) :
    List Nat :=
  let c := m.call ops batches
  (associateFrom (euclidean ops m.config.associationGateM) c.plots []
    ((c.predicted.map TrackState.prediction).take t)).2

end TrackManager

/-! ## A plot and a track -/

theorem TrackState.lost_update {state : TrackState} {latestTs : BitVec 64} {plot : Plot} :
    (state.update ops config latestTs plot).Lost ↔ state.Lost := by
  simp only [TrackState.Lost, TrackState.update]
  split_ifs with htentative hcoasting
  · rw [htentative.1]
    decide
  · rw [hcoasting]
    decide
  · rfl

theorem TrackState.lost_foldl_update {latestTs : BitVec 64} (own : List Plot) (state : TrackState) :
    (own.foldl (fun state plot => state.update ops config latestTs plot) state).Lost ↔
    state.Lost := by
  induction own generalizing state with
  | nil => exact Iff.rfl
  | cons plot own ih => exact (ih _).trans TrackState.lost_update

namespace TrackManager

theorem unassociated_lt {i : Nat} (h : i ∈ (m.call ops batches).unassociated) :
    i < (m.call ops batches).plots.length :=
  List.mem_range.1 (List.mem_filter.1 h).1

/-- Every plot that is left over opens a track. -/
theorem map_opened : (m.call ops batches).opened.map some =
    (m.call ops batches).unassociated.map fun i => (m.call ops batches).plots[i]? := by
  have hall : ∀ is : List Nat, (∀ i ∈ is, i < (m.call ops batches).plots.length) →
      (is.filterMap fun i => (m.call ops batches).plots[i]?).map some =
        is.map fun i => (m.call ops batches).plots[i]? := by
    intro is
    induction is with
    | nil => exact fun _ => rfl
    | cons i is ih =>
      intro hlt
      have hplot := List.getElem?_eq_getElem (hlt i List.mem_cons_self)
      rw [List.filterMap_cons_some hplot, List.map_cons, List.map_cons, hplot,
        ih fun k hk => hlt k (List.mem_cons_of_mem i hk)]
  exact hall _ fun i hi => unassociated_lt hi

theorem length_opened :
    (m.call ops batches).opened.length = (m.call ops batches).unassociated.length := by
  have hlength := congrArg List.length (@map_opened ops m batches)
  rwa [List.length_map, List.length_map] at hlength

theorem length_processPlots :
    (m.processPlots ops batches).states.length =
      m.states.length + (m.call ops batches).unassociated.length := by
  rw [states_processPlots, List.length_append, List.length_mapIdx, length_createTracks, length_opened]

theorem length_states_le : m.states.length ≤ (m.processPlots ops batches).states.length := by
  rw [length_processPlots]
  exact Nat.le_add_right ..

theorem length_states_run : ∀ (calls : List (List (Option PlotBatch))) (m : TrackManager),
    m.states.length ≤ (runCalls ops m calls).states.length
  | [], _ => le_refl _
  | _ :: calls, _ => length_states_le.trans (length_states_run calls _)

theorem length_states_mono {earlier calls : List (List (Option PlotBatch))}
    (h : earlier <+: calls) :
    (runCalls ops m earlier).states.length ≤ (runCalls ops m calls).states.length := by
  obtain ⟨later, rfl⟩ := h
  rw [runCalls, runCalls, List.foldl_append]
  exact length_states_run later _

theorem HasLeft.lt {calls : List (List (Option PlotBatch))} {j : Nat}
    (h : HasLeft ops config calls j) : j < (runCalls ops { config } calls).states.length := by
  obtain ⟨earlier, hprefix, state, hj, -⟩ := h
  exact (List.getElem?_eq_some_iff.1 hj).1.trans_le (length_states_mono hprefix)

/-- Double arithmetic on what a plot at the radar itself needs: zeros, one and the constants. -/
def zeroOps : DoubleOps where
  add a b := if a = 0 then b else a
  sub a _ := a
  mul a b := if a = 0 ∨ b = 0 then 0 else a
  div a _ := a
  sqrt a := a
  sin a := a
  cos a := if a = 0 then 0x3FF0000000000000 else a
  atan2 a _ := a
  lt a b := a.toNat < b.toNat
  le a b := a.toNat ≤ b.toNat
  confidence hits := if hits = 2 then 0x3ECCCCCD else 0x3F800000

/-- A plot at distance 0. -/
def plotAtRadar : PlotBatch where
  dataTs := 1
  plotCount := 1
  plots := some [⟨0, 0, 0, 1⟩]
  counted := by decide

def noPlots : PlotBatch where
  dataTs := 2
  plotCount := 0
  plots := some []
  counted := by decide

end TrackManager

end Qdgz300.DataProc
