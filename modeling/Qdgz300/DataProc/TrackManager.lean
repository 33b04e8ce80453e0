import Qdgz300.DataProc.PlotAssociator

/-!
# The tracker (`m03_data_proc/track_manager.cpp`, `kalman_filter.cpp`)

Tracks are predicted, matched with the plots of a call, aged when no plot was theirs, and opened for
plots that were nobody's. Floating-point arithmetic is a parameter (`DoubleOps`).
-/

namespace Qdgz300.DataProc

structure DoubleOps where
  add : Double → Double → Double
  sub : Double → Double → Double
  mul : Double → Double → Double
  div : Double → Double → Double
  sqrt : Double → Double
  sin : Double → Double
  cos : Double → Double
  atan2 : Double → Double → Double
  lt : Double → Double → Bool
  le : Double → Double → Bool
  /-- `std::min(1.0f, 0.2f * static_cast<float>(hits))`. -/
  confidence : BitVec 32 → BitVec 32

/-- `kPi`, `180.0`, the gains of the filter and the largest finite double. -/
def piBits : Double := 0x400921FB54442D18
def halfTurn : Double := 0x4066800000000000
def positionGain : Double := 0x3FE3333333333333
def velocityGain : Double := 0x3FD999999999999A
def doubleMax : Double := 0x7FEFFFFFFFFFFFFF

/-- `0.2f`. -/
def firstConfidence : BitVec 32 := 0x3E4CCCCD

/-- `TrackLifecycle`. -/
inductive TrackLifecycle where
  | tentative | confirmed | coasting | lost | deleted
  deriving DecidableEq, Repr

/-- The value of `lifecycle_state`. -/
def TrackLifecycle.toByte : TrackLifecycle → Byte
  | .tentative => 0
  | .confirmed => 1
  | .coasting => 2
  | .lost => 3
  | .deleted => 4

/-! ## The filter -/

structure KalmanFilter where
  initialized : Bool := false
  x : Double := 0
  y : Double := 0
  z : Double := 0
  vx : Double := 0
  vy : Double := 0
  vz : Double := 0
  deriving DecidableEq, Repr

namespace KalmanFilter

def init (x y z : Double) : KalmanFilter := { initialized := true, x, y, z }

def predict (ops : DoubleOps) (f : KalmanFilter) (dtSec : Double) : KalmanFilter :=
  if f.initialized then
    { f with
      x := ops.add f.x (ops.mul f.vx dtSec)
      y := ops.add f.y (ops.mul f.vy dtSec)
      z := ops.add f.z (ops.mul f.vz dtSec) }
  else f

def update (ops : DoubleOps) (f : KalmanFilter) (x y z : Double) : KalmanFilter :=
  if f.initialized then
    { f with
      x := ops.add f.x (ops.mul positionGain (ops.sub x f.x))
      y := ops.add f.y (ops.mul positionGain (ops.sub y f.y))
      z := ops.add f.z (ops.mul positionGain (ops.sub z f.z))
      vx := ops.add f.vx (ops.mul velocityGain (ops.sub x f.x))
      vy := ops.add f.vy (ops.mul velocityGain (ops.sub y f.y))
      vz := ops.add f.vz (ops.mul velocityGain (ops.sub z f.z)) }
  else init x y z

def headingDeg (ops : DoubleOps) (f : KalmanFilter) : Double :=
  ops.div (ops.mul (ops.atan2 f.vy f.vx) halfTurn) piBits

end KalmanFilter

/-- `plot_to_cartesian`, which both files of the tracker define. -/
def plotToCartesian (ops : DoubleOps) (plot : Plot) : Double × Double × Double :=
  let az := ops.div (ops.mul plot.azimuthDeg piBits) halfTurn
  let el := ops.div (ops.mul plot.elevationDeg piBits) halfTurn
  (ops.mul (ops.mul plot.rangeM (ops.cos el)) (ops.cos az),
    ops.mul (ops.mul plot.rangeM (ops.cos el)) (ops.sin az), ops.mul plot.rangeM (ops.sin el))

/-- The distance of `associate`, in metres. -/
def euclidean (ops : DoubleOps) (gateThresholdM : Double) : Metric Double where
  distance prediction plot :=
    let (x, y, z) := plotToCartesian ops plot
    let dx := ops.sub x prediction.x
    let dy := ops.sub y prediction.y
    let dz := ops.sub z prediction.z
    ops.sqrt (ops.add (ops.add (ops.mul dx dx) (ops.mul dy dy)) (ops.mul dz dz))
  less := ops.lt
  max := doubleMax
  inGate d := ops.le d gateThresholdM

/-! ## Tracks -/

structure TrackManagerConfig where
  confirmHits : BitVec 32 := 3
  coastAfterMisses : BitVec 32 := 3
  lostAfterMisses : BitVec 32 := 10
  associationGateM : Double := 0x405E000000000000
  predictDtSec : Double := 0x3FA999999999999A

structure TrackState where
  snapshot : Track
  filter : KalmanFilter
  hits : BitVec 32 := 0
  misses : BitVec 32 := 0
  deriving DecidableEq

/-- `PlotBatch`, with the fields that the tracker reads; the array holds the counted plots. -/
structure PlotBatch where
  dataTs : BitVec 64
  plotCount : BitVec 16
  plots : Option (List Plot)
  counted : ∀ ps ∈ plots, plotCount.toNat ≤ ps.length

structure TrackManager where
  config : TrackManagerConfig
  nextTrackId : BitVec 64 := 1
  states : List TrackState := []
  tracks : List Track := []

/-- The first loop of `process_plots`: the plots of the batches and the latest of their times. A
null batch, or one without an array, is passed over. -/
def gatherPlots (batches : List (Option PlotBatch)) : List Plot × BitVec 64 :=
  batches.foldl (fun (plots, latestTs) batch =>
    match batch with
    | none => (plots, latestTs)
    | some batch =>
      match batch.plots with
      | none => (plots, latestTs)
      | some ps => (plots ++ ps.take batch.plotCount.toNat,
          if latestTs < batch.dataTs then batch.dataTs else latestTs)) ([], 0)

/-- The prediction of one state. -/
def TrackState.predict (ops : DoubleOps) (config : TrackManagerConfig) (state : TrackState) :
    TrackState :=
  { state with filter := state.filter.predict ops config.predictDtSec }

def TrackState.prediction (state : TrackState) : TrackPrediction where
  trackId := state.snapshot.trackId
  x := state.filter.x
  y := state.filter.y
  z := state.filter.z

/-- The state of a track that a plot was associated with. -/
def TrackState.update (ops : DoubleOps) (config : TrackManagerConfig) (latestTs : BitVec 64)
    (plot : Plot) (state : TrackState) : TrackState :=
  let (x, y, z) := plotToCartesian ops plot
  let filter := state.filter.update ops x y z
  let hits := state.hits + 1
  { filter
    hits
    misses := 0
    snapshot := { state.snapshot with
      posX := filter.x
      posY := filter.y
      posZ := filter.z
      velX := filter.vx
      velY := filter.vy
      velZ := filter.vz
      headingDeg := filter.headingDeg ops
      confidence := ops.confidence hits
      sourceArrayId := plot.arrayId
      updateTs := latestTs
      lifecycleState :=
        if state.snapshot.lifecycleState = TrackLifecycle.tentative.toByte ∧
            config.confirmHits ≤ hits then TrackLifecycle.confirmed.toByte
        else if state.snapshot.lifecycleState = TrackLifecycle.coasting.toByte then
          TrackLifecycle.confirmed.toByte
        else state.snapshot.lifecycleState } }

/-- The state of a track that no plot was associated with. -/
def TrackState.miss (config : TrackManagerConfig) (latestTs : BitVec 64) (state : TrackState) :
    TrackState :=
  let misses := state.misses + 1
  { state with
    misses
    snapshot := { state.snapshot with
      coastFrames := misses
      lifecycleState :=
        if config.lostAfterMisses ≤ misses then TrackLifecycle.lost.toByte
        else if config.coastAfterMisses ≤ misses then TrackLifecycle.coasting.toByte
        else state.snapshot.lifecycleState
      updateTs := latestTs } }

/-- The state of a new track. -/
def TrackState.new (ops : DoubleOps) (latestTs : BitVec 64) (trackId : BitVec 64) (plot : Plot) :
    TrackState :=
  let (x, y, z) := plotToCartesian ops plot
  { filter := .init x y z
    hits := 1
    snapshot := {
      trackId
      posX := x
      posY := y
      posZ := z
      velX := 0
      velY := 0
      velZ := 0
      headingDeg := 0
      confidence := firstConfidence
      lifecycleState := TrackLifecycle.tentative.toByte
      sourceArrayId := plot.arrayId
      handoverFlag := 0
      handoverFrom := 0
      coastFrames := 0
      padding := 0
      createTs := latestTs
      updateTs := latestTs } }

/-! ## One call -/

/-- The state that an association goes to: the first with its id. -/
def targetOf (states : List TrackState) (trackId : BitVec 64) : Option Nat :=
  states.findIdx? fun state => state.snapshot.trackId = trackId

/-- One iteration of the loop over the associations, on the states and `matched`. -/
def applyAssociation (ops : DoubleOps) (config : TrackManagerConfig) (latestTs : BitVec 64)
    (plots : List Plot) (acc : List TrackState × List Bool) (association : Association Double) :
    List TrackState × List Bool :=
  match targetOf acc.1 association.trackId, plots[association.plotIndex]? with
  | some i, some plot =>
    (acc.1.modify i (·.update ops config latestTs plot), acc.2.set i true)
  | _, _ => acc

/-- The loop that opens tracks. -/
def createTracks (ops : DoubleOps) (latestTs : BitVec 64) :
    BitVec 64 → List Plot → List TrackState
  | _, [] => []
  | nextTrackId, plot :: plots =>
    .new ops latestTs nextTrackId plot :: createTracks ops latestTs (nextTrackId + 1) plots

/-- `sync_snapshots`. -/
def syncSnapshots (states : List TrackState) : List Track :=
  (states.filter fun state => state.snapshot.lifecycleState ≠ TrackLifecycle.lost.toByte).map
    TrackState.snapshot

namespace TrackManager

/-- What a call sees: the plots, their time and the associations. -/
structure Call where
  plots : List Plot
  latestTs : BitVec 64
  predicted : List TrackState
  associations : List (Association Double)
  unassociated : List Nat

/-- The first part of `process_plots`, up to the association. -/
def call (ops : DoubleOps) (m : TrackManager) (batches : List (Option PlotBatch)) : Call :=
  let (plots, latestTs) := gatherPlots batches
  let predicted := m.states.map (·.predict ops m.config)
  let (associations, unassociated) :=
    associate (euclidean ops m.config.associationGateM) (predicted.map TrackState.prediction) plots
  { plots, latestTs, predicted, associations, unassociated }

/-- `process_plots`; the returned list is `tracks` of the new state. -/
def processPlots (ops : DoubleOps) (m : TrackManager) (batches : List (Option PlotBatch)) :
    TrackManager :=
  let c := m.call ops batches
  let (states, isMatched) := c.associations.foldl (applyAssociation ops m.config c.latestTs c.plots)
    (c.predicted, List.replicate c.predicted.length false)
  let states := List.zipWith
    (fun state hit => if hit then state else state.miss m.config c.latestTs) states isMatched
  let opened := c.unassociated.filterMap fun i => c.plots[i]?
  let states := states ++ createTracks ops c.latestTs m.nextTrackId opened
  { m with
    nextTrackId := m.nextTrackId + BitVec.ofNat 64 opened.length
    states
    tracks := syncSnapshots states }

end TrackManager

end Qdgz300.DataProc
