import Qdgz300.Common.Types

/-!
# Association of plots with predictions (`m03_data_proc/plot_associator.cpp`)

Each prediction in turn takes the nearest plot that is still free, if it lies in the gate. The
comparison of distances is a parameter, since that of doubles is no order.
-/

namespace Qdgz300.DataProc

/-- A `double` is its bit pattern. -/
abbrev Double := BitVec 64

/-- `Plot`, with the fields that the tracker reads. -/
structure Plot where
  rangeM : Double
  azimuthDeg : Double
  elevationDeg : Double
  arrayId : Byte
  deriving DecidableEq, Repr

structure TrackPrediction where
  trackId : BitVec 64 := 0
  x : Double := 0
  y : Double := 0
  z : Double := 0
  deriving DecidableEq, Repr

/-- `PlotAssociator::Association`. -/
structure Association (D : Type) where
  trackId : BitVec 64
  plotIndex : Nat
  distance : D
  deriving DecidableEq, Repr

/-- How far a plot is from a prediction, and the two tests on distances. -/
structure Metric (D : Type) where
  distance : TrackPrediction → Plot → D
  less : D → D → Bool
  max : D
  inGate : D → Bool

variable {D : Type}

/-- The inner loop of `associate` from plot `i` on: the best distance so far, and whose it is. -/
def nearestFrom (metric : Metric D) (prediction : TrackPrediction) (used : List Nat) :
    Nat → List Plot → D × Nat → D × Nat
  | _, [], best => best
  | i, plot :: rest, best =>
    nearestFrom metric prediction used (i + 1) rest <|
      if i ∈ used then best
      else if metric.less (metric.distance prediction plot) best.1 then
        (metric.distance prediction plot, i)
      else best

/-- What one prediction takes. -/
def choose (metric : Metric D) (plots : List Plot) (used : List Nat)
    (prediction : TrackPrediction) :
    Option (Association D) :=
  let (bestDistance, bestPlot) :=
    nearestFrom metric prediction used 0 plots (metric.max, plots.length)
  if bestPlot < plots.length ∧ metric.inGate bestDistance then
    some { trackId := prediction.trackId, plotIndex := bestPlot, distance := bestDistance }
  else none

/-- The outer loop of `associate`: the associations, and `used_plots` after it. -/
def associateFrom (metric : Metric D) (plots : List Plot) :
    List Nat → List TrackPrediction → List (Association D) × List Nat
  | used, [] => ([], used)
  | used, prediction :: predictions =>
    match choose metric plots used prediction with
    | some association =>
      let (associations, used) :=
        associateFrom metric plots (association.plotIndex :: used) predictions
      (association :: associations, used)
    | none => associateFrom metric plots used predictions

/-- `associate`, with `unassociated_plots_`. -/
def associate (metric : Metric D) (predictions : List TrackPrediction) (plots : List Plot) :
    List (Association D) × List Nat :=
  let (associations, used) := associateFrom metric plots [] predictions
  (associations, (List.range plots.length).filter fun i => i ∉ used)

end Qdgz300.DataProc
