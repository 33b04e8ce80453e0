import Mathlib.Order.Defs.LinearOrder
import Qdgz300.Common.Types

/-!
# The fusion engine (`m03_data_proc/fusion_engine.cpp`)

`fuse` merges the tracks of several arrays. What two tracks must have in common is a parameter
(`should_fuse`, which compares positions, velocities and headings), and so is the order of the
confidences, which are `float`s.
-/

namespace Qdgz300.DataProc

/-- What `should_fuse` reads of a track. -/
structure Kinematics where
  posX : BitVec 64
  posY : BitVec 64
  posZ : BitVec 64
  velX : BitVec 64
  velY : BitVec 64
  velZ : BitVec 64
  headingDeg : BitVec 64
  deriving DecidableEq

def kinematics (track : Track) : Kinematics where
  posX := track.posX
  posY := track.posY
  posZ := track.posZ
  velX := track.velX
  velY := track.velY
  velZ := track.velZ
  headingDeg := track.headingDeg

variable {α : Type*} [LinearOrder α] (shouldFuse : Kinematics → Kinematics → Bool)
  (value : BitVec 32 → α)

/-- The inner loop of `fuse`, over the tracks behind the head and their flags `merged[j]`: the
survivor and the flags. -/
def absorb (survivor : Track) : List Track → List Bool → Track × List Bool
  | track :: tracks, merged :: flags =>
    if merged || !shouldFuse (kinematics survivor) (kinematics track) then
      let scan := absorb survivor tracks flags
      (scan.1, merged :: scan.2)
    else
      let survivor := if value survivor.confidence < value track.confidence then track else survivor
      let scan := absorb { survivor with handoverFlag := 1 } tracks flags
      (scan.1, true :: scan.2)
  | _, flags => (survivor, flags)

/-- The outer loop. -/
def fuseFrom : List Track → List Bool → List Track
  | track :: tracks, merged :: flags =>
    if merged then fuseFrom tracks flags
    else
      let scan := absorb shouldFuse value track tracks flags
      scan.1 :: fuseFrom tracks scan.2
  | _, _ => []

/-- `FusionEngine::fuse`. -/
def fuse (tracks : List Track) : List Track :=
  fuseFrom shouldFuse value tracks (List.replicate tracks.length false)

end Qdgz300.DataProc
