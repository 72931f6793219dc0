import Stm32Foc.Angles
import Stm32Foc.SwapSort

/-! # The hall estimator

    The estimate of the rotor's angle and speed from the hall sensors: the tables that a
    calibration gives, the state of the interpolation, and the estimate of a sample. -/

namespace FieldOriented

variable {K : Type} [Field K] [LinearOrder K]

/-! ## The interpolation state -/

inductive HallInterpolationState where
  | stationary
  | directionChange
  | normal
  deriving DecidableEq, Repr

/-- `HallInterpolationState::step` -/
def HallInterpolationState.step (self : HallInterpolationState)
    (prevPattern pattern : UInt8) (prevDir dir : Int) : HallInterpolationState :=
  match self with
  | .stationary => if prevPattern ≠ pattern then .directionChange else .stationary
  | .directionChange =>
      if prevPattern ≠ pattern ∧ prevDir = dir then .normal else .directionChange
  | .normal => if prevDir ≠ dir then .directionChange else .normal

structure HallEstimatorInput (K : Type) where
  prevHallPattern : UInt8
  hallPattern : UInt8
  tickCounter : UInt32
  previousPeriodReciprocal : K
  tickFrequencyHz : K
  deriving DecidableEq

structure HallEstimatorOutput (K : Type) where
  theta : K
  omega : K
  deriving DecidableEq

/-! ## The tables -/

/-- The tables of a calibration, indexed by pattern - 1. -/
structure HallTables (K : Type) where
  hallPatternToTheta : HallCalibration K
  /-- From the edge of a sector to the next edge in the forward direction. -/
  sectorSpan : Vector K 6
  sectorSpanReciprocal : Vector K 6
  /-- The pattern that a sector leads to. -/
  forwardNext : Vector UInt8 6
  deriving DecidableEq

structure HallEstimator (K : Type) where
  tables : Option (HallTables K)
  state : HallInterpolationState
  prevPattern : UInt8
  prevDir : Int
  deriving DecidableEq

/-- `(pattern.wrapping_sub(1) as usize).min(5)` -/
def sectorIndex (pattern : UInt8) : Fin 6 := ⟨min (pattern - 1).toNat 5, by omega⟩

/-- The pattern stored at an index. -/
def patternAt (idx : Fin 6) : UInt8 := UInt8.ofNat (idx.val + 1)

/-- The angles with their patterns, sorted by angle. -/
def byAngle (calibrations : HallCalibration K) : Vector (K × UInt8) 6 :=
  SwapSort.rounds Prod.fst (Vector.ofFn fun i => (calibrations.get i, patternAt i)) 5
    (by decide)

/-- `(i + 1) % 6` -/
def nextPlace (i : Fin 6) : Fin 6 := i + 1

/-- What the walk over the sorted sequence records at its `i`-th entry. -/
def HallTables.record (sorted : Vector (K × UInt8) 6) (tables : HallTables K) (i : Fin 6) :
    HallTables K :=
  let (angle, pattern) := sorted.get i
  let (nextAngle, nextPattern) := sorted.get (nextPlace i)
  let idx := sectorIndex pattern
  let gap := nextAngle - angle
  let span := if gap < 0 then gap + tau else gap
  { tables with
    forwardNext := tables.forwardNext.set idx nextPattern
    sectorSpan := tables.sectorSpan.set idx span
    sectorSpanReciprocal :=
      tables.sectorSpanReciprocal.set idx (if span > 0 then 1 / span else 0) }

/-- The tables of a calibration. -/
def HallTables.ofCalibration (calibrations : HallCalibration K) : HallTables K :=
  (List.finRange 6).foldl (HallTables.record (byAngle calibrations)) {
    hallPatternToTheta := calibrations
    sectorSpan := Vector.replicate 6 0
    sectorSpanReciprocal := Vector.replicate 6 0
    forwardNext := Vector.replicate 6 0 }

namespace HallEstimator

/-- `HallEstimator::new` -/
def new : HallEstimator K where
  tables := none
  state := .stationary
  prevPattern := 0
  prevDir := 0

/-- `HallEstimator::set_calibration` -/
def setCalibration (self : HallEstimator K) (calibrations : HallCalibration K) :
    HallEstimator K :=
  { self with tables := some (HallTables.ofCalibration calibrations) }

/-- `HallEstimator::direction`: forward is 1, and `none` is an edge that was skipped or a
    corrupt pattern. -/
def direction (forwardNext : Vector UInt8 6) (prevPattern pattern : UInt8) : Option Int :=
  if ¬(1 ≤ prevPattern ∧ prevPattern ≤ 6) ∨ ¬(1 ≤ pattern ∧ pattern ≤ 6) then none
  else if prevPattern = pattern then some 0
  else if forwardNext.get (sectorIndex prevPattern) = pattern then some 1
  else if forwardNext.get (sectorIndex pattern) = prevPattern then some (-1)
  else none

/-- The angle and the speed that a sample gives in a state of the interpolation. -/
def interpolate (tables : HallTables K) (state : HallInterpolationState) (dir : Int)
    (input : HallEstimatorInput K) : K × K :=
  let prevIdx := sectorIndex input.prevHallPattern
  let idx := sectorIndex input.hallPattern
  -- the angles are those of the edges on the way forward
  let entryIdx := if dir ≥ 0 then idx else prevIdx
  let prevSpan := tables.sectorSpan.get prevIdx
  let span := tables.sectorSpan.get idx
  let fraction := (input.tickCounter.toNat : K) * input.previousPeriodReciprocal
  match state with
  | .stationary => (tables.hallPatternToTheta.get idx + 0.5 * span, 0)
  | .directionChange =>
      let thetaInterpolation := (dir : K) * clamp (prevSpan * fraction) 0 (0.5 * span)
      (tables.hallPatternToTheta.get entryIdx + thetaInterpolation, 0)
  | .normal =>
      let thetaInterpolation := (dir : K) * clamp (prevSpan * fraction) 0 span
      let signedPrevSpan := (dir : K) * prevSpan
      let omega := signedPrevSpan * input.previousPeriodReciprocal * input.tickFrequencyHz
      let effectiveFraction := prevSpan * tables.sectorSpanReciprocal.get idx * fraction
      (tables.hallPatternToTheta.get entryIdx + thetaInterpolation,
        if effectiveFraction > 1 then omega / effectiveFraction else omega)

/-- The direction of a sample, and the estimator that goes on with it: where there is
    none, it starts again from standstill. -/
def takeDirection (self : HallEstimator K) (tables : HallTables K)
    (input : HallEstimatorInput K) : Int × HallEstimator K :=
  match direction tables.forwardNext input.prevHallPattern input.hallPattern with
  | some dir => (dir, self)
  | none => (0, { self with state := .stationary, prevPattern := input.hallPattern })

/-- `HallEstimator::get_estimate` -/
def getEstimate [FloorRing K] (self : HallEstimator K) (input : HallEstimatorInput K) :
    Except RotorFeedbackFault (HallEstimatorOutput K) × HallEstimator K :=
  match self.tables with
  | none => (.error .notCalibrated, self)
  | some tables =>
      if input.hallPattern = 0 ∨ input.hallPattern = 7 then (.error .erroneousValue, self)
      else
        -- the first valid sample is the baseline, 0 being no pattern
        let self := if self.prevPattern = 0 then
          { self with prevPattern := input.hallPattern } else self
        let (dir, self) := self.takeDirection tables input
        let state := self.state.step self.prevPattern input.hallPattern self.prevDir dir
        let (theta, omega) := interpolate tables state dir input
        (.ok { theta := wrapTo2pi theta, omega := omega },
          { self with state := state, prevPattern := input.hallPattern, prevDir := dir })

/-- `HallEstimator::invalidate` -/
def invalidate (self : HallEstimator K) : HallEstimator K := { self with tables := none }

/-- `HallEstimator::get_calibration` -/
def getCalibration (self : HallEstimator K) : Option (HallCalibration K) :=
  self.tables.map (·.hallPatternToTheta)

end HallEstimator

end FieldOriented
