import Stm32Foc.Angles
import Stm32Foc.Calibration

/-! # The hall calibrator

    The routine that turns the rotor a full electrical revolution forward and back
    and records, for each hall pattern, the angle of its edge: the arrival at the
    pattern on the way forward, the departure from it on the way back. -/

namespace Commission

open FieldOriented Calibration

variable {K : Type} [Field K] [LinearOrder K]

/-- A sweep of the rotor. -/
structure Sweep (K : Type) where
  targetTheta : K
  firstEdge : Option UInt8
  prevPattern : UInt8
  numEdges : UInt8
  deriving DecidableEq

inductive CalibrationState (K : Type) where
  | initialSettle (waitedS : K)
  | sweepingForward (sweep : Sweep K)
  | sweepingReverse (sweep : Sweep K)
  | done (targetTheta : K)
  deriving DecidableEq

structure HallCalibrator (K : Type) where
  state : CalibrationState K
  initialSettleTimeS : K
  dt : K
  hallPatternToTheta : HallCalibration K
  deriving DecidableEq

/-- `u8::saturating_add`, of one. -/
def saturatingSucc (n : UInt8) : UInt8 := if n < 255 then n + 1 else n

/-- `hall_pattern.clamp(1, 6) - 1` -/
def patternIndex (hallPattern : UInt8) : Fin 6 :=
  ⟨max 1 (min hallPattern.toNat 6) - 1, by omega⟩

/-- A sweep that starts at a pattern. -/
def Sweep.start (targetTheta : K) (prevPattern : UInt8) : Sweep K where
  targetTheta := targetTheta
  firstEdge := none
  prevPattern := prevPattern
  numEdges := 0

namespace HallCalibrator

/-- `HallCalibrator::new` -/
def new (initialSettleTimeS dt : K) : HallCalibrator K where
  state := .initialSettle 0
  initialSettleTimeS := initialSettleTimeS
  dt := dt
  hallPatternToTheta := Vector.replicate 6 0

/-- `HallCalibrator::start` -/
def start (self : HallCalibrator K) : HallCalibrator K :=
  { self with
    state := .initialSettle 0
    hallPatternToTheta := Vector.replicate 6 0 }

/-- `HallCalibrator::check_calibration_done` -/
def checkCalibrationDone (self : HallCalibrator K) : Bool :=
  match self.state with
  | .done _ => true
  | _ => false

/-- The step that aligns the rotor to a known start angle. -/
def settleStep (self : HallCalibrator K) (waitedS : K) (hallPattern : UInt8) :
    Except HallCalibrationFault K × HallCalibrator K :=
  let waitedS := waitedS + self.dt
  if waitedS ≥ self.initialSettleTimeS then
    (.ok 0, { self with state := .sweepingForward (.start 0 hallPattern) })
  else (.ok 0, { self with state := .initialSettle waitedS })

variable [FloorRing K]

/-- A sweep forward goes on to the next target. -/
def forwardOn (self : HallCalibrator K) (sweep : Sweep K) (hallPattern : UInt8)
    (omega : K) : Except HallCalibrationFault K × HallCalibrator K :=
  let targetTheta := wrapTo2pi (sweep.targetTheta + omega * self.dt)
  (.ok targetTheta,
    { self with
      state := .sweepingForward
        { sweep with prevPattern := hallPattern, targetTheta := targetTheta } })

/-- The step that turns the rotor forward. -/
def forwardStep (self : HallCalibrator K) (sweep : Sweep K) (hallPattern : UInt8)
    (omega : K) : Except HallCalibrationFault K × HallCalibrator K :=
  if sweep.prevPattern ≠ hallPattern then
    if sweep.firstEdge = some hallPattern ∧ (5 : UInt8) ≤ sweep.numEdges then
      (.ok sweep.targetTheta,
        { self with
          state := .sweepingReverse (.start sweep.targetTheta hallPattern) })
    else
      let sweep :=
        { sweep with
          firstEdge := some (sweep.firstEdge.getD hallPattern)
          numEdges := saturatingSucc sweep.numEdges }
      let self :=
        { self with
          hallPatternToTheta := self.hallPatternToTheta.set
            (patternIndex hallPattern) sweep.targetTheta }
      self.forwardOn sweep hallPattern omega
  else self.forwardOn sweep hallPattern omega

/-- A sweep back goes on to the next target. -/
def reverseOn (self : HallCalibrator K) (sweep : Sweep K) (hallPattern : UInt8)
    (omega : K) : Except HallCalibrationFault K × HallCalibrator K :=
  let targetTheta := wrapTo2pi (sweep.targetTheta - omega * self.dt)
  (.ok targetTheta,
    { self with
      state := .sweepingReverse
        { sweep with prevPattern := hallPattern, targetTheta := targetTheta } })

/-- The step that turns the rotor back.  Forward the angle of the arrival at a
    pattern was recorded, so here it is the departure from it that has to agree. -/
def reverseStep (self : HallCalibrator K) (sweep : Sweep K) (hallPattern : UInt8)
    (omega : K) : Except HallCalibrationFault K × HallCalibrator K :=
  if sweep.prevPattern ≠ hallPattern then
    match sweep.firstEdge with
    | some firstPattern =>
        let idx := patternIndex sweep.prevPattern
        let forward := self.hallPatternToTheta[idx]
        let disagreement := wrappedDiff sweep.targetTheta forward
        if |disagreement| > pi / 6.0 then (.error .edgeDisagreement, self)
        else
          -- the mean of the two is the location of the edge
          let self :=
            { self with
              hallPatternToTheta := self.hallPatternToTheta.set idx
                (wrapTo2pi (forward + 0.5 * disagreement)) }
          let sweep := { sweep with numEdges := saturatingSucc sweep.numEdges }
          if firstPattern = hallPattern ∧ (5 : UInt8) ≤ sweep.numEdges then
            (.ok sweep.targetTheta, { self with state := .done sweep.targetTheta })
          else self.reverseOn sweep hallPattern omega
    | none =>
        self.reverseOn { sweep with firstEdge := some hallPattern } hallPattern omega
  else self.reverseOn sweep hallPattern omega

/-- `HallCalibrator::calibration_step` -/
def calibrationStep (self : HallCalibrator K) (hallPattern : UInt8) (omega : K) :
    Except HallCalibrationFault K × HallCalibrator K :=
  match self.state with
  | .initialSettle waitedS => self.settleStep waitedS hallPattern
  | .sweepingForward sweep => self.forwardStep sweep hallPattern omega
  | .sweepingReverse sweep => self.reverseStep sweep hallPattern omega
  | .done targetTheta => (.ok targetTheta, self)

/-- `impl HallCalibrates for HallCalibrator` -/
instance : HallCalibrates (HallCalibrator K) K where
  new := HallCalibrator.new
  start := HallCalibrator.start
  checkCalibrationDone := HallCalibrator.checkCalibrationDone
  calibrationStep := HallCalibrator.calibrationStep
  angleTable := HallCalibrator.hallPatternToTheta

end HallCalibrator

end Commission
