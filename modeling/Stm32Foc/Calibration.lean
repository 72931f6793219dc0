import Stm32Foc.Faults
import Mathlib.Algebra.Field.Rat
import Mathlib.Algebra.Order.Ring.Rat
import Mathlib.Data.Rat.Cast.OfScientific

/-! # The calibration runner

    The state machine that drives a calibration: it waits for parameters to be
    cleared, runs the motor estimation, hands over to the hall calibration and to
    the tuning when the estimation asks for them, and reports each stage's result.
    The hall calibrator and the motor estimator are behind traits. -/

namespace Calibration

open FieldOriented Faults

variable {K : Type} [Field K] [LinearOrder K]

structure CalibrationInputs (K : Type) where
  dcBusVoltageV : K
  angleType : AngleType
  theta : K
  hallPattern : UInt8
  deriving DecidableEq

structure CalibrationTargets (K : Type) where
  spinOmega : K
  sweepOmega : K
  voltageV : K
  currentA : K
  deriving DecidableEq

/-- Outputs needed regardless of stage. -/
structure CalibrationOutput (K : Type) where
  angleType : AngleType
  theta : K
  focCommand : FocInputType K
  deriving DecidableEq

inductive CalibrationFailureCause where
  | missingParameter
  | motorParameterEstimation (fault : EstimationStepFault)
  | hallCalibration (fault : HallCalibrationFault)
  | timeout
  deriving DecidableEq, Repr

/-- `impl From<CalibrationFailureCause> for FaultCause` -/
def CalibrationFailureCause.toFaultCause : CalibrationFailureCause → FaultCause
  | .timeout => .calibrationTimeout
  | .missingParameter => .missingMotorParams
  | .motorParameterEstimation fault => .ofEstimationStepFault fault
  | .hallCalibration fault => .ofHallCalibrationFault fault

/-- Stage specific outputs and results. -/
inductive StageResult (K : Type) where
  | hallCalibration (angleTable : HallCalibration K)
  | unwindRequest
  | tuningRequest (paramsEstimate : MotorParamsEstimate K)
  | motorParameters (motorParams : MotorParamsEstimate K)
  | failure (cause : CalibrationFailureCause)
  deriving DecidableEq

/-- `StageResult::clears_windup` -/
def StageResult.clearsWindup : StageResult K → Bool
  | .hallCalibration _ | .unwindRequest | .motorParameters _ | .failure _ => true
  | .tuningRequest _ => false

inductive CalibrationPhase (K : Type) where
  | clearingExistingParameters
  | hallCalibration (timePassedS : K)
  | motorEstimation
  | waitingHallCompletion
  | waitingTuning
  | done
  deriving DecidableEq

structure OfflineEstimatorConfig (K : Type) where
  dtS : K
  settleTimeS : K
  testTimeS : K
  maxSpinTimeS : K
  spinOmega : K
  calibrationCurrentA : K
  calibrationVoltageV : K
  deriving DecidableEq

inductive OfflineEstimatorOutput (K : Type) where
  | calibrationCurrent (i : ClarkParkValue K)
  | calibrationVoltage (u : ClarkParkValue K)
  | current (i : ClarkParkValue K)
  deriving DecidableEq

structure OfflineEstimatorCommand (K : Type) where
  output : OfflineEstimatorOutput K
  theta : K
  deriving DecidableEq

structure CalibrationConfig (K : Type) where
  dtS : K
  hallAlignS : K
  hallTimeoutS : K
  hallSweepOmega : K
  estimator : OfflineEstimatorConfig K
  deriving DecidableEq

/-! ## Constants -/

/-- Time spent on the aligning torque at the start of the hall calibration. -/
def hallAlignDurationS : K := 2.5

/-- Maximum time for the hall calibration to complete. -/
def hallCalibrationTimeoutS : K := 25

/-- Time for current transitions to reach their steady state. -/
def motorEstimatorSettlingDurationS : K := 2.5

/-- Maximum time for one system identification test. -/
def motorEstimationSingleTestDurationS : K := 5

/-- Maximum time for spinning up the motor. -/
def motorEstimationSpinupDurationS : K := 15

/-- `CalibrationConfig::new` -/
def CalibrationConfig.new (targets : CalibrationTargets K) (dtS : K) :
    CalibrationConfig K where
  dtS := dtS
  hallAlignS := hallAlignDurationS
  hallTimeoutS := hallCalibrationTimeoutS
  hallSweepOmega := targets.sweepOmega
  estimator :=
    { dtS := dtS
      settleTimeS := motorEstimatorSettlingDurationS
      testTimeS := motorEstimationSingleTestDurationS
      maxSpinTimeS := motorEstimationSpinupDurationS
      spinOmega := targets.spinOmega
      calibrationCurrentA := targets.currentA
      calibrationVoltageV := targets.voltageV }

/-! ## Traits -/

/-- `trait HallCalibrates` -/
class HallCalibrates (H : Type) (K : outParam Type) where
  new (initialSettleTimeS dtS : K) : H
  start : H → H
  checkCalibrationDone : H → Bool
  calibrationStep (hall : H) (hallPattern : UInt8) (targetOmega : K) :
    Except HallCalibrationFault K × H
  angleTable : H → HallCalibration K

/-- `trait EstimatesMotorParams` -/
class EstimatesMotorParams (P : Type) (K : outParam Type) extends
    MotorParamEstimator P K where
  new (config : OfflineEstimatorConfig K) (numPolePairs : UInt8) : P
  start : P → UInt8 → P
  getFault : P → Option EstimationStepFault
  estimationDone : P → Bool
  shouldUnwindController : P → Bool
  acknowledgeUnwindRequest : P → P
  shouldTuneController : P → Bool
  acknowledgeTuningRequest : P → P
  shouldCalibrateHall : P → Bool
  acknowledgeHallCalibration : P → P
  getCommand : P → OfflineEstimatorCommand K

/-- `trait Calibrator`; `setEstimator` is the writing half of the reference that
    `get_estimator` lends. -/
class Calibrator (C : Type) (K : outParam Type) where
  Estimator : Type
  estimates : MotorParamEstimator Estimator K
  new (numPolePairs : UInt8) (targets : CalibrationTargets K) (hasHall : Bool)
    (dtS : K) : C
  resume : C → C
  phase : C → CalibrationPhase K
  step : C → CalibrationInputs K →
    (CalibrationOutput K × Option (StageResult K)) × C
  getEstimator : C → Estimator
  setEstimator : C → Estimator → C

/-! ## The runner -/

structure CalibrationRunner (K H P : Type) where
  numPolePairs : UInt8
  hallCalibrator : H
  motorEstimator : P
  phase : CalibrationPhase K
  config : CalibrationConfig K
  hasHall : Bool

namespace CalibrationRunner

variable {H P : Type} [HallCalibrates H K] [EstimatesMotorParams P K]

/-- `CalibrationRunner::new` -/
def new (numPolePairs : UInt8) (targets : CalibrationTargets K) (hasHall : Bool)
    (dtS : K) : CalibrationRunner K H P :=
  let config := CalibrationConfig.new targets dtS
  { numPolePairs := numPolePairs
    hallCalibrator := HallCalibrates.new config.hallAlignS dtS
    motorEstimator := EstimatesMotorParams.new config.estimator numPolePairs
    phase := .clearingExistingParameters
    config := config
    hasHall := hasHall }

/-- `CalibrationRunner::idle_output` -/
def idleOutput (inputs : CalibrationInputs K) : CalibrationOutput K where
  angleType := inputs.angleType
  theta := inputs.theta
  focCommand := .calibrationVoltage ⟨0, 0⟩

/-- `CalibrationRunner::motor_estimation_output` -/
def motorEstimationOutput (runner : CalibrationRunner K H P)
    (inputs : CalibrationInputs K) : CalibrationOutput K :=
  let estimatorCommand := EstimatesMotorParams.getCommand runner.motorEstimator
  { angleType := inputs.angleType
    theta := estimatorCommand.theta
    focCommand := match estimatorCommand.output with
      | .calibrationCurrent i => .calibrationCurrents i
      | .calibrationVoltage u => .calibrationVoltage u
      | .current i => .targetCurrents i }

/-- The step of the hall calibration phase. -/
def hallCalibrationStep (runner : CalibrationRunner K H P) (timePassedS : K)
    (inputs : CalibrationInputs K) :
    (CalibrationOutput K × Option (StageResult K)) × CalibrationRunner K H P :=
  let timePassedS := timePassedS + runner.config.dtS
  let runner := { runner with phase := .hallCalibration timePassedS }
  if timePassedS > runner.config.hallTimeoutS then
    ((idleOutput inputs, some (.failure .timeout)), runner)
  else if HallCalibrates.checkCalibrationDone runner.hallCalibrator then
    ((idleOutput inputs,
        some (.hallCalibration (HallCalibrates.angleTable runner.hallCalibrator))),
      { runner with phase := .waitingHallCompletion })
  else
    let (result, hallCalibrator) := HallCalibrates.calibrationStep
      runner.hallCalibrator inputs.hallPattern runner.config.hallSweepOmega
    let runner := { runner with hallCalibrator := hallCalibrator }
    match result with
    | .ok theta =>
        (({ angleType := .electrical
            theta := theta
            focCommand := .calibrationCurrents
              ⟨runner.config.estimator.calibrationCurrentA, 0⟩ }, none), runner)
    | .error fault =>
        ((idleOutput inputs, some (.failure (.hallCalibration fault))), runner)

/-- The step of the motor estimation phase. -/
def motorEstimationStep (runner : CalibrationRunner K H P)
    (inputs : CalibrationInputs K) :
    (CalibrationOutput K × Option (StageResult K)) × CalibrationRunner K H P :=
  let estimator := runner.motorEstimator
  match EstimatesMotorParams.getFault estimator with
  | some fault =>
      ((idleOutput inputs, some (.failure (.motorParameterEstimation fault))),
        { runner with phase := .done })
  | none =>
      if EstimatesMotorParams.estimationDone estimator then
        ((idleOutput inputs,
            some (.motorParameters (MotorParamEstimator.getEstimate estimator))),
          { runner with phase := .done })
      else if EstimatesMotorParams.shouldUnwindController estimator then
        ((idleOutput inputs, some .unwindRequest),
          { runner with
            motorEstimator :=
              EstimatesMotorParams.acknowledgeUnwindRequest estimator })
      else if EstimatesMotorParams.shouldTuneController estimator then
        ((idleOutput inputs,
            some (.tuningRequest (MotorParamEstimator.getEstimate estimator))),
          { runner with phase := .waitingTuning })
      else if EstimatesMotorParams.shouldCalibrateHall estimator then
        if runner.hasHall then
          ((idleOutput inputs, none),
            { runner with
              hallCalibrator := HallCalibrates.start runner.hallCalibrator
              phase := .hallCalibration 0 })
        else
          ((idleOutput inputs, none),
            { runner with
              motorEstimator :=
                EstimatesMotorParams.acknowledgeHallCalibration estimator })
      else ((motorEstimationOutput runner inputs, none), runner)

/-- `CalibrationRunner::step` -/
def step (runner : CalibrationRunner K H P) (inputs : CalibrationInputs K) :
    (CalibrationOutput K × Option (StageResult K)) × CalibrationRunner K H P :=
  match runner.phase with
  | .hallCalibration timePassedS => hallCalibrationStep runner timePassedS inputs
  | .motorEstimation => motorEstimationStep runner inputs
  | _ => ((idleOutput inputs, none), runner)

/-- `CalibrationRunner::resume`, after a wait state. -/
def resume (runner : CalibrationRunner K H P) : CalibrationRunner K H P :=
  match runner.phase with
  | .clearingExistingParameters =>
      { runner with
        motorEstimator :=
          EstimatesMotorParams.start runner.motorEstimator runner.numPolePairs
        phase := .motorEstimation }
  | .waitingHallCompletion =>
      { runner with
        motorEstimator :=
          EstimatesMotorParams.acknowledgeHallCalibration runner.motorEstimator
        phase := .motorEstimation }
  | .waitingTuning =>
      { runner with
        motorEstimator :=
          EstimatesMotorParams.acknowledgeTuningRequest runner.motorEstimator
        phase := .motorEstimation }
  | _ => runner

instance : Calibrator (CalibrationRunner K H P) K where
  Estimator := P
  estimates := inferInstance
  new := new
  resume := resume
  phase := CalibrationRunner.phase
  step := step
  getEstimator := motorEstimator
  setEstimator := fun runner estimator => { runner with motorEstimator := estimator }

end CalibrationRunner

/-! ## Mocks -/

/-- `MockHall`: what it answers, and whether it has been started. -/
structure MockHall (K : Type) where
  done : Bool
  started : Bool
  fault : Option HallCalibrationFault
  table : HallCalibration K

instance : HallCalibrates (MockHall K) K where
  new _ _ :=
    { done := false, started := false, fault := none, table := Vector.replicate 6 0 }
  start hall := { hall with started := true }
  checkCalibrationDone hall := hall.done
  calibrationStep hall _ _ :=
    match hall.fault with
    | some fault => (.error fault, hall)
    | none => (.ok 0, hall)
  angleTable hall := hall.table

/-- `MockEstimator`: what it answers, and what it has been told. -/
structure MockEstimator (K : Type) where
  fault : Option EstimationStepFault
  done : Bool
  started : Bool
  unwind : Bool
  tune : Bool
  hall : Bool
  estimate : MotorParamsEstimate K
  command : OfflineEstimatorCommand K

instance : EstimatesMotorParams (MockEstimator K) K where
  afterFocIteration estimator _ := estimator
  getEstimate estimator := estimator.estimate
  invalidate estimator := estimator
  new _ _ :=
    { fault := none, done := false, started := false, unwind := false,
      tune := false, hall := false,
      estimate := ⟨none, none, none, none, none, none⟩,
      command := ⟨.calibrationVoltage ⟨0, 0⟩, 0⟩ }
  start estimator _ := { estimator with started := true }
  getFault estimator := estimator.fault
  estimationDone estimator := estimator.done
  shouldUnwindController estimator := estimator.unwind
  acknowledgeUnwindRequest estimator := { estimator with unwind := false }
  shouldTuneController estimator := estimator.tune
  acknowledgeTuningRequest estimator := { estimator with tune := false }
  shouldCalibrateHall estimator := estimator.hall
  acknowledgeHallCalibration estimator := { estimator with hall := false }
  getCommand estimator := estimator.command

/-- A runner over the rationals, with mocks for its parts. -/
abbrev RunnerQ : Type := CalibrationRunner ℚ (MockHall ℚ) (MockEstimator ℚ)

end Calibration
