import Stm32Foc.Modes
import Stm32Foc.Saliency

/-! # One tick of the current loop

    `foc_step`: fault diagnostics, the hand-over from the polarity test, the
    calibration step, the safety reaction, the torque limits, and last the call of
    the current controller.  The part up to the call is `prepare`, so that what the
    controller is called with can be spoken of. -/

namespace Control

open FieldOriented Faults SafeStrategy Calibration Modes

structure FocStepInputs (K : Type) where
  phaseCurrents : PhaseValues K
  watchdogFault : Bool
  overcurrent : Bool
  brakingLimitExceeded : Bool
  dcBusReadingV : Option K
  rotorFeedback : Except RotorFeedbackFault (RotorFeedback K)
  hallPattern : UInt8
  stationaryOmegaThreshold : K
  targetTorque : Option K
  activeCurrentLimitA : K
  rotorSpeedLimitMechRpm : UInt16
  rotorOverspeedFaultThresholdMechRpm : UInt16
  brakingCurrentLimitA : K
  dcBusMinV : K
  dcBusMaxV : K
  tickDtMs : K
  hfiAmplitudeV : K
  hfiStartupAmplitudeV : K
  hfiFrequencyHz : K
  hfiDisableThresholdOmegaRads : K

inductive FocStepOutcome (K : Type) where
  | normal (result : FocResult K)
  /-- All low side MOSFETs on, high side off. -/
  | activeShort
  | nonConducting
  deriving DecidableEq

/-- What a tick reads and changes: the mode, the current controller, the
    accelerator and the saliency-based estimator. -/
structure Drive (K C F A E : Type) where
  mode : OperatingMode K C
  foc : F
  acceleration : A
  saliencyEstimator : E

variable {K : Type} [Field K] [LinearOrder K]
variable {C : Type} [Calibrator C K]
variable {F A E : Type} [CurrentController F K] [DoesFocMath A K]
  [SaliencyBasedEstimator E K]

/-! ## Faults -/

/-- Assert a fault if its condition holds. -/
def assertIf (condition : Bool) (cause : FaultCause) (mode : OperatingMode K C) :
    OperatingMode K C :=
  if condition then mode.after (.assertFault cause) else mode

/-- The fault diagnostics at the start of a tick. -/
def boardFaults (inputs : FocStepInputs K) (mode : OperatingMode K C) :
    OperatingMode K C :=
  let mode := assertIf inputs.watchdogFault .realtimeViolated mode
  let mode := assertIf inputs.overcurrent .overcurrent mode
  assertIf inputs.brakingLimitExceeded .regenLimitExceeded mode

/-- The feedback is electrical and above the HFI disable threshold, so the saliency
    estimator can be seeded from it. -/
def seeds (inputs : FocStepInputs K) (feedback : RotorFeedback K) : Bool :=
  decide (feedback.angleType = .electrical) &&
    decide (|feedback.omega| > inputs.hfiDisableThresholdOmegaRads)

/-- The rotor feedback of the tick; a polarity test that is over, or that the
    feedback resolves, hands over to torque control. -/
def resolvePolarity (params : MotorParamsEstimate K) (inputs : FocStepInputs K)
    (drive : Drive K C F A E) :
    Except RotorFeedbackFault (RotorFeedback K) × Drive K C F A E :=
  let readSaliency :=
    let (feedback, saliencyEstimator) :=
      SaliencyBasedEstimator.read drive.saliencyEstimator
    (feedback, { drive with saliencyEstimator := saliencyEstimator })
  match drive.mode with
  | .saliencyPolarityTest =>
      match SaliencyBasedEstimator.polePolarity drive.saliencyEstimator with
      -- test ongoing
      | none =>
          match inputs.rotorFeedback with
          | .ok feedback =>
              if seeds inputs feedback then
                let (saliencyEstimator, acceleration) :=
                  SaliencyBasedEstimator.reset drive.saliencyEstimator
                    (some feedback) params drive.acceleration
                (inputs.rotorFeedback,
                  { mode := drive.mode.after .enableTorqueControl
                    foc := CurrentController.clearWindup drive.foc
                    acceleration := acceleration
                    saliencyEstimator := saliencyEstimator })
              else readSaliency
          | .error _ => readSaliency
      -- test done
      | some (.ok ()) =>
          (inputs.rotorFeedback,
            { drive with
              mode := drive.mode.after .enableTorqueControl
              foc := CurrentController.clearWindup drive.foc })
      -- test failed
      | some (.error e) =>
          (inputs.rotorFeedback,
            { drive with
              mode := drive.mode.after (.assertFault (.ofPolarityTestFault e)) })
  | _ => (inputs.rotorFeedback, drive)

/-- The mode is one in which a setpoint is needed. -/
def needsSetpoint : OperatingMode K C → Bool
  | .saliencyPolarityTest => true
  | .torqueControl => true
  | _ => false

def setpointFault (inputs : FocStepInputs K) (mode : OperatingMode K C) :
    OperatingMode K C :=
  assertIf (needsSetpoint mode && inputs.targetTorque.isNone) .setpointTimeout mode

/-- There is no feedback, and the mode needs one. -/
def feedbackMissed (feedback : Except RotorFeedbackFault (RotorFeedback K))
    (mode : OperatingMode K C) : Bool :=
  !feedback.isOk && !mode.focGate.feedbackOptional

/-- What the diagnostics find: the rotor feedback, and whether it is missed. -/
structure Diagnosed (K C F A E : Type) where
  rotorFeedback : Except RotorFeedbackFault (RotorFeedback K)
  rotorFeedbackFault : Bool
  drive : Drive K C F A E

/-- The first part of a tick, up to the DC bus reading. -/
def diagnose (params : MotorParamsEstimate K) (inputs : FocStepInputs K)
    (drive : Drive K C F A E) : Diagnosed K C F A E :=
  let (rotorFeedback, drive) := resolvePolarity params inputs
    { drive with mode := boardFaults inputs drive.mode }
  let mode := setpointFault inputs drive.mode
  let rotorFeedbackFault := feedbackMissed rotorFeedback mode
  { rotorFeedback := rotorFeedback
    rotorFeedbackFault := rotorFeedbackFault
    drive :=
      { drive with mode := assertIf rotorFeedbackFault .invalidRotorFeedback mode } }

/-- Zero values where there is no feedback. -/
def orDefault : Except RotorFeedbackFault (RotorFeedback K) → RotorFeedback K
  | .ok feedback => feedback
  | .error _ => { angleType := .electrical, theta := 0, omega := 0 }

/-! ## Calibration and speed -/

/-- What a calibration step gives, and the motor parameters in use. -/
structure Calibrated (K C : Type) where
  output : Option (CalibrationOutput K)
  stageResult : Option (StageResult K)
  activeEstimate : MotorParamsEstimate K
  mode : OperatingMode K C

/-- Only active modulation stages step the calibration. -/
def calibrate (params : MotorParamsEstimate K) (inputs : CalibrationInputs K)
    (mode : OperatingMode K C) : Calibrated K C :=
  match mode with
  | .calibration calibrator =>
      if mode.focGate.active then
        let ((output, result), calibrator) := Calibrator.step calibrator inputs
        { output := some output
          stageResult := result
          activeEstimate :=
            (Calibrator.estimates (C := C) (K := K)).getEstimate
              (Calibrator.getEstimator calibrator)
          mode := .calibration calibrator }
      else
        { output := none, stageResult := none, activeEstimate := params, mode := mode }
  | _ => { output := none, stageResult := none, activeEstimate := params, mode := mode }

def stageFault (result : Option (StageResult K)) (mode : OperatingMode K C) :
    OperatingMode K C :=
  match result with
  | some (.failure cause) => mode.after (.assertFault cause.toFaultCause)
  | _ => mode

/-- `RPM_TO_RADS` -/
def rpmToRads : K := pi / 30

/-- The factor from mechanical speeds to the feedback's angle domain. -/
def mechToFeedback (angleType : AngleType) (estimate : MotorParamsEstimate K) :
    Option K :=
  match angleType with
  | .mechanical => some 1
  | .electrical => estimate.numPolePairs.map polePairsF

/-- The overspeed threshold, in the feedback's angle domain. -/
def maxOmega (inputs : FocStepInputs K) (scale : K) : K :=
  inputs.rotorOverspeedFaultThresholdMechRpm.toNat * rpmToRads * scale

/-- The rotor is too fast; checked only if its feedback is not missed. -/
def overspeed (inputs : FocStepInputs K) (rotorFeedbackFault : Bool)
    (scale : Option K) (omega : K) : Bool :=
  if rotorFeedbackFault then false
  else match scale with
    | some scale => decide (|omega| > maxOmega inputs scale)
    | none => false

/-- The second part of a tick, up to the safety reaction. -/
def supervise (params : MotorParamsEstimate K) (inputs : FocStepInputs K)
    (dcBusVoltageV : K) (rotorFeedbackFault : Bool) (feedback : RotorFeedback K)
    (mode : OperatingMode K C) : Calibrated K C :=
  let calibrated := calibrate params
    { dcBusVoltageV := dcBusVoltageV
      angleType := feedback.angleType
      theta := feedback.theta
      hallPattern := inputs.hallPattern } mode
  let mode := stageFault calibrated.stageResult calibrated.mode
  let scale := mechToFeedback feedback.angleType calibrated.activeEstimate
  { calibrated with
    mode := assertIf (overspeed inputs rotorFeedbackFault scale feedback.omega)
      .overspeed mode }

/-! ## The safety reaction -/

/-- The back-EMF constant, in the feedback's angle domain. -/
def backEmfConstant (angleType : AngleType) (estimate : MotorParamsEstimate K) :
    Option K :=
  match angleType with
  | .electrical => estimate.pmFluxLinkage
  | .mechanical => do
      let pmf ← estimate.pmFluxLinkage
      let pp ← estimate.numPolePairs
      pure (pmf * polePairsF pp)

def safetyInput (inputs : FocStepInputs K) (dcBusVoltageV : K)
    (rotorFeedbackValid : Bool) (feedback : RotorFeedback K)
    (estimate : MotorParamsEstimate K) : SafeControlStrategyInput K where
  omega := feedback.omega
  rotorFeedbackValid := rotorFeedbackValid
  backEmfConstant := backEmfConstant feedback.angleType estimate
  dcBusV := dcBusVoltageV
  dcBusMaxV := inputs.dcBusMaxV
  tickDtMs := inputs.tickDtMs

/-- A safe command, as the outcome that ends the tick or the command to go on
    with. -/
def actOn : SafeCommand K → Except (FocStepOutcome K) (Option (FocInputType K))
  | .nonConducting => .error .nonConducting
  | .activeShort => .error .activeShort
  | .foc command => .ok (some command)

/-- The safe outputs of idle and fault. -/
def safetyCommand (input : SafeControlStrategyInput K) (mode : OperatingMode K C) :
    Except (FocStepOutcome K) (Option (FocInputType K)) × OperatingMode K C :=
  let gate := mode.focGate
  if gate.useSafetyCommand then
    match mode with
    | .idle safeStrategy =>
        (actOn (safeStrategy.focTick input).1, mode.tickStrategy input)
    | .fault safeStrategy _ _ =>
        (actOn (safeStrategy.focTick input).1, mode.tickStrategy input)
    | _ => (.error .nonConducting, mode)
  else if !gate.active then (.error .nonConducting, mode)
  else (.ok none, mode)

/-! ## The controller's input -/

/-- Do not accelerate the rotor beyond the speed limit. -/
def speedLimited (inputs : FocStepInputs K) (scale : Option K)
    (omega torqueDemand : K) : K :=
  match scale with
  | none => torqueDemand
  | some scale =>
      let rotorSpeedLimitF := rpmToRads * scale * inputs.rotorSpeedLimitMechRpm.toNat
      if omega > rotorSpeedLimitF ∧ torqueDemand > 0 then 0
      else if omega < -rotorSpeedLimitF ∧ torqueDemand < 0 then 0
      else torqueDemand

/-- Clamp the braking torque. -/
def brakingLimited (stationaryOmegaThreshold maxBrakingTorque : K)
    (omega torqueDemand : K) : K :=
  if omega > stationaryOmegaThreshold ∧ torqueDemand < -maxBrakingTorque then
    -maxBrakingTorque
  else if omega < -stationaryOmegaThreshold ∧ torqueDemand > maxBrakingTorque then
    maxBrakingTorque
  else torqueDemand

/-- The torque of normal torque control. -/
def torqueDemand (inputs : FocStepInputs K) (feedback : RotorFeedback K)
    (estimate : MotorParamsEstimate K) : K :=
  let scale := mechToFeedback feedback.angleType estimate
  let stationaryOmegaThreshold := inputs.stationaryOmegaThreshold * scale.getD 1
  let maxBrakingTorque :=
    estimate.torqueConstant.getD 0 * inputs.brakingCurrentLimitA
  brakingLimited stationaryOmegaThreshold maxBrakingTorque feedback.omega
    (speedLimited inputs scale feedback.omega (inputs.targetTorque.getD 0))

/-- `SQRT3_RECIPROCAL` -/
def sqrt3Reciprocal : K := 1 / sqrt3

/-- The angle, the command and the HFI amplitude, from the "source" that the mode
    gives the controller. -/
def focSource (inputs : FocStepInputs K) (feedback : RotorFeedback K)
    (calibrated : Calibrated K C) (saliencyEstimator : E)
    (safetyCommand : Option (FocInputType K)) :
    AngleType × K × FocInputType K × K :=
  match safetyCommand with
  | some command => (feedback.angleType, feedback.theta, command, inputs.hfiAmplitudeV)
  | none =>
      match calibrated.output with
      | some output =>
          (output.angleType, output.theta, output.focCommand, inputs.hfiAmplitudeV)
      | none =>
          match calibrated.mode with
          | .saliencyPolarityTest =>
              (feedback.angleType, feedback.theta,
                SaliencyBasedEstimator.polarityTestCommand saliencyEstimator,
                inputs.hfiStartupAmplitudeV)
          | _ =>
              (feedback.angleType, feedback.theta,
                .targetTorque
                  (torqueDemand inputs feedback calibrated.activeEstimate),
                inputs.hfiAmplitudeV)

def focInput (inputs : FocStepInputs K) (dcBusVoltageV : K)
    (feedback : RotorFeedback K) (calibrated : Calibrated K C)
    (saliencyEstimator : E) (safetyCommand : Option (FocInputType K)) :
    FocInput K :=
  let (angleType, theta, command, hfiAmplitudeV) :=
    focSource inputs feedback calibrated saliencyEstimator safetyCommand
  { command := command
    dcBusVoltageV := dcBusVoltageV
    angleType := angleType
    theta := theta
    omega := feedback.omega
    phaseCurrents := inputs.phaseCurrents
    currentLimitA := inputs.activeCurrentLimitA
    hfiParams :=
      { amplitudeV :=
          if hfiAmplitudeV > dcBusVoltageV * sqrt3Reciprocal then
            dcBusVoltageV * sqrt3Reciprocal
          else hfiAmplitudeV
        injectionFrequencyHz := inputs.hfiFrequencyHz
        disableThresholdOmegaRads := inputs.hfiDisableThresholdOmegaRads } }

/-! ## The tick -/

/-- What a tick comes to before the controller is called: the outcome that ends it,
    or the controller's input with the motor parameters. -/
structure Prepared (K C F A E : Type) where
  call : Except (FocStepOutcome K) (FocInput K × MotorParamsEstimate K)
  stageResult : Option (StageResult K)
  drive : Drive K C F A E

/-- `foc_step_inner` up to the call of the controller. -/
def prepare (params : MotorParamsEstimate K) (inputs : FocStepInputs K)
    (drive : Drive K C F A E) : Prepared K C F A E :=
  let diagnosed := diagnose params inputs drive
  let drive := diagnosed.drive
  match inputs.dcBusReadingV with
  | none => { call := .error .nonConducting, stageResult := none, drive := drive }
  | some dcBusVoltageV =>
      let feedback := orDefault diagnosed.rotorFeedback
      let calibrated := supervise params inputs dcBusVoltageV
        diagnosed.rotorFeedbackFault feedback drive.mode
      let (safety, mode) := safetyCommand
        (safetyInput inputs dcBusVoltageV diagnosed.rotorFeedback.isOk feedback
          calibrated.activeEstimate) calibrated.mode
      { call := safety.map (fun command =>
          (focInput inputs dcBusVoltageV feedback calibrated drive.saliencyEstimator
            command, calibrated.activeEstimate))
        stageResult := calibrated.stageResult
        drive := { drive with mode := mode } }

/-- The outcome of a controller's fault, by the reaction it leaves. -/
def faultOutcome : OperatingMode K C → FocStepOutcome K
  | .fault (.asc _) _ _ => .activeShort
  | _ => .nonConducting

/-- The call of the controller. -/
def callController (input : FocInput K) (estimate : MotorParamsEstimate K)
    (drive : Drive K C F A E) :
    Except FocFault (FocResult K) × Drive K C F A E :=
  let := SaliencyBasedEstimator.injects (E := E) (K := K)
  let (result, foc, acceleration, hfi) := CurrentController.compute drive.foc input
    estimate drive.acceleration
    (SaliencyBasedEstimator.hfiSource drive.saliencyEstimator) true
  (result,
    { drive with
      foc := foc
      acceleration := acceleration
      saliencyEstimator :=
        SaliencyBasedEstimator.setHfiSource drive.saliencyEstimator hfi })

/-- `foc_step_inner` -/
def focStepInner (params : MotorParamsEstimate K) (inputs : FocStepInputs K)
    (drive : Drive K C F A E) :
    (FocStepOutcome K × Option (StageResult K)) × Drive K C F A E :=
  let prepared := prepare params inputs drive
  match prepared.call with
  | .error outcome => ((outcome, prepared.stageResult), prepared.drive)
  | .ok (input, estimate) =>
      let (result, drive) := callController input estimate prepared.drive
      match result with
      | .ok focResult =>
          let clears := prepared.stageResult.any StageResult.clearsWindup
          ((.normal focResult, prepared.stageResult),
            { drive with
              foc := if clears then CurrentController.clearWindup drive.foc
                else drive.foc })
      | .error fault =>
          let mode := drive.mode.after (.assertFault (.ofFocFault fault))
          ((faultOutcome mode, prepared.stageResult), { drive with mode := mode })

/-- `foc_step`: any outcome other than normal modulation clears the windup. -/
def focStep (params : MotorParamsEstimate K) (inputs : FocStepInputs K)
    (drive : Drive K C F A E) :
    (FocStepOutcome K × Option (StageResult K)) × Drive K C F A E :=
  let (result, drive) := focStepInner params inputs drive
  match result.1 with
  | .normal _ => (result, drive)
  | _ => (result, { drive with foc := CurrentController.clearWindup drive.foc })

/-- The result that the estimators are shown: none of a tick with a stage
    result. -/
def shownResult : FocStepOutcome K → Option (StageResult K) → Option (FocResult K)
  | .normal result, none => some result
  | _, _ => none

/-- `after_foc_step`: the mode and the parameter estimator after it, and the
    estimate. -/
def afterFocStep {P : Type} [MotorParamEstimator P K] (params : P)
    (outcome : FocStepOutcome K) (stageResult : Option (StageResult K))
    (mode : OperatingMode K C) :
    MotorParamsEstimate K × P × OperatingMode K C :=
  let result := shownResult outcome stageResult
  match mode with
  | .calibration calibrator =>
      let := Calibrator.estimates (C := C) (K := K)
      let estimator := Calibrator.getEstimator calibrator
      let estimator := match result with
        | some result => MotorParamEstimator.afterFocIteration estimator result
        | none => estimator
      (MotorParamEstimator.getEstimate estimator, params,
        .calibration (Calibrator.setEstimator calibrator estimator))
  | .torqueControl =>
      let params := match result with
        | some result => MotorParamEstimator.afterFocIteration params result
        | none => params
      (MotorParamEstimator.getEstimate params, params, mode)
  | _ => (MotorParamEstimator.getEstimate params, params, mode)

/-! ## Mocks -/

/-- A controller that applies nothing, and counts how often its windup is
    cleared. -/
structure MockController (K : Type) where
  clearWindupCalls : Nat

instance : CurrentController (MockController K) K where
  compute foc input _ accelerator hfi _ :=
    (.ok
      { thetaE := input.theta
        omegaE := input.omega
        dcBusVoltageV := input.dcBusVoltageV
        dutyCycles := ⟨0, 0, 0⟩
        voltageHexagonSector := 0
        measuredIAb := ⟨0, 0⟩
        measuredIDq := ⟨0, 0⟩
        targetIDq := ⟨0, 0⟩
        uDq := ⟨0, 0⟩
        uAb := ⟨0, 0⟩
        isInjecting := false
        hfiIDq := ⟨0, 0⟩
        hfiParams := input.hfiParams }, foc, accelerator, hfi)
  clearWindup foc := ⟨foc.clearWindupCalls + 1⟩

/-- An accelerator that knows one angle. -/
structure MockAccelerator (K : Type) where

instance : DoesFocMath (MockAccelerator K) K where
  sinCos accelerator _ := (⟨0, 1⟩, accelerator)
  sqrt accelerator val := (val, accelerator)
  atan2 accelerator _ _ := (0, accelerator)

end Control
