import Stm32Foc.Arbitration
import Stm32Foc.BoardChecks
import Stm32Foc.Bsp
import Stm32Foc.CanTx
import Stm32Foc.EventRun
import Stm32Foc.FirmwareConfig
import Stm32Foc.Foc
import Stm32Foc.OrtegaIpm
import Stm32Foc.Setpoint
import Stm32Foc.TickProofs
import Mathlib.Data.Rat.Floor
import Mathlib.Data.Rat.Sqrt

/-! # The interrupt of the current loop

    `shared_adc_isr` as a whole: what it gathers for `foc_step`, what it does with the
    outcome, the estimators it updates for its next run, and the checks whose results it
    keeps for that.  With it, all that the tasks and the other interrupts can change
    between two of its runs. -/

namespace AdcIsr

open FieldOriented Faults SafeStrategy Calibration Modes Control Saliency
open FirmwareTypes Setpoint BoardChecks Filtering OrtegaIpm Bsp Arbitration
open CanTx (BoardStatus CurrentLoopSnapshot)

/-! ## What the arbitrator reads -/

section Reads

variable {K : Type}

/-- A feedback is a fault, or of numbers. -/
def isNumbers : Feedback (Number K) → Bool
  | .ok feedback => feedback.theta.isSome && feedback.omega.isSome
  | .error _ => true

/-- The numbers of a feedback.  What is not one counts as zero here, which `f32` does not
    do: what depends on it is said of runs only whose ticks all read numbers (`reached`). -/
def numbers [Zero K] : Feedback (Number K) → Feedback K
  | .ok feedback =>
      .ok ⟨feedback.angleType, feedback.theta.getD 0, feedback.omega.getD 0⟩
  | .error fault => .error fault

end Reads

/-! ## The state -/

/-- `FocIterationSnapshot` -/
structure FocIterationSnapshot (K : Type) where
  uDq : ClarkParkValue K
  uAb : AlphaBeta K
  isInjecting : Bool

/-- What the interrupt reads and changes, the resources that tasks share with it and its
    own. -/
structure Isr (K C F A : Type) where
  mode : OperatingMode K C
  boardStatus : BoardStatus K
  config : FirmwareConfig K
  runtimeValues : RuntimeValues K
  motorParameters : ConstantMotorParameters K
  pwmOutput : PwmOutput K
  foc : F
  /-- There in a firmware with hall sensors. -/
  hallFeedback : Option (HallFeedback K)
  feedbackArbitrator : FeedbackArbitrator K
  saliencyEstimator : SinusoidalPulsingEstimator K
  fluxEstimator : OrtegaIPMEstimator K
  currentLoopSnapshot : CurrentLoopSnapshot K
  softwareWatchdog : SoftwareWatchdog
  acceleration : A
  phaseCurrentFilter : PhaseCurrentFilter K
  brakingCurrentFilter : CurrentFilter K
  prevFocResult : FocIterationSnapshot K
  checks : Checks
  overcurrent : Bool
  brakingLimitExceeded : Bool
  dcBusV : Option K

/-- What a run of the interrupt finds in the hardware: the phase currents and the board's
    measurements, as far as they were converted, and the hall timer. -/
structure Sample (K : Type) where
  phaseCurrents : Option (PhaseValues K)
  hallTimer : HallEstimatorInput K
  hallPattern : UInt8
  boardInfo : Option (K × K)

variable {K : Type} [Field K] [LinearOrder K] [FloorRing K]

/-! ## Before the tick -/

/-- `DT_S` -/
def dtS : K := 1 / 40000.0

/-- `DT_MS` -/
def dtMs : K := 1000.0 / 40000.0

/-- `HFI_FREQUENCY_HZ` -/
def hfiFrequencyHz : K := 40000.0 / 10.0

/-- `BRAKE_LIMIT_STATIONARY_THRESHOLD_MECH_OMEGA` -/
def brakeLimitStationaryThresholdMechOmega : K := 10.0

omit [LinearOrder K] [FloorRing K] in
/-- `RotorFeedback::latency_compensate` -/
def latencyCompensate (feedback : RotorFeedback K) (dt : K) : RotorFeedback K :=
  { feedback with theta := feedback.theta + dt * feedback.omega }

variable {C F A : Type} [Calibrator C K] [CurrentController F K] [DoesFocMath A K]
  [Libm K] [HasNormal K]

namespace Isr

/-- The inputs that a tick is given. -/
def inputs (isr : Isr K C F A) (phaseCurrents : PhaseValues K) : FocStepInputs K where
  phaseCurrents := phaseCurrents
  watchdogFault := isr.softwareWatchdog.poll.1
  overcurrent := isr.overcurrent
  brakingLimitExceeded := isr.brakingLimitExceeded
  dcBusReadingV := isr.dcBusV
  rotorFeedback := (numbers isr.feedbackArbitrator.read).map (latencyCompensate · dtS)
  hallPattern := isr.feedbackArbitrator.hallPattern
  stationaryOmegaThreshold := brakeLimitStationaryThresholdMechOmega
  targetTorque := (isr.runtimeValues.readTarget isr.config.setpointTimeoutMs).1
  activeCurrentLimitA := isr.config.ratedCurrentLimitA
  rotorSpeedLimitMechRpm := isr.config.rotorSpeedLimitMechRpm
  rotorOverspeedFaultThresholdMechRpm := isr.config.rotorOverspeedLimitMechRpm
  brakingCurrentLimitA := isr.config.brakingCurrentLimitA
  dcBusMinV := isr.config.dcBusMinVoltageV
  dcBusMaxV := isr.config.dcBusMaxVoltageV
  tickDtMs := dtMs
  hfiAmplitudeV := isr.config.hfiAmplitudeV
  hfiStartupAmplitudeV := isr.config.hfiStartupAmplitudeV
  hfiFrequencyHz := hfiFrequencyHz
  hfiDisableThresholdOmegaRads := isr.config.sensorlessHighSpeedThreshold

/-- The tick of the interrupt, as `foc_step` sees it. -/
def tick (isr : Isr K C F A) (phaseCurrents : PhaseValues K) :
    TickProofs.Tick K F A (SinusoidalPulsingEstimator K) where
  params := isr.motorParameters.params
  inputs := isr.inputs phaseCurrents
  foc := isr.foc
  acceleration := isr.acceleration
  saliencyEstimator := isr.saliencyEstimator

/-- The call of `foc_step`. -/
def stepped (isr : Isr K C F A) (phaseCurrents : PhaseValues K) :
    (FocStepOutcome K × Option (StageResult K)) ×
      Drive K C F A (SinusoidalPulsingEstimator K) :=
  let t := isr.tick phaseCurrents
  focStep t.params t.inputs (t.drive isr.mode)

/-- The outcome of a tick. -/
def outcome (isr : Isr K C F A) (phaseCurrents : PhaseValues K) : FocStepOutcome K :=
  (isr.stepped phaseCurrents).1.1

/-- What is left when `foc_step` returns. -/
def advanced (isr : Isr K C F A) (phaseCurrents : PhaseValues K) : Isr K C F A :=
  let drive := (isr.stepped phaseCurrents).2
  { isr with
    softwareWatchdog := isr.softwareWatchdog.poll.2
    runtimeValues := (isr.runtimeValues.readTarget isr.config.setpointTimeoutMs).2
    mode := drive.mode
    foc := drive.foc
    acceleration := drive.acceleration
    saliencyEstimator := drive.saliencyEstimator }

end Isr

/-! ## After the tick -/

omit [LinearOrder K] [FloorRing K] in
/-- `FocResult::none` -/
def noResult : FocResult K where
  thetaE := 0
  omegaE := 0
  dcBusVoltageV := 0
  dutyCycles := ⟨0, 0, 0⟩
  voltageHexagonSector := 0
  measuredIAb := ⟨0, 0⟩
  measuredIDq := ⟨0, 0⟩
  targetIDq := ⟨0, 0⟩
  uDq := ⟨0, 0⟩
  uAb := ⟨0, 0⟩
  isInjecting := false
  hfiIDq := ⟨0, 0⟩
  hfiParams := ⟨0, 0, 0⟩

/-- The result that the rest of the interrupt goes on with. -/
def resultOf : FocStepOutcome K → FocResult K
  | .normal result => result
  | .activeShort => noResult
  | .nonConducting => noResult

/-- The outcome on the bridge. -/
def applied (pwmOutput : PwmOutput K) : FocStepOutcome K → PwmOutput K
  | .normal result => pwmOutput.setDutyCycles result.dutyCycles
  | .activeShort => pwmOutput.activeShort
  | .nonConducting => pwmOutput.freewheel

/-- The current that is fed back to the bus, from the voltages of the last tick and the
    currents of this one. -/
def brakingCurrent (dcBusV : Option K) (dcBusMinV : K) (uDq iDq : ClarkParkValue K) : K :=
  match dcBusV with
  | some dcV => if dcV > dcBusMinV then -1.5 * (uDq.d * iDq.d + uDq.q * iDq.q) / dcV else 0
  | none => 0

namespace Isr

/-- What the estimators report, and the estimators. -/
structure Estimated (K A : Type) where
  saliencyFeedback : Feedback K
  fluxFeedback : Feedback K
  saliencyEstimator : SinusoidalPulsingEstimator K
  fluxEstimator : OrtegaIPMEstimator K
  acceleration : A

/-- What the estimators are shown of a tick. -/
def estimatorInput (isr : Isr K C F A) (result : FocResult K)
    (activeEstimate : MotorParamsEstimate K) : EstimatorInput K where
  theta := result.thetaE
  iAb := result.measuredIAb
  iDq := result.measuredIDq
  uAb := isr.prevFocResult.uAb
  uDq := isr.prevFocResult.uDq
  isInjecting := isr.prevFocResult.isInjecting
  hfiIDq := result.hfiIDq
  motorParams := activeEstimate
  hfiParams := result.hfiParams
  dtS := dtS

/-- What the hall sensors give, in a firmware that has them. -/
def hallReading (isr : Isr K C F A) (sample : Sample K) :
    Option (Feedback K × HallFeedback K) :=
  isr.hallFeedback.map (·.read sample.hallTimer)

/-- The estimate that a reset starts from: a hall reading, where there is one. -/
def seed (isr : Isr K C F A) (sample : Sample K) : Option (RotorFeedback K) :=
  (isr.hallReading sample).bind (·.1.toOption)

/-- Both sensorless estimators after a tick: updated while the bridge conducts, and reset
    where the rotor cannot be observed. -/
def estimated (isr : Isr K C F A) (sample : Sample K) (outcome : FocStepOutcome K)
    (paramsEstimate activeEstimate : MotorParamsEstimate K) : Estimated K A :=
  match outcome with
  | .normal result =>
      let input := isr.estimatorInput result activeEstimate
      let saliency := isr.saliencyEstimator.update input.toSensorlessEstimatorInput
      let (flux, acceleration) := isr.fluxEstimator.update input isr.acceleration
      ⟨saliency.read, flux.read, saliency, flux, acceleration⟩
  | _ =>
      let (flux, acceleration) :=
        isr.fluxEstimator.reset (isr.seed sample) paramsEstimate isr.acceleration
      ⟨.error .unobservable, .error .unobservable,
        isr.saliencyEstimator.reset (isr.seed sample), flux, acceleration⟩

/-- The arbitrator after the estimators have reported to it. -/
def arbitrated (isr : Isr K C F A) (sample : Sample K) (saliency flux : Feedback K) :
    FeedbackArbitrator K :=
  let hall := match isr.hallReading sample with
    | some (feedback, _) => isr.feedbackArbitrator.updateHall feedback sample.hallPattern
    | none => isr.feedbackArbitrator
  hall.updateSensorless saliency flux

/-- The deferred checks, which the next tick is told of. -/
def checked (isr : Isr K C F A) (phaseCurrents : PhaseValues K) (brakingCurrent : K) :
    Isr K C F A :=
  let brakingCurrentFilter := ((isr.brakingCurrentFilter.setLimit
    isr.config.brakingCurrentFaultA).update brakingCurrent).2
  let phaseCurrentFilter :=
    (isr.phaseCurrentFilter.setLimits isr.config.overcurrentLimitA).update phaseCurrents
  { isr with
    pwmOutput := isr.pwmOutput.setComparatorCurrentLimit isr.config.overcurrentLimitA
    brakingCurrentFilter := brakingCurrentFilter
    brakingLimitExceeded := brakingCurrentFilter.exceedsLimit
    phaseCurrentFilter := phaseCurrentFilter
    overcurrent := phaseCurrentFilter.checkOvercurrent }

/-- Without hall sensors there is no table to store. -/
def unstored (hasHall : Bool) (stageResult : Option (StageResult K))
    (mode : OperatingMode K C) : OperatingMode K C :=
  match stageResult with
  | some (.hallCalibration _) => if hasHall then mode else mode.after .resumeCalibration
  | _ => mode

/-- The part of the interrupt that follows a sampling of the phase currents. -/
def currentLoop (isr : Isr K C F A) (sample : Sample K) (phaseCurrents : PhaseValues K) :
    Isr K C F A :=
  let outcome := isr.outcome phaseCurrents
  let stageResult := (isr.stepped phaseCurrents).1.2
  let result := resultOf outcome
  let stepped := isr.advanced phaseCurrents
  let (activeEstimate, motorParameters, mode) :=
    afterFocStep stepped.motorParameters outcome stageResult stepped.mode
  let braking := brakingCurrent isr.dcBusV isr.config.dcBusMinVoltageV
    isr.prevFocResult.uDq result.measuredIDq
  let estimated :=
    stepped.estimated sample outcome isr.motorParameters.params activeEstimate
  let arbitrated :=
    stepped.arbitrated sample estimated.saliencyFeedback estimated.fluxFeedback
  { stepped with
    mode := unstored isr.hallFeedback.isSome stageResult mode
    motorParameters := motorParameters
    pwmOutput := applied stepped.pwmOutput outcome
    hallFeedback := (stepped.hallReading sample).map (·.2)
    feedbackArbitrator := arbitrated
    saliencyEstimator := estimated.saliencyEstimator
    fluxEstimator := estimated.fluxEstimator
    acceleration := estimated.acceleration
    prevFocResult := ⟨result.uDq, result.uAb, result.isInjecting⟩
    currentLoopSnapshot := ⟨result.measuredIDq, result.targetIDq⟩
    : Isr K C F A }.checked phaseCurrents braking

/-- The part that follows a conversion of the board's measurements. -/
def boardMeasured (isr : Isr K C F A) (vbus tboard : K) : Isr K C F A :=
  let info : BoardInfo K :=
    ⟨vbus, tboard, isr.config.dcBusMinVoltageV, isr.config.dcBusMaxVoltageV,
      isr.config.tempMaxC⟩
  let (checks, mode) := BoardChecks.boardStatus isr.checks isr.mode info
  { isr with
    dcBusV := some vbus
    boardStatus := ⟨some vbus, some tboard⟩
    checks := checks
    mode := mode }

/-- `shared_adc_isr` -/
def sharedAdcIsr (isr : Isr K C F A) (sample : Sample K) : Isr K C F A :=
  let isr := match sample.phaseCurrents with
    | some phaseCurrents => isr.currentLoop sample phaseCurrents
    | none => isr
  match sample.boardInfo with
  | some (vbus, tboard) => isr.boardMeasured vbus tboard
  | none => isr

end Isr

/-! ## The start -/

/-- `SinusoidalPulsingHfi::new` -/
def pulsing (samplingTimeS frequencyHz : K) : SinusoidalPulsingHfi K :=
  let period := frequencyHz * samplingTimeS
  let periodTicks := max (if period > 0 then truncToU32 (1 / period + 0.5) else 0) 1
  let stepRad := tau / (periodTicks : K)
  { periodTicks := periodTicks
    tickCounter := 0
    step := ⟨Libm.sinf stepRad, Libm.cosf stepRad⟩
    phasor := SinusoidalPulsingHfi.zeroPhase
    history := (SinusoidalPulsingHfi.zeroPhase, SinusoidalPulsingHfi.zeroPhase) }

/-- `SinusoidalPulsingEstimator::new` -/
def pulsingEstimator (samplingFrequencyHz injectionFrequencyHz pllFrequencyHz : K)
    (config : PolarityTestConfig K) : SinusoidalPulsingEstimator K where
  hfi := pulsing (1 / samplingFrequencyHz) injectionFrequencyHz
  notch := CurrentControl.notchFilter samplingFrequencyHz (2.0 * injectionFrequencyHz)
    (0.2 * injectionFrequencyHz)
  pll := phaseLockedLoop pllFrequencyHz
  feedbackFault := none
  polarityTest := .new samplingFrequencyHz injectionFrequencyHz pllFrequencyHz config
    (lowPass samplingFrequencyHz (0.25 * pllFrequencyHz))

/-- What `init` has loaded from the flash, or has at hand. -/
structure Start (K C F A : Type) where
  mode : OperatingMode K C
  config : FirmwareConfig K
  motorParameters : ConstantMotorParameters K
  foc : F
  hallFeedback : Option (HallFeedback K)
  acceleration : A
  autoreload : UInt16

/-- `init`, as far as the interrupt is concerned. -/
def Isr.init (start : Start K C F A) : Isr K C F A where
  mode := start.mode
  boardStatus := ⟨none, none⟩
  config := start.config
  runtimeValues := ⟨0, .new⟩
  motorParameters := start.motorParameters
  pwmOutput := ⟨false, start.autoreload, ⟨0, 0, 0⟩, start.config.overcurrentLimitA⟩
  foc := start.foc
  hallFeedback := start.hallFeedback
  feedbackArbitrator :=
    .new start.config.sensorlessLowSpeedThreshold start.config.sensorlessHighSpeedThreshold
  saliencyEstimator := pulsingEstimator 40000.0 hfiFrequencyHz
    start.config.sensorlessLowSpeedPllFrequencyHz ⟨500.0, 0.05, 100.0⟩
  fluxEstimator := .new start.config.ortegaGamma start.config.ortegaAlpha
    start.config.sensorlessHighSpeedPllFrequencyHz
  currentLoopSnapshot := ⟨⟨0, 0⟩, ⟨0, 0⟩⟩
  softwareWatchdog := .new
  acceleration := start.acceleration
  phaseCurrentFilter := .new 40000.0 2500.0 start.config.overcurrentLimitA
  brakingCurrentFilter := .new 40000.0 100.0 start.config.brakingCurrentFaultA
  prevFocResult := ⟨⟨0, 0⟩, ⟨0, 0⟩, false⟩
  checks := .init
  overcurrent := false
  brakingLimitExceeded := false
  dcBusV := none

/-! ## Between its runs -/

/-- What happens: a run of the interrupt, one of the watchdog's or of the bridge's, or an
    access of a task to one of the resources. -/
inductive Event (K F : Type) where
  | sharedAdcIsr (sample : Sample K)
  | watchdogIsr
  | pwmBreakIsr (bk1Cleared bk2Cleared : Bool)
  | command (command : Command K)
  | setTarget (torque : K)
  | setConfig (config : FirmwareConfig K)
  | setMotorParameters (params : ConstantMotorParameters K)
  | setFoc (foc : F)
  | setHallCalibration (calibrations : HallCalibration K)
  | invalidateHall
  | tuneSaliency (pllFrequencyHz : K)
  | tuneFlux (gamma alpha pllFrequencyHz : K)
  | setThresholds (low high : K)

/-- `SinusoidalPulsingEstimator::set_tuning`, with `PolarityTest::set_pll_frequency`. -/
def tuneSaliency (estimator : SinusoidalPulsingEstimator K) (pllFrequencyHz : K) :
    SinusoidalPulsingEstimator K :=
  let test := estimator.polarityTest
  { estimator with
    pll := setFrequency estimator.pll pllFrequencyHz
    polarityTest :=
      { test with
        lockDwellTicks :=
          truncToU32 (test.samplingFrequencyHz / (tau * pllFrequencyHz)) + 1
        innovationFilter := lowPass test.samplingFrequencyHz (0.25 * pllFrequencyHz) } }

/-- `pwm_break_isr` -/
def pwmBreak (mode : OperatingMode K C) (bk1Cleared bk2Cleared : Bool) :
    OperatingMode K C :=
  assertIf bk2Cleared .break2 (assertIf bk1Cleared .break1 mode)

/-- What an event does. -/
def step (isr : Isr K C F A) : Event K F → Isr K C F A
  | .sharedAdcIsr sample => isr.sharedAdcIsr sample
  | .watchdogIsr => { isr with softwareWatchdog := isr.softwareWatchdog.registerFault }
  | .pwmBreakIsr bk1Cleared bk2Cleared =>
      { isr with mode := pwmBreak isr.mode bk1Cleared bk2Cleared }
  | .command command => { isr with mode := isr.mode.after command }
  | .setTarget torque =>
      { isr with runtimeValues := isr.runtimeValues.setTarget torque }
  | .setConfig config => { isr with config := config }
  | .setMotorParameters params => { isr with motorParameters := params }
  | .setFoc foc => { isr with foc := foc }
  | .setHallCalibration calibrations =>
      { isr with hallFeedback := isr.hallFeedback.map (·.setCalibration calibrations) }
  | .invalidateHall =>
      { isr with hallFeedback := isr.hallFeedback.map (·.invalidate) }
  | .tuneSaliency pllFrequencyHz =>
      { isr with saliencyEstimator := tuneSaliency isr.saliencyEstimator pllFrequencyHz }
  | .tuneFlux gamma alpha pllFrequencyHz =>
      { isr with fluxEstimator := isr.fluxEstimator.setTuning gamma alpha pllFrequencyHz }
  | .setThresholds low high =>
      { isr with
        feedbackArbitrator := isr.feedbackArbitrator.setThresholds low high }

/-- A tick reads numbers. -/
def readsNumbers (isr : Isr K C F A) : Event K F → Bool
  | .sharedAdcIsr sample =>
      sample.phaseCurrents.isNone || isNumbers isr.feedbackArbitrator.read
  | _ => true

/-- Where a run of events leads whose ticks all read numbers. -/
def reached (isr : Isr K C F A) (events : List (Event K F)) : Option (Isr K C F A) :=
  EventRun.reach step (fun isr e => readsNumbers isr e) isr events

/-! ## Mocks -/

/-- Over the rationals: the functions of the library by the first terms of their series,
    near zero. -/
instance : Libm ℚ where
  isFinite _ := true
  expf x := (1 + x / 64) ^ 64
  logf x := x - 1
  sinf x := x - x ^ 3 / 6 + x ^ 5 / 120
  cosf x := 1 - x ^ 2 / 2 + x ^ 4 / 24
  sqrtf := Rat.sqrt

instance : HasNormal ℚ where
  isNormal x := decide (x ≠ 0)

/-- A board that starts with the configuration of a new one, and without hall sensors. -/
def startQ : Start ℚ RunnerQ (MockController ℚ) (MockAccelerator ℚ) where
  mode := .idle .freshSto
  config := .default
  motorParameters := ⟨⟨some 7, some 1, some 1, some 2, some (1 / 100), none⟩⟩
  foc := ⟨0⟩
  hallFeedback := none
  acceleration := {}
  autoreload := 2125

/-- A sample of the phase currents alone, all the current through one phase. -/
def sampleQ (current : ℚ) : Sample ℚ where
  phaseCurrents := some ⟨current, -current, 0⟩
  hallTimer := ⟨0, 0, 0, 0, 0⟩
  hallPattern := 0
  boardInfo := none

end AdcIsr
