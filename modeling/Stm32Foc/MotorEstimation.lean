import Stm32Foc.Angles
import Stm32Foc.Calibration
import Mathlib.Data.Rat.Sqrt

/-! # The offline motor estimator

    The tests that measure a motor at standstill and then open loop: the stator
    resistance from two currents, the inductances from a square wave of voltage, the
    flux linkage from a forced rotation.  Each ends with a parameter or a fault. -/

namespace Commission

open FieldOriented Calibration

/-- What `f32` offers of a number beyond the field: `f32::is_finite` and
    `libm::sqrtf`. -/
class FloatOps (K : Type) where
  isFinite : K → Bool
  sqrtf : K → K

/-- Over the rationals, where the roots of squares are exact. -/
instance : FloatOps ℚ where
  isFinite _ := true
  sqrtf := Rat.sqrt

variable {K : Type}

/-! ## Accumulators -/

inductive Axis where
  | d
  | q
  deriving DecidableEq, Repr

/-- `Axis::of` -/
def Axis.of : Axis → ClarkParkValue K → K
  | .d, value => value.d
  | .q, value => value.q

/-- Accumulator for solving `y = a*x` by least squares. -/
structure Lse (K : Type) where
  xySum : K
  xxSum : K
  numData : Nat
  overflow : Bool

/-- Accumulator for the mean of samples. -/
structure Mean (K : Type) where
  xSum : K
  ySum : K
  numData : Nat

/-- Fixed-point solve of the flux linkage, one iteration a call. -/
structure PmFluxSolver (K : Type) where
  lambda : ClarkParkValue K
  i : ClarkParkValue K
  lAvg : K
  lDiff : K
  cos : K
  sin : K
  pmFlux : K

variable [Field K]

/-- `Axis::vector` -/
def Axis.vector (magnitude : K) : Axis → ClarkParkValue K
  | .d => ⟨magnitude, 0⟩
  | .q => ⟨0, magnitude⟩

def Lse.new : Lse K := ⟨0, 0, 0, false⟩

/-- `Lse::accumulate`: a sample that would overflow a sum is left out. -/
def Lse.accumulate [FloatOps K] (lse : Lse K) (x y : K) : Lse K :=
  let xy := x * y
  let xx := x * x
  if FloatOps.isFinite (lse.xySum + xy) && FloatOps.isFinite (lse.xxSum + xx) then
    { lse with
      xySum := lse.xySum + xy
      xxSum := lse.xxSum + xx
      numData := lse.numData + 1 }
  else { lse with overflow := true }

/-- `Lse::solve` -/
def Lse.solve [LinearOrder K] (lse : Lse K) (minData : Nat) :
    Except EstimationStepFault K :=
  if lse.overflow then .error .overflow
  else if lse.numData < minData then .error .insufficientSamples
  else if lse.xxSum > 1e-12 then .ok (lse.xySum / lse.xxSum)
  else .error .degenSolution

def Mean.new : Mean K := ⟨0, 0, 0⟩

/-- `Mean::accumulate` -/
def Mean.accumulate (mean : Mean K) (x y : K) : Mean K :=
  ⟨mean.xSum + x, mean.ySum + y, mean.numData + 1⟩

def Mean.x (mean : Mean K) : K := mean.xSum / (mean.numData : K)

def Mean.y (mean : Mean K) : K := mean.ySum / (mean.numData : K)

/-- `PmFluxSolver::new` -/
def PmFluxSolver.new (lambda i : ClarkParkValue K) (dInductance qInductance : K) :
    PmFluxSolver K where
  lambda := lambda
  i := i
  lAvg := 0.5 * (dInductance + qInductance)
  lDiff := 0.5 * (dInductance - qInductance)
  cos := 1
  sin := 0
  pmFlux := 0

/-- `PmFluxSolver::iterate` -/
def PmFluxSolver.iterate [LinearOrder K] [FloatOps K] (solver : PmFluxSolver K) :
    PmFluxSolver K :=
  let cos2 := solver.cos * solver.cos - solver.sin * solver.sin
  let sin2 := 2.0 * solver.sin * solver.cos
  let inductiveD := solver.lAvg * solver.i.d
    + solver.lDiff * (cos2 * solver.i.d + sin2 * solver.i.q)
  let inductiveQ := solver.lAvg * solver.i.q
    + solver.lDiff * (sin2 * solver.i.d - cos2 * solver.i.q)
  let pmD := solver.lambda.d - inductiveD
  let pmQ := solver.lambda.q - inductiveQ
  let pmFlux := FloatOps.sqrtf (pmD * pmD + pmQ * pmQ)
  if pmFlux > 0 then
    { solver with pmFlux := pmFlux, cos := pmD / pmFlux, sin := pmQ / pmFlux }
  else { solver with pmFlux := pmFlux }

/-! ## States -/

def minSolveSamples : Nat := 1000

def estRBlocks : Nat := 4

def estRTargetTolerance : K := 0.05

def estLVoltageMargin : K := 1.5

/-- The square wave test of an axis. -/
structure EstL (K : Type) where
  axis : Axis
  ranS : K
  resistance : K
  sign : K
  signFlips : Nat
  /-- The signs commanded two ticks and one tick ago. -/
  appliedSigns : Option K × Option K
  prevI : K
  lse : Lse K

/-- The open loop rotation. -/
structure EstF (K : Type) where
  ranS : K
  theta : K
  omega : K
  resistance : K
  dInductance : K
  qInductance : K
  voltage : Mean K
  current : Mean K

structure RampDown (K : Type) where
  solver : Option (PmFluxSolver K)
  pendingFault : Option EstimationStepFault
  ranS : K
  theta : K
  omega : K
  rampDurationS : K

inductive OfflineEstimatorState (K : Type) where
  | off
  /-- The rotor aligns; with a resistance the inductances come next. -/
  | rotorLockWait (waitedS : K) (resistance : Option K)
  /-- Steady current at two levels, the high one and the low one. -/
  | estR (block : Nat) (blockRanS : K) (targetReached : Bool) (levels : Vector (Mean K) 2)
  | estL (test : EstL K)
  | hallCalibrationRequired (resistance : K)
  | tuningRequired (resistance : K)
  | estF (test : EstF K)
  | rampDown (ramp : RampDown K)
  | failure (fault : EstimationStepFault)
  | done

inductive StepResult (K : Type) where
  | transition (next : OfflineEstimatorState K)
  | estimateR (resistance deadtimeRatio : K) (next : OfflineEstimatorState K)
  | estimateL (axis : Axis) (inductance : K) (next : OfflineEstimatorState K)
  | estimateF (next : OfflineEstimatorState K)
  | rampDown (pmFluxLinkage : Option K)

/-- What a step comes to: a result or a fault, which replace the state, or `none`
    with the state it leaves. -/
abbrev Stepped (K : Type) : Type :=
  Except EstimationStepFault (Option (StepResult K)) × OfflineEstimatorState K

/-- `est_r_target` -/
def estRTarget (block : Nat) (config : OfflineEstimatorConfig K) : K :=
  if block % 2 = 0 then config.calibrationCurrentA else 0.5 * config.calibrationCurrentA

/-- `est_f_measure_current` -/
def estFMeasureCurrent (config : OfflineEstimatorConfig K) : K :=
  0.5 * config.calibrationCurrentA

/-- `OfflineEstimatorState::est_l` -/
def EstL.start (axis : Axis) (resistance : K) (data : FocResult K) : EstL K where
  axis := axis
  ranS := 0
  resistance := resistance
  sign := 1
  signFlips := 0
  appliedSigns := (none, none)
  prevI := axis.of data.measuredIDq
  lse := .new

/-! ## Steps -/

variable [LinearOrder K]

def rotorLockWaitStep (waitedS : K) (resistance : Option K) (data : FocResult K)
    (config : OfflineEstimatorConfig K) : Stepped K :=
  let waitedS := waitedS + config.dtS
  let next : OfflineEstimatorState K := match resistance with
    | none => .estR 0 0 false (Vector.replicate 2 .new)
    | some resistance => .estL (.start .d resistance data)
  if waitedS ≥ config.settleTimeS then
    (.ok (some (.transition next)), .rotorLockWait waitedS resistance)
  else (.ok none, .rotorLockWait waitedS resistance)

/-- The step towards the current of a block. -/
def estRApproach (block : Nat) (blockRanS : K) (levels : Vector (Mean K) 2)
    (data : FocResult K) (config : OfflineEstimatorConfig K) : Stepped K :=
  let target := estRTarget block config
  let blockRanS := blockRanS + config.dtS
  if |data.measuredIDq.d - target| / target ≤ estRTargetTolerance then
    (.ok none, .estR block 0 true levels)
  else if blockRanS ≥ config.testTimeS then
    (.error .targetCurrentUnreachable, .estR block blockRanS false levels)
  else (.ok none, .estR block blockRanS false levels)

variable [FloatOps K]

/-- The resistance of the two levels. -/
def estRSolve (levels : Vector (Mean K) 2) :
    Except EstimationStepFault (Option (StepResult K)) :=
  let high := levels[0]
  let low := levels[1]
  if levels.toList.any (fun level => level.numData < minSolveSamples) then
    .error .insufficientSamples
  else
    let deltaX := high.x - low.x
    if ¬ |deltaX| > 1e-5 then .error .degenSolution
    else
      let resistance := (high.y - low.y) / deltaX
      let deadtimeRatio := 0.75 * (high.y - resistance * high.x)
      if ¬ (FloatOps.isFinite resistance && decide (resistance > 0)
          && FloatOps.isFinite deadtimeRatio) then .error .parameterOutOfBounds
      else .ok (some (.estimateR resistance deadtimeRatio
        (.hallCalibrationRequired resistance)))

/-- The step that measures a block. -/
def estRMeasure (block : Nat) (blockRanS : K) (levels : Vector (Mean K) 2)
    (data : FocResult K) (config : OfflineEstimatorConfig K) : Stepped K :=
  let blockRanS := blockRanS + config.dtS
  let busReciprocal := 1 / data.dcBusVoltageV
  let level := block % 2
  have hlevel : level < 2 := Nat.mod_lt block Nat.two_pos
  let levels := levels.set level (levels[level].accumulate
    (data.measuredIDq.d * busReciprocal) (data.uDq.d * busReciprocal))
  if blockRanS < config.testTimeS / (estRBlocks : K) then
    (.ok none, .estR block blockRanS true levels)
  else
    let block := block + 1
    let state : OfflineEstimatorState K := .estR block 0 false levels
    if block ≥ estRBlocks then (estRSolve levels, state) else (.ok none, state)

/-- The sample of the square wave; around a flip of the sign there is none. -/
def EstL.sample (test : EstL K) (data : FocResult K) (diDt : K) : Lse K :=
  if test.signFlips > 0 then
    match test.appliedSigns with
    | (some earlyHalf, some lateHalf) =>
        if earlyHalf = lateHalf then
          test.lse.accumulate |test.axis.of data.uDq| (lateHalf * diDt)
        else test.lse
    | _ => test.lse
  else test.lse

/-- The inductance of an axis, and what comes after it. -/
def EstL.solve (test : EstL K) (data : FocResult K) :
    Except EstimationStepFault (Option (StepResult K)) :=
  match test.lse.solve minSolveSamples with
  | .error fault => .error fault
  | .ok reciprocal =>
      let inductance := 1 / reciprocal
      if ¬ (FloatOps.isFinite inductance && decide (inductance > 0)) then
        .error .parameterOutOfBounds
      else
        let next : OfflineEstimatorState K := match test.axis with
          | .d => .estL (.start .q test.resistance data)
          | .q => .tuningRequired test.resistance
        .ok (some (.estimateL test.axis inductance next))

def estLStep (test : EstL K) (data : FocResult K) (config : OfflineEstimatorConfig K) :
    Stepped K :=
  if config.calibrationVoltageV
      < estLVoltageMargin * test.resistance * config.calibrationCurrentA then
    (.error .targetCurrentUnreachable, .estL test)
  else
    let i := test.axis.of data.measuredIDq
    let diDt := (i - test.prevI) / config.dtS
    let test := { test with
      prevI := i
      lse := test.sample data diDt
      appliedSigns := (test.appliedSigns.2, some test.sign)
      ranS := test.ranS + config.dtS }
    if test.ranS ≥ 2.0 * config.testTimeS then
      (.error .insufficientSamples, .estL test)
    else if test.sign * (i + 1.5 * diDt * config.dtS) < config.calibrationCurrentA then
      (.ok none, .estL test)
    else
      let test := { test with sign := -test.sign, signFlips := test.signFlips + 1 }
      let accumulatedHalves := test.signFlips - 1
      let wholePeriods := accumulatedHalves ≥ 2 ∧ accumulatedHalves % 2 = 0
      if test.ranS ≥ config.testTimeS ∧ wholePeriods then
        (test.solve data, .estL test)
      else (.ok none, .estL test)

/-- What the rotation hands to the ramp down: a solver, or a fault. -/
def EstF.finish (test : EstF K) :
    Option (PmFluxSolver K) × Option EstimationStepFault :=
  if test.voltage.numData < minSolveSamples then (none, some .insufficientSamples)
  else if test.omega = 0 then (none, some .degenSolution)
  else
    (some (.new ⟨test.voltage.y / test.omega, -test.voltage.x / test.omega⟩
      ⟨test.current.x, test.current.y⟩ test.dInductance test.qInductance), none)

variable [FloorRing K]

/-- One tick of the rotation: it spins up, and then measures. -/
def EstF.turn (test : EstF K) (data : FocResult K) (config : OfflineEstimatorConfig K) :
    EstF K :=
  let test :=
    if test.ranS < config.maxSpinTimeS then
      { test with omega := config.spinOmega * test.ranS / config.maxSpinTimeS }
    else
      let i := data.measuredIDq
      { test with
        voltage := test.voltage.accumulate (data.uDq.d - test.resistance * i.d)
          (data.uDq.q - test.resistance * i.q)
        current := test.current.accumulate i.d i.q }
  { test with
    theta := wrapTo2pi (test.theta + test.omega * config.dtS)
    ranS := test.ranS + config.dtS }

def estFStep (test : EstF K) (data : FocResult K) (config : OfflineEstimatorConfig K) :
    Stepped K :=
  let test := test.turn data config
  if test.ranS ≥ config.maxSpinTimeS + config.testTimeS then
    let (solver, pendingFault) := test.finish
    (.ok (some (.estimateF (.rampDown
      { solver := solver
        pendingFault := pendingFault
        ranS := 0
        theta := test.theta
        omega := test.omega
        rampDurationS := config.testTimeS }))), .estF test)
  else (.ok none, .estF test)

/-- The flux linkage at the end of the ramp. -/
def RampDown.finish (ramp : RampDown K) :
    Except EstimationStepFault (Option (StepResult K)) :=
  match ramp.pendingFault with
  | some fault => .error fault
  | none =>
      let pmFluxLinkage := ramp.solver.map PmFluxSolver.pmFlux
      if ¬ pmFluxLinkage.any (fun pmf => FloatOps.isFinite pmf && decide (pmf > 0)) then
        .error .parameterOutOfBounds
      else .ok (some (.rampDown pmFluxLinkage))

def rampDownStep (ramp : RampDown K) (config : OfflineEstimatorConfig K) : Stepped K :=
  let ramp := { ramp with
    theta := wrapTo2pi (ramp.theta + ramp.omega * config.dtS)
    solver := ramp.solver.map PmFluxSolver.iterate
    ranS := ramp.ranS + config.dtS }
  if ramp.ranS ≥ ramp.rampDurationS then (ramp.finish, .rampDown ramp)
  else (.ok none, .rampDown ramp)

/-- `OfflineEstimatorState::step` -/
def OfflineEstimatorState.step (state : OfflineEstimatorState K) (data : FocResult K)
    (config : OfflineEstimatorConfig K) : Stepped K :=
  match state with
  | .rotorLockWait waitedS resistance => rotorLockWaitStep waitedS resistance data config
  | .estR block blockRanS targetReached levels =>
      if targetReached then estRMeasure block blockRanS levels data config
      else estRApproach block blockRanS levels data config
  | .estL test => estLStep test data config
  | .estF test => estFStep test data config
  | .rampDown ramp => rampDownStep ramp config
  -- the two that require something go on by its acknowledgement
  | _ => (.ok none, state)

/-! ## The estimator -/

structure OfflineMotorEstimator (K : Type) where
  state : OfflineEstimatorState K
  params : MotorParamsEstimate K
  config : OfflineEstimatorConfig K
  shouldUnwindController : Bool

namespace OfflineMotorEstimator

/-- `OfflineMotorEstimator::new` -/
def new (config : OfflineEstimatorConfig K) (numPolePairs : UInt8) :
    OfflineMotorEstimator K where
  state := .off
  params := ⟨some numPolePairs, none, none, none, none, none⟩
  config := config
  shouldUnwindController := false

/-- `OfflineMotorEstimator::reset` -/
def reset (estimator : OfflineMotorEstimator K) : OfflineMotorEstimator K :=
  { estimator with
    state := .off
    params := ⟨none, none, none, none, none, none⟩
    shouldUnwindController := false }

/-- `OfflineMotorEstimator::start` -/
def start (estimator : OfflineMotorEstimator K) (numPolePairs : UInt8) :
    OfflineMotorEstimator K :=
  { estimator with
    params := { estimator.params with numPolePairs := some numPolePairs }
    state := .rotorLockWait 0 none
    shouldUnwindController := false }

/-- `OfflineMotorEstimator::get_command` -/
def getCommand (estimator : OfflineMotorEstimator K) : OfflineEstimatorCommand K :=
  let config := estimator.config
  match estimator.state with
  | .rotorLockWait _ _ => ⟨.calibrationCurrent ⟨config.calibrationCurrentA, 0⟩, 0⟩
  | .estR block _ _ _ => ⟨.calibrationCurrent ⟨estRTarget block config, 0⟩, 0⟩
  | .estL test =>
      ⟨.calibrationVoltage (test.axis.vector (test.sign * config.calibrationVoltageV)), 0⟩
  | .estF test =>
      let d := if test.ranS < config.maxSpinTimeS then config.calibrationCurrentA
        else estFMeasureCurrent config
      ⟨.current ⟨d, 0⟩, test.theta⟩
  | .rampDown ramp =>
      let share := clamp (1 - ramp.ranS / (ramp.rampDurationS + 1e-5)) 0 1
      ⟨.current ⟨share * estFMeasureCurrent config, 0⟩, ramp.theta⟩
  | _ => ⟨.calibrationCurrent ⟨0, 0⟩, 0⟩

/-- `OfflineMotorEstimator::estimation_done` -/
def estimationDone (estimator : OfflineMotorEstimator K) : Bool :=
  match estimator.state with
  | .done => true
  | _ => false

/-- `OfflineMotorEstimator::should_calibrate_hall` -/
def shouldCalibrateHall (estimator : OfflineMotorEstimator K) : Bool :=
  match estimator.state with
  | .hallCalibrationRequired _ => true
  | _ => false

/-- `OfflineMotorEstimator::acknowledge_hall_calibration` -/
def acknowledgeHallCalibration (estimator : OfflineMotorEstimator K) :
    OfflineMotorEstimator K :=
  match estimator.state with
  | .hallCalibrationRequired resistance =>
      { estimator with state := .rotorLockWait 0 (some resistance) }
  | _ => estimator

/-- `OfflineMotorEstimator::should_tune_controller` -/
def shouldTuneController (estimator : OfflineMotorEstimator K) : Bool :=
  match estimator.state with
  | .tuningRequired _ => true
  | _ => false

/-- `OfflineMotorEstimator::acknowledge_unwind_request` -/
def acknowledgeUnwindRequest (estimator : OfflineMotorEstimator K) :
    OfflineMotorEstimator K :=
  { estimator with shouldUnwindController := false }

/-- `OfflineMotorEstimator::acknowledge_tuning_request` -/
def acknowledgeTuningRequest (estimator : OfflineMotorEstimator K) :
    OfflineMotorEstimator K :=
  match estimator.state with
  | .tuningRequired resistance =>
      { estimator with
        state := match estimator.params.dInductance, estimator.params.qInductance with
          | some dInductance, some qInductance => .estF
              { ranS := 0
                theta := 0
                omega := 0
                resistance := resistance
                dInductance := dInductance
                qInductance := qInductance
                voltage := .new
                current := .new }
          | _, _ => .failure .missingParameter }
  | _ => estimator

/-- `OfflineMotorEstimator::get_fault` -/
def getFault (estimator : OfflineMotorEstimator K) : Option EstimationStepFault :=
  match estimator.state with
  | .failure fault => some fault
  | _ => none

/-- What the result of a step does to the estimator. -/
def apply (estimator : OfflineMotorEstimator K) :
    StepResult K → OfflineMotorEstimator K
  | .transition next => { estimator with state := next }
  | .estimateR resistance deadtimeRatio next =>
      { estimator with
        params := { estimator.params with
          statorResistance := some resistance
          deadtimeRatio := some deadtimeRatio }
        state := next
        shouldUnwindController := true }
  | .estimateL axis inductance next =>
      { estimator with
        params := match axis with
          | .d => { estimator.params with dInductance := some inductance }
          | .q => { estimator.params with qInductance := some inductance }
        state := next }
  | .estimateF next => { estimator with state := next }
  | .rampDown pmFluxLinkage =>
      { estimator with
        params := { estimator.params with pmFluxLinkage := pmFluxLinkage }
        state := .done
        shouldUnwindController := true }

/-- `OfflineMotorEstimator::after_foc_iteration` -/
def afterFocIteration (estimator : OfflineMotorEstimator K) (data : FocResult K) :
    OfflineMotorEstimator K :=
  let estimator :=
    if estimator.params.numPolePairs.isNone then
      { estimator with state := .failure .missingParameter }
    else estimator
  match estimator.state.step data estimator.config with
  | (.error fault, _) =>
      { estimator with state := .failure fault, shouldUnwindController := true }
  | (.ok (some result), _) => estimator.apply result
  | (.ok none, state) => { estimator with state := state }

instance : EstimatesMotorParams (OfflineMotorEstimator K) K where
  afterFocIteration := afterFocIteration
  getEstimate := params
  invalidate estimator := { estimator with params := estimator.params.invalidate }
  new := new
  start := start
  getFault := getFault
  estimationDone := estimationDone
  shouldUnwindController := shouldUnwindController
  acknowledgeUnwindRequest := acknowledgeUnwindRequest
  shouldTuneController := shouldTuneController
  acknowledgeTuningRequest := acknowledgeTuningRequest
  shouldCalibrateHall := shouldCalibrateHall
  acknowledgeHallCalibration := acknowledgeHallCalibration
  getCommand := getCommand

end OfflineMotorEstimator

end Commission
