import Stm32Foc.Angles

/-! # The saliency-based estimator

    The estimator that finds the rotor at standstill from the response to an
    injected voltage: its injection, its filters, the polarity test that tells the
    two ends of the magnet apart, its update and its feedback. -/

namespace Saliency

open FieldOriented

variable {K : Type} [Field K] [LinearOrder K]

/-! ## Injection -/

structure SinusoidalPulsingHfi (K : Type) where
  periodTicks : Nat
  tickCounter : Nat
  step : SinCosResult K
  phasor : SinCosResult K
  history : SinCosResult K × SinCosResult K
  deriving DecidableEq

namespace SinusoidalPulsingHfi

/-- `SinusoidalPulsingHfi::ZERO_PHASE` -/
def zeroPhase : SinCosResult K := ⟨0, 1⟩

/-- `SinusoidalPulsingHfi::reset` -/
def reset (hfi : SinusoidalPulsingHfi K) : SinusoidalPulsingHfi K :=
  { hfi with
    tickCounter := 0
    phasor := zeroPhase
    history := (zeroPhase, zeroPhase) }

/-- `SinusoidalPulsingHfi::compute` -/
def compute (hfi : SinusoidalPulsingHfi K) (params : HfiParams K) :
    ClarkParkValue K × SinusoidalPulsingHfi K :=
  let injection := ⟨params.amplitudeV * hfi.phasor.sin, 0⟩
  let history := (hfi.phasor, hfi.history.1)
  let tickCounter := hfi.tickCounter + 1
  if tickCounter ≥ hfi.periodTicks then
    (injection,
      { hfi with history := history, tickCounter := 0, phasor := zeroPhase })
  else
    (injection,
      { hfi with
        history := history
        tickCounter := tickCounter
        phasor :=
          ⟨hfi.phasor.sin * hfi.step.cos + hfi.phasor.cos * hfi.step.sin,
            hfi.phasor.cos * hfi.step.cos - hfi.phasor.sin * hfi.step.sin⟩ })

instance : HfiSource (SinusoidalPulsingHfi K) K where
  compute := compute

/-- `SinusoidalPulsingHfi::previous_phasor` -/
def previousPhasor (hfi : SinusoidalPulsingHfi K) : SinCosResult K := hfi.history.2

end SinusoidalPulsingHfi

/-! ## Filters -/

structure BiquadNotchFilter (K : Type) where
  b0 : K
  b1 : K
  a1 : K
  a2 : K
  s1 : K
  s2 : K
  deriving DecidableEq

/-- `BiquadNotchFilter::reset` -/
def BiquadNotchFilter.reset (notch : BiquadNotchFilter K) : BiquadNotchFilter K :=
  { notch with s1 := 0, s2 := 0 }

/-- `BiquadNotchFilter::update` -/
def BiquadNotchFilter.update (notch : BiquadNotchFilter K) (measurement : K) :
    K × BiquadNotchFilter K :=
  let y := notch.b0 * measurement + notch.s1
  (y, { notch with
    s1 := notch.b1 * measurement - notch.a1 * y + notch.s2
    s2 := notch.b0 * measurement - notch.a2 * y })

structure LowPassFilter (K : Type) where
  alpha : K
  prevFilteredValue : K
  deriving DecidableEq

/-- `LowPassFilter::reset` -/
def LowPassFilter.reset (filter : LowPassFilter K) : LowPassFilter K :=
  { filter with prevFilteredValue := 0 }

/-- `LowPassFilter::update` -/
def LowPassFilter.update (filter : LowPassFilter K) (measurement : K) :
    K × LowPassFilter K :=
  let filtered := filter.alpha * filter.prevFilteredValue + (1 - filter.alpha) * measurement
  (filtered, { filter with prevFilteredValue := filtered })

structure PLLState (K : Type) where
  theta : K
  omega : K
  deriving DecidableEq

structure PLL (K : Type) where
  kp : K
  ki : K
  state : PLLState K
  deriving DecidableEq

/-- `PLL::reset` -/
def PLL.reset (pll : PLL K) (initial : Option (RotorFeedback K)) : PLL K :=
  { pll with
    state := match initial with
      | some feedback => ⟨feedback.theta, feedback.omega⟩
      | none => ⟨0, 0⟩ }

/-- `PLL::update` -/
def PLL.update [FloorRing K] (pll : PLL K) (thetaError dtS : K) : PLL K :=
  let omega := pll.state.omega + dtS * pll.ki * thetaError
  { pll with
    state :=
      { omega := omega
        theta := wrapToPi (pll.state.theta + dtS * (pll.kp * thetaError + omega)) } }

/-- `PLL::clamp_omega` -/
def PLL.clampOmega (pll : PLL K) (limit : K) : PLL K :=
  { pll with state := { pll.state with omega := clamp pll.state.omega (-limit) limit } }

/-- `PLL::rotate` -/
def PLL.rotate [FloorRing K] (pll : PLL K) (deltaRad : K) : PLL K :=
  { pll with state := { pll.state with theta := wrapToPi (pll.state.theta + deltaRad) } }

/-! ## The polarity test -/

structure PolarityTestConfig (K : Type) where
  timeoutMs : K
  convergenceToleranceRad : K
  testDurationMs : K
  deriving DecidableEq

inductive PolarityTestState (K : Type) where
  | init
  | settling (lockedTicks : Nat)
  | testing (ticks : Nat) (saturationSum : K)
  | done
  | fault (kind : PolarityTestFault)
  deriving DecidableEq

structure PolarityTest (K : Type) where
  config : PolarityTestConfig K
  state : PolarityTestState K
  samplingFrequencyHz : K
  elapsedTicks : Nat
  timeoutTicks : Nat
  testTicks : Nat
  lockDwellTicks : Nat
  innovationFilter : LowPassFilter K
  deriving DecidableEq

/-- `u32::MAX` -/
def u32Max : Nat := 4294967295

/-- `x as u32`: towards zero, and saturating. -/
def truncToU32 [FloorRing K] (x : K) : Nat := min ⌊x⌋.toNat u32Max

/-- `test_ticks` of `PolarityTest::new`: whole periods of the injection, at least one
    of at least one tick. -/
def testTicksOf [FloorRing K] (samplingFrequencyHz injectionFrequencyHz : K)
    (config : PolarityTestConfig K) : Nat :=
  let periodTicks := truncToU32 (samplingFrequencyHz / injectionFrequencyHz + 0.5)
  let testPeriods :=
    truncToU32 (config.testDurationMs * injectionFrequencyHz / 1000 + 0.5)
  max testPeriods 1 * max periodTicks 1

/-- `PolarityTest::new`, with the filter of the innovation it builds. -/
def PolarityTest.new [FloorRing K]
    (samplingFrequencyHz injectionFrequencyHz pllFrequencyHz : K)
    (config : PolarityTestConfig K) (innovationFilter : LowPassFilter K) :
    PolarityTest K where
  config := config
  state := .init
  samplingFrequencyHz := samplingFrequencyHz
  elapsedTicks := 0
  timeoutTicks := truncToU32 (config.timeoutMs * (samplingFrequencyHz / 1000))
  testTicks := testTicksOf samplingFrequencyHz injectionFrequencyHz config
  lockDwellTicks := truncToU32 (samplingFrequencyHz / (tau * pllFrequencyHz)) + 1
  innovationFilter := innovationFilter

/-- A test runs for a tick at least. -/
theorem testTicksOf_pos [FloorRing K] (samplingFrequencyHz injectionFrequencyHz : K)
    (config : PolarityTestConfig K) :
    0 < testTicksOf samplingFrequencyHz injectionFrequencyHz config :=
  Nat.mul_pos (Nat.lt_of_lt_of_le Nat.one_pos (Nat.le_max_right _ _))
    (Nat.lt_of_lt_of_le Nat.one_pos (Nat.le_max_right _ _))

/-- `PolarityTest::reset` -/
def PolarityTest.reset (test : PolarityTest K) (polarityKnown : Bool) :
    PolarityTest K :=
  { test with
    state := if polarityKnown then .done else .init
    elapsedTicks := 0
    innovationFilter := test.innovationFilter.reset }

/-- `PolarityTest::verdict` -/
def PolarityTest.verdict (test : PolarityTest K) :
    Option (Except PolarityTestFault Unit) :=
  match test.state with
  | .init | .settling _ | .testing _ _ => none
  | .done => some (.ok ())
  | .fault kind => some (.error kind)

namespace PolarityTest

/-- `PolarityTest::abort` -/
def abort (test : PolarityTest K) (kind : PolarityTestFault) : PolarityTest K :=
  if test.verdict.isNone then { test with state := .fault kind } else test

/-- `PolarityTest::is_active` -/
def isActive (test : PolarityTest K) : Bool := test.verdict.isNone

/-- The filtered innovation; the filter starts over when there is none. -/
def filtered (test : PolarityTest K) : Option K → Option K × LowPassFilter K
  | some error =>
      let (innovation, innovationFilter) := test.innovationFilter.update error
      (some innovation, innovationFilter)
  | none => (none, test.innovationFilter.reset)

/-- `PolarityTest::step`, before the phase locked loop follows. -/
def initStep (innovation : Option K) (timedOut : Bool) : PolarityTestState K :=
  if innovation.isSome then .settling 0
  else if timedOut then .fault .convergenceTimeout
  else .init

/-- The ticks in a row that the loop has been locked. -/
def countLocked (test : PolarityTest K) (lockedTicks : Nat) : Option K → Nat
  | some error =>
      if |error| ≤ test.config.convergenceToleranceRad then lockedTicks + 1 else 0
  | none => 0

/-- `PolarityTest::step`, while the phase locked loop settles. -/
def settlingStep (test : PolarityTest K) (lockedTicks : Nat) (innovation : Option K)
    (timedOut : Bool) : PolarityTestState K :=
  let lockedTicks := test.countLocked lockedTicks innovation
  if lockedTicks ≥ test.lockDwellTicks then .testing 0 0
  else if timedOut then .fault .convergenceTimeout
  else .settling lockedTicks

/-- What one tick tells of the saturation of the iron. -/
def saturationTerm (iD : K) (injectionPhasor : SinCosResult K) : K :=
  iD * (injectionPhasor.cos * injectionPhasor.cos
    - injectionPhasor.sin * injectionPhasor.sin)

/-- The test window with one more tick; it starts over when there is no innovation. -/
def accumulate (ticks : Nat) (saturationSum : K) (innovation : Option K) (iD : K)
    (injectionPhasor : SinCosResult K) : Nat × K :=
  if innovation.isSome then
    (ticks + 1, saturationSum + saturationTerm iD injectionPhasor)
  else (0, 0)

/-- `PolarityTest::step`, while it sums over the test window: the correction of the
    angle comes with the verdict. -/
def testingStep (test : PolarityTest K) (ticks : Nat) (saturationSum : K)
    (innovation : Option K) (iD : K) (injectionPhasor : SinCosResult K)
    (timedOut : Bool) : K × PolarityTestState K :=
  let (ticks, saturationSum) :=
    accumulate ticks saturationSum innovation iD injectionPhasor
  if ticks ≥ test.testTicks then
    if saturationSum = 0 then (0, .fault .inconclusive)
    else (if saturationSum < 0 then pi else 0, .done)
  else if timedOut then (0, .fault .testTimeout)
  else (0, .testing ticks saturationSum)

/-- `PolarityTest::step`: the correction of the angle, and the test. -/
def step (test : PolarityTest K) (thetaError : Option K) (iD : K)
    (injectionPhasor : SinCosResult K) : K × PolarityTest K :=
  let (innovation, innovationFilter) := test.filtered thetaError
  let elapsedTicks := min (test.elapsedTicks + 1) u32Max
  let timedOut := decide (elapsedTicks > test.timeoutTicks)
  let (correctionRad, state) := match test.state with
    | .init => (0, initStep innovation timedOut)
    | .settling lockedTicks => (0, test.settlingStep lockedTicks innovation timedOut)
    | .testing ticks saturationSum =>
        test.testingStep ticks saturationSum innovation iD injectionPhasor timedOut
    | .done => (0, .done)
    | .fault kind => (0, .fault kind)
  (correctionRad,
    { test with
      state := state
      elapsedTicks := elapsedTicks
      innovationFilter := innovationFilter })

end PolarityTest

/-! ## The estimator -/

structure SensorlessEstimatorInput (K : Type) where
  theta : K
  iDq : ClarkParkValue K
  isInjecting : Bool
  hfiIDq : ClarkParkValue K
  motorParams : MotorParamsEstimate K
  hfiParams : HfiParams K
  dtS : K

/-- `f32::is_normal` -/
class HasNormal (K : Type) where
  isNormal : K → Bool

structure SinusoidalPulsingEstimator (K : Type) where
  hfi : SinusoidalPulsingHfi K
  notch : BiquadNotchFilter K
  pll : PLL K
  feedbackFault : Option RotorFeedbackFault
  polarityTest : PolarityTest K
  deriving DecidableEq

namespace SinusoidalPulsingEstimator

section Update

variable [FloorRing K] [HasNormal K]

/-- The gain from the demodulated response to the error of the angle. -/
def demodulationGain (input : SensorlessEstimatorInput K) (ld lq : K) : K :=
  let lSum := 0.5 * (ld + lq)
  let deltaL := 0.5 * (ld - lq)
  let nom := input.hfiParams.amplitudeV * deltaL
  let omegaH := tau * input.hfiParams.injectionFrequencyHz
  nom / (omegaH * (lSum * lSum - deltaL * deltaL))

/-- The update while the injection is on: the loop tracks the demodulated error. -/
def track (estimator : SinusoidalPulsingEstimator K) (input : SensorlessEstimatorInput K)
    (eps k : K) (phasor : SinCosResult K) : SinusoidalPulsingEstimator K :=
  let thetaError :=
    wrappedDiff (input.theta + eps / k) estimator.pll.state.theta
  let pll := (estimator.pll.update thetaError input.dtS).clampOmega
    input.hfiParams.disableThresholdOmegaRads
  if estimator.polarityTest.isActive then
    let (correction, polarityTest) :=
      estimator.polarityTest.step (some thetaError) input.iDq.d phasor
    { estimator with
      pll := pll.rotate correction
      feedbackFault := none
      polarityTest := polarityTest }
  else { estimator with pll := pll, feedbackFault := none }

/-- The update while there is nothing to demodulate: the loop is slaved to the angle
    it is given. -/
def slave (estimator : SinusoidalPulsingEstimator K) (input : SensorlessEstimatorInput K)
    (phasor : SinCosResult K) : SinusoidalPulsingEstimator K :=
  let thetaError := wrappedDiff input.theta estimator.pll.state.theta
  let pll := estimator.pll.update thetaError input.dtS
  let polarityTest :=
    if estimator.polarityTest.isActive then
      (estimator.polarityTest.step none input.iDq.d phasor).2
    else estimator.polarityTest
  let feedbackFault := match polarityTest.state with
    | .init => none
    | _ => some RotorFeedbackFault.unobservable
  { estimator with
    pll := pll, polarityTest := polarityTest, feedbackFault := feedbackFault }

/-- `SensorlessEstimator::update` -/
def update (estimator : SinusoidalPulsingEstimator K)
    (input : SensorlessEstimatorInput K) : SinusoidalPulsingEstimator K :=
  match input.motorParams.dInductance, input.motorParams.qInductance with
  | some ld, some lq =>
      let phasor := estimator.hfi.previousPhasor
      let mixed := input.hfiIDq.q * phasor.cos
      let (eps, notch) := estimator.notch.update mixed
      let estimator := { estimator with notch := notch }
      let k := demodulationGain input ld lq
      if input.isInjecting && HasNormal.isNormal k then
        estimator.track input eps k phasor
      else estimator.slave input phasor
  | _, _ =>
      { estimator with
        feedbackFault := some .missingParameter
        polarityTest := estimator.polarityTest.abort .missingParameter }

end Update

/-- `SensorlessEstimator::reset` -/
def reset (estimator : SinusoidalPulsingEstimator K)
    (initial : Option (RotorFeedback K)) : SinusoidalPulsingEstimator K where
  notch := estimator.notch.reset
  pll := estimator.pll.reset initial
  feedbackFault := none
  polarityTest := estimator.polarityTest.reset initial.isSome
  hfi := estimator.hfi.reset

/-- `HasRotorFeedback::read` -/
def read (estimator : SinusoidalPulsingEstimator K) :
    Except RotorFeedbackFault (RotorFeedback K) :=
  match estimator.feedbackFault with
  | some fault => .error fault
  | none => .ok
      { angleType := .electrical
        theta := wrapInRangeTo2pi estimator.pll.state.theta
        omega := estimator.pll.state.omega }

instance : SaliencyBasedEstimator (SinusoidalPulsingEstimator K) K where
  Hfi := SinusoidalPulsingHfi K
  injects := inferInstance
  hfiSource := hfi
  setHfiSource := fun estimator hfi => { estimator with hfi := hfi }
  polarityTestCommand := fun _ => .rawVoltages ⟨0, 0⟩
  polePolarity := fun estimator => estimator.polarityTest.verdict
  reset := fun estimator initial _ accelerator =>
    (estimator.reset initial, accelerator)
  read := fun estimator => (estimator.read, estimator)

end SinusoidalPulsingEstimator

end Saliency
