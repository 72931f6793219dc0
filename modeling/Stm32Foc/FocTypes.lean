import Mathlib.Algebra.Order.Field.Basic
import Mathlib.Tactic.Positivity

/-! # Types of the field-oriented control

    The vocabulary that the modes, the calibration and the current loop share.
    The numbers are those of an ordered field `K`, which stands for `f32` without
    its rounding. -/

namespace FieldOriented

inductive AngleType where
  | mechanical
  | electrical
  deriving DecidableEq, Repr

inductive RotorFeedbackFault where
  | notCalibrated
  | missingParameter
  | noFeedback
  | erroneousValue
  | unobservable
  deriving DecidableEq, Repr

structure RotorFeedback (K : Type) where
  angleType : AngleType
  theta : K
  omega : K
  deriving DecidableEq

structure SinCosResult (K : Type) where
  sin : K
  cos : K
  deriving DecidableEq

structure AlphaBeta (K : Type) where
  alpha : K
  beta : K
  deriving DecidableEq

structure ClarkParkValue (K : Type) where
  d : K
  q : K
  deriving DecidableEq

structure PhaseValues (K : Type) where
  u : K
  v : K
  w : K
  deriving DecidableEq

/-- The command the current controller is given. -/
inductive FocInputType (K : Type) where
  | calibrationVoltage (u : ClarkParkValue K)
  | calibrationCurrents (i : ClarkParkValue K)
  | targetCurrents (i : ClarkParkValue K)
  | rawVoltages (u : ClarkParkValue K)
  | targetTorque (torqueNm : K)
  deriving DecidableEq

structure HfiParams (K : Type) where
  amplitudeV : K
  injectionFrequencyHz : K
  disableThresholdOmegaRads : K
  deriving DecidableEq

structure FocInput (K : Type) where
  command : FocInputType K
  dcBusVoltageV : K
  angleType : AngleType
  theta : K
  omega : K
  phaseCurrents : PhaseValues K
  currentLimitA : K
  hfiParams : HfiParams K
  deriving DecidableEq

inductive FocFault where
  | missingMotorParams
  | missingControllerGains
  | invalidParameter
  | numericalError
  deriving DecidableEq, Repr

structure FocResult (K : Type) where
  thetaE : K
  omegaE : K
  dcBusVoltageV : K
  dutyCycles : PhaseValues K
  voltageHexagonSector : UInt8
  measuredIAb : AlphaBeta K
  measuredIDq : ClarkParkValue K
  targetIDq : ClarkParkValue K
  uDq : ClarkParkValue K
  uAb : AlphaBeta K
  isInjecting : Bool
  hfiIDq : ClarkParkValue K
  hfiParams : HfiParams K
  deriving DecidableEq

/-- `type HallCalibration = [f32; 6]` -/
abbrev HallCalibration (K : Type) : Type := Vector K 6

inductive HallCalibrationFault where
  | edgeDisagreement
  deriving DecidableEq, Repr

inductive EstimationStepFault where
  | missingParameter
  | overflow
  | insufficientSamples
  | degenSolution
  | parameterOutOfBounds
  | targetCurrentUnreachable
  deriving DecidableEq, Repr

inductive PolarityTestFault where
  | convergenceTimeout
  | testTimeout
  | inconclusive
  | missingParameter
  deriving DecidableEq, Repr

/-- What is known of the motor. -/
structure MotorParamsEstimate (K : Type) where
  numPolePairs : Option UInt8
  statorResistance : Option K
  dInductance : Option K
  qInductance : Option K
  pmFluxLinkage : Option K
  deadtimeRatio : Option K
  deriving DecidableEq

/-- `pp as f32` -/
def polePairsF {K : Type} [NatCast K] (pp : UInt8) : K := (pp.toNat : K)

/-- `MotorParamsEstimate::torque_constant` -/
def MotorParamsEstimate.torqueConstant {K : Type} [Field K]
    (params : MotorParamsEstimate K) : Option K := do
  let pp ← params.numPolePairs
  let pmf ← params.pmFluxLinkage
  pure (3 / 2 * polePairsF pp * pmf)

structure PIGains (K : Type) where
  /-- Set point filter "gain" (1 / time constant). -/
  kr : K
  /-- Proportional gain. -/
  kp : K
  /-- Integral gain. -/
  ki : K
  /-- Anti-windup "gain" (1 / time constant). -/
  kt : K
  bandwidthHz : K
  deriving DecidableEq

structure ControllerParameters (K : Type) where
  dPi : PIGains K
  qPi : PIGains K
  deriving DecidableEq

/-! ## Angles -/

/-- `core::f32::consts::PI`, the exact value of the constant. -/
def pi {K : Type} [Field K] : K := 13176795 / 4194304

/-- `core::f32::consts::TAU` -/
def tau {K : Type} [Field K] : K := 2 * pi

section Signs

variable {K : Type} [Field K] [LinearOrder K] [IsStrictOrderedRing K]

theorem pi_pos : (0 : K) < pi := by
  rw [pi]
  positivity

theorem tau_pos : (0 : K) < tau := mul_pos two_pos pi_pos

end Signs

/-- `wrap_in_range_to_2pi`, of an angle in `(-TAU, 2*TAU)`. -/
def wrapInRangeTo2pi {K : Type} [Field K] [LinearOrder K] (angleRad : K) : K :=
  let lifted := if angleRad < 0 then angleRad + tau else angleRad
  if lifted ≥ tau then lifted - tau else lifted

/-! ## Traits -/

/-- `trait DoesFocMath` -/
class DoesFocMath (A : Type) (K : outParam Type) where
  sinCos : A → K → SinCosResult K × A
  sqrt : A → K → K × A
  atan2 : A → K → K → K × A

/-- `trait HfiSource` -/
class HfiSource (H : Type) (K : outParam Type) where
  compute : H → HfiParams K → ClarkParkValue K × H

/-- `trait MotorParamEstimator` -/
class MotorParamEstimator (P : Type) (K : outParam Type) where
  afterFocIteration : P → FocResult K → P
  getEstimate : P → MotorParamsEstimate K
  invalidate : P → P

/-- Parameters that no measurement changes. -/
structure ConstantMotorParameters (K : Type) where
  params : MotorParamsEstimate K
  deriving DecidableEq

/-- `MotorParamsEstimate::invalidate` -/
def MotorParamsEstimate.invalidate {K : Type} (params : MotorParamsEstimate K) :
    MotorParamsEstimate K :=
  { params with
    statorResistance := none
    dInductance := none
    qInductance := none
    pmFluxLinkage := none
    deadtimeRatio := none }

instance {K : Type} : MotorParamEstimator (ConstantMotorParameters K) K where
  afterFocIteration constant _ := constant
  getEstimate constant := constant.params
  invalidate constant := ⟨constant.params.invalidate⟩

/-- `trait SaliencyBasedEstimator`, with the parts of `SensorlessEstimator` and
    `HasRotorFeedback` that the current loop uses; `setHfiSource` is the writing
    half of the reference that `hfi_source` lends. -/
class SaliencyBasedEstimator (E : Type) (K : outParam Type) where
  Hfi : Type
  injects : HfiSource Hfi K
  hfiSource : E → Hfi
  setHfiSource : E → Hfi → E
  polarityTestCommand : E → FocInputType K
  polePolarity : E → Option (Except PolarityTestFault Unit)
  reset {A : Type} [DoesFocMath A K] (estimator : E)
    (initial : Option (RotorFeedback K)) (params : MotorParamsEstimate K)
    (accelerator : A) : E × A
  read : E → Except RotorFeedbackFault (RotorFeedback K) × E

/-- `trait CurrentController`: the accelerator and the HFI source it is lent come
    back with its result. -/
class CurrentController (C : Type) (K : outParam Type) where
  compute {A H : Type} [DoesFocMath A K] [HfiSource H K] (foc : C)
    (input : FocInput K) (motorParams : MotorParamsEstimate K) (accelerator : A)
    (hfi : H) (fieldWeakening : Bool) : Except FocFault (FocResult K) × C × A × H
  clearWindup : C → C

end FieldOriented
