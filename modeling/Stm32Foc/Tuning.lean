import Stm32Foc.Faults
import Mathlib.Data.Rat.Cast.OfScientific

/-! # Tuning the current controller

    What the gains of the current controller are computed from, and what the
    controller makes of them.  The placing of the poles and the check over perturbed
    parameters, which are `f32` numerics throughout, are behind a class. -/

namespace Tuning

open FieldOriented Faults

inductive PITuningFault where
  | missingMotorParameters
  | infeasibleMotorParameters
  | invalidTuningGoals
  | unstable
  | notRobust
  deriving DecidableEq, Repr

/-- `impl From<PITuningFault> for FaultCause` -/
def PITuningFault.toFaultCause : PITuningFault → FaultCause
  | .missingMotorParameters => .missingMotorParams
  | .infeasibleMotorParameters => .tuningInfeasibleParameters
  | .invalidTuningGoals => .tuningInvalidTuningGoals
  | .unstable | .notRobust => .tuningUnstable

/-- `tune` and `perturbed_stability_check` -/
class TunesPi (K : Type) where
  tune (r l t m bandwidthHz : K) : Except PITuningFault (PIGains K)
  perturbedStabilityCheck (r l t m : K) (gains : PIGains K) (rPerturb lPerturb : K × K) :
    Bool

variable {K : Type} [Field K] [LinearOrder K]

/-- A parameter that the tuning needs. -/
def needed (value : Option K) : Except PITuningFault K :=
  match value with
  | some value => .ok value
  | none => .error .missingMotorParameters

/-- The last part of the tuning, with everything it needs at hand. -/
def tuneBoth [TunesPi K] (r ld lq t bandwidthHz : K) :
    Except PITuningFault (ControllerParameters K) := do
  -- the input delay of half a PWM period
  let m := 0.5
  let dPi ← TunesPi.tune r ld t m bandwidthHz
  let qPi ← TunesPi.tune r lq t m bandwidthHz
  let rPerturb := (0.9, 1.5)
  let lPerturb := (0.65, 1.1)
  let dStable := TunesPi.perturbedStabilityCheck r ld t m dPi rPerturb lPerturb
  let qStable := TunesPi.perturbedStabilityCheck r lq t m qPi rPerturb lPerturb
  if dStable && qStable then .ok { dPi := dPi, qPi := qPi } else .error .notRobust

/-- `compute_current_pi_controller_gains` -/
def computeCurrentPiControllerGains [TunesPi K] (params : MotorParamsEstimate K)
    (pwmFreqHz bandwidthHz : K) : Except PITuningFault (ControllerParameters K) := do
  let r ← needed params.statorResistance
  let ld ← needed params.dInductance
  let lq ← needed params.qInductance
  let t := 1 / pwmFreqHz
  if r ≤ 0 ∨ ld ≤ 0 ∨ lq ≤ 0 ∨ t ≤ 0 then .error .infeasibleMotorParameters
  else if ¬ bandwidthHz > 0 then .error .invalidTuningGoals
  else tuneBoth r ld lq t bandwidthHz

/-- The checks of `FieldWeakening::derive_gains`. -/
def deriveGains (targetBandwidthRadS currentControlBandwidthHz : K) :
    Except FocFault Unit :=
  if currentControlBandwidthHz ≤ 0 then .error .numericalError
  else if targetBandwidthRadS ≤ 0 then .error .invalidParameter
  else .ok ()

/-- `FOC::set_pi_gains`: what it answers.  The gains are the controller's either
    way. -/
def setPiGains (fieldWeakeningBandwidthHz : K) :
    Option (ControllerParameters K) → Except FocFault Unit
  | some gains =>
      let bandwidthHz := gains.dPi.bandwidthHz
      let bandwidthHz :=
        if gains.qPi.bandwidthHz < bandwidthHz then gains.qPi.bandwidthHz else bandwidthHz
      deriveGains (tau * fieldWeakeningBandwidthHz) bandwidthHz
  | none => .ok ()

end Tuning
