import Stm32Foc.Transforms
import Stm32Foc.Tuning

/-! # Pole placement

    The gains that give the current loop a second order response of a bandwidth: a
    complex pair of poles is placed, and the gains are what the delayed plant needs for
    it.  The check behind them walks a grid of perturbed resistances and inductances
    and asks Jury's criterion at every point. -/

namespace Tuning

open FieldOriented

/-- `core::f32::consts`. -/
class CircleConstants (K : Type) where
  PI : K
  TAU : K

/-- `num_complex::Complex32`, as far as the tuning uses it. -/
class ComplexNumber (C : Type) (K : outParam Type) where
  /-- `Complex32::new` -/
  new (re im : K) : C
  re : C → K
  im : C → K
  sub : C → C → C
  mul : C → C → C
  div : C → C → C
  /-- `z - x` -/
  subReal : C → K → C
  /-- `x * z` -/
  realMul : K → C → C
  /-- `x / z` -/
  realDiv : K → C → C

open CircleConstants ComplexNumber

variable {K : Type} [Field K]

/-! ## The goal -/

/-- Fixed damping ratio. -/
def zeta : K := 0.70710678

/-- A goal slower than the plant pole would demand a negative `kp`. -/
def omegaN [LinearOrder K] [CircleConstants K] (R L bandwidthHz : K) : K :=
  max (TAU * bandwidthHz) (R / L)

def closedLoopBandwidthHz [Libm K] [CircleConstants K] (omegaN : K) : K :=
  omegaN * Libm.sqrtf (1 - 2.0 * zeta * zeta
    + Libm.sqrtf (4.0 * zeta * zeta * zeta * zeta - 4.0 * zeta * zeta + 2.0)) / TAU

/-- The magnitude of the placed pair. -/
def placedMagnitude [Libm K] (omegaN T : K) : K := Libm.expf (-zeta * omegaN * T)

/-- The angle of the placed pair. -/
def placedAngle [Libm K] (omegaN T : K) : K :=
  omegaN * Libm.sqrtf (1 - zeta * zeta) * T

/-! ## Plant and controller -/

/-- `C1`, the decay of the plant over the undelayed part of a period. -/
def partialDecay [Libm K] (R L T m : K) : K := Libm.expf (-(R / L) * m * T)

/-- `C2`, the decay of the plant over a period. -/
def fullDecay [Libm K] (R L T : K) : K := Libm.expf (-(R / L) * T)

section Complex

variable (C : Type) [ComplexNumber C K]

def placedPole [Libm K] (r theta : K) : C :=
  new (r * Libm.cosf theta) (r * Libm.sinf theta)

variable {C}

/-- `Pz_at_placed_pole` -/
def plantAt [Libm K] (R L T m : K) (placedPole : C) : C :=
  mul (div (subReal placedPole 1) placedPole)
    (sub (realMul (1 / R) (realDiv 1 (subReal placedPole 1)))
      (realMul (1 / R)
        (realDiv (partialDecay R L T m) (subReal placedPole (fullDecay R L T)))))

/-- `Cz_at_placed_pole`: a closed loop pole makes `1 + P(z) C(z)` zero. -/
def controllerAt [Libm K] (R L T m : K) (placedPole : C) : C :=
  realDiv (-1) (plantAt R L T m placedPole)

/-- `integrator_at_placed_pole` -/
def integratorAt (T : K) (placedPole : C) : C :=
  div (realMul T placedPole) (subReal placedPole 1)

/-- `ki`: the proportional part has no imaginary part. -/
def integralGain [Libm K] (R L T m : K) (placedPole : C) : K :=
  im (controllerAt R L T m placedPole) / im (integratorAt T placedPole)

/-- `kp`: what is left of the real part. -/
def proportionalGain [Libm K] (R L T m : K) (placedPole : C) : K :=
  re (controllerAt R L T m placedPole)
    - integralGain R L T m placedPole * re (integratorAt T placedPole)

end Complex

/-- `p`: the residual real pole, of the delay. -/
def residualPole [Libm K] (R L T m r kp : K) : K :=
  kp * (partialDecay R L T m - fullDecay R L T) / (R * r * r)

variable [LinearOrder K]

/-- `tune` -/
def tune (C : Type) [ComplexNumber C K] [Libm K] [CircleConstants K]
    (R L T m bandwidthHz : K) : Except PITuningFault (PIGains K) :=
  let omegaN := omegaN R L bandwidthHz
  let r := placedMagnitude omegaN T
  let theta := placedAngle omegaN T
  if ¬ (theta > 0 ∧ theta < PI) ∨ ¬ r < 1 then .error .unstable
  else
    let placedPole : C := placedPole C r theta
    let ki := integralGain R L T m placedPole
    let kp := proportionalGain R L T m placedPole
    if ¬ kp > 0 then .error .invalidTuningGoals
    else
      let p := residualPole R L T m r kp
      if ¬ p < r * r * r then .error .invalidTuningGoals
      else
        let z0 := kp / (kp + T * ki)
        .ok
          { kr := z0
            kp := kp
            ki := ki
            kt := 1 / kp
            bandwidthHz := closedLoopBandwidthHz omegaN }

/-! ## The stability check -/

/-- `jury_test` -/
def juryTest (a0 a1 a2 a3 : K) : Bool :=
  let fAt1 := a3 + a2 + a1 + a0
  let fAtNeg1 := -a3 + a2 - a1 + a0
  fAt1 > 0 && fAtNeg1 < 0 && |a0| < a3 && |a0 * a0 - a3 * a3| > |a0 * a2 - a3 * a1|

/-- Grid points per perturbed parameter. -/
def stabilityCheckPointsPerAxis : Nat := 10

/-- The `interpolate` of `perturbed_stability_check`. -/
def interpolate (bounds : K × K) (i : Nat) : K :=
  bounds.1 + (bounds.2 - bounds.1) * (i : K) / ((stabilityCheckPointsPerAxis - 1 : Nat) : K)

/-- The check at a point of the grid: the coefficients of the characteristic polynomial
    of `1 + P(z) C(z) = 0`. -/
def stableAt [Libm K] (Rp Lp T m : K) (gains : PIGains K) : Bool :=
  let C1 := partialDecay Rp Lp T m
  let C2 := fullDecay Rp Lp T
  let a3 := Rp
  let a2 := gains.kp - Rp - C1 * gains.kp + T * gains.ki - C2 * Rp - C1 * T * gains.ki
  let a1 := 2.0 * C1 * gains.kp - gains.kp - C2 * gains.kp + C2 * Rp + C1 * T * gains.ki
    - C2 * T * gains.ki
  let a0 := C2 * gains.kp - C1 * gains.kp
  juryTest a0 a1 a2 a3

/-- `perturbed_stability_check` -/
def perturbedStabilityCheck [Libm K] (R L T m : K) (gains : PIGains K)
    (RPerturb LPerturb : K × K) : Bool :=
  (List.range stabilityCheckPointsPerAxis).all fun i =>
    let Rp := interpolate RPerturb i * R
    (List.range stabilityCheckPointsPerAxis).all fun j =>
      let Lp := interpolate LPerturb j * L
      stableAt Rp Lp T m gains

/-- The tuning of the source, over some complex numbers. -/
@[reducible] def tunesPi (C : Type) [ComplexNumber C K] [Libm K] [CircleConstants K] :
    TunesPi K where
  tune := tune C
  perturbedStabilityCheck := perturbedStabilityCheck

end Tuning
