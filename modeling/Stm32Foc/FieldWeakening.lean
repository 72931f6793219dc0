import Stm32Foc.Transforms
import Stm32Foc.Tuning

/-! # The field weakening controller

    At speeds where the bus voltage runs out, a negative current in the direct axis
    weakens the magnet.  The controller integrates the excess of voltage, between zero
    and a bound of the motor and the current limit. -/

namespace CurrentControl

open FieldOriented

variable {K : Type} [Field K] [LinearOrder K]

/-- `MAX_USEFUL_WEAKENING_RATIO` -/
def maxUsefulWeakeningRatio : K := 0.9

structure FieldWeakeningInput (K : Type) where
  omega : K
  dInductance : K
  pmFluxLinkage : K
  overmodulation : K
  uQ : K
  uMag : K
  currentLimitA : K

structure FieldWeakening (K : Type) where
  targetBandwidthRadS : K
  samplingTimeS : K
  kP : K
  kI : K
  integralTerm : K
  integralDecayRate : K

/-- The current whose field cancels the magnet's. -/
def characteristicCurrent (dInductance pmFluxLinkage : K) : K :=
  if dInductance ≠ 0 then |pmFluxLinkage / dInductance| else 0

namespace FieldWeakening

/-- `FieldWeakening::lower_bound_ratio` -/
def lowerBoundRatio (dInductance pmFluxLinkage currentLimitA : K) : K × K :=
  let iCh := characteristicCurrent dInductance pmFluxLinkage
  let bound := if -0.99 * currentLimitA > -iCh then -0.99 * currentLimitA else -iCh
  if currentLimitA = 0 ∨ iCh = 0 then (bound, 1) else (bound, 1 - |bound / iCh|)

variable [Libm K]

/-- `FieldWeakening::new` -/
def new (targetBandwidthHz samplingTimeS : K) : FieldWeakening K :=
  let targetBandwidthRadS := tau * targetBandwidthHz
  { targetBandwidthRadS := targetBandwidthRadS
    samplingTimeS := samplingTimeS
    kP := 0
    kI := 0
    integralTerm := 0
    integralDecayRate :=
      if targetBandwidthRadS > 0 then
        Libm.expf (Libm.logf 0.1 * samplingTimeS / (1 / targetBandwidthRadS))
      else 0 }

/-- `FieldWeakening::compute` -/
def compute (weakening : FieldWeakening K) (input : FieldWeakeningInput K) :
    Except FocFault K × FieldWeakening K :=
  let (lowerBound, maxWeakeningRatio) :=
    lowerBoundRatio input.dInductance input.pmFluxLinkage input.currentLimitA
  let denom := input.omega * input.uQ * input.dInductance
  let duDidReciprocal := if denom ≠ 0 then input.uMag / denom else 0
  let backEmf := |input.omega * input.pmFluxLinkage|
  if duDidReciprocal > 0 ∧ backEmf > 0.5 * input.uMag
      ∧ maxWeakeningRatio < maxUsefulWeakeningRatio then
    let overmodulationNormalized := duDidReciprocal * input.overmodulation
    let integralAccum := weakening.samplingTimeS * weakening.kI * overmodulationNormalized
    if ¬ Libm.isFinite integralAccum then (.error .numericalError, weakening)
    else
      let integralTerm := clamp (weakening.integralTerm + integralAccum) lowerBound 0
      let proportional := weakening.kP * overmodulationNormalized
      (.ok (clamp (proportional + integralTerm) lowerBound 0),
        { weakening with integralTerm := integralTerm })
  else
    -- nothing may be left of a current that is not needed
    let integralTerm := weakening.integralTerm * weakening.integralDecayRate
    (.ok (clamp integralTerm lowerBound 0), { weakening with integralTerm := integralTerm })

/-- `FieldWeakening::derive_gains` -/
def deriveGains (weakening : FieldWeakening K) (currentControlBandwidthHz : K) :
    Except FocFault Unit × FieldWeakening K :=
  match Tuning.deriveGains weakening.targetBandwidthRadS currentControlBandwidthHz with
  | .error fault => (.error fault, weakening)
  | .ok () =>
      let currentControlBandwidthRadS := tau * currentControlBandwidthHz
      let bandwidthRadS :=
        if weakening.targetBandwidthRadS > 0.33 * currentControlBandwidthRadS then
          0.33 * currentControlBandwidthRadS
        else weakening.targetBandwidthRadS
      (.ok (),
        { weakening with
          kP := bandwidthRadS / currentControlBandwidthRadS
          kI := bandwidthRadS
          integralDecayRate :=
            Libm.expf (Libm.logf 0.1 * weakening.samplingTimeS / (1 / bandwidthRadS)) })

/-- `FieldWeakening::clear_windup` -/
def clearWindup (weakening : FieldWeakening K) : FieldWeakening K :=
  { weakening with integralTerm := 0 }

end FieldWeakening

end CurrentControl
