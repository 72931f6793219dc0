import Stm32Foc.FieldWeakening
import Stm32Foc.Saliency

/-! # The current controller

    From the command of a tick and the measured currents to the duty cycles of the
    bridge: two current controllers in the rotating frame, field weakening, the
    saturation to the linear region of the modulator, and the modulator. -/

namespace CurrentControl

open FieldOriented Saliency

variable {K : Type} [Field K]

/-! ## PI controllers -/

structure PIController (K : Type) where
  gains : Option (PIGains K)
  integralTerm : K
  prevRf : K
  samplingTimeS : K

namespace PIController

/-- `PIController::new` -/
def new (gains : Option (PIGains K)) (samplingTimeS : K) : PIController K where
  gains := gains
  integralTerm := 0
  prevRf := 0
  samplingTimeS := samplingTimeS

/-- `PIController::compute` -/
def compute [Libm K] (pi : PIController K) (reference measurement saturationError : K) :
    Except FocFault K × PIController K :=
  match pi.gains with
  | none => (.error .missingControllerGains, pi)
  | some gains =>
      let rF := gains.kr * pi.prevRf + (1 - gains.kr) * reference
      let e := rF - measurement
      let pi := { pi with prevRf := rF }
      let proportional := gains.kp * e
      let antiWindupTerm := gains.kt * saturationError
      let integralAccum := pi.samplingTimeS * gains.ki * (e + antiWindupTerm)
      if ¬ Libm.isFinite integralAccum then (.error .numericalError, pi)
      else
        let integralTerm := pi.integralTerm + integralAccum
        (.ok (proportional + integralTerm), { pi with integralTerm := integralTerm })

/-- `PIController::set_gains` -/
def setGains (pi : PIController K) (gains : Option (PIGains K)) : PIController K :=
  { pi with gains := gains }

/-- `PIController::clear_windup` -/
def clearWindup (pi : PIController K) : PIController K :=
  { pi with integralTerm := 0, prevRf := 0 }

end PIController

/-! ## The controller -/

structure FocConfig (K : Type) where
  pwmFrequencyHz : K
  /-- The current at which deadtime compensation becomes fully active. -/
  deadtimeCompensationBandA : K
  /-- The ratio of the linear range at which field weakening starts. -/
  overmodulationThresholdRatio : K
  fieldWeakeningBandwidthHz : K
  hfiFrequency : K

structure PrevIterValues (K : Type) where
  uMax : K
  uQ : K
  /-- The magnitude of the voltage, limited to the linear range. -/
  uMag : K
  uDqSaturation : ClarkParkValue K

/-- `PrevIterValues::default` -/
def PrevIterValues.default : PrevIterValues K := ⟨0, 0, 0, ⟨0, 0⟩⟩

structure FOC (K : Type) where
  config : FocConfig K
  calibrationDPi : PIController K
  calibrationQPi : PIController K
  dPi : PIController K
  qPi : PIController K
  notchId : BiquadNotchFilter K
  notchIq : BiquadNotchFilter K
  fieldWeakening : FieldWeakening K
  deadtimeBandReciprocal : K
  prevValues : PrevIterValues K
  currentControlBandwidthHz : Option K

variable [LinearOrder K] [Libm K]

/-- `BiquadNotchFilter::new` -/
def notchFilter (sampleRateHz notchHz bandwidthHz : K) : BiquadNotchFilter K :=
  let theta := tau * notchHz / sampleRateHz
  let r := clamp (1 - pi * bandwidthHz / sampleRateHz) 0 0.9999
  let cosTheta := Libm.cosf theta
  let a1 := -2.0 * r * cosTheta
  let a2 := r * r
  let dcGain := (1 + a1 + a2) / (2.0 - 2.0 * cosTheta)
  { b0 := dcGain
    b1 := -2.0 * dcGain * cosTheta
    a1 := a1
    a2 := a2
    s1 := 0
    s2 := 0 }

namespace FOC

/-- `FOC::new` -/
def new (config : FocConfig K) : FOC K :=
  let samplingTimeS := 1 / config.pwmFrequencyHz
  -- a slow integral controller for the steady states of the calibration
  let calibrationGains : PIGains K := ⟨0, 0, 1, 1, 0⟩
  let notch :=
    notchFilter config.pwmFrequencyHz config.hfiFrequency (0.1 * config.hfiFrequency)
  { config := config
    calibrationDPi := .new (some calibrationGains) samplingTimeS
    calibrationQPi := .new (some calibrationGains) samplingTimeS
    dPi := .new none samplingTimeS
    qPi := .new none samplingTimeS
    notchId := notch
    notchIq := notch
    fieldWeakening := .new config.fieldWeakeningBandwidthHz samplingTimeS
    deadtimeBandReciprocal := 1 / (|config.deadtimeCompensationBandA| + 1e-5)
    prevValues := .default
    currentControlBandwidthHz := none }

/-- `FOC::clear_windup` -/
def clearWindup (foc : FOC K) : FOC K :=
  { foc with
    notchId := foc.notchId.reset
    notchIq := foc.notchIq.reset
    calibrationDPi := foc.calibrationDPi.clearWindup
    calibrationQPi := foc.calibrationQPi.clearWindup
    fieldWeakening := foc.fieldWeakening.clearWindup
    dPi := foc.dPi.clearWindup
    qPi := foc.qPi.clearWindup
    prevValues := .default }

/-- `FOC::set_pi_gains` -/
def setPiGains (foc : FOC K) :
    Option (ControllerParameters K) → Except FocFault Unit × FOC K
  | some gains =>
      let foc := foc.clearWindup
      let bandwidthHz := gains.dPi.bandwidthHz
      let bandwidthHz :=
        if gains.qPi.bandwidthHz < bandwidthHz then gains.qPi.bandwidthHz else bandwidthHz
      let (result, fieldWeakening) := foc.fieldWeakening.deriveGains bandwidthHz
      (result,
        { foc with
          dPi := foc.dPi.setGains (some gains.dPi)
          qPi := foc.qPi.setGains (some gains.qPi)
          currentControlBandwidthHz := some bandwidthHz
          fieldWeakening := fieldWeakening })
  | none =>
      let foc := foc.clearWindup
      (.ok (), { foc with dPi := foc.dPi.setGains none, qPi := foc.qPi.setGains none })

/-! ## Voltages -/

/-- Two controllers, one after the other; the second is not called after a fault of
    the first. -/
def computeVoltages (foc : FOC K) (targetIDq iDq : ClarkParkValue K)
    (omegaE pmFluxLinkage : K) (motorParams : MotorParamsEstimate K) :
    Except FocFault (ClarkParkValue K × ClarkParkValue K) × FOC K :=
  let saturation := foc.prevValues.uDqSaturation
  let (uD, dPi) := foc.dPi.compute targetIDq.d iDq.d saturation.d
  let foc := { foc with dPi := dPi }
  match uD with
  | .error fault => (.error fault, foc)
  | .ok uD =>
      let (uQ, qPi) := foc.qPi.compute targetIDq.q iDq.q saturation.q
      let foc := { foc with qPi := qPi }
      match uQ, motorParams.qInductance, motorParams.dInductance with
      | .error fault, _, _ => (.error fault, foc)
      | .ok uQ, some qInductance, some dInductance =>
          -- the cross-coupling of the axes, fed forward
          let uD := uD + -qInductance * iDq.q * omegaE
          let uQ := uQ + omegaE * (pmFluxLinkage + dInductance * iDq.d)
          (.ok (⟨uD, uQ⟩, targetIDq), foc)
      | .ok _, _, _ => (.error .missingMotorParams, foc)

/-- The voltages of the calibration currents: both controllers are called. -/
def calibrationVoltages (foc : FOC K) (targetIDq iDq : ClarkParkValue K) :
    Except FocFault (ClarkParkValue K × ClarkParkValue K) × FOC K :=
  let saturation := foc.prevValues.uDqSaturation
  let (uD, calibrationDPi) := foc.calibrationDPi.compute targetIDq.d iDq.d saturation.d
  let (uQ, calibrationQPi) := foc.calibrationQPi.compute targetIDq.q iDq.q saturation.q
  let foc := { foc with
    calibrationDPi := calibrationDPi
    calibrationQPi := calibrationQPi }
  match uD, uQ with
  | .error fault, _ => (.error fault, foc)
  | .ok _, .error fault => (.error fault, foc)
  | .ok uD, .ok uQ => (.ok (⟨uD, uQ⟩, targetIDq), foc)

/-- The direct current of a torque command. -/
def targetID (foc : FOC K) (omegaE pmFluxLinkage currentLimitA : K)
    (motorParams : MotorParamsEstimate K) (fieldWeakening : Bool) :
    Except FocFault K × FOC K :=
  if fieldWeakening then
    let uMag := foc.prevValues.uMag
    let overmodulation :=
      foc.config.overmodulationThresholdRatio * foc.prevValues.uMax - uMag
    match motorParams.dInductance with
    | none => (.error .missingMotorParams, foc)
    | some dInductance =>
        let (result, weakening) := foc.fieldWeakening.compute
          { omega := omegaE
            dInductance := dInductance
            pmFluxLinkage := pmFluxLinkage
            overmodulation := overmodulation
            uQ := foc.prevValues.uQ
            uMag := uMag
            currentLimitA := currentLimitA }
        (result, { foc with fieldWeakening := weakening })
  else (.ok 0, foc)

/-- `f32::signum` -/
def signum (x : K) : K := if x < 0 then -1 else 1

/-- The current of a torque, within the budget that the direct current leaves. -/
def targetIQ (torqueConstant targetTorque currentBudget : K) : K :=
  let kTau := if torqueConstant ≠ 0 then 1 / torqueConstant else 0
  let targetIQ := kTau * targetTorque
  if |targetIQ| > currentBudget then signum targetIQ * currentBudget else targetIQ

variable {A : Type} [DoesFocMath A K]

/-- What the direct current leaves of the limit. -/
def currentBudget (accelerator : A) (currentLimitA targetID : K) : K × A :=
  let currentBudgetSq := currentLimitA * currentLimitA - targetID * targetID
  if currentBudgetSq > 0 then DoesFocMath.sqrt accelerator currentBudgetSq
  else (0, accelerator)

/-- The voltages of a torque command. -/
def torqueVoltages (foc : FOC K) (targetTorque currentLimitA omegaE : K)
    (filteredIDq : ClarkParkValue K) (motorParams : MotorParamsEstimate K)
    (accelerator : A) (fieldWeakening : Bool) :
    Except FocFault (ClarkParkValue K × ClarkParkValue K) × FOC K × A :=
  match motorParams.pmFluxLinkage with
  | none => (.error .missingMotorParams, foc, accelerator)
  | some pmFluxLinkage =>
      let (targetD, foc) :=
        foc.targetID omegaE pmFluxLinkage currentLimitA motorParams fieldWeakening
      match targetD with
      | .error fault => (.error fault, foc, accelerator)
      | .ok targetD =>
          let (budget, accelerator) := currentBudget accelerator currentLimitA targetD
          match motorParams.torqueConstant with
          | none => (.error .missingMotorParams, foc, accelerator)
          | some torqueConstant =>
              let targetQ := targetIQ torqueConstant targetTorque budget
              let (voltages, foc) := foc.computeVoltages ⟨targetD, targetQ⟩ filteredIDq
                omegaE pmFluxLinkage motorParams
              (voltages, foc, accelerator)

/-- The voltages a command asks for, with the currents it aims at. -/
def commandVoltages (foc : FOC K) (input : FocInput K) (omegaE : K)
    (measuredIDq filteredIDq : ClarkParkValue K) (motorParams : MotorParamsEstimate K)
    (accelerator : A) (fieldWeakening : Bool) :
    Except FocFault (ClarkParkValue K × ClarkParkValue K) × FOC K × A :=
  match input.command with
  | .calibrationVoltage voltage | .rawVoltages voltage =>
      (.ok (voltage, ⟨0, 0⟩), foc, accelerator)
  | .calibrationCurrents targetIDq =>
      let (voltages, foc) := foc.calibrationVoltages targetIDq measuredIDq
      (voltages, foc, accelerator)
  | .targetCurrents targetIDq =>
      let (voltages, foc) :=
        foc.computeVoltages targetIDq measuredIDq omegaE 0 motorParams
      (voltages, foc, accelerator)
  | .targetTorque targetTorque =>
      foc.torqueVoltages targetTorque input.currentLimitA omegaE filteredIDq motorParams
        accelerator fieldWeakening

/-! ## Saturation -/

/-- The voltages within a circle, with their magnitude in it: the direct axis comes
    first. -/
def saturate (accelerator : A) (uDq : ClarkParkValue K) (uClamp : K) :
    ClarkParkValue K × K × A :=
  let uMagSq := uDq.d * uDq.d + uDq.q * uDq.q
  let uClampSq := uClamp * uClamp
  if uMagSq > uClampSq then
    let uDClamped := clamp uDq.d (-uClamp) uClamp
    let uDClampedSq := uDClamped * uDClamped
    let (uQLimit, accelerator) :=
      if uClampSq > uDClampedSq then
        DoesFocMath.sqrt accelerator (uClampSq - uDClampedSq)
      else (0, accelerator)
    (⟨uDClamped, clamp uDq.q (-uQLimit) uQLimit⟩, uClamp, accelerator)
  else
    let (uMag, accelerator) := DoesFocMath.sqrt accelerator uMagSq
    (uDq, uMag, accelerator)

/-- The injection is on. -/
def hfiInjecting (input : FocInput K) (omegaE : K) : Bool :=
  match input.command with
  | .rawVoltages _ => true
  | .targetTorque _ => decide (|omegaE| < input.hfiParams.disableThresholdOmegaRads)
  | _ => false

/-- One phase's duty cycle with the dead time made up for. -/
def compensateDeadtime (foc : FOC K) (deadtimeRatio : Option K) (duty current : K) : K :=
  match deadtimeRatio with
  | some ratio => duty + ratio * clamp (current * foc.deadtimeBandReciprocal) (-1) 1
  | none => duty

/-- The duty cycles the bridge is given. -/
def finalDuties (foc : FOC K) (deadtimeRatio : Option K) (duties currents : PhaseValues K) :
    PhaseValues K where
  u := clamp (foc.compensateDeadtime deadtimeRatio duties.u currents.u) 0 1
  v := clamp (foc.compensateDeadtime deadtimeRatio duties.v currents.v) 0 1
  w := clamp (foc.compensateDeadtime deadtimeRatio duties.w currents.w) 0 1

variable [Sqrt3 K]

/-- The voltage budget of a tick: what is injected is reserved. -/
def voltageBudget (input : FocInput K) (omegaE : K) : K :=
  let uMax := input.dcBusVoltageV * Sqrt3.sqrt3Reciprocal
  if hfiInjecting input omegaE then max2 (uMax - input.hfiParams.amplitudeV) 0 else uMax

/-- What a tick knows before it decides anything. -/
structure Measured (K : Type) where
  thetaE : K
  omegaE : K
  scE : SinCosResult K
  measuredIAb : AlphaBeta K
  measuredIDq : ClarkParkValue K
  filteredIDq : ClarkParkValue K

/-- The first part of `FOC::compute`: the angle, and the currents in its frame. -/
def measure (foc : FOC K) (input : FocInput K) (polePairs : UInt8) (accelerator : A) :
    Measured K × FOC K × A :=
  let angleScaler : K := match input.angleType with
    | .electrical => 1
    | .mechanical => polePairsF polePairs
  let thetaE := angleScaler * input.theta
  let omegaE := angleScaler * input.omega
  let (scE, accelerator) := DoesFocMath.sinCos accelerator thetaE
  let (measuredIAb, measuredIDq) := forwardClarkPark input.phaseCurrents scE
  let (filteredD, notchId) := foc.notchId.update measuredIDq.d
  let (filteredQ, notchIq) := foc.notchIq.update measuredIDq.q
  ({ thetaE := thetaE
     omegaE := omegaE
     scE := scE
     measuredIAb := measuredIAb
     measuredIDq := measuredIDq
     filteredIDq := ⟨filteredD, filteredQ⟩ },
    { foc with notchId := notchId, notchIq := notchIq }, accelerator)

/-- The voltages that a tick asks for, before they are saturated. -/
def requestedVoltages (foc : FOC K) (input : FocInput K)
    (motorParams : MotorParamsEstimate K) (polePairs : UInt8) (accelerator : A)
    (fieldWeakening : Bool) :
    Except FocFault (ClarkParkValue K × ClarkParkValue K) × FOC K × A :=
  let (measured, foc, accelerator) := foc.measure input polePairs accelerator
  foc.commandVoltages input measured.omegaE measured.measuredIDq measured.filteredIDq
    motorParams accelerator fieldWeakening

/-- The last part of `FOC::compute`: saturation, injection and modulation. -/
def modulate {H : Type} [HfiSource H K] (foc : FOC K) (input : FocInput K)
    (deadtimeRatio : Option K) (measured : Measured K)
    (uDq targetIDq : ClarkParkValue K) (accelerator : A) (hfi : H) :
    FocResult K × FOC K × A × H :=
  let injecting := hfiInjecting input measured.omegaE
  let (saturated, uMagLinear, accelerator) :=
    saturate accelerator uDq (voltageBudget input measured.omegaE)
  let foc := { foc with
    prevValues :=
      { uDqSaturation := ⟨saturated.d - uDq.d, saturated.q - uDq.q⟩
        uMax := input.dcBusVoltageV * Sqrt3.sqrt3Reciprocal
        uMag := uMagLinear
        uQ := uDq.q } }
  let (uInjected, hfi) := HfiSource.compute hfi input.hfiParams
  let uDq : ClarkParkValue K :=
    if injecting then ⟨saturated.d + uInjected.d, saturated.q + uInjected.q⟩
    else saturated
  let uAb := inversePark uDq measured.scE
  ({ thetaE := measured.thetaE
     omegaE := measured.omegaE
     dcBusVoltageV := input.dcBusVoltageV
     dutyCycles := foc.finalDuties deadtimeRatio
       (spaceVectorDuties uAb input.dcBusVoltageV) input.phaseCurrents
     voltageHexagonSector := voltageSector uAb
     measuredIAb := measured.measuredIAb
     measuredIDq := measured.measuredIDq
     targetIDq := targetIDq
     uDq := uDq
     uAb := uAb
     isInjecting := injecting
     hfiIDq := ⟨measured.measuredIDq.d - measured.filteredIDq.d,
       measured.measuredIDq.q - measured.filteredIDq.q⟩
     hfiParams := input.hfiParams },
    foc, accelerator, hfi)

/-- `FOC::compute` -/
def compute {H : Type} [HfiSource H K] (foc : FOC K) (input : FocInput K)
    (motorParams : MotorParamsEstimate K) (accelerator : A) (hfi : H)
    (fieldWeakening : Bool) : Except FocFault (FocResult K) × FOC K × A × H :=
  match motorParams.numPolePairs with
  | none => (.error .missingMotorParams, foc, accelerator, hfi)
  | some polePairs =>
      let measured := (foc.measure input polePairs accelerator).1
      match foc.requestedVoltages input motorParams polePairs accelerator fieldWeakening with
      | (.error fault, foc, accelerator) => (.error fault, foc, accelerator, hfi)
      | (.ok (uDq, targetIDq), foc, accelerator) =>
          let (result, foc, accelerator, hfi) := foc.modulate input
            motorParams.deadtimeRatio measured uDq targetIDq accelerator hfi
          (.ok result, foc, accelerator, hfi)

instance : CurrentController (FOC K) K where
  compute := compute
  clearWindup := clearWindup

end FOC

end CurrentControl
