import Stm32Foc.Angles

/-! # Feedback arbitration

    Which estimate of the rotor is used: `FeedbackArbitrator` mixes the estimate of
    the saliency, good at low speeds, with that of the flux, good at high speeds.
    The numbers it computes may fail to be any (`Number`): its reciprocal is infinite
    where the two thresholds are equal. -/

namespace Arbitration

open FieldOriented

/-- What a computation on `f32` comes to: `none` where that is infinite or not a
    number. -/
abbrev Number (K : Type) : Type := Option K

/-- What a sensor reports. -/
abbrev Feedback (K : Type) : Type := Except RotorFeedbackFault (RotorFeedback K)

structure FeedbackArbitrator (K : Type) where
  hallFeedback : Option (Feedback K)
  saliencyEstimate : Option (Feedback K)
  fluxEstimate : Option (Feedback K)
  sensorlessFeedback : Option (Feedback (Number K))
  hallPattern : UInt8
  blendOmega : Number K
  lowSpeedThresholdOmegaRads : K
  highSpeedThresholdOmegaRads : K
  blendReciprocal : Number K

variable {K : Type} [Field K] [LinearOrder K]

/-- A feedback of numbers. -/
def ofNumbers (feedback : RotorFeedback K) : RotorFeedback (Number K) where
  angleType := feedback.angleType
  theta := some feedback.theta
  omega := some feedback.omega

/-- `1.0 / x` -/
def reciprocal (x : K) : Number K := if x = 0 then none else some (1 / x)

namespace FeedbackArbitrator

/-- `FeedbackArbitrator::new` -/
def new (lowSpeedThresholdOmegaRads highSpeedThresholdOmegaRads : K) :
    FeedbackArbitrator K where
  hallFeedback := none
  saliencyEstimate := none
  fluxEstimate := none
  sensorlessFeedback := none
  hallPattern := 0
  blendOmega := some 0
  lowSpeedThresholdOmegaRads := lowSpeedThresholdOmegaRads
  highSpeedThresholdOmegaRads := highSpeedThresholdOmegaRads
  blendReciprocal := reciprocal (highSpeedThresholdOmegaRads - lowSpeedThresholdOmegaRads)

/-- `FeedbackArbitrator::set_thresholds` -/
def setThresholds (self : FeedbackArbitrator K)
    (lowSpeedThresholdOmegaRads highSpeedThresholdOmegaRads : K) :
    FeedbackArbitrator K :=
  { self with
    lowSpeedThresholdOmegaRads := lowSpeedThresholdOmegaRads
    highSpeedThresholdOmegaRads := highSpeedThresholdOmegaRads
    blendReciprocal :=
      reciprocal (highSpeedThresholdOmegaRads - lowSpeedThresholdOmegaRads) }

/-- `FeedbackArbitrator::update_hall` -/
def updateHall (self : FeedbackArbitrator K) (result : Feedback K) (pattern : UInt8) :
    FeedbackArbitrator K :=
  { self with
    hallFeedback := some result
    hallPattern := if 1 ≤ pattern ∧ pattern ≤ 6 then pattern else self.hallPattern }

/-- `FeedbackArbitrator::fault` -/
def fault (self : FeedbackArbitrator K) : RotorFeedbackFault :=
  match self.hallFeedback, self.sensorlessFeedback with
  | some (.error fault), _ => fault
  | _, some (.error fault) => fault
  | _, _ => .noFeedback

/-- `HasRotorFeedback::read` -/
def read (self : FeedbackArbitrator K) : Feedback (Number K) :=
  match self.hallFeedback.bind Except.toOption,
      self.sensorlessFeedback.bind Except.toOption with
  | some hall, some sensorless =>
      if |hall.omega| > self.highSpeedThresholdOmegaRads then .ok sensorless
      else .ok (ofNumbers hall)
  | some hall, none => .ok (ofNumbers hall)
  | none, some sensorless => .ok sensorless
  | none, none => .error self.fault

/-- The weight `alpha` of the saliency estimate.  A blend speed that is not a number
    compares to nothing, and the product is not one either. -/
def weight (self : FeedbackArbitrator K) : Number K :=
  match self.blendOmega with
  | some blendOmega =>
      if |blendOmega| > self.highSpeedThresholdOmegaRads then some 0
      else if |blendOmega| < self.lowSpeedThresholdOmegaRads then some 1
      else
        -- zero times infinity is not a number
        self.blendReciprocal.map
          fun reciprocal => (self.highSpeedThresholdOmegaRads - |blendOmega|) * reciprocal
  | none => none

/-- The blend speed, as a function of the speed that comes out. -/
def clampOmega (self : FeedbackArbitrator K) (omega : K) : K :=
  clamp omega (-self.highSpeedThresholdOmegaRads) self.highSpeedThresholdOmegaRads

variable [FloorRing K]

/-- `FeedbackArbitrator::blend` -/
def blend (self : FeedbackArbitrator K) :
    Option (Feedback (Number K)) × FeedbackArbitrator K :=
  let lowSpeed := self.saliencyEstimate.bind Except.toOption
  let highSpeed := self.fluxEstimate.bind Except.toOption
  match lowSpeed, highSpeed with
  | some lowSpeed, some highSpeed =>
      let alpha := self.weight
      let blendOmega := alpha.map
        fun alpha => alpha * lowSpeed.omega + (1 - alpha) * highSpeed.omega
      let theta := alpha.map fun alpha =>
        wrapInRangeTo2pi
          (highSpeed.theta + alpha * wrappedDiff lowSpeed.theta highSpeed.theta)
      (some (.ok ⟨.electrical, theta, blendOmega⟩),
        { self with blendOmega := blendOmega.map self.clampOmega })
  | some lowSpeed, none =>
      if |lowSpeed.omega| < self.highSpeedThresholdOmegaRads then
        (some (.ok ⟨lowSpeed.angleType, some lowSpeed.theta, some lowSpeed.omega⟩),
          { self with blendOmega := some (self.clampOmega lowSpeed.omega) })
      else (some (.error .unobservable), self)
  | none, some highSpeed =>
      if |highSpeed.omega| > self.lowSpeedThresholdOmegaRads then
        (some (.ok ⟨highSpeed.angleType, some highSpeed.theta, some highSpeed.omega⟩),
          { self with blendOmega := some (self.clampOmega highSpeed.omega) })
      else (some (.error .unobservable), self)
  | none, none =>
      match self.hallFeedback with
      | some (.ok hallFeedback) =>
          (none, { self with blendOmega := some hallFeedback.omega })
      | _ => (none, { self with blendOmega := some self.highSpeedThresholdOmegaRads })

/-- `FeedbackArbitrator::update_sensorless` -/
def updateSensorless (self : FeedbackArbitrator K) (saliency flux : Feedback K) :
    FeedbackArbitrator K :=
  let self := { self with saliencyEstimate := some saliency, fluxEstimate := some flux }
  let (sensorlessFeedback, self) := self.blend
  { self with sensorlessFeedback := sensorlessFeedback }

end FeedbackArbitrator

end Arbitration
