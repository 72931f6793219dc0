import Stm32Foc.Filtering

/-! # The flux observer

    The estimator that finds the rotor at speed from the voltage it induces: a gradient
    observer of the stator flux on a linear regression of filtered signals, and a phase
    locked loop on the angle of the active flux. -/

namespace OrtegaIpm

open FieldOriented Saliency Filtering

variable {K : Type} [Field K]

/-! ## The regression filters -/

/-- `Filt` -/
structure Filt (K : Type) where
  alpha : K
  invAlpha : K
  y : K
  deriving DecidableEq

/-- `FiltOut`: low pass, derivative and integral part. -/
structure FiltOut (K : Type) where
  lp : K
  dp : K
  ip : K

namespace Filt

/-- `Filt::new` -/
def new (alpha : K) : Filt K := ⟨alpha, 1 / alpha, 0⟩

/-- `Filt::set_alpha` -/
def setAlpha (self : Filt K) (alpha : K) : Filt K :=
  { self with alpha := alpha, invAlpha := 1 / alpha }

/-- `Filt::reset` -/
def reset (self : Filt K) : Filt K := { self with y := 0 }

/-- `Filt::update` -/
def update (self : Filt K) (u dtS : K) : FiltOut K × Filt K :=
  let dp := self.alpha * (u - self.y)
  let y := self.y + dtS * dp
  (⟨y, dp, y * self.invAlpha⟩, { self with y := y })

end Filt

/-- Both components of a vector, each by its own filter. -/
def filterBoth (filters : Filt K × Filt K) (u : AlphaBeta K) (dtS : K) :
    AlphaBeta (FiltOut K) × (Filt K × Filt K) :=
  let (a, filterA) := filters.1.update u.alpha dtS
  let (b, filterB) := filters.2.update u.beta dtS
  (⟨a, b⟩, (filterA, filterB))

/-- `dot` -/
def dot (a b : AlphaBeta K) : K := a.alpha * b.alpha + a.beta * b.beta

/-! ## The observer -/

/-- What the sensorless estimators are shown of a tick: with the vectors in the frame
    of the stator, which the saliency-based one does not use. -/
structure EstimatorInput (K : Type) extends SensorlessEstimatorInput K where
  iAb : AlphaBeta K
  uAb : AlphaBeta K
  uDq : ClarkParkValue K

structure OrtegaIPMEstimator (K : Type) where
  gamma : K
  alpha : K
  invAlpha : K
  pll : PLL K
  emfFilter : Filt K × Filt K
  currentFilter : Filt K × Filt K
  crossFilter : Filt K
  disturbanceFilter : Filt K
  /-- The estimate of the stator flux. -/
  flux : AlphaBeta K
  prevUAb : AlphaBeta K
  prevIAb : AlphaBeta K
  fault : Option RotorFeedbackFault

/-- The machine's parameters that the observer needs. -/
structure Parameters (K : Type) where
  r : K
  ld : K
  lq : K
  pmFluxLinkage : K

/-- The parameters, if the estimate has them all. -/
def parameters (estimate : MotorParamsEstimate K) : Option (Parameters K) := do
  let r ← estimate.statorResistance
  let ld ← estimate.dInductance
  let lq ← estimate.qInductance
  let pmFluxLinkage ← estimate.pmFluxLinkage
  pure ⟨r, ld, lq, pmFluxLinkage⟩

namespace OrtegaIPMEstimator

/-- `OrtegaIPMEstimator::new` -/
def new (gamma alpha pllFrequencyHz : K) : OrtegaIPMEstimator K where
  gamma := gamma
  alpha := alpha
  invAlpha := 1 / alpha
  pll := phaseLockedLoop pllFrequencyHz
  emfFilter := (.new alpha, .new alpha)
  currentFilter := (.new alpha, .new alpha)
  crossFilter := .new alpha
  disturbanceFilter := .new alpha
  flux := ⟨0, 0⟩
  prevUAb := ⟨0, 0⟩
  prevIAb := ⟨0, 0⟩
  fault := none

/-- `OrtegaIPMEstimator::set_tuning` -/
def setTuning (self : OrtegaIPMEstimator K) (gamma alpha pllFrequencyHz : K) :
    OrtegaIPMEstimator K :=
  { self with
    gamma := gamma
    alpha := alpha
    invAlpha := 1 / alpha
    emfFilter := (self.emfFilter.1.setAlpha alpha, self.emfFilter.2.setAlpha alpha)
    currentFilter :=
      (self.currentFilter.1.setAlpha alpha, self.currentFilter.2.setAlpha alpha)
    crossFilter := self.crossFilter.setAlpha alpha
    disturbanceFilter := self.disturbanceFilter.setAlpha alpha
    pll := setFrequency self.pll pllFrequencyHz }

variable {A : Type} [DoesFocMath A K]

/-- `OrtegaIPMEstimator::set_stator_flux` -/
def setStatorFlux (self : OrtegaIPMEstimator K) (theta pmFluxLinkage : K)
    (accelerator : A) : OrtegaIPMEstimator K × A :=
  let (sc, accelerator) := DoesFocMath.sinCos accelerator theta
  ({ self with flux := ⟨pmFluxLinkage * sc.cos, pmFluxLinkage * sc.sin⟩ }, accelerator)

/-- The rate of the flux between the previous sample and this one. -/
def fluxRate (self : OrtegaIPMEstimator K) (r : K) (input : EstimatorInput K) :
    AlphaBeta K where
  alpha := 0.5 * (self.prevUAb.alpha + input.uAb.alpha
    - r * (self.prevIAb.alpha + input.iAb.alpha))
  beta := 0.5 * (self.prevUAb.beta + input.uAb.beta
    - r * (self.prevIAb.beta + input.iAb.beta))

/-- The regressor of the linear regression, and its measured side. -/
structure Regression (K : Type) where
  phi : AlphaBeta K
  y : K

/-- The measurable signals of the linear regression. -/
def regress (self : OrtegaIPMEstimator K) (p : Parameters K) (input : EstimatorInput K)
    (fluxRate : AlphaBeta K) : Regression K × OrtegaIPMEstimator K :=
  let l0 := p.ld - p.lq
  let (e, emfFilter) := filterBoth self.emfFilter fluxRate input.dtS
  let (i, currentFilter) := filterBoth self.currentFilter input.iAb input.dtS
  let omega1 : AlphaBeta K :=
    ⟨e.alpha.lp - p.lq * i.alpha.dp, e.beta.lp - p.lq * i.beta.dp⟩
  let omega2 : AlphaBeta K :=
    ⟨omega1.alpha - l0 * i.alpha.dp, omega1.beta - l0 * i.beta.dp⟩
  let phi : AlphaBeta K := ⟨omega1.alpha + omega2.alpha, omega1.beta + omega2.beta⟩
  let iLp : AlphaBeta K := ⟨i.alpha.lp, i.beta.lp⟩
  let (cross, crossFilter) := self.crossFilter.update (dot omega2 omega1) input.dtS
  let y := l0 * dot iLp omega1 + self.invAlpha * dot omega1 omega1 + cross.ip
  (⟨phi, y⟩,
    { self with
      emfFilter := emfFilter
      currentFilter := currentFilter
      crossFilter := crossFilter })

/-- The active flux. -/
def activeFlux (flux : AlphaBeta K) (lq : K) (iAb : AlphaBeta K) : AlphaBeta K :=
  ⟨flux.alpha - lq * iAb.alpha, flux.beta - lq * iAb.beta⟩

/-- The flux after the gradient step. -/
def descend (self : OrtegaIPMEstimator K) (fluxRate phi : AlphaBeta K)
    (innovation dtS : K) : AlphaBeta K where
  alpha := self.flux.alpha + dtS * (fluxRate.alpha + self.gamma * phi.alpha * innovation)
  beta := self.flux.beta + dtS * (fluxRate.beta + self.gamma * phi.beta * innovation)

variable [LinearOrder K]

/-- The direction of the active flux, where it is long enough to have one. -/
def direction (x : AlphaBeta K) (xNorm epsilon : K) : AlphaBeta K :=
  if xNorm ≥ epsilon then
    let normRecip := 1 / xNorm
    ⟨x.alpha * normRecip, x.beta * normRecip⟩
  else ⟨0, 0⟩

variable [FloorRing K] [Libm K]

/-- `SensorlessEstimator::update` -/
def update (self : OrtegaIPMEstimator K) (input : EstimatorInput K) (accelerator : A) :
    OrtegaIPMEstimator K × A :=
  match parameters input.motorParams with
  | none =>
      ({ self with
        fault := some .missingParameter
        prevUAb := input.uAb
        prevIAb := input.iAb }, accelerator)
  | some p =>
      let fluxRate := self.fluxRate p.r input
      let (regression, self) := self.regress p input fluxRate
      let x := activeFlux self.flux p.lq input.iAb
      let (xNorm, accelerator) := DoesFocMath.sqrt accelerator (dot x x)
      let epsilon := 0.5 * p.pmFluxLinkage
      let sigma := direction x xNorm epsilon
      let (filtered, disturbanceFilter) :=
        self.disturbanceFilter.update (dot input.iAb sigma) input.dtS
      let disturbance := p.pmFluxLinkage * (p.ld - p.lq) * filtered.dp
      let innovation := regression.y - dot regression.phi x + disturbance
      let flux := self.descend fluxRate regression.phi innovation input.dtS
      let self := { self with disturbanceFilter := disturbanceFilter, flux := flux }
      if !Libm.isFinite flux.alpha || !Libm.isFinite flux.beta then
        ({ self with fault := some .erroneousValue }, accelerator)
      else
        let active := activeFlux flux p.lq input.iAb
        let self := { self with prevUAb := input.uAb, prevIAb := input.iAb }
        -- the loop is not fed with noise alone
        if xNorm < epsilon then
          ({ self with fault := some .unobservable }, accelerator)
        else
          let (thetaEst, accelerator) :=
            DoesFocMath.atan2 accelerator active.beta active.alpha
          let angleError := wrappedDiff thetaEst self.pll.state.theta
          ({ self with pll := self.pll.update angleError input.dtS, fault := none },
            accelerator)

omit [LinearOrder K] [FloorRing K] [Libm K] in
/-- `SensorlessEstimator::reset` -/
def reset (self : OrtegaIPMEstimator K) (initial : Option (RotorFeedback K))
    (params : MotorParamsEstimate K) (accelerator : A) : OrtegaIPMEstimator K × A :=
  let self : OrtegaIPMEstimator K :=
    { self with
      emfFilter := (self.emfFilter.1.reset, self.emfFilter.2.reset)
      currentFilter := (self.currentFilter.1.reset, self.currentFilter.2.reset)
      crossFilter := self.crossFilter.reset
      disturbanceFilter := self.disturbanceFilter.reset
      pll := self.pll.reset initial
      prevUAb := ⟨0, 0⟩
      prevIAb := ⟨0, 0⟩
      fault := none }
  match initial, params.pmFluxLinkage with
  | some feedback, some pmFluxLinkage =>
      self.setStatorFlux feedback.theta pmFluxLinkage accelerator
  | _, _ => ({ self with flux := ⟨0, 0⟩ }, accelerator)

omit [FloorRing K] [Libm K] in
/-- `HasRotorFeedback::read` -/
def read (self : OrtegaIPMEstimator K) : Except RotorFeedbackFault (RotorFeedback K) :=
  match self.fault with
  | some fault => .error fault
  | none => .ok
      { angleType := .electrical
        theta := wrapInRangeTo2pi self.pll.state.theta
        omega := self.pll.state.omega }

end OrtegaIPMEstimator

end OrtegaIpm
