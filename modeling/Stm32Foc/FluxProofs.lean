import Stm32Foc.InductanceProofs
import Stm32Foc.MagnetFlux
import Stm32Foc.StreamRun

/-! # The measured flux linkage

    In the open loop rotation the voltage without its resistive part is the flux of the
    stator, turned by a quarter, times the speed.  So the means of a rotation are the
    flux at the mean current (`solves_of_collects`), and the solver, iterated along the
    ramp down, converges to the flux of the magnets for every motor whose saliency is
    small against them. -/

namespace FluxProofs

open FieldOriented Calibration Commission EstimationProofs DurationProofs StreamRun
open NormalizedIteration MagnetFlux

/-! ## The rotation -/

/-- The sums of an accumulator as a complex number. -/
def sums (mean : Mean ℝ) : ℂ := ⟨mean.xSum, mean.ySum⟩

/-- A measurement of a rotation with speed `omega`: the current is bounded, and what the
    resistance leaves of the voltage is the flux, turned by a quarter, times the
    speed. -/
structure Obeys (motor : Motor) (current resistance omega : ℝ) (data : FocResult ℝ) :
    Prop where
  bound : ‖toComplex data.measuredIDq‖ ≤ current
  law : toComplex data.uDq - resistance * toComplex data.measuredIDq
    = omega * Complex.I * motor.flux (toComplex data.measuredIDq)

/-- The rotation reaches a speed, and takes enough samples. -/
structure Suits (config : OfflineEstimatorConfig ℝ) : Prop where
  dt : 0 < config.dtS
  spinOmega : config.spinOmega ≠ 0
  spins : config.dtS < config.maxSpinTimeS
  samples : minSolveSamples * config.dtS ≤ config.testTimeS

/-- What the accumulators of a rotation hold. -/
structure Collects (motor : Motor) (current : ℝ) (config : OfflineEstimatorConfig ℝ)
    (test : EstF ℝ) : Prop where
  dInductance : test.dInductance = motor.dInductance
  qInductance : test.qInductance = motor.qInductance
  spinning : test.ranS < config.maxSpinTimeS →
    test.voltage = .new ∧ test.current = .new
  speed : config.maxSpinTimeS ≤ test.ranS → test.omega ≠ 0
  ran : test.ranS < config.maxSpinTimeS + (test.voltage.numData + 1) * config.dtS
  count : test.voltage.numData = test.current.numData
  bound : ‖sums test.current‖ ≤ test.current.numData * current
  law : sums test.voltage = test.omega * Complex.I
    * (inductorFlux motor.lAvg motor.lDiff motor.magnets (sums test.current)
      + test.current.numData * (motor.pmFlux * motor.magnets))

theorem sums_new : sums .new = 0 := rfl

theorem sums_accumulate (mean : Mean ℝ) (value : ClarkParkValue ℝ) :
    sums (mean.accumulate value.d value.q) = sums mean + toComplex value := rfl

theorem numData_accumulate (mean : Mean ℝ) (x y : ℝ) :
    (mean.accumulate x y).numData = mean.numData + 1 := rfl

theorem inductorFlux_zero (lAvg lDiff : ℝ) (w : ℂ) : inductorFlux lAvg lDiff w 0 = 0 := by
  rw [inductorFlux, map_zero, mul_zero, mul_zero, mul_zero, add_zero]

theorem inductorFlux_add (lAvg lDiff : ℝ) (w i i' : ℂ) :
    inductorFlux lAvg lDiff w (i + i')
      = inductorFlux lAvg lDiff w i + inductorFlux lAvg lDiff w i' := by
  rw [inductorFlux, map_add, inductorFlux, inductorFlux]
  ring

theorem collects_turn {motor : Motor} {current : ℝ} {config : OfflineEstimatorConfig ℝ}
    {test : EstF ℝ} {data : FocResult ℝ} (hsuits : Suits config)
    (h : Collects motor current config test)
    (hdata : config.maxSpinTimeS ≤ test.ranS →
      Obeys motor current test.resistance test.omega data) :
    Collects motor current config (test.turn data config) := by
  have hdt := hsuits.dt
  rcases lt_or_ge test.ranS config.maxSpinTimeS with hspin | hmeasure
  · -- it spins up: the accumulators are new
    obtain ⟨hvoltage, hcurrent⟩ := h.spinning hspin
    have hturn : test.turn data config = { test with
        omega := config.spinOmega * test.ranS / config.maxSpinTimeS
        theta := wrapTo2pi (test.theta
          + config.spinOmega * test.ranS / config.maxSpinTimeS * config.dtS)
        ranS := test.ranS + config.dtS } := by
      simp only [EstF.turn, if_pos hspin]
    rw [hturn]
    refine ⟨h.dInductance, h.qInductance, fun _ => ⟨hvoltage, hcurrent⟩, fun hlast => ?_, ?_,
      h.count, h.bound, ?_⟩
    · -- the last tick of the spin up is after the first
      have hlast : config.maxSpinTimeS ≤ test.ranS + config.dtS := hlast
      have hran : 0 < test.ranS := by linarith [hsuits.spins]
      have hspins : 0 < config.maxSpinTimeS := hdt.trans hsuits.spins
      exact div_ne_zero (mul_ne_zero hsuits.spinOmega hran.ne') hspins.ne'
    · show test.ranS + config.dtS < _
      have hcount : 0 ≤ (test.voltage.numData : ℝ) * config.dtS := by positivity
      linarith
    dsimp only
    rw [hvoltage, hcurrent, sums_new, inductorFlux_zero, zero_add]
    show 0 = _ * (((0 : Nat) : ℂ) * _)
    rw [Nat.cast_zero, zero_mul, mul_zero]
  · -- it measures
    have hobeys := hdata hmeasure
    have hturn : test.turn data config = { test with
        voltage := test.voltage.accumulate
          (data.uDq.d - test.resistance * data.measuredIDq.d)
          (data.uDq.q - test.resistance * data.measuredIDq.q)
        current := test.current.accumulate data.measuredIDq.d data.measuredIDq.q
        theta := wrapTo2pi (test.theta + test.omega * config.dtS)
        ranS := test.ranS + config.dtS } := by
      simp only [EstF.turn, if_neg (not_lt.mpr hmeasure)]
    have hv : sums (test.voltage.accumulate
        (data.uDq.d - test.resistance * data.measuredIDq.d)
        (data.uDq.q - test.resistance * data.measuredIDq.q))
          = sums test.voltage
            + test.omega * Complex.I * motor.flux (toComplex data.measuredIDq) := by
      rw [← hobeys.law]
      refine Complex.ext ?_ ?_ <;> simp [sums, Mean.accumulate, toComplex]
    rw [hturn]
    refine ⟨h.dInductance, h.qInductance, fun hspin => ?_, fun _ => h.speed hmeasure, ?_,
      congrArg (· + 1) h.count, ?_, ?_⟩
    · have hlt : test.ranS + config.dtS < config.maxSpinTimeS := hspin
      linarith
    · dsimp only
      rw [numData_accumulate, Nat.cast_add, Nat.cast_one]
      have hran := h.ran
      linarith
    · dsimp only
      rw [sums_accumulate, numData_accumulate, Nat.cast_add, Nat.cast_one, add_mul, one_mul]
      exact (norm_add_le _ _).trans (add_le_add h.bound hobeys.bound)
    · dsimp only
      rw [hv, h.law, sums_accumulate, numData_accumulate, inductorFlux_add, motor.flux_eq,
        Nat.cast_add, Nat.cast_one]
      ring

theorem inductorFlux_smul (lAvg lDiff r : ℝ) (w i : ℂ) :
    inductorFlux lAvg lDiff w (r * i) = r * inductorFlux lAvg lDiff w i := by
  rw [inductorFlux, map_mul, Complex.conj_ofReal, inductorFlux]
  ring

theorem toComplex_mean (mean : Mean ℝ) :
    toComplex ⟨mean.x, mean.y⟩ = ((mean.numData : ℝ)⁻¹ : ℝ) * sums mean := by
  refine Complex.ext ?_ ?_
  · rw [Complex.re_ofReal_mul]
    exact div_eq_inv_mul ..
  · rw [Complex.im_ofReal_mul]
    exact div_eq_inv_mul ..

/-- **MEANS**: the means of a rotation are the flux of the motor at its mean current. -/
theorem solves_of_collects {motor : Motor} {current : ℝ} {config : OfflineEstimatorConfig ℝ}
    {test : EstF ℝ} (h : Collects motor current config test)
    (hdata : test.voltage.numData ≠ 0) (homega : test.omega ≠ 0) :
    let solver := PmFluxSolver.new ⟨test.voltage.y / test.omega, -test.voltage.x / test.omega⟩
      ⟨test.current.x, test.current.y⟩ test.dInductance test.qInductance
    Solves motor solver ∧ ‖toComplex solver.i‖ ≤ current := by
  intro solver
  have hcount : (test.current.numData : ℝ) ≠ 0 :=
    Nat.cast_ne_zero.mpr (h.count ▸ hdata)
  have hpos : 0 < (test.current.numData : ℝ) :=
    lt_of_le_of_ne (Nat.cast_nonneg _) hcount.symm
  have hcurrent : toComplex solver.i
      = ((test.current.numData : ℝ)⁻¹ : ℝ) * sums test.current := toComplex_mean _
  refine ⟨⟨?_, ?_, ?_⟩, ?_⟩
  · -- the voltage is the flux, turned by a quarter, times the speed
    have hturn : (test.omega * Complex.I : ℂ) * toComplex solver.lambda
        = toComplex ⟨test.voltage.x, test.voltage.y⟩ := by
      refine Complex.ext ?_ ?_
      · simp [toComplex, solver, PmFluxSolver.new]
        field_simp
      · simp [toComplex, solver, PmFluxSolver.new]
        field_simp
    have hne : (test.omega * Complex.I : ℂ) ≠ 0 :=
      mul_ne_zero (Complex.ofReal_ne_zero.mpr homega) Complex.I_ne_zero
    refine mul_left_cancel₀ hne ?_
    rw [hturn, toComplex_mean, h.law, h.count, motor.flux_eq, hcurrent, inductorFlux_smul]
    have hinv : (((test.current.numData : ℝ)⁻¹ : ℝ) : ℂ) * (test.current.numData : ℂ) = 1 := by
      rw [Complex.ofReal_inv, Complex.ofReal_natCast]
      exact inv_mul_cancel₀ (Nat.cast_ne_zero.mpr (h.count ▸ hdata))
    linear_combination (test.omega * Complex.I * (motor.pmFlux * motor.magnets) : ℂ) * hinv
  · show (0.5 : ℝ) * (test.dInductance + test.qInductance) = _
    rw [h.dInductance, h.qInductance, Motor.lAvg]
  · show (0.5 : ℝ) * (test.dInductance - test.qInductance) = _
    rw [h.dInductance, h.qInductance, Motor.lDiff]
  · rw [hcurrent, norm_mul, Complex.norm_real, Real.norm_of_nonneg (inv_pos.mpr hpos).le]
    calc (test.current.numData : ℝ)⁻¹ * ‖sums test.current‖
        ≤ (test.current.numData : ℝ)⁻¹ * (test.current.numData * current) := by
          gcongr
          exact h.bound
      _ = current := by rw [← mul_assoc, inv_mul_cancel₀ hcount, one_mul]

/-! ## The ramp down -/

/-- The ramp after `m` ticks: a solver of the motor has iterated that often. -/
structure Ramping (motor : Motor) (current : ℝ) (config : OfflineEstimatorConfig ℝ)
    (m : Nat) (ramp : RampDown ℝ) : Prop where
  duration : ramp.rampDurationS = config.testTimeS
  ran : ramp.ranS = m * config.dtS
  pendingFault : ramp.pendingFault = none
  solver : ∃ solver, Solves motor solver ∧ guess solver = 1 ∧
    ‖toComplex solver.i‖ ≤ current ∧ ramp.solver = some (PmFluxSolver.iterate^[m] solver)

theorem ramping_finish {motor : Motor} {current : ℝ} {config : OfflineEstimatorConfig ℝ}
    {test : EstF ℝ} (hsuits : Suits config) (h : Collects motor current config test)
    (hend : config.maxSpinTimeS + config.testTimeS ≤ test.ranS) (theta omega : ℝ) :
    Ramping motor current config 0
      ⟨test.finish.1, test.finish.2, 0, theta, omega, config.testTimeS⟩ := by
  have hdt := hsuits.dt
  have hmany : ¬ test.voltage.numData < minSolveSamples := by
    intro hfew
    have hcast : (test.voltage.numData : ℝ) + 1 ≤ (minSolveSamples : ℝ) := by
      exact_mod_cast hfew
    have hle := mul_le_mul_of_nonneg_right hcast hdt.le
    linarith [h.ran, hsuits.samples]
  have homega : test.omega ≠ 0 := by
    refine h.speed ?_
    have hsamples : 0 ≤ (minSolveSamples : ℝ) * config.dtS := by positivity
    linarith [hsuits.samples]
  have hfinish := (if_neg hmany).trans (if_neg homega) (a := test.finish)
  have hdata : test.voltage.numData ≠ 0 := by
    intro hzero
    rw [hzero] at hmany
    exact hmany (by decide)
  obtain ⟨hsolves, hcurrent⟩ := solves_of_collects h hdata homega
  exact ⟨rfl, by rw [Nat.cast_zero, zero_mul], congrArg Prod.snd hfinish, _, hsolves, rfl,
    hcurrent, congrArg Prod.fst hfinish⟩

theorem ramping_tick {motor : Motor} {current : ℝ} {config : OfflineEstimatorConfig ℝ}
    {m : Nat} {ramp : RampDown ℝ} (h : Ramping motor current config m ramp) (theta : ℝ) :
    Ramping motor current config (m + 1) { ramp with
      theta := theta
      solver := ramp.solver.map PmFluxSolver.iterate
      ranS := ramp.ranS + config.dtS } := by
  obtain ⟨solver, hsolves, hguess, hcurrent, hsome⟩ := h.solver
  refine ⟨h.duration, ?_, h.pendingFault, solver, hsolves, hguess, hcurrent, ?_⟩
  · show ramp.ranS + config.dtS = _
    rw [h.ran, Nat.cast_add, Nat.cast_one]
    ring
  · show ramp.solver.map PmFluxSolver.iterate = _
    rw [hsome, Function.iterate_succ_apply']
    rfl

/-! ## The test -/

/-- How far off the flux of the inductances is, at most, for each unit that the guessed
    direction is off. -/
noncomputable def rate (motor : Motor) (current : ℝ) : ℝ :=
  |motor.dInductance - motor.qInductance| * current

/-- ... and for the opposite direction. -/
noncomputable def worst (motor : Motor) (current : ℝ) : ℝ :=
  rate motor current + rate motor current

/-- The found flux is this close after `k` iterations and one. -/
noncomputable def tolerance (motor : Motor) (current : ℝ) (k : Nat) : ℝ :=
  worst motor current * (worst motor current / motor.pmFlux) ^ k

/-- The saliency of the motor is small against its magnets. -/
def Mild (motor : Motor) (current : ℝ) : Prop := worst motor current < motor.pmFlux

section Mild

variable {motor : Motor} {current : ℝ}

theorem rate_nonneg (hcurrent : 0 ≤ current) : 0 ≤ rate motor current :=
  mul_nonneg (abs_nonneg _) hcurrent

theorem worst_nonneg (hcurrent : 0 ≤ current) : 0 ≤ worst motor current :=
  add_nonneg (rate_nonneg hcurrent) (rate_nonneg hcurrent)

theorem rate_eq (motor : Motor) (current : ℝ) :
    rate motor current = 2 * (|motor.lDiff| * current) := by
  have hdiff : motor.dInductance - motor.qInductance = 2 * motor.lDiff := by
    rw [Motor.lDiff]
    ring
  rw [rate, hdiff, abs_mul, abs_of_pos two_pos, mul_assoc]

theorem tolerance_anti (hcurrent : 0 ≤ current) (hmild : Mild motor current) {k k' : Nat}
    (h : k ≤ k') : tolerance motor current k' ≤ tolerance motor current k := by
  have hworst : 0 ≤ worst motor current := worst_nonneg hcurrent
  have hpos : 0 < motor.pmFlux := lt_of_le_of_lt hworst hmild
  have hle : worst motor current / motor.pmFlux ≤ 1 := (div_le_one hpos).mpr hmild.le
  have hpow := pow_le_pow_of_le_one (div_nonneg hworst hpos.le) hle h
  exact mul_le_mul_of_nonneg_left hpow hworst

theorem tolerance_lt (hcurrent : 0 ≤ current) (hmild : Mild motor current) (k : Nat) :
    tolerance motor current k < motor.pmFlux := by
  refine (tolerance_anti hcurrent hmild (Nat.zero_le k)).trans_lt ?_
  rw [tolerance, pow_zero, mul_one]
  exact hmild

/-- **THE SOLVER**: what it finds, from a first guess of no load angle. -/
theorem abs_pmFlux_sub_le {solver : PmFluxSolver ℝ} (hcurrent : 0 ≤ current)
    (hmild : Mild motor current) (hsolves : Solves motor solver) (hguess : guess solver = 1)
    (hi : ‖toComplex solver.i‖ ≤ current) (k : Nat) :
    |(PmFluxSolver.iterate^[k + 1] solver).pmFlux - motor.pmFlux|
      ≤ tolerance motor current k := by
  have happroaches : Approaches (rest solver) motor.magnets motor.pmFlux
      (rate motor current) := by
    intro w hw
    refine (approaches_of_solves hsolves w hw).trans ?_
    rw [rate_eq]
    gcongr
  have hunit : ‖guess solver‖ = 1 := by rw [hguess, norm_one]
  have hworst : worst motor current = 2 * rate motor current := (two_mul _).symm
  rw [Mild, hworst] at hmild
  rw [pmFlux_iterate, tolerance, hworst]
  exact abs_norm_sub_le happroaches motor.magnets_unit (rate_nonneg hcurrent) hmild hunit k

end Mild

/-- What the test holds, in each of its states. -/
def Holds (motor : Motor) (current : ℝ) (config : OfflineEstimatorConfig ℝ)
    (params : MotorParamsEstimate ℝ) : OfflineEstimatorState ℝ → Prop
  | .estF test => Collects motor current config test
  | .rampDown ramp => ∃ m, Ramping motor current config m ramp
  | .done => ∃ found, params.pmFluxLinkage = some found ∧
      ∀ k : Nat, k * config.dtS < config.testTimeS →
        |found - motor.pmFlux| ≤ tolerance motor current k
  | _ => False

/-- The estimator is in the test of the flux linkage, or at its end. -/
structure Tested (motor : Motor) (current : ℝ) (config : OfflineEstimatorConfig ℝ)
    (estimator : OfflineMotorEstimator ℝ) : Prop where
  config_eq : estimator.config = config
  poles : estimator.params.numPolePairs.isSome
  holds : Holds motor current config estimator.params estimator.state

/-- The measurement is one of the motor, if the estimator takes it. -/
def Measures (motor : Motor) (current : ℝ) (config : OfflineEstimatorConfig ℝ)
    (estimator : OfflineMotorEstimator ℝ) (data : FocResult ℝ) : Prop :=
  ∀ test, estimator.state = .estF test → config.maxSpinTimeS ≤ test.ranS →
    Obeys motor current test.resistance test.omega data

section Step

variable {motor : Motor} {current : ℝ} {config : OfflineEstimatorConfig ℝ}
  {estimator : OfflineMotorEstimator ℝ} {data : FocResult ℝ}

theorem tested_of_none (h : Tested motor current config estimator)
    {state : OfflineEstimatorState ℝ}
    (hstep : estimator.state.step data config = (.ok none, state))
    (hholds : Holds motor current config estimator.params state) :
    Tested motor current config (estimator.afterFocIteration data) := by
  rw [← h.config_eq] at hstep
  rw [afterFocIteration_none h.poles hstep]
  exact ⟨h.config_eq, h.poles, hholds⟩

theorem tested_estF (hsuits : Suits config) (h : Tested motor current config estimator)
    {test : EstF ℝ} (hstate : estimator.state = .estF test)
    (hdata : Measures motor current config estimator data) :
    Tested motor current config (estimator.afterFocIteration data) := by
  have hholds := h.holds
  rw [hstate] at hholds
  have hturn := collects_turn hsuits hholds (hdata test hstate)
  by_cases hend : (test.turn data config).ranS ≥ config.maxSpinTimeS + config.testTimeS
  · have hstep : estimator.state.step data estimator.config
        = (.ok (some (.estimateF (.rampDown ⟨(test.turn data config).finish.1,
            (test.turn data config).finish.2, 0, (test.turn data config).theta,
            (test.turn data config).omega, config.testTimeS⟩))),
          .estF (test.turn data config)) := by
      rw [hstate, h.config_eq]
      exact if_pos hend
    rw [afterFocIteration_some h.poles hstep]
    exact ⟨h.config_eq, h.poles, 0, ramping_finish hsuits hturn hend _ _⟩
  · have hstep : estimator.state.step data config
        = (.ok none, .estF (test.turn data config)) := by
      rw [hstate]
      exact if_neg hend
    exact tested_of_none h hstep hturn

/-- What the ramp reports at its end. -/
theorem finish_found (hdt : 0 < config.dtS) (hcurrent : 0 ≤ current)
    (hmild : Mild motor current) {m : Nat} {ramp : RampDown ℝ}
    (h : Ramping motor current config (m + 1) ramp) (hend : config.testTimeS ≤ ramp.ranS) :
    ∃ found, ramp.finish = .ok (some (.rampDown (some found))) ∧
      ∀ k : Nat, k * config.dtS < config.testTimeS →
        |found - motor.pmFlux| ≤ tolerance motor current k := by
  obtain ⟨solver, hsolves, hguess, hi, hsome⟩ := h.solver
  have hfound := abs_pmFlux_sub_le hcurrent hmild hsolves hguess hi m
  have hpositive : 0 < (PmFluxSolver.iterate^[m + 1] solver).pmFlux := by
    have hlt := hfound.trans_lt (tolerance_lt hcurrent hmild m)
    have hlower := (abs_lt.mp hlt).1
    linarith
  refine ⟨(PmFluxSolver.iterate^[m + 1] solver).pmFlux, ?_, fun k hk => ?_⟩
  · have hchecked : (some (PmFluxSolver.iterate^[m + 1] solver).pmFlux).any
        (fun pmf => FloatOps.isFinite pmf && decide (pmf > 0)) = true :=
      (Bool.true_and _).trans (decide_eq_true hpositive)
    simp only [RampDown.finish, h.pendingFault, hsome, Option.map_some]
    rw [if_neg (not_not.mpr hchecked)]
  · have hlt : (k : ℝ) * config.dtS < ((m + 1 : Nat) : ℝ) * config.dtS :=
      hk.trans_le (hend.trans_eq h.ran)
    have hkm : k < m + 1 := Nat.cast_lt.mp (lt_of_mul_lt_mul_right hlt hdt.le)
    exact hfound.trans (tolerance_anti hcurrent hmild (Nat.le_of_lt_succ hkm))

theorem tested_rampDown (hdt : 0 < config.dtS) (hcurrent : 0 ≤ current)
    (hmild : Mild motor current) (h : Tested motor current config estimator)
    {ramp : RampDown ℝ} (hstate : estimator.state = .rampDown ramp) :
    Tested motor current config (estimator.afterFocIteration data) := by
  have hholds := h.holds
  rw [hstate] at hholds
  obtain ⟨m, hramping⟩ := hholds
  have htick := ramping_tick hramping (wrapTo2pi (ramp.theta + ramp.omega * config.dtS))
  generalize hnext : RampDown.mk (ramp.solver.map PmFluxSolver.iterate) ramp.pendingFault
    (ramp.ranS + config.dtS) (wrapTo2pi (ramp.theta + ramp.omega * config.dtS)) ramp.omega
    ramp.rampDurationS = next at htick
  have hrampStep : rampDownStep ramp config
      = if next.ranS ≥ next.rampDurationS then (next.finish, .rampDown next)
        else (.ok none, .rampDown next) := by
    rw [← hnext]
    rfl
  by_cases hend : next.ranS ≥ next.rampDurationS
  · have hstep : estimator.state.step data estimator.config
        = (next.finish, .rampDown next) := by
      rw [hstate, h.config_eq]
      exact hrampStep.trans (if_pos hend)
    obtain ⟨found, hfound, hclose⟩ :=
      finish_found hdt hcurrent hmild htick (htick.duration ▸ hend)
    rw [hfound] at hstep
    rw [afterFocIteration_some h.poles hstep]
    exact ⟨h.config_eq, h.poles, found, rfl, hclose⟩
  · have hstep : estimator.state.step data config = (.ok none, .rampDown next) := by
      rw [hstate]
      exact hrampStep.trans (if_neg hend)
    exact tested_of_none h hstep ⟨m + 1, htick⟩

/-- An iteration of the estimator stays in the test. -/
theorem tested_iteration (hsuits : Suits config) (hcurrent : 0 ≤ current)
    (hmild : Mild motor current) (h : Tested motor current config estimator)
    (hdata : Measures motor current config estimator data) :
    Tested motor current config (estimator.afterFocIteration data) := by
  have hholds := h.holds
  cases hstate : estimator.state with
  | estF test => exact tested_estF hsuits h hstate hdata
  | rampDown ramp => exact tested_rampDown hsuits.dt hcurrent hmild h hstate
  | done =>
      rw [hstate] at hholds
      exact tested_of_none h (by rw [hstate]; rfl) hholds
  | failure | off | rotorLockWait | estR | estL | hallCalibrationRequired | tuningRequired =>
      rw [hstate] at hholds
      exact hholds.elim

end Step

/-! ## The run -/

/-- The estimator after its tuning request was acknowledged and `n` iterations. -/
noncomputable def estimatorAt (estimator : OfflineMotorEstimator ℝ)
    (data : Nat → FocResult ℝ) (n : Nat) : OfflineMotorEstimator ℝ :=
  after OfflineMotorEstimator.afterFocIteration estimator.acknowledgeTuningRequest data n

/-- The rotation begins with what was measured before. -/
theorem tested_start {motor : Motor} {current resistance : ℝ}
    {estimator : OfflineMotorEstimator ℝ} (hsuits : Suits estimator.config)
    (hstate : estimator.state = .tuningRequired resistance)
    (hpoles : estimator.params.numPolePairs.isSome)
    (hd : estimator.params.dInductance = some motor.dInductance)
    (hq : estimator.params.qInductance = some motor.qInductance) :
    Tested motor current estimator.config estimator.acknowledgeTuningRequest := by
  have hstart : estimator.acknowledgeTuningRequest = { estimator with
      state := .estF ⟨0, 0, 0, resistance, motor.dInductance, motor.qInductance, .new, .new⟩ } := by
    simp only [OfflineMotorEstimator.acknowledgeTuningRequest, hstate, hd, hq]
  have hspins : 0 < estimator.config.maxSpinTimeS := hsuits.dt.trans hsuits.spins
  rw [hstart]
  refine ⟨rfl, hpoles, rfl, rfl, fun _ => ⟨rfl, rfl⟩, fun hspun => ?_, ?_, rfl, ?_, ?_⟩
  · exact absurd hspins (not_lt.mpr hspun)
  · show 0 < _ + (((0 : Nat) : ℝ) + 1) * _
    rw [Nat.cast_zero, zero_add, one_mul]
    exact add_pos hspins hsuits.dt
  · show ‖sums .new‖ ≤ ((0 : Nat) : ℝ) * current
    rw [sums_new, norm_zero, Nat.cast_zero, zero_mul]
  · show sums .new = _ * (inductorFlux _ _ _ (sums .new) + ((0 : Nat) : ℂ) * _)
    rw [sums_new, inductorFlux_zero, Nat.cast_zero, zero_mul, add_zero, mul_zero]

/-- **FLUX LINKAGE**: on measurements of a motor whose saliency is small against its
    magnets the test ends, without a fault, and reports the flux of the magnets to
    within a tolerance that falls geometrically with the ticks of the ramp. -/
theorem flux_test (motor : Motor) (current resistance : ℝ)
    (estimator : OfflineMotorEstimator ℝ) (data : Nat → FocResult ℝ)
    (hsuits : Suits estimator.config)
    (hstate : estimator.state = .tuningRequired resistance)
    (hpoles : estimator.params.numPolePairs.isSome)
    (hd : estimator.params.dInductance = some motor.dInductance)
    (hq : estimator.params.qInductance = some motor.qInductance)
    (hcurrent : 0 ≤ current) (hmild : Mild motor current)
    (hdata : ∀ n, Measures motor current estimator.config (estimatorAt estimator data n)
      (data n)) :
    ∃ n, n ≤ maxIterations estimator.config ∧ ∀ m, n ≤ m →
      (estimatorAt estimator data m).state = .done ∧
      ∃ found, (estimatorAt estimator data m).params.pmFluxLinkage = some found ∧
        ∀ k : Nat, k * estimator.config.dtS < estimator.config.testTimeS →
          |found - motor.pmFlux| ≤ tolerance motor current k := by
  have hstart : Tested motor current estimator.config estimator.acknowledgeTuningRequest :=
    tested_start hsuits hstate hpoles hd hq
  have htested : ∀ n, Tested motor current estimator.config (estimatorAt estimator data n) := by
    intro n
    induction n with
    | zero => exact hstart
    | succ n ih => exact tested_iteration hsuits hcurrent hmild ih (hdata n)
  have hbegin : estimator.acknowledgeTuningRequest = { estimator with
      state := .estF ⟨0, 0, 0, resistance, motor.dInductance, motor.qInductance, .new, .new⟩ } := by
    simp only [OfflineMotorEstimator.acknowledgeTuningRequest, hstate, hd, hq]
  have hends : ∃ n, n ≤ maxIterations estimator.acknowledgeTuningRequest.config ∧
      ∀ m, n ≤ m → AtRest (estimatorAt estimator data m).state := by
    refine InductanceProofs.iterations_rest ?_ ?_ ?_ data
    · rw [hbegin]
      exact hsuits.dt
    · rw [hbegin]
      exact le_refl (0 : ℝ)
    · rw [hbegin]
      trivial
  obtain ⟨n, hn, hrest⟩ := hends
  rw [hbegin] at hn
  refine ⟨n, hn, fun m hm => ?_⟩
  have hatRest : AtRest (estimatorAt estimator data m).state := hrest m hm
  have hholds := (htested m).holds
  cases hdone : (estimatorAt estimator data m).state with
  | done =>
      rw [hdone] at hholds
      exact ⟨rfl, hholds⟩
  | estF | rampDown =>
      rw [hdone] at hatRest
      exact hatRest.elim
  | failure | off | rotorLockWait | estR | estL | hallCalibrationRequired | tuningRequired =>
      rw [hdone] at hholds
      exact hholds.elim

/-! A motor on the test bench: what it measures depends on the estimator only by the
speed it is turned with. -/

/-- A measurement of a motor at a current and a speed. -/
noncomputable def measurement (motor : Motor) (resistance : ℝ) (i : ClarkParkValue ℝ)
    (omega : ℝ) : FocResult ℝ where
  thetaE := 0
  omegaE := 0
  dcBusVoltageV := 0
  dutyCycles := ⟨0, 0, 0⟩
  voltageHexagonSector := 0
  measuredIAb := ⟨0, 0⟩
  measuredIDq := i
  targetIDq := i
  uDq :=
    let u := resistance * toComplex i + omega * Complex.I * motor.flux (toComplex i)
    ⟨u.re, u.im⟩
  uAb := ⟨0, 0⟩
  isInjecting := false
  hfiIDq := ⟨0, 0⟩
  hfiParams := ⟨0, 0, 0⟩

theorem measurement_obeys (motor : Motor) (resistance omega : ℝ) (i : ClarkParkValue ℝ) :
    Obeys motor ‖toComplex i‖ resistance omega (measurement motor resistance i omega) := by
  refine ⟨le_refl _, ?_⟩
  have hu : toComplex (measurement motor resistance i omega).uDq
      = resistance * toComplex i + omega * Complex.I * motor.flux (toComplex i) := rfl
  rw [hu]
  exact add_sub_cancel_left _ _

/-- What the bench measures, with the speed that the estimator turns the motor with. -/
noncomputable def observed (motor : Motor) (i : ClarkParkValue ℝ)
    (estimator : OfflineMotorEstimator ℝ) : FocResult ℝ :=
  match estimator.state with
  | .estF test => measurement motor test.resistance i test.omega
  | _ => measurement motor 0 i 0

/-- The estimator on the bench after a number of iterations. -/
noncomputable def bench (motor : Motor) (i : ClarkParkValue ℝ)
    (estimator : OfflineMotorEstimator ℝ) : Nat → OfflineMotorEstimator ℝ
  | 0 => estimator.acknowledgeTuningRequest
  | n + 1 =>
      let before := bench motor i estimator n
      before.afterFocIteration (observed motor i before)

/-- What it measures in each iteration. -/
noncomputable def benchData (motor : Motor) (i : ClarkParkValue ℝ)
    (estimator : OfflineMotorEstimator ℝ) (n : Nat) : FocResult ℝ :=
  observed motor i (bench motor i estimator n)

theorem estimatorAt_benchData (motor : Motor) (i : ClarkParkValue ℝ)
    (estimator : OfflineMotorEstimator ℝ) (n : Nat) :
    estimatorAt estimator (benchData motor i estimator) n = bench motor i estimator n := by
  induction n with
  | zero => rfl
  | succ n ih =>
      show (estimatorAt estimator (benchData motor i estimator) n).afterFocIteration _ = _
      rw [ih]
      rfl

theorem measures_benchData (motor : Motor) (i : ClarkParkValue ℝ)
    (estimator : OfflineMotorEstimator ℝ) (n : Nat) :
    Measures motor ‖toComplex i‖ estimator.config
      (estimatorAt estimator (benchData motor i estimator) n)
      (benchData motor i estimator n) := by
  intro test hstate _
  rw [estimatorAt_benchData] at hstate
  rw [benchData, observed, hstate]
  exact measurement_obeys motor test.resistance test.omega i

/-- A motor with a load angle of a quarter, and with a little saliency. -/
noncomputable def salientMotor : Motor where
  dInductance := 1
  qInductance := 0.5
  pmFlux := 1
  magnets := Complex.I
  magnets_unit := Complex.norm_I

/-- A current of half an ampere, along the commanded angle. -/
noncomputable def halfAmpere : ClarkParkValue ℝ := ⟨0.5, 0⟩

/-- An estimator that waits for the tuning of the current loop. -/
noncomputable def tunedEstimator : OfflineMotorEstimator ℝ where
  state := .tuningRequired 1
  params := ⟨some 7, some 1, some 1, some 0.5, none, some 0⟩
  config := ⟨1, 1, minSolveSamples, 1 + 1, 1, 1, 1⟩
  shouldUnwindController := false

theorem norm_halfAmpere : ‖toComplex halfAmpere‖ = 0.5 := by
  have hreal : toComplex halfAmpere = ((0.5 : ℝ) : ℂ) := rfl
  rw [hreal, Complex.norm_real]
  norm_num

theorem mild_salientMotor : Mild salientMotor ‖toComplex halfAmpere‖ := by
  rw [Mild, worst, rate, norm_halfAmpere]
  norm_num [salientMotor]

theorem suits_tunedEstimator : Suits tunedEstimator.config := by
  refine ⟨?_, ?_, ?_, ?_⟩ <;> norm_num [tunedEstimator, minSolveSamples]

/-- On the bench the flux is found to within what a hundred ticks of the ramp leave. -/
theorem flux_test_salientMotor :
    ∃ n found, (estimatorAt tunedEstimator
        (benchData salientMotor halfAmpere tunedEstimator) n).params.pmFluxLinkage
          = some found ∧
      |found - 1| ≤ tolerance salientMotor ‖toComplex halfAmpere‖ 100 := by
  obtain ⟨n, -, hn⟩ := flux_test salientMotor ‖toComplex halfAmpere‖ 1 tunedEstimator
    (benchData salientMotor halfAmpere tunedEstimator) suits_tunedEstimator rfl rfl rfl rfl
    (norm_nonneg _) mild_salientMotor (measures_benchData _ _ _)
  obtain ⟨-, found, hfound, hclose⟩ := hn n (le_refl n)
  exact ⟨n, found, hfound, hclose 100 (by norm_num [tunedEstimator, minSolveSamples])⟩

end FluxProofs
