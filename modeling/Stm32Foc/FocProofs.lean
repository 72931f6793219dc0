import Stm32Foc.EventRun
import Stm32Foc.Foc
import Stm32Foc.RealArithmetic

/-! # The current controller

    What a successful tick applies: a voltage within the linear region, as duty cycles
    that the final clamp does not touch (`applied_voltage`); and what a torque command
    with field weakening aims at, after any history (`run_targets_in_limits`). -/

namespace FocProofs

open FieldOriented CurrentControl ModulationProofs

variable {K : Type} [Field K] [LinearOrder K]

/-! ## Successful ticks -/

section Computed

variable [Sqrt3 K] {A H : Type} [DoesFocMath A K] [HfiSource H K]

/-- What the last part of a tick makes of the voltages that were asked for, once they are
    saturated. -/
structure Modulates (input : FocInput K) (deadtimeRatio : Option K)
    (measured : FOC.Measured K) (saturated target injected : ClarkParkValue K)
    (result : FocResult K) : Prop where
  thetaE : result.thetaE = measured.thetaE
  omegaE : result.omegaE = measured.omegaE
  target : result.targetIDq = target
  injecting : result.isInjecting = FOC.hfiInjecting input measured.omegaE
  uDq : result.uDq = if result.isInjecting
    then ⟨saturated.d + injected.d, saturated.q + injected.q⟩ else saturated
  uAb : result.uAb = inversePark result.uDq measured.scE
  sector : result.voltageHexagonSector = voltageSector result.uAb
  duties : ∃ foc' : FOC K, result.dutyCycles = foc'.finalDuties deadtimeRatio
    (spaceVectorDuties result.uAb input.dcBusVoltageV) input.phaseCurrents

theorem modulate_spec (foc : FOC K) (input : FocInput K) (deadtimeRatio : Option K)
    (measured : FOC.Measured K) (requested target : ClarkParkValue K) (accelerator : A)
    (hfi : H) :
    Modulates input deadtimeRatio measured
      (FOC.saturate accelerator requested (FOC.voltageBudget input measured.omegaE)).1
      target (HfiSource.compute hfi input.hfiParams).1
      (foc.modulate input deadtimeRatio measured requested target accelerator hfi).1 where
  thetaE := rfl
  omegaE := rfl
  target := rfl
  injecting := rfl
  uDq := rfl
  uAb := rfl
  sector := rfl
  duties := ⟨_, rfl⟩


variable [Libm K]

/-- A tick that succeeds has computed voltages, and has modulated them. -/
theorem compute_ok {foc foc' : FOC K} {input : FocInput K}
    {motorParams : MotorParamsEstimate K} {accelerator accelerator' : A} {hfi hfi' : H}
    {fieldWeakening : Bool} {result : FocResult K}
    (h : foc.compute input motorParams accelerator hfi fieldWeakening
      = (.ok result, foc', accelerator', hfi')) :
    ∃ polePairs requested target focV acceleratorV,
      motorParams.numPolePairs = some polePairs ∧
      foc.requestedVoltages input motorParams polePairs accelerator fieldWeakening
        = (.ok (requested, target), focV, acceleratorV) ∧
      focV.modulate input motorParams.deadtimeRatio
        (foc.measure input polePairs accelerator).1 requested target acceleratorV hfi
        = (result, foc', accelerator', hfi') := by
  rw [FOC.compute] at h
  cases hpairs : motorParams.numPolePairs with
  | none =>
      rw [hpairs] at h
      cases congrArg Prod.fst h
  | some polePairs =>
      rw [hpairs] at h
      dsimp only at h
      rcases hrequested : foc.requestedVoltages input motorParams polePairs accelerator
        fieldWeakening with ⟨fault | ⟨requested, target⟩, focV, acceleratorV⟩
      · rw [hrequested] at h
        cases congrArg Prod.fst h
      · rw [hrequested] at h
        refine ⟨polePairs, requested, target, focV, acceleratorV, rfl, hrequested, ?_⟩
        dsimp only at h
        obtain ⟨hresult, hrest⟩ := Prod.mk.inj h
        rw [← Except.ok.inj hresult, ← hrest]

end Computed

/-! ## Saturation -/

section Saturation

variable [IsStrictOrderedRing K] {A : Type} [DoesFocMath A K]

/-- The accelerator's root is exact. -/
def ExactSqrt (A : Type) [DoesFocMath A K] : Prop :=
  ∀ (accelerator : A) (x : K), 0 ≤ x →
    0 ≤ (DoesFocMath.sqrt accelerator x).1 ∧
      (DoesFocMath.sqrt accelerator x).1 * (DoesFocMath.sqrt accelerator x).1 = x

/-- **THE SATURATION**: what it keeps of a voltage, within a budget.  The direct axis is
    served first, and the other has what is left. -/
structure Saturated (requested saturated : ClarkParkValue K) (budget : K) : Prop where
  within : normSq saturated.d saturated.q ≤ budget * budget
  direct : |requested.d| ≤ budget → saturated.d = requested.d
  beyond : budget < |requested.d| → |saturated.d| = budget ∧ saturated.q = 0
  rest : ∃ rest, 0 ≤ rest ∧ rest * rest = budget * budget - saturated.d * saturated.d ∧
    saturated.q = clamp requested.q (-rest) rest

/-- What is beyond the bounds is clamped to one of them. -/
theorem abs_clamp_eq {x bound : K} (hbound : 0 ≤ bound) (h : bound < |x|) :
    |clamp x (-bound) bound| = bound := by
  rcases lt_abs.mp h with hhigh | hlow
  · rw [clamp, if_neg (by linarith), if_pos hhigh, abs_of_nonneg hbound]
  · rw [clamp, if_pos (by linarith), abs_neg, abs_of_nonneg hbound]

/-- What is left of a budget in the other axis. -/
theorem rest_of_sqrt (hsqrt : ExactSqrt A) (accelerator : A) {budget d : K}
    (hd : d * d ≤ budget * budget) :
    ∃ rest, rest = (if budget * budget > d * d then
        (DoesFocMath.sqrt accelerator (budget * budget - d * d)).1 else 0) ∧
      0 ≤ rest ∧ rest * rest = budget * budget - d * d := by
  by_cases hmore : budget * budget > d * d
  · obtain ⟨hnonneg, hsq⟩ := hsqrt accelerator (budget * budget - d * d) (by linarith)
    exact ⟨_, (if_pos hmore).symm, hnonneg, hsq⟩
  · have heq : budget * budget = d * d := le_antisymm (not_lt.mp hmore) hd
    exact ⟨0, (if_neg hmore).symm, le_refl 0, by rw [heq, sub_self, zero_mul]⟩

/-- The saturation serves the direct axis first. -/
theorem saturated (hsqrt : ExactSqrt A) (accelerator : A) (requested : ClarkParkValue K)
    {budget : K} (hbudget : 0 ≤ budget) :
    Saturated requested (FOC.saturate accelerator requested budget).1 budget := by
  by_cases hover : requested.d * requested.d + requested.q * requested.q > budget * budget
  · -- the direct axis is clamped, and the other takes what is left
    obtain ⟨hlow, hhigh⟩ := clamp_mem (x := requested.d) (neg_le_self hbudget)
    have hd := mul_self_le_mul_self (abs_nonneg _) (abs_le.mpr ⟨hlow, hhigh⟩)
    rw [abs_mul_abs_self] at hd
    obtain ⟨rest, hrest, hnonneg, hsq⟩ := rest_of_sqrt hsqrt accelerator hd
    have heq : (FOC.saturate accelerator requested budget).1
        = ⟨clamp requested.d (-budget) budget, clamp requested.q (-rest) rest⟩ := by
      rw [hrest]
      simp only [FOC.saturate, if_pos hover]
      by_cases hmore : budget * budget > clamp requested.d (-budget) budget
          * clamp requested.d (-budget) budget
      · simp only [if_pos hmore]
      · simp only [if_neg hmore]
    rw [heq]
    obtain ⟨hlow', hhigh'⟩ := clamp_mem (x := requested.q) (neg_le_self hnonneg)
    have hq := mul_self_le_mul_self (abs_nonneg _) (abs_le.mpr ⟨hlow', hhigh'⟩)
    rw [abs_mul_abs_self, hsq] at hq
    refine ⟨?_, ?_, ?_, rest, hnonneg, hsq, rfl⟩
    · rw [normSq]
      linarith
    · intro hwithin
      obtain ⟨h1, h2⟩ := abs_le.mp hwithin
      exact clamp_eq_self h1 h2
    · intro hbeyond
      have habs := abs_clamp_eq hbudget hbeyond
      have hzero : rest = 0 := by
        rw [← abs_mul_abs_self (clamp requested.d (-budget) budget), habs, sub_self] at hsq
        exact mul_self_eq_zero.mp hsq
      rw [hzero, neg_zero] at hlow' hhigh'
      refine ⟨habs, ?_⟩
      show clamp requested.q (-rest) rest = 0
      rw [hzero, neg_zero]
      exact le_antisymm hhigh' hlow'
  · -- the whole voltage fits
    have hfits := not_lt.mp hover
    have hqsq := mul_self_nonneg requested.q
    have hdsq := mul_self_nonneg requested.d
    have heq : (FOC.saturate accelerator requested budget).1 = requested := by
      simp only [FOC.saturate, if_neg hover]
    rw [heq]
    have hd : requested.d * requested.d ≤ budget * budget := by linarith
    obtain ⟨rest, -, hnonneg, hsq⟩ := rest_of_sqrt hsqrt accelerator hd
    have hq : |requested.q| ≤ rest := by
      refine abs_le_of_sq_le_sq ?_ hnonneg
      rw [sq, sq, hsq]
      linarith
    obtain ⟨hlow, hhigh⟩ := abs_le.mp hq
    refine ⟨hfits, fun _ => rfl, ?_, rest, hnonneg, hsq, (clamp_eq_self hlow hhigh).symm⟩
    intro hbeyond
    have := abs_le_of_sq_le_sq (a := requested.d) (by rw [sq, sq]; exact hd) hbudget
    exact absurd this (not_le.mpr hbeyond)

end Saturation

/-! ## The applied voltage -/

section Applied

variable [IsStrictOrderedRing K] [Sqrt3 K] [SoundSqrt3 K]

/-- The linear region of the modulator, in squares: a third of the bus voltage's. -/
theorem uMax_sq_le (dcBusVoltageV : K) :
    3 * (dcBusVoltageV * Sqrt3.sqrt3Reciprocal * (dcBusVoltageV * Sqrt3.sqrt3Reciprocal))
      ≤ dcBusVoltageV * dcBusVoltageV := by
  have hscaled := mul_le_mul_of_nonneg_left (SoundSqrt3.reciprocal_sq (K := K))
    (mul_self_nonneg dcBusVoltageV)
  linarith

/-- The budget is not negative, and is within the linear region. -/
theorem voltageBudget_spec (input : FocInput K) (omegaE : K)
    (hbus : 0 < input.dcBusVoltageV) (hamplitude : 0 ≤ input.hfiParams.amplitudeV) :
    0 ≤ FOC.voltageBudget input omegaE ∧
      3 * (FOC.voltageBudget input omegaE * FOC.voltageBudget input omegaE)
        ≤ input.dcBusVoltageV * input.dcBusVoltageV := by
  have hmax : 0 < input.dcBusVoltageV * Sqrt3.sqrt3Reciprocal :=
    mul_pos hbus SoundSqrt3.reciprocal_pos
  have hsq := uMax_sq_le input.dcBusVoltageV
  rw [FOC.voltageBudget]
  by_cases hinjecting : FOC.hfiInjecting input omegaE
  · rw [if_pos hinjecting, max2_eq]
    have hnonneg := le_max_right
      (input.dcBusVoltageV * Sqrt3.sqrt3Reciprocal - input.hfiParams.amplitudeV) 0
    have hmost : max (input.dcBusVoltageV * Sqrt3.sqrt3Reciprocal
        - input.hfiParams.amplitudeV) 0
          ≤ input.dcBusVoltageV * Sqrt3.sqrt3Reciprocal :=
      max_le (by linarith) hmax.le
    have := mul_self_le_mul_self hnonneg hmost
    exact ⟨hnonneg, by linarith⟩
  · rw [if_neg hinjecting]
    exact ⟨hmax.le, hsq⟩

/-- **THE INJECTION FITS**: a voltage within the budget of a tick that injects leaves
    room for the injection. -/
theorem injected_fits {input : FocInput K} {omegaE : K} {saturated injected : ClarkParkValue K}
    (hbus : 0 < input.dcBusVoltageV) (hamplitude : 0 ≤ input.hfiParams.amplitudeV)
    (hcap : 3 * (input.hfiParams.amplitudeV * input.hfiParams.amplitudeV)
      ≤ input.dcBusVoltageV * input.dcBusVoltageV)
    (hinjecting : FOC.hfiInjecting input omegaE = true)
    (hwithin : normSq saturated.d saturated.q
      ≤ FOC.voltageBudget input omegaE * FOC.voltageBudget input omegaE)
    (hinjected : normSq injected.d injected.q
      ≤ input.hfiParams.amplitudeV * input.hfiParams.amplitudeV) :
    3 * normSq (saturated.d + injected.d) (saturated.q + injected.q)
      ≤ input.dcBusVoltageV * input.dcBusVoltageV := by
  have hnonneg := (voltageBudget_spec input omegaE hbus hamplitude).1
  have hsum := normSq_add_le hnonneg hamplitude hwithin hinjected
  have hsq := uMax_sq_le input.dcBusVoltageV
  have hbudget : FOC.voltageBudget input omegaE
      = max (input.dcBusVoltageV * Sqrt3.sqrt3Reciprocal - input.hfiParams.amplitudeV) 0 := by
    rw [FOC.voltageBudget, if_pos hinjecting, max2_eq]
  rcases max_choice (input.dcBusVoltageV * Sqrt3.sqrt3Reciprocal
      - input.hfiParams.amplitudeV) 0 with hroom | hnone
  · rw [hbudget, hroom, sub_add_cancel] at hsum
    linarith
  · -- the injection takes all of the linear region
    rw [hbudget, hnone, zero_add] at hsum
    linarith

/-- The final clamp leaves the duty cycles of a vector in the linear region as they
    are. -/
theorem finalDuties_eq (foc : FOC K) {uAb : AlphaBeta K} {dcBusVoltageV : K}
    (currents : PhaseValues K) (hbus : 0 < dcBusVoltageV)
    (h : 3 * normSq uAb.alpha uAb.beta ≤ dcBusVoltageV * dcBusVoltageV) :
    foc.finalDuties none (spaceVectorDuties uAb dcBusVoltageV) currents
      = spaceVectorDuties uAb dcBusVoltageV := by
  obtain ⟨⟨hu, hu'⟩, ⟨hv, hv'⟩, hw, hw'⟩ := duties_in_range hbus h
  rw [FOC.finalDuties]
  simp only [FOC.compensateDeadtime]
  rw [clamp_eq_self hu hu', clamp_eq_self hv hv', clamp_eq_self hw hw']

variable [Libm K] {A H : Type} [DoesFocMath A K] [HfiSource H K]

/-- **THE APPLIED VOLTAGE** of a tick that succeeds, without deadtime compensation and
    with exact roots: it is within the linear region; the three duty cycles are between
    zero and one before the final clamp, which changes nothing; they differ, in units of
    the bus voltage, as the phases of the applied vector do; and the smallest and the
    largest add up to one.  The saturation that comes before the injection keeps the
    direct voltage as long as the budget has room for it, and gives the other axis what
    is left.  Lengths are compared in squares, so that the bound of the linear region is
    a third of the square of the bus voltage. -/
theorem applied_voltage {foc foc' : FOC K} {input : FocInput K}
    {motorParams : MotorParamsEstimate K} {accelerator accelerator' : A} {hfi hfi' : H}
    {fieldWeakening : Bool} {result : FocResult K}
    (hok : foc.compute input motorParams accelerator hfi fieldWeakening
      = (.ok result, foc', accelerator', hfi'))
    (hbus : 0 < input.dcBusVoltageV)
    (hamplitude : 0 ≤ input.hfiParams.amplitudeV)
    (hcap : 3 * (input.hfiParams.amplitudeV * input.hfiParams.amplitudeV)
      ≤ input.dcBusVoltageV * input.dcBusVoltageV)
    (hunit : (DoesFocMath.sinCos accelerator result.thetaE).1.sin
          * (DoesFocMath.sinCos accelerator result.thetaE).1.sin
        + (DoesFocMath.sinCos accelerator result.thetaE).1.cos
          * (DoesFocMath.sinCos accelerator result.thetaE).1.cos = 1)
    (hinjected : normSq (HfiSource.compute hfi input.hfiParams).1.d
        (HfiSource.compute hfi input.hfiParams).1.q
      ≤ input.hfiParams.amplitudeV * input.hfiParams.amplitudeV)
    (hdeadtime : motorParams.deadtimeRatio = none)
    (hsqrt : ExactSqrt A) :
    3 * normSq result.uDq.d result.uDq.q ≤ input.dcBusVoltageV * input.dcBusVoltageV ∧
    result.uAb
      = inversePark result.uDq (DoesFocMath.sinCos accelerator result.thetaE).1 ∧
    ((0 ≤ (spaceVectorDuties result.uAb input.dcBusVoltageV).u ∧
        (spaceVectorDuties result.uAb input.dcBusVoltageV).u ≤ 1) ∧
      (0 ≤ (spaceVectorDuties result.uAb input.dcBusVoltageV).v ∧
        (spaceVectorDuties result.uAb input.dcBusVoltageV).v ≤ 1) ∧
      (0 ≤ (spaceVectorDuties result.uAb input.dcBusVoltageV).w ∧
        (spaceVectorDuties result.uAb input.dcBusVoltageV).w ≤ 1)) ∧
    result.dutyCycles = spaceVectorDuties result.uAb input.dcBusVoltageV ∧
    ((result.dutyCycles.u - result.dutyCycles.v) * input.dcBusVoltageV
        = (inverseClarke result.uAb).u - (inverseClarke result.uAb).v ∧
      (result.dutyCycles.v - result.dutyCycles.w) * input.dcBusVoltageV
        = (inverseClarke result.uAb).v - (inverseClarke result.uAb).w ∧
      (result.dutyCycles.w - result.dutyCycles.u) * input.dcBusVoltageV
        = (inverseClarke result.uAb).w - (inverseClarke result.uAb).u) ∧
    min3 result.dutyCycles.u result.dutyCycles.v result.dutyCycles.w
      + max3 result.dutyCycles.u result.dutyCycles.v result.dutyCycles.w = 1 ∧
    ∃ polePairs requested target saturated,
      motorParams.numPolePairs = some polePairs ∧
      (foc.requestedVoltages input motorParams polePairs accelerator fieldWeakening).1
        = .ok (requested, target) ∧
      Saturated requested saturated (FOC.voltageBudget input result.omegaE) ∧
      result.uDq = if result.isInjecting
        then ⟨saturated.d + (HfiSource.compute hfi input.hfiParams).1.d,
          saturated.q + (HfiSource.compute hfi input.hfiParams).1.q⟩
        else saturated := by
  obtain ⟨polePairs, requested, target, focV, acceleratorV, hpairs, hrequested, hmodulate⟩ :=
    compute_ok hok
  have hspec := modulate_spec focV input motorParams.deadtimeRatio
    (foc.measure input polePairs accelerator).1 requested target acceleratorV hfi
  rw [hmodulate] at hspec
  have hsc : (foc.measure input polePairs accelerator).1.scE
      = (DoesFocMath.sinCos accelerator result.thetaE).1 := by
    rw [hspec.thetaE]
    rfl
  obtain ⟨hbudget, hbudget_sq⟩ := voltageBudget_spec input result.omegaE hbus hamplitude
  rw [hspec.omegaE] at hbudget hbudget_sq
  have hsaturated := saturated hsqrt acceleratorV requested hbudget
  have hlinear : 3 * normSq result.uDq.d result.uDq.q
      ≤ input.dcBusVoltageV * input.dcBusVoltageV := by
    rw [hspec.uDq, hspec.injecting]
    by_cases hinjecting : FOC.hfiInjecting input
        (foc.measure input polePairs accelerator).1.omegaE
    · rw [if_pos hinjecting]
      exact injected_fits hbus hamplitude hcap hinjecting hsaturated.within hinjected
    · rw [if_neg hinjecting]
      linarith [hsaturated.within]
  have huAb := hspec.uAb
  rw [hsc] at huAb
  have hlinearAb : 3 * normSq result.uAb.alpha result.uAb.beta
      ≤ input.dcBusVoltageV * input.dcBusVoltageV := by
    rw [huAb, normSq_inversePark _ hunit]
    exact hlinear
  have hduties : result.dutyCycles = spaceVectorDuties result.uAb input.dcBusVoltageV := by
    obtain ⟨focD, hduties⟩ := hspec.duties
    rw [hduties, hdeadtime]
    exact finalDuties_eq focD input.phaseCurrents hbus hlinearAb
  refine ⟨hlinear, huAb, duties_in_range hbus hlinearAb, hduties, ?_, ?_, polePairs,
    requested, target, _, hpairs, by rw [hrequested], ?_, hspec.uDq⟩
  · rw [hduties, spaceVectorDuties_eq]
    exact ⟨duty_sub _ hbus _ _, duty_sub _ hbus _ _, duty_sub _ hbus _ _⟩
  · rw [hduties]
    exact min_add_max result.uAb hbus
  · rw [hspec.omegaE]
    exact hsaturated

end Applied

/-- The root of the reals is exact. -/
theorem exactSqrt_real : ExactSqrt (K := ℝ) ExactAccelerator :=
  fun _ x hx => ⟨Real.sqrt_nonneg x, Real.mul_self_sqrt hx⟩

/-- A command of all the voltage of the bus in the direct axis, at standstill: more than
    the linear region has. -/
noncomputable def standstillInput : FocInput ℝ where
  command := .rawVoltages ⟨24, 6⟩
  dcBusVoltageV := 24
  angleType := .electrical
  theta := 0
  omega := 0
  phaseCurrents := ⟨0, 0, 0⟩
  currentLimitA := 9
  hfiParams := ⟨1, 1250, 0⟩

/-- The injection at its peak. -/
noncomputable def restingHfi : Saliency.SinusoidalPulsingHfi ℝ where
  periodTicks := 4
  tickCounter := 1
  step := ⟨1, 0⟩
  phasor := ⟨1, 0⟩
  history := (⟨0, 1⟩, ⟨0, 1⟩)

/-- A controller at ten kilohertz. -/
noncomputable def restingFoc : FOC ℝ :=
  .new ⟨10000, 0.1, 0.95, 9, 1250⟩

/-- The command is cut to the budget in its direct axis, which leaves nothing for the
    other, and the injection goes on top of it. -/
theorem applied_voltage_standstill : ∃ result rest,
    restingFoc.compute standstillInput ⟨some 4, none, none, none, none, none⟩
      ExactAccelerator.mk restingHfi true = (.ok result, rest) ∧
    result.isInjecting = true ∧ 3 * normSq result.uDq.d result.uDq.q ≤ 24 * 24 ∧
    |result.uDq.d - 1| = FOC.voltageBudget standstillInput 0 ∧ result.uDq.q = 0 := by
  obtain ⟨result, rest, hok, hinjecting⟩ : ∃ result rest,
      restingFoc.compute standstillInput ⟨some 4, none, none, none, none, none⟩
        ExactAccelerator.mk restingHfi true = (.ok result, rest) ∧
      result.isInjecting = true := ⟨_, (_, _, _), rfl, rfl⟩
  have hbus : (0 : ℝ) < 24 := by norm_num
  have hcap : (3 : ℝ) * (1 * 1) ≤ 24 * 24 := by norm_num
  have hunit : Real.sin result.thetaE * Real.sin result.thetaE
      + Real.cos result.thetaE * Real.cos result.thetaE = 1 := by
    rw [← sq, ← sq]
    exact Real.sin_sq_add_cos_sq result.thetaE
  have hpeak : normSq ((1 : ℝ) * 1) 0 ≤ 1 * 1 := by norm_num [normSq]
  obtain ⟨hlinear, -, -, -, -, -, polePairs, requested, target, saturated, -, hrequested,
    hsaturated, huDq⟩ :=
    applied_voltage hok hbus zero_le_one hcap hunit hpeak rfl exactSqrt_real
  obtain ⟨rfl, rfl⟩ := Prod.mk.inj (Except.ok.inj hrequested)
  -- the request is beyond the budget
  have hbudget : FOC.voltageBudget standstillInput 0 < |(24 : ℝ)| := by
    norm_num [FOC.voltageBudget, FOC.hfiInjecting, standstillInput, max2,
      Sqrt3.sqrt3Reciprocal, Sqrt3.sqrt3, sqrt3Digits]
  obtain ⟨hdirect, hquadrature⟩ := hsaturated.beyond hbudget
  rw [hinjecting, if_pos rfl] at huDq
  refine ⟨result, rest, hok, hinjecting, hlinear, ?_, ?_⟩
  · rw [huDq]
    show |saturated.d + 1 * 1 - 1| = _
    rw [mul_one, add_sub_cancel_right]
    exact hdirect
  · rw [huDq]
    show saturated.q + 0 = 0
    rw [hquadrature, add_zero]

/-! ## Targets of a torque command -/

section Targets

variable [IsStrictOrderedRing K]

/-- The bound of the direct current is not positive, and is neither beyond the limit nor
    beyond the current that cancels the magnet. -/
theorem lowerBound_spec (dInductance pmFluxLinkage : K) {currentLimitA : K}
    (hlimit : 0 ≤ currentLimitA) :
    (FieldWeakening.lowerBoundRatio dInductance pmFluxLinkage currentLimitA).1 ≤ 0 ∧
      -0.99 * currentLimitA
        ≤ (FieldWeakening.lowerBoundRatio dInductance pmFluxLinkage currentLimitA).1 ∧
      -characteristicCurrent dInductance pmFluxLinkage
        ≤ (FieldWeakening.lowerBoundRatio dInductance pmFluxLinkage currentLimitA).1 := by
  have hnonneg : 0 ≤ characteristicCurrent dInductance pmFluxLinkage := by
    rw [characteristicCurrent]
    split
    · exact abs_nonneg _
    · exact le_refl 0
  have hnum : (-0.99 : K) = -(99 / 100) := by norm_num
  have hfst : (FieldWeakening.lowerBoundRatio dInductance pmFluxLinkage currentLimitA).1
      = if -0.99 * currentLimitA > -characteristicCurrent dInductance pmFluxLinkage
        then -0.99 * currentLimitA else -characteristicCurrent dInductance pmFluxLinkage := by
    rw [FieldWeakening.lowerBoundRatio]
    split <;> rfl
  rw [hfst, hnum]
  by_cases hmore : -(99 / 100) * currentLimitA
      > -characteristicCurrent dInductance pmFluxLinkage
  · rw [if_pos hmore]
    exact ⟨by linarith, le_refl _, le_of_lt hmore⟩
  · rw [if_neg hmore]
    exact ⟨by linarith, not_lt.mp hmore, le_refl _⟩

/-- **THE WEAKENING CURRENT** is within its bounds whatever the integrator holds: the
    stored value is clamped by the bound of the call. -/
theorem weakening_in_bounds [Libm K] {weakening weakening' : FieldWeakening K}
    {input : FieldWeakeningInput K} {iD : K} (hlimit : 0 ≤ input.currentLimitA)
    (h : weakening.compute input = (.ok iD, weakening')) :
    iD ≤ 0 ∧ -0.99 * input.currentLimitA ≤ iD ∧
      -characteristicCurrent input.dInductance input.pmFluxLinkage ≤ iD := by
  obtain ⟨hneg, hlow, hchar⟩ :=
    lowerBound_spec input.dInductance input.pmFluxLinkage hlimit
  have hclamped : ∃ x, iD = clamp x (FieldWeakening.lowerBoundRatio input.dInductance
      input.pmFluxLinkage input.currentLimitA).1 0 := by
    simp only [FieldWeakening.compute] at h
    -- whatever the voltage gains by the direct current
    generalize (if input.omega * input.uQ * input.dInductance ≠ 0 then
      input.uMag / (input.omega * input.uQ * input.dInductance) else 0) = duDidReciprocal at h
    split at h
    · split at h
      · cases congrArg Prod.fst h
      · exact ⟨_, (Except.ok.inj (congrArg Prod.fst h)).symm⟩
    · exact ⟨_, (Except.ok.inj (congrArg Prod.fst h)).symm⟩
  obtain ⟨x, rfl⟩ := hclamped
  obtain ⟨hleast, hmost⟩ := clamp_mem hneg x
  exact ⟨hmost, hlow.trans hleast, hchar.trans hleast⟩

/-- What the direct current leaves of the limit, with an exact root. -/
theorem currentBudget_spec {A : Type} [DoesFocMath A K] (hsqrt : ExactSqrt A)
    (accelerator : A) {currentLimitA targetD : K} (hlimit : 0 ≤ currentLimitA)
    (hmost : targetD ≤ 0) (hleast : -0.99 * currentLimitA ≤ targetD) :
    0 ≤ (FOC.currentBudget accelerator currentLimitA targetD).1 ∧
      (FOC.currentBudget accelerator currentLimitA targetD).1
          * (FOC.currentBudget accelerator currentLimitA targetD).1
        = currentLimitA * currentLimitA - targetD * targetD := by
  have hnum : (-0.99 : K) = -(99 / 100) := by norm_num
  rw [hnum] at hleast
  have hsq : targetD * targetD ≤ currentLimitA * currentLimitA := by
    have := mul_self_le_mul_self (neg_nonneg.mpr hmost)
      (show -targetD ≤ currentLimitA by linarith)
    rwa [neg_mul_neg] at this
  rw [FOC.currentBudget]
  by_cases hmore : currentLimitA * currentLimitA - targetD * targetD > 0
  · simp only [if_pos hmore]
    exact hsqrt accelerator _ (le_of_lt hmore)
  · simp only [if_neg hmore]
    exact ⟨le_refl 0, by linarith⟩

/-- The sign of a torque command, or no current at all. -/
def SameSignOrZero (targetTorque iQ : K) : Prop :=
  iQ = 0 ∨ (0 < targetTorque ∧ 0 < iQ) ∨ (targetTorque < 0 ∧ iQ < 0)

/-- The current of a torque is within its budget, and turns the way the torque does. -/
theorem targetIQ_spec (torqueConstant targetTorque : K) {currentBudget : K}
    (hbudget : 0 ≤ currentBudget) :
    |FOC.targetIQ torqueConstant targetTorque currentBudget| ≤ currentBudget ∧
      (0 < torqueConstant → SameSignOrZero targetTorque
        (FOC.targetIQ torqueConstant targetTorque currentBudget)) := by
  obtain ⟨wanted, hwanted⟩ : ∃ wanted, wanted
      = (if torqueConstant ≠ 0 then 1 / torqueConstant else 0) * targetTorque := ⟨_, rfl⟩
  have hsign : 0 < torqueConstant → (0 < wanted → 0 < targetTorque) ∧
      (wanted < 0 → targetTorque < 0) := by
    intro hpos
    have hinv : 0 < 1 / torqueConstant := one_div_pos.mpr hpos
    rw [hwanted, if_pos hpos.ne']
    refine ⟨(mul_pos_iff_of_pos_left hinv).mp, ?_⟩
    intro hneg
    by_contra hnot
    exact absurd hneg (not_lt.mpr (mul_nonneg hinv.le (not_lt.mp hnot)))
  have htarget : FOC.targetIQ torqueConstant targetTorque currentBudget
      = if |wanted| > currentBudget then FOC.signum wanted * currentBudget else wanted := by
    rw [FOC.targetIQ, ← hwanted]
  rw [htarget]
  by_cases hover : |wanted| > currentBudget
  · rw [if_pos hover, FOC.signum]
    by_cases hneg : wanted < 0
    · rw [if_pos hneg]
      refine ⟨by rw [neg_one_mul, abs_neg, abs_of_nonneg hbudget], ?_⟩
      intro hpos
      rcases hbudget.lt_or_eq with hlt | heq
      · exact .inr (.inr ⟨(hsign hpos).2 hneg, by linarith⟩)
      · exact .inl (by rw [← heq, mul_zero])
    · rw [if_neg hneg]
      refine ⟨by rw [one_mul, abs_of_nonneg hbudget], ?_⟩
      intro hpos
      rcases hbudget.lt_or_eq with hlt | heq
      · have hwanted_pos : 0 < wanted := by
          rcases (not_lt.mp hneg).lt_or_eq with h | h
          · exact h
          · rw [← h, abs_zero] at hover
            exact absurd hover (not_lt.mpr hbudget)
        exact .inr (.inl ⟨(hsign hpos).1 hwanted_pos, by linarith⟩)
      · exact .inl (by rw [← heq, mul_zero])
  · rw [if_neg hover]
    refine ⟨not_lt.mp hover, ?_⟩
    intro hpos
    rcases lt_trichotomy wanted 0 with hlt | heq | hgt
    · exact .inr (.inr ⟨(hsign hpos).2 hlt, hlt⟩)
    · exact .inl heq
    · exact .inr (.inl ⟨(hsign hpos).1 hgt, hgt⟩)

/-! ## Runs -/

variable [Libm K] [Sqrt3 K] {A H : Type} [DoesFocMath A K] [HfiSource H K]

/-- A call of the controller. -/
inductive FocCall (K A H : Type) where
  | compute (input : FocInput K) (motorParams : MotorParamsEstimate K) (accelerator : A)
      (hfi : H) (fieldWeakening : Bool)
  | setPiGains (gains : Option (ControllerParameters K))
  | clearWindup

/-- The controller after a call. -/
def FocCall.apply (foc : FOC K) : FocCall K A H → FOC K
  | .compute input motorParams accelerator hfi fieldWeakening =>
      (foc.compute input motorParams accelerator hfi fieldWeakening).2.1
  | .setPiGains gains => (foc.setPiGains gains).2
  | .clearWindup => foc.clearWindup

/-- The current limit of a call is not negative. -/
def FocCall.LimitNonneg : FocCall K A H → Prop
  | .compute input _ _ _ _ => 0 ≤ input.currentLimitA
  | _ => True

/-- **THE TARGETS OF A TORQUE COMMAND**: the direct current weakens the magnet, within
    the limit and without turning its field around; both are within the limit; and the
    other turns the way the torque does. -/
structure TargetsInLimits (targetTorque currentLimitA dInductance pmFluxLinkage
    torqueConstant : K) (targetIDq : ClarkParkValue K) : Prop where
  weakens : -0.99 * currentLimitA ≤ targetIDq.d ∧ targetIDq.d ≤ 0
  magnet : dInductance ≠ 0 → |targetIDq.d| ≤ |pmFluxLinkage / dInductance|
  limit : targetIDq.d * targetIDq.d + targetIDq.q * targetIDq.q
    ≤ currentLimitA * currentLimitA
  sign : 0 < torqueConstant → SameSignOrZero targetTorque targetIDq.q

/-- A successful torque command with field weakening keeps its targets in the limits. -/
def KeepsTargets (foc : FOC K) : FocCall K A H → Prop
  | .compute input motorParams accelerator hfi true =>
      ∀ targetTorque, input.command = .targetTorque targetTorque →
      ∀ result rest,
        foc.compute input motorParams accelerator hfi true = (.ok result, rest) →
        ∃ dInductance pmFluxLinkage torqueConstant,
          motorParams.dInductance = some dInductance ∧
          motorParams.pmFluxLinkage = some pmFluxLinkage ∧
          motorParams.torqueConstant = some torqueConstant ∧
          TargetsInLimits targetTorque input.currentLimitA dInductance pmFluxLinkage
            torqueConstant result.targetIDq
  | _ => True

omit [LinearOrder K] [IsStrictOrderedRing K] [Sqrt3 K] in
/-- The voltages come with the currents they aim at. -/
theorem computeVoltages_target {foc foc' : FOC K}
    {targetIDq iDq requested target : ClarkParkValue K} {omegaE pmFluxLinkage : K}
    {motorParams : MotorParamsEstimate K}
    (h : foc.computeVoltages targetIDq iDq omegaE pmFluxLinkage motorParams
      = (.ok (requested, target), foc')) : target = targetIDq := by
  simp only [FOC.computeVoltages] at h
  split at h
  · cases congrArg Prod.fst h
  · split at h
    · cases congrArg Prod.fst h
    · exact (congrArg Prod.snd (Except.ok.inj (congrArg Prod.fst h))).symm
    · cases congrArg Prod.fst h

omit [IsStrictOrderedRing K] [Sqrt3 K] in
/-- A direct current with field weakening is the weakening controller's. -/
theorem targetID_ok {foc foc' : FOC K} {omegaE pmFluxLinkage currentLimitA targetD : K}
    {motorParams : MotorParamsEstimate K}
    (h : foc.targetID omegaE pmFluxLinkage currentLimitA motorParams true
      = (.ok targetD, foc')) :
    ∃ dInductance weakening input, motorParams.dInductance = some dInductance ∧
      input.dInductance = dInductance ∧ input.pmFluxLinkage = pmFluxLinkage ∧
      input.currentLimitA = currentLimitA ∧
      foc.fieldWeakening.compute input = (.ok targetD, weakening) := by
  rw [FOC.targetID, if_pos rfl] at h
  cases hinductance : motorParams.dInductance with
  | none =>
      rw [hinductance] at h
      cases congrArg Prod.fst h
  | some dInductance =>
      rw [hinductance] at h
      refine ⟨dInductance, _,
        { omega := omegaE
          dInductance := dInductance
          pmFluxLinkage := pmFluxLinkage
          overmodulation :=
            foc.config.overmodulationThresholdRatio * foc.prevValues.uMax
              - foc.prevValues.uMag
          uQ := foc.prevValues.uQ
          uMag := foc.prevValues.uMag
          currentLimitA := currentLimitA }, rfl, rfl, rfl, rfl, Prod.ext ?_ rfl⟩
      have hresult := congrArg Prod.fst h
      exact hresult

omit [IsStrictOrderedRing K] [Sqrt3 K] in
/-- What a torque command computes before its voltages. -/
theorem torqueVoltages_ok {foc foc' : FOC K} {targetTorque currentLimitA omegaE : K}
    {filteredIDq requested target : ClarkParkValue K}
    {motorParams : MotorParamsEstimate K} {accelerator accelerator' : A}
    (h : foc.torqueVoltages targetTorque currentLimitA omegaE filteredIDq motorParams
      accelerator true = (.ok (requested, target), foc', accelerator')) :
    ∃ dInductance pmFluxLinkage torqueConstant targetD weakening input,
      motorParams.dInductance = some dInductance ∧
      motorParams.pmFluxLinkage = some pmFluxLinkage ∧
      motorParams.torqueConstant = some torqueConstant ∧
      input.dInductance = dInductance ∧ input.pmFluxLinkage = pmFluxLinkage ∧
      input.currentLimitA = currentLimitA ∧
      foc.fieldWeakening.compute input = (.ok targetD, weakening) ∧
      target = ⟨targetD, FOC.targetIQ torqueConstant targetTorque
        (FOC.currentBudget accelerator currentLimitA targetD).1⟩ := by
  rw [FOC.torqueVoltages] at h
  cases hflux : motorParams.pmFluxLinkage with
  | none =>
      rw [hflux] at h
      cases congrArg Prod.fst h
  | some pmFluxLinkage =>
      rw [hflux] at h
      rcases htarget : foc.targetID omegaE pmFluxLinkage currentLimitA motorParams true with
        ⟨fault | targetD, focD⟩
      · simp only [htarget] at h
        cases congrArg Prod.fst h
      · obtain ⟨dInductance, weakening, input, hinductance, hinput⟩ := targetID_ok htarget
        simp only [htarget] at h
        cases htorque : motorParams.torqueConstant with
        | none =>
            simp only [htorque] at h
            cases congrArg Prod.fst h
        | some torqueConstant =>
            simp only [htorque] at h
            obtain ⟨hvoltages, -⟩ := Prod.mk.inj h
            exact ⟨dInductance, pmFluxLinkage, torqueConstant, targetD, weakening, input,
              hinductance, rfl, rfl, hinput.1, hinput.2.1, hinput.2.2.1, hinput.2.2.2,
              computeVoltages_target (Prod.ext hvoltages rfl)⟩

/-- A successful torque command keeps its targets in the limits, from any state of the
    controller. -/
theorem keepsTargets (hsqrt : ExactSqrt A) (foc : FOC K) (call : FocCall K A H)
    (hlimit : call.LimitNonneg) : KeepsTargets foc call := by
  cases call with
  | setPiGains _ => trivial
  | clearWindup => trivial
  | compute input motorParams accelerator hfi fieldWeakening =>
      cases fieldWeakening with
      | false => trivial
      | true =>
          intro targetTorque hcommand result rest hok
          obtain ⟨focR, acceleratorR, hfiR⟩ := rest
          obtain ⟨polePairs, requested, target, focV, acceleratorV, -, hrequested, hmodulate⟩ :=
            compute_ok hok
          have hspec := modulate_spec focV input motorParams.deadtimeRatio
            (foc.measure input polePairs accelerator).1 requested target acceleratorV hfi
          rw [hmodulate] at hspec
          simp only [FOC.requestedVoltages, FOC.commandVoltages, hcommand] at hrequested
          obtain ⟨dInductance, pmFluxLinkage, torqueConstant, targetD, weakening, fwInput,
            hinductance, hflux, htorque, hfwInductance, hfwFlux, hfwLimit, hweakening,
            htarget⟩ := torqueVoltages_ok hrequested
          refine ⟨dInductance, pmFluxLinkage, torqueConstant, hinductance, hflux, htorque, ?_⟩
          rw [hspec.target, htarget]
          have hlimit' : 0 ≤ fwInput.currentLimitA := by
            rw [hfwLimit]
            exact hlimit
          obtain ⟨hmost, hleast, hchar⟩ := weakening_in_bounds hlimit' hweakening
          rw [hfwInductance, hfwFlux] at hchar
          rw [hfwLimit] at hleast
          obtain ⟨hbudget, hbudget_sq⟩ := currentBudget_spec hsqrt
            (foc.measure input polePairs accelerator).2.2 hlimit hmost hleast
          obtain ⟨hwithin, hsign⟩ := targetIQ_spec torqueConstant targetTorque hbudget
          refine ⟨⟨hleast, hmost⟩, ?_, ?_, hsign⟩
          · intro hnonzero
            rw [characteristicCurrent, if_pos hnonzero] at hchar
            exact abs_le.mpr ⟨hchar, hmost.trans (abs_nonneg _)⟩
          · have hq := mul_self_le_mul_self (abs_nonneg _) hwithin
            rw [abs_mul_abs_self, hbudget_sq] at hq
            linarith

/-- **THE TARGETS IN THE LIMITS**: over any run of calls, whatever the commands, the
    parameters, the gains and the limits are, every successful torque command with field
    weakening keeps its current targets in the limits of its call. -/
theorem run_targets_in_limits (hsqrt : ExactSqrt A) (foc : FOC K)
    (calls : List (FocCall K A H)) (hlimits : ∀ call ∈ calls, call.LimitNonneg) :
    EventRun.Always FocCall.apply KeepsTargets foc calls :=
  EventRun.always_of_forall (A := FocCall.LimitNonneg) (keepsTargets hsqrt) calls foc hlimits

end Targets

/-- A motor of four pole pairs. -/
noncomputable def spunMotor : MotorParamsEstimate ℝ :=
  ⟨some 4, some 0.1, some 0.001, some 0.001, some 0.01, some 0⟩

/-- A controller that is tuned, commanded a torque, cleared and commanded another. -/
theorem run_targets_in_limits_retuned :
    EventRun.Always FocCall.apply KeepsTargets restingFoc
      [.setPiGains (some ⟨⟨0, 1, 1, 1, 100⟩, ⟨0, 1, 1, 1, 100⟩⟩),
        .compute { standstillInput with command := .targetTorque 1 } spunMotor
          ExactAccelerator.mk restingHfi true,
        .clearWindup,
        .compute { standstillInput with command := .targetTorque (-1), currentLimitA := 2 }
          spunMotor ExactAccelerator.mk restingHfi true] := by
  refine run_targets_in_limits exactSqrt_real restingFoc _ ?_
  intro call hcall
  simp only [List.mem_cons, List.not_mem_nil, or_false] at hcall
  rcases hcall with rfl | rfl | rfl | rfl
  · trivial
  · show (0 : ℝ) ≤ 9
    norm_num
  · trivial
  · show (0 : ℝ) ≤ 2
    norm_num

end FocProofs
