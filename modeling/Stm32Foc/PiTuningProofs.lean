import Stm32Foc.JuryCriterion
import Stm32Foc.PiTuning
import Stm32Foc.RealArithmetic
import Mathlib.Analysis.Complex.ExponentialBounds
import Mathlib.Analysis.SpecialFunctions.Trigonometric.Bounds

/-! # The tuned current loop

    Over the reals.  The check of the tuning asks for all the poles of the loop inside
    the unit circle, at every point of its grid (`stability_check`); and the gains that
    it places the poles with give a loop that has exactly those poles (`tuned_loop`). -/

namespace PiTuningProofs

open FieldOriented Tuning JuryCriterion

/-- `core::f32::consts`, in exact arithmetic. -/
noncomputable instance : CircleConstants ℝ where
  PI := Real.pi
  TAU := (2 : ℕ) * Real.pi

/-- The characteristic polynomial of the delayed plant and its controller: the zeros of
    `1 + P(z) C(z)`. -/
noncomputable def characteristic (R T C1 C2 kp ki : ℝ) (z : ℂ) : ℂ :=
  R * z * (z - C2) * (z - 1) + ((1 - C1) * z + (C1 - C2)) * ((kp + T * ki) * z - kp)

/-- The loop of a motor with its gains. -/
noncomputable def loopOf (R L T m : ℝ) (gains : PIGains ℝ) : ℂ → ℂ :=
  characteristic R T (Real.exp (-(R / L) * m * T)) (Real.exp (-(R / L) * T))
    gains.kp gains.ki

/-! ## The check -/

theorem juryTest_iff (a0 a1 a2 a3 : ℝ) :
    juryTest a0 a1 a2 a3 = true ↔ JuryConditions a0 a1 a2 a3 := by
  simp only [juryTest, JuryConditions, Bool.and_eq_true, decide_eq_true_iff, and_assoc,
    gt_iff_lt]

/-- The expanded coefficients are those of the characteristic polynomial. -/
theorem characteristic_eq_cubic (R T C1 C2 kp ki : ℝ) :
    characteristic R T C1 C2 kp ki
      = cubic (C2 * kp - C1 * kp)
          (2 * C1 * kp - kp - C2 * kp + C2 * R + C1 * T * ki - C2 * T * ki)
          (kp - R - C1 * kp + T * ki - C2 * R - C1 * T * ki) R := by
  funext z
  rw [characteristic, cubic]
  push_cast
  ring

/-- **A POINT OF THE GRID**: the check is the stability of its loop. -/
theorem stableAt_iff (Rp Lp T m : ℝ) (gains : PIGains ℝ) :
    stableAt Rp Lp T m gains = true ↔ 0 < Rp ∧ Inside (loopOf Rp Lp T m gains) := by
  have htwo : (2.0 : ℝ) = 2 := by norm_num
  rw [loopOf, characteristic_eq_cubic, ← jury_iff, ← juryTest_iff, ← htwo]
  rfl

theorem check_iff (R L T m : ℝ) (gains : PIGains ℝ) (RPerturb LPerturb : ℝ × ℝ) :
    perturbedStabilityCheck R L T m gains RPerturb LPerturb = true ↔
      ∀ i, i < stabilityCheckPointsPerAxis → ∀ j, j < stabilityCheckPointsPerAxis →
        0 < interpolate RPerturb i * R ∧
          Inside (loopOf (interpolate RPerturb i * R) (interpolate LPerturb j * L) T m
            gains) := by
  simp only [perturbedStabilityCheck, List.all_eq_true, List.mem_range, stableAt_iff]

/-- **THE STABILITY CHECK**: Jury's test is the stability of a cubic with a positive
    leading coefficient, and the check is the stability of the loop at every point of its
    grid. -/
theorem stability_check :
    (∀ a0 a1 a2 a3 : ℝ, juryTest a0 a1 a2 a3 = true ↔
      0 < a3 ∧ ∀ z : ℂ, a3 * z ^ 3 + a2 * z ^ 2 + a1 * z + a0 = 0 → ‖z‖ < 1) ∧
    ∀ (R L T m : ℝ) (gains : PIGains ℝ) (RPerturb LPerturb : ℝ × ℝ),
      (perturbedStabilityCheck R L T m gains RPerturb LPerturb = true ↔
        ∀ i, i < stabilityCheckPointsPerAxis → ∀ j, j < stabilityCheckPointsPerAxis →
          0 < interpolate RPerturb i * R ∧
            ∀ z : ℂ, loopOf (interpolate RPerturb i * R) (interpolate LPerturb j * L) T m
              gains z = 0 → ‖z‖ < 1) ∧
      ((∀ i, i < stabilityCheckPointsPerAxis →
          0 < interpolate RPerturb i * R ∧ 0 < interpolate LPerturb i * L) →
        (perturbedStabilityCheck R L T m gains RPerturb LPerturb = true ↔
          ∀ i, i < stabilityCheckPointsPerAxis → ∀ j, j < stabilityCheckPointsPerAxis →
            ∀ z : ℂ, loopOf (interpolate RPerturb i * R) (interpolate LPerturb j * L) T m
              gains z = 0 → ‖z‖ < 1)) := by
  refine ⟨fun a0 a1 a2 a3 => (juryTest_iff a0 a1 a2 a3).trans (jury_iff a0 a1 a2 a3), ?_⟩
  intro R L T m gains RPerturb LPerturb
  have hcheck := check_iff R L T m gains RPerturb LPerturb
  refine ⟨hcheck, fun hpositive => hcheck.trans ?_⟩
  constructor
  · intro h i hi j hj
    exact (h i hi j hj).2
  · intro h i hi j hj
    exact ⟨(hpositive i hi).1, h i hi j hj⟩

/-! ## The placed pair -/

section Placement

variable {C : Type} [ComplexNumber C ℝ]

open ComplexNumber

/-- The number that a complex number of the source stands for. -/
def value (z : C) : ℂ := ⟨re z, im z⟩

/-- Complex arithmetic, in exact arithmetic. -/
class ExactComplex (C : Type) [ComplexNumber C ℝ] : Prop where
  value_new (x y : ℝ) : value (new x y : C) = ⟨x, y⟩
  value_sub (a b : C) : value (sub a b) = value a - value b
  value_mul (a b : C) : value (mul a b) = value a * value b
  value_div (a b : C) (hb : value b ≠ 0) : value (div a b) = value a / value b
  value_subReal (a : C) (x : ℝ) : value (subReal a x) = value a - x
  value_realMul (x : ℝ) (a : C) : value (realMul x a) = x * value a
  value_realDiv (x : ℝ) (a : C) (ha : value a ≠ 0) : value (realDiv x a) = x / value a

open ExactComplex

/-- A number off the real line is no real number. -/
theorem sub_ofReal_ne_zero {w : ℂ} (hw : w.im ≠ 0) (x : ℝ) : w - x ≠ 0 := by
  intro hzero
  have him := congrArg Complex.im hzero
  rw [Complex.sub_im, Complex.ofReal_im, sub_zero, Complex.zero_im] at him
  exact hw him

theorem ne_zero_of_im {w : ℂ} (hw : w.im ≠ 0) : w ≠ 0 := by
  intro hzero
  rw [hzero] at hw
  exact hw rfl

/-- What the plant does to the pole has no zero off the real line. -/
theorem plant_numerator_ne_zero {w : ℂ} (hw : w.im ≠ 0) {C1 : ℝ} (hC1 : C1 < 1) (C2 : ℝ) :
    (1 - C1) * w + (C1 - C2) ≠ (0 : ℂ) := by
  intro hzero
  have him := congrArg Complex.im hzero
  have hproduct : (1 - C1) * w.im = 0 := by
    simpa using him
  rcases mul_eq_zero.mp hproduct with h | h
  · exact absurd h (by linarith)
  · exact hw h

variable [ExactComplex C] {R L T m : ℝ} {pole : C}

theorem value_subReal_ne_zero (hpole : (value pole).im ≠ 0) (x : ℝ) :
    value (subReal pole x) ≠ 0 := by
  rw [value_subReal]
  exact sub_ofReal_ne_zero hpole x

omit [ExactComplex C] in
theorem plant_fraction {R w C1 C2 : ℂ} (hR : R ≠ 0) (hw : w ≠ 0) (hone : w - 1 ≠ 0)
    (hdecay : w - C2 ≠ 0) :
    (w - 1) / w * (1 / R * (1 / (w - 1)) - 1 / R * (C1 / (w - C2)))
      = ((1 - C1) * w + (C1 - C2)) / (R * w * (w - C2)) := by
  field_simp
  ring

/-- The plant at a pole, as one fraction. -/
theorem value_plantAt (hR : R ≠ 0) (hpole : (value pole).im ≠ 0) :
    value (plantAt R L T m pole)
      = ((1 - partialDecay R L T m) * value pole
          + (partialDecay R L T m - fullDecay R L T))
        / (R * value pole * (value pole - fullDecay R L T)) := by
  have hzero := ne_zero_of_im hpole
  have hone := value_subReal_ne_zero hpole 1
  have hdecay := value_subReal_ne_zero hpole (fullDecay R L T)
  have hR' : (R : ℂ) ≠ 0 := Complex.ofReal_ne_zero.mpr hR
  rw [plantAt, value_mul, value_div _ _ hzero, value_sub, value_realMul, value_realMul,
    value_realDiv _ _ hone, value_realDiv _ _ hdecay]
  rw [value_subReal, Complex.ofReal_one] at hone
  rw [value_subReal] at hdecay
  rw [value_subReal, value_subReal, Complex.ofReal_one, Complex.ofReal_div,
    Complex.ofReal_one]
  exact plant_fraction hR' hzero hone hdecay

/-- What the controller is at a pole of the loop. -/
theorem root_of_match {R T w C1 C2 kp ki : ℂ} (hone : w - 1 ≠ 0)
    (hnumerator : (1 - C1) * w + (C1 - C2) ≠ 0)
    (h : kp + ki * (T * w / (w - 1))
      = -1 / (((1 - C1) * w + (C1 - C2)) / (R * w * (w - C2)))) :
    R * w * (w - C2) * (w - 1) + ((1 - C1) * w + (C1 - C2)) * ((kp + T * ki) * w - kp)
      = 0 := by
  rw [div_div_eq_mul_div, eq_div_iff hnumerator, mul_div_assoc', add_div' _ _ _ hone,
    div_mul_eq_mul_div, div_eq_iff hone] at h
  linear_combination h

/-- The pole that the constant term of the loop leaves. -/
noncomputable def residualOf (R L T m : ℝ) (pole : C) : ℝ :=
  proportionalGain R L T m pole * (partialDecay R L T m - fullDecay R L T)
    / (R * Complex.normSq (value pole))

variable (hR : 0 < R) (hpole : (value pole).im ≠ 0) (hone : partialDecay R L T m < 1)

include hR hpole hone

theorem value_plantAt_ne_zero : value (plantAt R L T m pole) ≠ 0 := by
  have hR' : (R : ℂ) ≠ 0 := Complex.ofReal_ne_zero.mpr hR.ne'
  rw [value_plantAt hR.ne' hpole]
  exact div_ne_zero (plant_numerator_ne_zero hpole hone _)
    (mul_ne_zero (mul_ne_zero hR' (ne_zero_of_im hpole)) (sub_ofReal_ne_zero hpole _))

omit hR hone in
theorem value_integratorAt :
    value (integratorAt T pole) = T * value pole / (value pole - 1) := by
  rw [integratorAt, value_div _ _ (value_subReal_ne_zero hpole 1), value_realMul,
    value_subReal, Complex.ofReal_one]

omit hR hone in
/-- The integrator has an imaginary part at a pole off the real line. -/
theorem integratorAt_im_ne_zero (hT : T ≠ 0) : im (integratorAt T pole) ≠ 0 := by
  have hone := sub_ofReal_ne_zero hpole 1
  rw [Complex.ofReal_one] at hone
  have hsplit : (T : ℂ) * value pole / (value pole - 1)
      = T * (1 + (value pole - 1)⁻¹) := by
    field_simp
    ring
  have him : im (integratorAt T pole) = (value (integratorAt T pole)).im := rfl
  rw [him, value_integratorAt hpole, hsplit, Complex.im_ofReal_mul, Complex.add_im,
    Complex.one_im, zero_add, Complex.inv_im, Complex.sub_im, Complex.one_im, sub_zero]
  exact mul_ne_zero hT (div_ne_zero (neg_ne_zero.mpr hpole)
    (Complex.normSq_eq_zero.not.mpr hone))

/-- The two gains are what the controller needs at the pole. -/
theorem gains_match (hT : T ≠ 0) :
    (proportionalGain R L T m pole : ℂ)
        + integralGain R L T m pole * (T * value pole / (value pole - 1))
      = -1 / value (plantAt R L T m pole) := by
  have hplant := value_plantAt_ne_zero hR hpole hone
  have hcontroller : value (controllerAt R L T m pole)
      = -1 / value (plantAt R L T m pole) := by
    rw [controllerAt, value_realDiv _ _ hplant, Complex.ofReal_neg, Complex.ofReal_one]
  have hintegrator := integratorAt_im_ne_zero hpole hT
  rw [← hcontroller, ← value_integratorAt hpole]
  apply Complex.ext
  · rw [Complex.add_re, Complex.ofReal_re, Complex.re_ofReal_mul, proportionalGain]
    exact sub_add_cancel _ _
  · rw [Complex.add_im, Complex.ofReal_im, Complex.im_ofReal_mul, zero_add, integralGain]
    exact div_mul_cancel₀ _ hintegrator

/-- **THE PLACED POLE** is a pole of the loop. -/
theorem characteristic_placed (hT : T ≠ 0) :
    characteristic R T (partialDecay R L T m) (fullDecay R L T)
      (proportionalGain R L T m pole) (integralGain R L T m pole) (value pole) = 0 := by
  have hsub := sub_ofReal_ne_zero hpole 1
  rw [Complex.ofReal_one] at hsub
  have hmatch := gains_match (L := L) (m := m) hR hpole hone hT
  rw [value_plantAt hR.ne' hpole] at hmatch
  exact root_of_match hsub (plant_numerator_ne_zero hpole hone _) hmatch

/-- **THE FACTORS**: besides the placed pole and its conjugate the loop has the pole that
    its constant term leaves, and no others. -/
theorem loop_factors (hT : T ≠ 0) (z : ℂ) :
    characteristic R T (partialDecay R L T m) (fullDecay R L T)
        (proportionalGain R L T m pole) (integralGain R L T m pole) z
      = R * ((z - value pole) * (z - star (value pole)))
        * (z - residualOf R L T m pole) := by
  have hroot := characteristic_placed (L := L) (m := m) hR hpole hone hT
  have hconstant : proportionalGain R L T m pole * (partialDecay R L T m - fullDecay R L T)
      = -(fullDecay R L T * proportionalGain R L T m pole
          - partialDecay R L T m * proportionalGain R L T m pole) := by ring
  rw [characteristic_eq_cubic] at hroot ⊢
  rw [residualOf, hconstant]
  exact cubic_eq_pair hR.ne' hpole hroot z

/-- The loop at a real number. -/
theorem loop_at_real (hT : T ≠ 0) (x : ℝ) :
    R * x * (x - fullDecay R L T) * (x - 1)
        + ((1 - partialDecay R L T m) * x + (partialDecay R L T m - fullDecay R L T))
          * ((proportionalGain R L T m pole + T * integralGain R L T m pole) * x
            - proportionalGain R L T m pole)
      = R * Complex.normSq (x - value pole) * (x - residualOf R L T m pole) := by
  have hpair : (x - value pole) * (x - star (value pole))
      = (Complex.normSq (x - value pole) : ℂ) := by
    rw [← Complex.mul_conj, map_sub, Complex.conj_ofReal]
    rfl
  have hfactors := loop_factors (L := L) (m := m) hR hpole hone hT x
  rw [hpair, characteristic] at hfactors
  exact_mod_cast hfactors

end Placement

/-! ## The tuned loop -/

section Tuned

variable (C : Type) [ComplexNumber C ℝ]

open ComplexNumber

/-- The pole that the tuning places. -/
noncomputable def tunedPole (R L T bandwidthHz : ℝ) : C :=
  placedPole C (placedMagnitude (omegaN R L bandwidthHz) T)
    (placedAngle (omegaN R L bandwidthHz) T)

/-- The residual pole that the tuning computes. -/
noncomputable def tunedResidual (R L T m bandwidthHz : ℝ) : ℝ :=
  residualPole R L T m (placedMagnitude (omegaN R L bandwidthHz) T)
    (proportionalGain R L T m (tunedPole C R L T bandwidthHz))

/-- What the tuning has checked when it answers gains. -/
structure Tuned (R L T m bandwidthHz : ℝ) (gains : PIGains ℝ) : Prop where
  angle_pos : 0 < placedAngle (omegaN R L bandwidthHz) T
  angle_lt : placedAngle (omegaN R L bandwidthHz) T < Real.pi
  magnitude : placedMagnitude (omegaN R L bandwidthHz) T < 1
  kp : gains.kp = proportionalGain R L T m (tunedPole C R L T bandwidthHz)
  ki : gains.ki = integralGain R L T m (tunedPole C R L T bandwidthHz)
  kp_pos : 0 < gains.kp
  residual : tunedResidual C R L T m bandwidthHz
    < placedMagnitude (omegaN R L bandwidthHz) T * placedMagnitude (omegaN R L bandwidthHz) T
      * placedMagnitude (omegaN R L bandwidthHz) T

/-- No division of the tuning is by zero: its divisors, in the order of the source. -/
structure DividesSoundly (R L T m bandwidthHz : ℝ) : Prop where
  inductance : L ≠ 0
  turn : (CircleConstants.TAU : ℝ) ≠ 0
  pole : value (tunedPole C R L T bandwidthHz) ≠ 0
  resistance : R ≠ 0
  poleSubOne : value (subReal (tunedPole C R L T bandwidthHz) 1) ≠ 0
  poleSubDecay : value (subReal (tunedPole C R L T bandwidthHz) (fullDecay R L T)) ≠ 0
  plant : value (plantAt R L T m (tunedPole C R L T bandwidthHz)) ≠ 0
  integrator : im (integratorAt T (tunedPole C R L T bandwidthHz)) ≠ 0
  residual : R * placedMagnitude (omegaN R L bandwidthHz) T
    * placedMagnitude (omegaN R L bandwidthHz) T ≠ 0
  filter : proportionalGain R L T m (tunedPole C R L T bandwidthHz)
    + T * integralGain R L T m (tunedPole C R L T bandwidthHz) ≠ 0
  proportional : proportionalGain R L T m (tunedPole C R L T bandwidthHz) ≠ 0

variable {C} {R L T m bandwidthHz : ℝ} {gains : PIGains ℝ}

theorem tune_ok (h : tune C R L T m bandwidthHz = .ok gains) :
    Tuned C R L T m bandwidthHz gains := by
  rw [tune] at h
  dsimp only at h
  split at h
  · cases h
  · rename_i hstable
    split at h
    · cases h
    · rename_i hkp
      split at h
      · cases h
      · rename_i hresidual
        obtain rfl := Except.ok.inj h
        rw [not_or, not_not, not_not] at hstable
        exact
          { angle_pos := hstable.1.1
            angle_lt := hstable.1.2
            magnitude := hstable.2
            kp := rfl
            ki := rfl
            kp_pos := not_not.mp hkp
            residual := not_not.mp hresidual }

/-- The plant decays, further over a whole period than over a part. -/
theorem decays (hR : 0 < R) (hL : 0 < L) (hT : 0 < T) :
    fullDecay R L T < partialDecay R L T 0.5 ∧ partialDecay R L T 0.5 < 1 := by
  have hrate : 0 < R / L * T := mul_pos (div_pos hR hL) hT
  refine ⟨Real.exp_lt_exp.mpr ?_, Real.exp_lt_one_iff.mpr ?_⟩
  · have hhalf : -(R / L) * 0.5 * T = -(R / L * T) / 2 := by ring
    rw [hhalf, neg_mul]
    linarith
  · have hhalf : -(R / L) * 0.5 * T = -(R / L * T) / 2 := by ring
    rw [hhalf]
    linarith

variable [ExactComplex C]

theorem value_tunedPole (C : Type) [ComplexNumber C ℝ] [ExactComplex C]
    (R L T bandwidthHz : ℝ) :
    value (tunedPole C R L T bandwidthHz)
      = ⟨placedMagnitude (omegaN R L bandwidthHz) T
            * Real.cos (placedAngle (omegaN R L bandwidthHz) T),
          placedMagnitude (omegaN R L bandwidthHz) T
            * Real.sin (placedAngle (omegaN R L bandwidthHz) T)⟩ :=
  ExactComplex.value_new _ _

theorem placedMagnitude_pos (omegaN T : ℝ) : 0 < placedMagnitude omegaN T := Real.exp_pos _

/-- The placed pole has the magnitude that it is placed with. -/
theorem normSq_tunedPole (C : Type) [ComplexNumber C ℝ] [ExactComplex C]
    (R L T bandwidthHz : ℝ) :
    Complex.normSq (value (tunedPole C R L T bandwidthHz))
      = placedMagnitude (omegaN R L bandwidthHz) T ^ 2 := by
  rw [value_tunedPole, Complex.normSq_mk]
  linear_combination placedMagnitude (omegaN R L bandwidthHz) T ^ 2
    * Real.sin_sq_add_cos_sq (placedAngle (omegaN R L bandwidthHz) T)

theorem norm_tunedPole :
    ‖value (tunedPole C R L T bandwidthHz)‖ = placedMagnitude (omegaN R L bandwidthHz) T := by
  have hsq : ‖value (tunedPole C R L T bandwidthHz)‖ ^ 2
      = placedMagnitude (omegaN R L bandwidthHz) T ^ 2 := by
    rw [Complex.sq_norm, normSq_tunedPole]
  exact (pow_left_inj₀ (norm_nonneg _) (placedMagnitude_pos _ _).le two_ne_zero).mp hsq

/-- Between no turn and half a turn the placed pole is off the real line. -/
theorem Tuned.pole_im (h : Tuned C R L T m bandwidthHz gains) :
    (value (tunedPole C R L T bandwidthHz)).im ≠ 0 := by
  rw [value_tunedPole]
  exact (mul_pos (placedMagnitude_pos _ _)
    (Real.sin_pos_of_pos_of_lt_pi h.angle_pos h.angle_lt)).ne'

theorem tunedResidual_eq (C : Type) [ComplexNumber C ℝ] [ExactComplex C]
    (R L T m bandwidthHz : ℝ) :
    tunedResidual C R L T m bandwidthHz
      = residualOf R L T m (tunedPole C R L T bandwidthHz) := by
  rw [tunedResidual, residualPole, residualOf, normSq_tunedPole, sq, mul_assoc R]

/-- The loop of the tuned gains has the placed pole, its conjugate and the residual
    pole. -/
theorem Tuned.factors (h : Tuned C R L T 0.5 bandwidthHz gains) (hR : 0 < R) (hL : 0 < L)
    (hT : 0 < T) (z : ℂ) :
    loopOf R L T 0.5 gains z
      = R * ((z - value (tunedPole C R L T bandwidthHz))
          * (z - star (value (tunedPole C R L T bandwidthHz))))
        * (z - tunedResidual C R L T 0.5 bandwidthHz) := by
  have hfactors := loop_factors (L := L) (m := 0.5) hR h.pole_im (decays hR hL hT).2 hT.ne' z
  have hloop : loopOf R L T 0.5 gains
      = characteristic R T (partialDecay R L T 0.5) (fullDecay R L T) gains.kp gains.ki := rfl
  rw [hloop, h.kp, h.ki, hfactors, tunedResidual_eq]

omit [ExactComplex C] in
/-- The residual pole is positive. -/
theorem Tuned.residual_pos (h : Tuned C R L T 0.5 bandwidthHz gains) (hR : 0 < R)
    (hL : 0 < L) (hT : 0 < T) : 0 < tunedResidual C R L T 0.5 bandwidthHz := by
  have hmagnitude := placedMagnitude_pos (omegaN R L bandwidthHz) T
  have hkp := h.kp_pos
  rw [h.kp] at hkp
  rw [tunedResidual, residualPole]
  exact div_pos (mul_pos hkp (sub_pos.mpr (decays hR hL hT).1))
    (mul_pos (mul_pos hR hmagnitude) hmagnitude)

omit [ExactComplex C] in
theorem Tuned.residual_lt_one (h : Tuned C R L T m bandwidthHz gains) :
    tunedResidual C R L T m bandwidthHz < 1 := by
  have hpos := (placedMagnitude_pos (omegaN R L bandwidthHz) T).le
  have hsq := mul_le_one₀ h.magnitude.le hpos h.magnitude.le
  exact h.residual.trans_le (mul_le_one₀ hsq hpos h.magnitude.le)

/-- The loop at one: the integral gain of a tuned loop is positive. -/
theorem Tuned.ki_pos (h : Tuned C R L T 0.5 bandwidthHz gains) (hR : 0 < R) (hL : 0 < L)
    (hT : 0 < T) : 0 < gains.ki := by
  have hreal := loop_at_real (L := L) (m := 0.5) hR h.pole_im (decays hR hL hT).2 hT.ne' 1
  rw [Complex.ofReal_one, ← tunedResidual_eq, ← h.kp, ← h.ki] at hreal
  -- both sides are positive at one
  have hne : 1 - value (tunedPole C R L T bandwidthHz) ≠ 0 := by
    have hsub := sub_ofReal_ne_zero h.pole_im 1
    rw [Complex.ofReal_one, ← neg_sub] at hsub
    exact neg_ne_zero.mp hsub
  have hpos : 0 < (1 - fullDecay R L T) * (T * gains.ki) := by
    have hright := mul_pos (mul_pos hR (Complex.normSq_pos.mpr hne))
      (sub_pos.mpr h.residual_lt_one)
    rw [← hreal] at hright
    linarith
  obtain ⟨hless, hone⟩ := decays hR hL hT
  have hTki := pos_of_mul_pos_right hpos (sub_nonneg.mpr (hless.trans hone).le)
  exact pos_of_mul_pos_right hTki hT.le

theorem Tuned.dividesSoundly (h : Tuned C R L T 0.5 bandwidthHz gains) (hR : 0 < R)
    (hL : 0 < L) (hT : 0 < T) : DividesSoundly C R L T 0.5 bandwidthHz := by
  have hmagnitude := (placedMagnitude_pos (omegaN R L bandwidthHz) T).ne'
  have hkp := h.kp_pos
  have hki := h.ki_pos hR hL hT
  rw [h.kp] at hkp
  rw [h.ki] at hki
  exact
    { inductance := hL.ne'
      turn := mul_ne_zero two_ne_zero Real.pi_ne_zero
      pole := ne_zero_of_im h.pole_im
      resistance := hR.ne'
      poleSubOne := value_subReal_ne_zero h.pole_im 1
      poleSubDecay := value_subReal_ne_zero h.pole_im _
      plant := value_plantAt_ne_zero hR h.pole_im (decays hR hL hT).2
      integrator := integratorAt_im_ne_zero h.pole_im hT.ne'
      residual := mul_ne_zero (mul_ne_zero hR.ne' hmagnitude) hmagnitude
      filter := (add_pos hkp (mul_pos hT hki)).ne'
      proportional := hkp.ne' }

/-- **THE TUNED LOOP**: a tuning that answers gains has divided by nothing that is zero,
    and its gains have a positive proportional part and give a loop that is stable with
    exactly the poles of the design: the placed pair, and a residual pole that is faster
    than it. -/
theorem tuned_loop (C : Type) [ComplexNumber C ℝ] [ExactComplex C]
    {R L T bandwidthHz : ℝ} (hR : 0 < R) (hL : 0 < L) (hT : 0 < T) {gains : PIGains ℝ}
    (h : tune C R L T 0.5 bandwidthHz = .ok gains) :
    DividesSoundly C R L T 0.5 bandwidthHz ∧
    0 < gains.kp ∧
    (∀ z : ℂ, loopOf R L T 0.5 gains z
      = R * ((z - value (tunedPole C R L T bandwidthHz))
          * (z - star (value (tunedPole C R L T bandwidthHz))))
        * (z - tunedResidual C R L T 0.5 bandwidthHz)) ∧
    ‖value (tunedPole C R L T bandwidthHz)‖ < 1 ∧
    0 < tunedResidual C R L T 0.5 bandwidthHz ∧
    tunedResidual C R L T 0.5 bandwidthHz
      < ‖value (tunedPole C R L T bandwidthHz)‖ ^ 3 ∧
    Inside (loopOf R L T 0.5 gains) := by
  have htuned := tune_ok h
  have hfactors := htuned.factors hR hL hT
  have hmagnitude : ‖value (tunedPole C R L T bandwidthHz)‖ < 1 := by
    rw [norm_tunedPole]
    exact htuned.magnitude
  have hpos := htuned.residual_pos hR hL hT
  refine ⟨htuned.dividesSoundly hR hL hT, htuned.kp_pos, hfactors, hmagnitude, hpos, ?_, ?_⟩
  · rw [norm_tunedPole, pow_succ, sq]
    exact htuned.residual
  · -- each of the three factors has its root inside
    have hR' : (R : ℂ) ≠ 0 := Complex.ofReal_ne_zero.mpr hR.ne'
    have hloop : loopOf R L T 0.5 gains = _ := funext hfactors
    rw [hloop]
    refine inside_mul.mpr ⟨(inside_const_mul hR').mpr (inside_mul.mpr ⟨?_, ?_⟩), ?_⟩
    · exact inside_sub.mpr hmagnitude
    · rw [inside_sub, norm_star]
      exact hmagnitude
    · rw [inside_sub, Complex.norm_real, Real.norm_of_nonneg hpos.le]
      exact htuned.residual_lt_one

/-! ## The gains of both axes -/

omit [ExactComplex C] in
/-- A parameter that is needed and there. -/
theorem needed_ok {param : Option ℝ} {x : ℝ} (h : needed param = .ok x) :
    param = some x := by
  cases param with
  | none => cases h
  | some y => rw [Except.ok.inj h]

/-- What the gains of an axis come with. -/
structure SoundAxis (R L T : ℝ) (gains : PIGains ℝ) : Prop where
  kp_pos : 0 < gains.kp
  nominal : Inside (loopOf R L T 0.5 gains)
  perturbed : ∀ i, i < stabilityCheckPointsPerAxis → ∀ j, j < stabilityCheckPointsPerAxis →
    Inside (loopOf (interpolate (0.9, 1.5) i * R) (interpolate (0.65, 1.1) j * L) T 0.5 gains)

theorem soundAxis (hR : 0 < R) (hL : 0 < L) (hT : 0 < T)
    (h : tune C R L T 0.5 bandwidthHz = .ok gains)
    (hcheck : perturbedStabilityCheck R L T 0.5 gains (0.9, 1.5) (0.65, 1.1) = true) :
    SoundAxis R L T gains := by
  obtain ⟨-, hkp, -, -, -, -, hstable⟩ := tuned_loop C hR hL hT h
  exact ⟨hkp, hstable, fun i hi j hj => ((check_iff _ _ _ _ _ _ _).mp hcheck i hi j hj).2⟩

omit [ComplexNumber C ℝ] [ExactComplex C] in
/-- A computation that answers has answered at its first step. -/
theorem bind_answers {α β : Type} {x : Except PITuningFault α}
    {f : α → Except PITuningFault β} {b : β} (h : (x >>= f) = .ok b) :
    ∃ a, x = .ok a ∧ f a = .ok b := by
  cases x with
  | error fault => cases h
  | ok a => exact ⟨a, rfl, h⟩

omit [ExactComplex C] in
/-- What the tuning of both axes has checked when it answers. -/
theorem tuneBoth_ok {Ld Lq : ℝ} {parameters : ControllerParameters ℝ}
    (h : @tuneBoth ℝ _ (tunesPi C) R Ld Lq T bandwidthHz = .ok parameters) :
    (tune C R Ld T 0.5 bandwidthHz = .ok parameters.dPi ∧
      perturbedStabilityCheck R Ld T 0.5 parameters.dPi (0.9, 1.5) (0.65, 1.1) = true) ∧
    tune C R Lq T 0.5 bandwidthHz = .ok parameters.qPi ∧
      perturbedStabilityCheck R Lq T 0.5 parameters.qPi (0.9, 1.5) (0.65, 1.1) = true := by
  unfold tuneBoth at h
  obtain ⟨dPi, hd, h⟩ := bind_answers h
  obtain ⟨qPi, hq, h⟩ := bind_answers h
  dsimp only at h
  split at h
  · rename_i hstable
    rw [Bool.and_eq_true] at hstable
    obtain rfl := Except.ok.inj h
    exact ⟨⟨hd, hstable.1⟩, hq, hstable.2⟩
  · cases h

/-- **THE GAINS OF BOTH AXES**: the gains that are computed for a motor stabilise each
    axis, nominal and perturbed. -/
theorem computed_gains {params : MotorParamsEstimate ℝ} {pwmFreqHz : ℝ}
    {parameters : ControllerParameters ℝ}
    (h : @computeCurrentPiControllerGains ℝ _ _ (tunesPi C) params pwmFreqHz bandwidthHz
      = .ok parameters) :
    ∃ R Ld Lq, params.statorResistance = some R ∧ params.dInductance = some Ld ∧
      params.qInductance = some Lq ∧ SoundAxis R Ld (1 / pwmFreqHz) parameters.dPi ∧
      SoundAxis R Lq (1 / pwmFreqHz) parameters.qPi := by
  unfold computeCurrentPiControllerGains at h
  obtain ⟨R, hR, h⟩ := bind_answers h
  obtain ⟨Ld, hd, h⟩ := bind_answers h
  obtain ⟨Lq, hq, h⟩ := bind_answers h
  dsimp only at h
  split at h
  · cases h
  · rename_i hfeasible
    split at h
    · cases h
    · obtain ⟨⟨hdPi, hdCheck⟩, hqPi, hqCheck⟩ := tuneBoth_ok h
      simp only [not_or, not_le] at hfeasible
      obtain ⟨hRpos, hdpos, hqpos, hT⟩ := hfeasible
      exact ⟨R, Ld, Lq, needed_ok hR, needed_ok hd, needed_ok hq,
        soundAxis hRpos hdpos hT hdPi hdCheck, soundAxis hRpos hqpos hT hqPi hqCheck⟩

end Tuned

/-! ## A motor that tunes -/

section Example

open ComplexNumber

/-- The complex numbers themselves. -/
noncomputable instance : ComplexNumber ℂ ℝ where
  new x y := ⟨x, y⟩
  re := Complex.re
  im := Complex.im
  sub a b := a - b
  mul a b := a * b
  div a b := a / b
  subReal a x := a - x
  realMul x a := x * a
  realDiv x a := x / a

instance : ExactComplex ℂ where
  value_new _ _ := rfl
  value_sub _ _ := rfl
  value_mul _ _ := rfl
  value_div _ _ _ := rfl
  value_subReal _ _ := rfl
  value_realMul _ _ := rfl
  value_realDiv _ _ _ := rfl

theorem exp_neg_pow (p q : ℕ) (hq : q ≠ 0) :
    Real.exp (-(p / q)) ^ q * Real.exp 1 ^ p = 1 := by
  have hq' : (q : ℝ) ≠ 0 := Nat.cast_ne_zero.mpr hq
  rw [← Real.exp_nat_mul, ← Real.exp_nat_mul, ← Real.exp_add, Real.exp_eq_one_iff,
    mul_neg, mul_div_cancel₀ _ hq', mul_one, neg_add_cancel]

/-- A lower bound of a decay, from the digits of `e`. -/
theorem lt_exp_neg {lo : ℝ} (p q : ℕ) (hq : q ≠ 0) (h : lo ^ q * 2.7182818286 ^ p < 1) :
    lo < Real.exp (-(p / q)) := by
  by_contra hge
  have hpow := pow_le_pow_left₀ (Real.exp_pos _).le (not_lt.mp hge) q
  have he := pow_le_pow_left₀ (Real.exp_pos 1).le Real.exp_one_lt_d9.le p
  have hlo := (Real.exp_pos _).le.trans (not_lt.mp hge)
  have hmul := mul_le_mul hpow he (by positivity) (pow_nonneg hlo q)
  rw [exp_neg_pow p q hq] at hmul
  exact absurd h (not_lt.mpr hmul)

theorem exp_neg_lt {hi : ℝ} (p q : ℕ) (hq : q ≠ 0) (hhi : 0 ≤ hi)
    (h : 1 < hi ^ q * 2.7182818283 ^ p) : Real.exp (-(p / q)) < hi := by
  by_contra hge
  have hpow := pow_le_pow_left₀ hhi (not_lt.mp hge) q
  have he := pow_le_pow_left₀ (by norm_num) Real.exp_one_gt_d9.le p
  have hmul := mul_le_mul hpow he (by positivity) (by positivity)
  rw [exp_neg_pow p q hq] at hmul
  exact absurd h (not_lt.mpr hmul)

theorem partialDecay_bounds :
    0.77 < partialDecay (1 : ℝ) 1 (1 / 2) 0.5 ∧ partialDecay (1 : ℝ) 1 (1 / 2) 0.5 < 0.79 := by
  have hvalue : partialDecay (1 : ℝ) 1 (1 / 2) 0.5 = Real.exp (-((1 : ℕ) / (4 : ℕ))) := by
    show Real.exp _ = _
    congr 1
    norm_num
  rw [hvalue]
  exact ⟨lt_exp_neg 1 4 (by decide) (by norm_num),
    exp_neg_lt 1 4 (by decide) (by norm_num) (by norm_num)⟩

theorem fullDecay_eq :
    fullDecay (1 : ℝ) 1 (1 / 2) = partialDecay (1 : ℝ) 1 (1 / 2) 0.5 ^ 2 := by
  show Real.exp _ = Real.exp _ ^ 2
  rw [← Real.exp_nat_mul]
  congr 1
  norm_num

theorem omegaN_eq : omegaN (1 : ℝ) 1 (1 / 10) = 1 := by
  have hpi := Real.pi_le_four
  have hless : 2 * Real.pi * (1 / 10) ≤ (1 : ℝ) / 1 := by linarith
  rw [omegaN]
  exact (max_eq_right hless).trans (div_one 1)

theorem placedMagnitude_bounds :
    0.697 < placedMagnitude (1 : ℝ) (1 / 2) ∧ placedMagnitude (1 : ℝ) (1 / 2) < 0.705 := by
  have hvalue : placedMagnitude (1 : ℝ) (1 / 2) = Real.exp (-0.70710678 * 1 * (1 / 2)) := rfl
  rw [hvalue]
  constructor
  · refine (lt_exp_neg 9 25 (by decide) (by norm_num)).trans_le (Real.exp_le_exp.mpr ?_)
    norm_num
  · refine (Real.exp_le_exp.mpr ?_).trans_lt
      (exp_neg_lt 7 20 (by decide) (by norm_num) (by norm_num))
    norm_num

theorem placedAngle_bounds :
    0 < placedAngle (1 : ℝ) (1 / 2) ∧ placedAngle (1 : ℝ) (1 / 2) < 1 ∧
      0.125 ≤ placedAngle (1 : ℝ) (1 / 2) ^ 2 ∧ placedAngle (1 : ℝ) (1 / 2) ^ 2 ≤ 0.126 := by
  have hvalue : placedAngle (1 : ℝ) (1 / 2)
      = 1 * Real.sqrt (1 - 0.70710678 * 0.70710678) * (1 / 2) := rfl
  have hpos : (0 : ℝ) < 1 - 0.70710678 * 0.70710678 := by norm_num
  have hsq := Real.sq_sqrt hpos.le
  have hroot := Real.sqrt_pos.mpr hpos
  rw [hvalue, mul_pow, mul_pow, hsq]
  refine ⟨by positivity, ?_, by norm_num, by norm_num⟩
  have hle : Real.sqrt (1 - 0.70710678 * 0.70710678) ≤ 1 :=
    Real.sqrt_le_one.mpr (by norm_num)
  linarith

theorem cos_bounds :
    0.93 ≤ Real.cos (placedAngle (1 : ℝ) (1 / 2)) ∧
      Real.cos (placedAngle (1 : ℝ) (1 / 2)) ≤ 0.94 := by
  obtain ⟨hpos, hone, hlow, hhigh⟩ := placedAngle_bounds
  have hbound := abs_le.mp (Real.cos_bound (abs_le.mpr ⟨by linarith, hone.le⟩))
  have hfourth : |placedAngle (1 : ℝ) (1 / 2)| ^ 4 = (placedAngle (1 : ℝ) (1 / 2) ^ 2) ^ 2 := by
    rw [abs_of_pos hpos]
    ring
  rw [hfourth] at hbound
  have hsq : (placedAngle (1 : ℝ) (1 / 2) ^ 2) ^ 2 ≤ 0.126 ^ 2 :=
    pow_le_pow_left₀ (sq_nonneg _) hhigh 2
  norm_num at hsq
  constructor
  · linarith
  · linarith

/-- The pole that is placed. -/
noncomputable def examplePole : ℂ := tunedPole ℂ 1 1 0.5 0.1

theorem examplePole_def : examplePole = tunedPole ℂ 1 1 (1 / 2) (1 / 10) := by
  have hhalf : (0.5 : ℝ) = 1 / 2 := by norm_num
  have htenth : (0.1 : ℝ) = 1 / 10 := by norm_num
  rw [examplePole, hhalf, htenth]

theorem examplePole_eq :
    examplePole = ⟨placedMagnitude 1 (1 / 2) * Real.cos (placedAngle 1 (1 / 2)),
      placedMagnitude 1 (1 / 2) * Real.sin (placedAngle 1 (1 / 2))⟩ := by
  have hvalue := value_tunedPole ℂ 1 1 (1 / 2) (1 / 10)
  rw [omegaN_eq, ← examplePole_def] at hvalue
  exact hvalue

theorem examplePole_im : (value examplePole).im ≠ 0 := by
  obtain ⟨hpos, hone, -⟩ := placedAngle_bounds
  have hpi := Real.two_le_pi
  have him : (value examplePole).im
      = placedMagnitude 1 (1 / 2) * Real.sin (placedAngle 1 (1 / 2)) :=
    congrArg Complex.im examplePole_eq
  rw [him]
  exact (mul_pos (placedMagnitude_pos _ _)
    (Real.sin_pos_of_pos_of_lt_pi hpos (by linarith))).ne'

/-- The residual pole between the two ends of the real axis. -/
theorem residual_bounds {c x q kp K p : ℝ} (hc : 0.77 < c) (hc' : c < 0.79)
    (hx : 0.648 < x) (hx' : x < 0.663) (hq : 0.485 < q) (hq' : q < 0.498)
    (hp : p * q = kp * (c - c ^ 2))
    (hright : (1 - c ^ 2) * K = (1 - 2 * x + q) * (1 - p))
    (hleft : 2 * (1 + c ^ 2) - (1 - c) ^ 2 * (2 * kp + K) = (1 + 2 * x + q) * (1 + p)) :
    0 < p ∧ p < 0.33 := by
  obtain ⟨A, hA⟩ : ∃ A, A = 1 - 2 * x + q := ⟨_, rfl⟩
  obtain ⟨B, hB⟩ : ∃ B, B = 1 + 2 * x + q := ⟨_, rfl⟩
  rw [← hA] at hright
  rw [← hB] at hleft
  -- the two gains drop out
  have hbalance : p * (2 * (1 - c ^ 2) * q - c * (1 - c) * A + c * (1 + c) * B)
      = c * (1 + c) * (2 * (1 + c ^ 2) - B) - c * (1 - c) * A := by
    linear_combination -(c * (1 + c)) * hleft - c * (1 - c) * hright + 2 * (1 - c ^ 2) * hp
  have hA' : 0.159 ≤ A ∧ A ≤ 0.202 := ⟨by linarith, by linarith⟩
  have hB' : 2.78 ≤ B ∧ B ≤ 2.825 := ⟨by linarith, by linarith⟩
  have hcc : 0 ≤ c * (1 - c) ∧ c * (1 - c) ≤ 0.79 * 0.23 :=
    ⟨mul_nonneg (by linarith) (by linarith),
      mul_le_mul hc'.le (by linarith) (by linarith) (by norm_num)⟩
  have hsmall : 0 ≤ c * (1 - c) * A ∧ c * (1 - c) * A ≤ 0.79 * 0.23 * 0.202 :=
    ⟨mul_nonneg hcc.1 (by linarith), mul_le_mul hcc.2 hA'.2 (by linarith) (by norm_num)⟩
  have hlarge : 0.77 * 1.77 ≤ c * (1 + c) ∧ c * (1 + c) ≤ 0.79 * 1.79 :=
    ⟨mul_le_mul hc.le (by linarith) (by norm_num) (by linarith),
      mul_le_mul hc'.le (by linarith) (by linarith) (by norm_num)⟩
  have hsq : 0.77 ^ 2 ≤ c ^ 2 ∧ c ^ 2 ≤ 0.79 ^ 2 :=
    ⟨pow_le_pow_left₀ (by norm_num) hc.le 2, pow_le_pow_left₀ (by linarith) hc'.le 2⟩
  norm_num at hcc hsmall hlarge hsq
  have hX : 3.6 ≤ 2 * (1 - c ^ 2) * q - c * (1 - c) * A + c * (1 + c) * B := by
    have hfirst : 0 ≤ 2 * (1 - c ^ 2) * q := mul_nonneg (by linarith) (by linarith)
    have hlast : 1.36 * 2.78 ≤ c * (1 + c) * B :=
      mul_le_mul (by linarith) hB'.1 (by norm_num) (by linarith)
    linarith
  have hY : 1.36 * 0.36 ≤ c * (1 + c) * (2 * (1 + c ^ 2) - B) :=
    mul_le_mul (by linarith) (by linarith) (by norm_num) (by linarith)
  have hY' : c * (1 + c) * (2 * (1 + c ^ 2) - B) ≤ 1.415 * 0.47 :=
    mul_le_mul (by linarith) (by linarith) (by linarith) (by norm_num)
  have hpos : 0 < p * (2 * (1 - c ^ 2) * q - c * (1 - c) * A + c * (1 + c) * B) := by
    rw [hbalance]
    linarith
  refine ⟨pos_of_mul_pos_left hpos (by linarith), ?_⟩
  by_contra hbig
  have hproduct := mul_le_mul (not_lt.mp hbig) hX (by norm_num) (le_of_lt
    (lt_of_lt_of_le (by norm_num) (not_lt.mp hbig)))
  rw [hbalance] at hproduct
  norm_num at hproduct
  linarith

theorem example_residual :
    0 < residualOf 1 1 (1 / 2) 0.5 examplePole ∧
      residualOf 1 1 (1 / 2) 0.5 examplePole < 0.33 := by
  obtain ⟨hc, hc'⟩ := partialDecay_bounds
  obtain ⟨hr, hr'⟩ := placedMagnitude_bounds
  obtain ⟨hcos, hcos'⟩ := cos_bounds
  have hone : partialDecay (1 : ℝ) 1 (1 / 2) 0.5 < 1 := by linarith
  have hhalf : (1 / 2 : ℝ) ≠ 0 := by norm_num
  have hright := loop_at_real (L := 1) (m := 0.5) one_pos examplePole_im hone hhalf 1
  have hleft := loop_at_real (L := 1) (m := 0.5) one_pos examplePole_im hone hhalf (-1)
  have hre : (value examplePole).re
      = placedMagnitude 1 (1 / 2) * Real.cos (placedAngle 1 (1 / 2)) :=
    congrArg Complex.re examplePole_eq
  have hnorm : Complex.normSq (value examplePole) = placedMagnitude 1 (1 / 2) ^ 2 := by
    have h := normSq_tunedPole ℂ 1 1 (1 / 2) (1 / 10)
    rw [omegaN_eq, ← examplePole_def] at h
    exact h
  have hshift : ∀ y : ℝ, Complex.normSq (y - value examplePole)
      = y ^ 2 - 2 * y * (value examplePole).re + placedMagnitude 1 (1 / 2) ^ 2 := by
    intro y
    rw [← hnorm, Complex.normSq_apply, Complex.normSq_apply, Complex.sub_re, Complex.sub_im,
      Complex.ofReal_re, Complex.ofReal_im]
    ring
  have hp : residualOf 1 1 (1 / 2) 0.5 examplePole * placedMagnitude 1 (1 / 2) ^ 2
      = proportionalGain 1 1 (1 / 2) 0.5 examplePole
        * (partialDecay 1 1 (1 / 2) 0.5 - partialDecay 1 1 (1 / 2) 0.5 ^ 2) := by
    rw [residualOf, hnorm, one_mul, fullDecay_eq]
    exact div_mul_cancel₀ _ (pow_pos (placedMagnitude_pos _ _) 2).ne'
  rw [hshift, hre, fullDecay_eq] at hright hleft
  refine residual_bounds hc hc' (x := placedMagnitude 1 (1 / 2)
      * Real.cos (placedAngle 1 (1 / 2))) ?_ ?_ ?_ ?_ hp
    (K := 1 / 2 * integralGain 1 1 (1 / 2) 0.5 examplePole) ?_ ?_
  · refine lt_trans ?_ (mul_lt_mul hr hcos (by norm_num) (by linarith))
    norm_num
  · refine (mul_lt_mul hr' hcos' (by linarith) (by norm_num)).trans ?_
    norm_num
  · refine lt_trans ?_ (pow_lt_pow_left₀ hr (by norm_num) two_ne_zero)
    norm_num
  · refine (pow_lt_pow_left₀ hr' (by linarith) two_ne_zero).trans ?_
    norm_num
  · linear_combination hright
  · linear_combination -hleft

theorem example_kp_pos : 0 < proportionalGain (1 : ℝ) 1 (1 / 2) 0.5 examplePole := by
  obtain ⟨hc, hc'⟩ := partialDecay_bounds
  have hdecays : 0 < partialDecay (1 : ℝ) 1 (1 / 2) 0.5 - fullDecay 1 1 (1 / 2) := by
    rw [fullDecay_eq, sq, ← mul_one_sub]
    exact mul_pos (by linarith) (by linarith)
  have hnorm : 0 < 1 * Complex.normSq (value examplePole) :=
    mul_pos one_pos (Complex.normSq_pos.mpr (ne_zero_of_im examplePole_im))
  have hp := example_residual.1
  rw [residualOf] at hp
  have hproduct := (div_pos_iff_of_pos_right hnorm).mp hp
  exact pos_of_mul_pos_left hproduct hdecays.le

/-- A winding of an ohm and a henry, sampled at two hertz, can be tuned. -/
theorem example_tunes : ∃ gains, tune ℂ (1 : ℝ) 1 (1 / 2) 0.5 (1 / 10) = .ok gains := by
  obtain ⟨hpos, hone, -⟩ := placedAngle_bounds
  obtain ⟨hr, hr'⟩ := placedMagnitude_bounds
  have hpi := Real.two_le_pi
  have hpole : placedPole ℂ (placedMagnitude 1 (1 / 2)) (placedAngle 1 (1 / 2))
      = examplePole := by
    rw [examplePole_def, tunedPole, omegaN_eq]
  have hp := example_residual.2
  have hresidual := tunedResidual_eq ℂ 1 1 (1 / 2) 0.5 (1 / 10)
  rw [tunedResidual, omegaN_eq, ← examplePole_def] at hresidual
  have hcube : (0.33 : ℝ) < placedMagnitude 1 (1 / 2) * placedMagnitude 1 (1 / 2)
      * placedMagnitude 1 (1 / 2) := by
    refine lt_trans ?_ (mul_lt_mul'' (mul_lt_mul'' hr hr (by norm_num) (by norm_num)) hr
      (by norm_num) (by norm_num))
    norm_num
  have hstable : ¬ (¬ (placedAngle (1 : ℝ) (1 / 2) > 0
      ∧ placedAngle (1 : ℝ) (1 / 2) < CircleConstants.PI)
      ∨ ¬ placedMagnitude (1 : ℝ) (1 / 2) < 1) := by
    rw [not_or, not_not, not_not]
    exact ⟨⟨hpos, hone.trans_le (one_le_two.trans hpi)⟩, by linarith⟩
  simp only [tune, omegaN_eq, hpole, hresidual]
  rw [if_neg hstable, if_neg (not_not.mpr example_kp_pos),
    if_neg (not_not.mpr (hp.trans hcube))]
  exact ⟨_, rfl⟩

/-- Its loop is stable. -/
theorem tuned_loop_example : ∃ gains, tune ℂ (1 : ℝ) 1 (1 / 2) 0.5 (1 / 10) = .ok gains ∧
    0 < gains.kp ∧ Inside (loopOf 1 1 (1 / 2) 0.5 gains) := by
  obtain ⟨gains, h⟩ := example_tunes
  obtain ⟨-, hkp, -, -, -, -, hstable⟩ :=
    tuned_loop ℂ one_pos one_pos (by norm_num) h
  exact ⟨gains, h, hkp, hstable⟩

end Example

end PiTuningProofs
