import Mathlib.Analysis.Complex.Basic
import Mathlib.Analysis.Complex.Norm
import Mathlib.Topology.Algebra.Polynomial
import Mathlib.Topology.Order.IntermediateValue
import Mathlib.Tactic.LinearCombination
import Mathlib.Tactic.Linarith
import Mathlib.Tactic.FieldSimp

/-! # Roots inside the unit circle

    When all the roots of a real polynomial of degree two or three lie strictly inside
    the unit circle.  A cubic has a real root, so it is a line times a quadratic, and
    Jury's conditions on its coefficients are conditions on the two factors. -/

namespace JuryCriterion

/-- All the roots lie strictly inside the unit circle. -/
def Inside (p : ℂ → ℂ) : Prop := ∀ z, p z = 0 → ‖z‖ < 1

theorem inside_mul {p q : ℂ → ℂ} :
    Inside (fun z => p z * q z) ↔ Inside p ∧ Inside q := by
  constructor
  · intro h
    exact ⟨fun z hz => h z (mul_eq_zero_of_left hz _),
      fun z hz => h z (mul_eq_zero_of_right _ hz)⟩
  · rintro ⟨hp, hq⟩ z hz
    rcases mul_eq_zero.mp hz with hz | hz
    · exact hp z hz
    · exact hq z hz

theorem inside_const_mul {a : ℂ} (ha : a ≠ 0) {p : ℂ → ℂ} :
    Inside (fun z => a * p z) ↔ Inside p := by
  rw [inside_mul (p := fun _ => a)]
  exact and_iff_right (fun _ hz => absurd hz ha)

theorem inside_sub {r : ℂ} : Inside (fun z => z - r) ↔ ‖r‖ < 1 := by
  constructor
  · intro h
    exact h r (sub_self r)
  · intro h z hz
    rw [sub_eq_zero.mp hz]
    exact h

/-! ## Quadratics -/

/-- `z² + b z + c` -/
def quadratic (b c : ℝ) (z : ℂ) : ℂ := z ^ 2 + b * z + c

/-- The conditions for a quadratic. -/
def QuadraticConditions (b c : ℝ) : Prop := |c| < 1 ∧ |b| < 1 + c

/-- Two real roots inside the circle. -/
theorem conditions_of_real {x y b c : ℝ} (hx : |x| < 1) (hy : |y| < 1) (hb : b = -(x + y))
    (hc : c = x * y) : QuadraticConditions b c := by
  rw [abs_lt] at hx hy
  subst hb hc
  refine ⟨abs_lt.mpr ⟨?_, ?_⟩, abs_lt.mpr ⟨?_, ?_⟩⟩
  · nlinarith
  · nlinarith
  · nlinarith
  · nlinarith

theorem conditions_of_inside {b c : ℝ} (h : Inside (quadratic b c)) :
    QuadraticConditions b c := by
  rcases le_or_gt 0 (b ^ 2 - 4 * c) with hreal | hcomplex
  · -- the two roots are real
    obtain ⟨s, hsq⟩ : ∃ s : ℝ, s ^ 2 = b ^ 2 - 4 * c := ⟨_, Real.sq_sqrt hreal⟩
    have hroot : ∀ s : ℝ, s ^ 2 = b ^ 2 - 4 * c → |(-b + s) / 2| < 1 := by
      intro s hs
      have hz := h (((-b + s) / 2 : ℝ) : ℂ) (by
        rw [quadratic]
        norm_cast
        linear_combination hs / 4)
      rwa [Complex.norm_real, Real.norm_eq_abs] at hz
    refine conditions_of_real (hroot s hsq) (hroot (-s) ?_) ?_ ?_
    · rw [neg_sq, hsq]
    · ring
    · linear_combination hsq / 4
  · -- the two roots are conjugate, and their product is the square of their norm
    have hpos : 0 ≤ 4 * c - b ^ 2 := by linarith
    obtain ⟨s, hsq⟩ : ∃ s : ℝ, s ^ 2 = 4 * c - b ^ 2 := ⟨_, Real.sq_sqrt hpos⟩
    have hz := h ⟨-b / 2, s / 2⟩ (by
      apply Complex.ext
      · simp only [quadratic, sq, Complex.add_re, Complex.mul_re, Complex.ofReal_re,
          Complex.ofReal_im, Complex.zero_re]
        linear_combination -hsq / 4
      · simp only [quadratic, sq, Complex.add_im, Complex.mul_im, Complex.ofReal_re,
          Complex.ofReal_im, Complex.zero_im]
        ring)
    have hnorm : ‖(⟨-b / 2, s / 2⟩ : ℂ)‖ ^ 2 = c := by
      rw [Complex.sq_norm, Complex.normSq_mk]
      linear_combination hsq / 4
    have hone : c < 1 := by
      rw [← hnorm]
      exact pow_lt_one₀ (norm_nonneg _) hz two_ne_zero
    have hc : 0 ≤ c := by
      rw [← hnorm]
      exact sq_nonneg _
    refine ⟨abs_lt.mpr ⟨by linarith, hone⟩, ?_⟩
    exact abs_lt_of_sq_lt_sq (by nlinarith) (by linarith)

theorem inside_of_conditions {b c : ℝ} (h : QuadraticConditions b c) :
    Inside (quadratic b c) := by
  obtain ⟨hc, hb⟩ := h
  rw [abs_lt] at hc hb
  rintro ⟨x, y⟩ hz
  have hre := congrArg Complex.re hz
  have him := congrArg Complex.im hz
  simp only [quadratic, sq, Complex.add_re, Complex.mul_re, Complex.ofReal_re,
    Complex.ofReal_im, Complex.zero_re] at hre
  simp only [quadratic, sq, Complex.add_im, Complex.mul_im, Complex.ofReal_re,
    Complex.ofReal_im, Complex.zero_im] at him
  have hsq : ‖(⟨x, y⟩ : ℂ)‖ ^ 2 = x * x + y * y := by
    rw [Complex.sq_norm, Complex.normSq_mk]
  refine lt_of_pow_lt_pow_left₀ 2 zero_le_one ?_
  rw [hsq, one_pow]
  by_cases hy : y = 0
  · -- a real root: neither end of the interval is between the two roots
    subst hy
    have hleft : x < 1 := by
      by_contra hge
      nlinarith [not_lt.mp hge]
    have hright : -1 < x := by
      by_contra hge
      nlinarith [not_lt.mp hge]
    nlinarith
  · have hb' : b = -2 * x := by
      have : y * (2 * x + b) = 0 := by linear_combination him
      rcases mul_eq_zero.mp this with h | h
      · exact absurd h hy
      · linarith
    subst hb'
    nlinarith

/-- **QUADRATICS**: both roots lie inside exactly under the conditions. -/
theorem quadratic_inside_iff {b c : ℝ} :
    Inside (quadratic b c) ↔ QuadraticConditions b c :=
  ⟨conditions_of_inside, inside_of_conditions⟩

/-! ## Cubics -/

/-- `a3 z³ + a2 z² + a1 z + a0` -/
def cubic (a0 a1 a2 a3 : ℝ) (z : ℂ) : ℂ := a3 * z ^ 3 + a2 * z ^ 2 + a1 * z + a0

/-- Jury's conditions. -/
def JuryConditions (a0 a1 a2 a3 : ℝ) : Prop :=
  0 < a3 + a2 + a1 + a0 ∧ -a3 + a2 - a1 + a0 < 0 ∧ |a0| < a3 ∧
    |a0 * a2 - a3 * a1| < |a0 * a0 - a3 * a3|

/-- Far from zero the leading term is larger than the others together. -/
theorem leading_dominates {a3 x : ℝ} (a0 a1 a2 : ℝ) (hx : 1 ≤ x)
    (hlarge : |a2| + |a1| + |a0| ≤ a3 * x) :
    |a2| * x ^ 2 + |a1| * x + |a0| ≤ a3 * x ^ 3 := by
  have hsq : x ≤ x ^ 2 := by nlinarith
  have hone : 1 ≤ x ^ 2 := hx.trans hsq
  calc |a2| * x ^ 2 + |a1| * x + |a0|
      ≤ |a2| * x ^ 2 + |a1| * x ^ 2 + |a0| * x ^ 2 := by
        have h1 := mul_le_mul_of_nonneg_left hsq (abs_nonneg a1)
        have h0 := mul_le_mul_of_nonneg_left hone (abs_nonneg a0)
        linarith
    _ = (|a2| + |a1| + |a0|) * x ^ 2 := by ring
    _ ≤ a3 * x * x ^ 2 := mul_le_mul_of_nonneg_right hlarge (sq_nonneg x)
    _ = a3 * x ^ 3 := by ring

/-- A cubic has a real root. -/
theorem exists_real_root {a3 : ℝ} (ha : 0 < a3) (a0 a1 a2 : ℝ) :
    ∃ r : ℝ, a3 * r ^ 3 + a2 * r ^ 2 + a1 * r + a0 = 0 := by
  obtain ⟨x, hx, hlarge⟩ : ∃ x : ℝ, 1 ≤ x ∧ |a2| + |a1| + |a0| ≤ a3 * x := by
    refine ⟨max 1 ((|a2| + |a1| + |a0|) / a3), le_max_left _ _, ?_⟩
    rw [← div_le_iff₀' ha]
    exact le_max_right _ _
  have hpos : 0 ≤ x := zero_le_one.trans hx
  have hleads := leading_dominates a0 a1 a2 hx hlarge
  -- the sign of each other term is not known, its size is
  have h2 : |a2 * x ^ 2| = |a2| * x ^ 2 := by rw [abs_mul, abs_of_nonneg (sq_nonneg x)]
  have h1 : |a1 * x| = |a1| * x := by rw [abs_mul, abs_of_nonneg hpos]
  have hright : 0 ≤ a3 * x ^ 3 + a2 * x ^ 2 + a1 * x + a0 := by
    have := neg_abs_le (a2 * x ^ 2)
    have := neg_abs_le (a1 * x)
    have := neg_abs_le a0
    linarith
  have hleft : a3 * (-x) ^ 3 + a2 * (-x) ^ 2 + a1 * (-x) + a0 ≤ 0 := by
    have := le_abs_self (a2 * x ^ 2)
    have := neg_abs_le (a1 * x)
    have := le_abs_self a0
    linarith
  have hcontinuous : Continuous fun r : ℝ => a3 * r ^ 3 + a2 * r ^ 2 + a1 * r + a0 := by
    fun_prop
  obtain ⟨r, -, hr⟩ := intermediate_value_Icc (neg_le_self hpos)
    hcontinuous.continuousOn ⟨hleft, hright⟩
  exact ⟨r, hr⟩

/-- A cubic is a line times a quadratic. -/
theorem exists_factors {a3 : ℝ} (ha : 0 < a3) (a0 a1 a2 : ℝ) :
    ∃ r b c : ℝ, a2 = a3 * (b - r) ∧ a1 = a3 * (c - r * b) ∧ a0 = -(a3 * (r * c)) := by
  obtain ⟨r, hr⟩ := exists_real_root ha a0 a1 a2
  refine ⟨r, a2 / a3 + r, a1 / a3 + r * (a2 / a3 + r), ?_, ?_, ?_⟩
  · field_simp
    ring
  · field_simp
    ring
  · field_simp
    linear_combination hr

theorem cubic_eq_factors (a3 r b c : ℝ) (z : ℂ) :
    cubic (-(a3 * (r * c))) (a3 * (c - r * b)) (a3 * (b - r)) a3 z
      = a3 * ((z - r) * quadratic b c z) := by
  rw [cubic, quadratic]
  push_cast
  ring

/-- The conditions of a cubic do not depend on its leading coefficient. -/
theorem jury_scale {a3 : ℝ} (ha : 0 < a3) (b0 b1 b2 : ℝ) :
    JuryConditions (a3 * b0) (a3 * b1) (a3 * b2) a3 ↔ JuryConditions b0 b1 b2 1 := by
  have hright : a3 + a3 * b2 + a3 * b1 + a3 * b0 = a3 * (1 + b2 + b1 + b0) := by ring
  have hleft : -a3 + a3 * b2 - a3 * b1 + a3 * b0 = a3 * (-1 + b2 - b1 + b0) := by ring
  have hlast : a3 * b0 * (a3 * b2) - a3 * (a3 * b1) = a3 * a3 * (b0 * b2 - 1 * b1) := by ring
  have hsquares : a3 * b0 * (a3 * b0) - a3 * a3 = a3 * a3 * (b0 * b0 - 1 * 1) := by ring
  have hnegative : ∀ x, a3 * x < 0 ↔ x < 0 := fun x =>
    ⟨fun h => Left.neg_of_mul_neg_right h ha.le, fun h => mul_neg_of_pos_of_neg ha h⟩
  have habs : |a3 * b0| < a3 ↔ |b0| < 1 := by
    rw [abs_mul, abs_of_pos ha, mul_lt_iff_lt_one_right ha]
  rw [JuryConditions, JuryConditions, hright, hleft, hlast, hsquares, habs,
    mul_pos_iff_of_pos_left ha, hnegative, abs_mul (a3 * a3), abs_mul (a3 * a3),
    mul_lt_mul_iff_right₀ (abs_pos.mpr (mul_pos ha ha).ne')]

/-- The last condition, with the sign of its right side known. -/
theorem last_condition_iff {r c : ℝ} (hrc : |r * c| < 1) (b : ℝ) :
    |-(r * c) * (b - r) - 1 * (c - r * b)| < |-(r * c) * -(r * c) - 1 * 1| ↔
      0 < (1 - c) * (1 + r * b + r ^ 2 * c) ∧
        0 < (1 + c) * (1 - r ^ 2 * c) - r * b * (1 - c) := by
  rw [abs_lt] at hrc
  have hneg : -(r * c) * -(r * c) - 1 * 1 ≤ 0 := by nlinarith
  rw [abs_of_nonpos hneg, abs_lt]
  constructor
  · rintro ⟨hlow, hhigh⟩
    exact ⟨by linarith, by linarith⟩
  · rintro ⟨hlow, hhigh⟩
    exact ⟨by linarith, by linarith⟩

/-- The line of the real root keeps away from the quadratic. -/
theorem line_quadratic_pos {r b c : ℝ} (hr : |r| < 1) (hb : |b| < 1 + c)
    (hrc : |r * c| < 1) : 0 < 1 + r * b + r ^ 2 * c := by
  rw [abs_lt] at hr hb hrc
  rcases le_total 0 r with h | h
  · have hline : 0 < (1 - r) * (1 - r * c) := mul_pos (by linarith) (by linarith)
    nlinarith
  · have hline : 0 < (1 + r) * (1 + r * c) := mul_pos (by linarith) (by linarith)
    nlinarith

/-- Under the conditions the real root is inside. -/
theorem line_of_jury {r b c : ℝ} (hright : 0 < (1 - r) * (1 + b + c))
    (hleft : 0 < (1 + r) * (1 - b + c)) (hrc : |r * c| < 1)
    (hlast : 0 < (1 - c) * (1 + r * b + r ^ 2 * c)) : |r| < 1 := by
  by_contra houtside
  have hr : 1 ≤ |r| := not_lt.mp houtside
  have hc : |c| < 1 := by
    rw [abs_mul] at hrc
    nlinarith [abs_nonneg c]
  rw [abs_lt] at hrc hc
  have hfactor : 0 < 1 + r * b + r ^ 2 * c :=
    pos_of_mul_pos_right hlast (by linarith)
  rcases le_abs.mp hr with hlarge | hlarge
  · -- to the right: the quadratic is negative at one, and then at the root's mirror
    have hone : 1 + b + c < 0 := neg_of_mul_pos_right hright (by linarith)
    have hmirror : (1 - r) * (1 - r * c) ≤ 0 :=
      mul_nonpos_of_nonpos_of_nonneg (by linarith) (by linarith)
    nlinarith
  · have hone : 1 - b + c < 0 := neg_of_mul_pos_right hleft (by linarith)
    have hmirror : (1 + r) * (1 + r * c) ≤ 0 :=
      mul_nonpos_of_nonpos_of_nonneg (by linarith) (by linarith)
    nlinarith

/-- With both factors inside the last condition holds on its other side too. -/
theorem other_side_pos {r b c : ℝ} (hr : |r| < 1) (hc : |c| < 1) (hb : |b| < 1 + c)
    (hrc : |r * c| < 1) : 0 < (1 + c) * (1 - r ^ 2 * c) - r * b * (1 - c) := by
  rw [abs_lt] at hr hc hb hrc
  have hplus : 0 < 1 + c := by linarith
  have hminus : 0 < 1 - c := by linarith
  rcases le_total 0 r with h | h
  · have hproduct : 0 < (1 + c) * ((1 - r) * (1 + r * c)) :=
      mul_pos hplus (mul_pos (by linarith) (by linarith))
    have hmiddle : r * b * (1 - c) ≤ r * (1 + c) * (1 - c) :=
      mul_le_mul_of_nonneg_right (mul_le_mul_of_nonneg_left hb.2.le h) hminus.le
    nlinarith
  · have hproduct : 0 < (1 + c) * ((1 + r) * (1 - r * c)) :=
      mul_pos hplus (mul_pos (by linarith) (by linarith))
    have hmiddle : r * b * (1 - c) ≤ -r * (1 + c) * (1 - c) := by
      refine mul_le_mul_of_nonneg_right ?_ hminus.le
      nlinarith
    nlinarith

/-- Jury's conditions, of the two factors of a cubic. -/
theorem jury_factors_iff (r b c : ℝ) :
    JuryConditions (-(r * c)) (c - r * b) (b - r) 1 ↔ |r| < 1 ∧ QuadraticConditions b c := by
  have hright : 1 + (b - r) + (c - r * b) + -(r * c) = (1 - r) * (1 + b + c) := by ring
  have hleft : -1 + (b - r) - (c - r * b) + -(r * c) = -((1 + r) * (1 - b + c)) := by ring
  rw [JuryConditions, QuadraticConditions, hright, hleft, abs_neg, neg_neg_iff_pos]
  constructor
  · rintro ⟨hright, hleft, hrc, hlast⟩
    obtain ⟨hlast, -⟩ := (last_condition_iff hrc b).mp hlast
    have hr := line_of_jury hright hleft hrc hlast
    have hr' := abs_lt.mp hr
    have hplus : 0 < 1 + b + c := pos_of_mul_pos_right hright (by linarith)
    have hminus : 0 < 1 - b + c := pos_of_mul_pos_right hleft (by linarith)
    have hb : |b| < 1 + c := abs_lt.mpr ⟨by linarith, by linarith⟩
    have hfactor := line_quadratic_pos hr hb hrc
    have hc : 0 < 1 - c := pos_of_mul_pos_left hlast hfactor.le
    exact ⟨hr, abs_lt.mpr ⟨by linarith, by linarith⟩, hb⟩
  · rintro ⟨hr, hc, hb⟩
    have hrc : |r * c| < 1 := by
      rw [abs_mul]
      exact mul_lt_one_of_nonneg_of_lt_one_left (abs_nonneg r) hr hc.le
    have hother := other_side_pos hr hc hb hrc
    have hfactor := line_quadratic_pos hr hb hrc
    have hr' := abs_lt.mp hr
    have hc' := abs_lt.mp hc
    have hb' := abs_lt.mp hb
    refine ⟨mul_pos (by linarith) (by linarith), mul_pos (by linarith) (by linarith), hrc, ?_⟩
    exact (last_condition_iff hrc b).mpr ⟨mul_pos (by linarith) hfactor, hother⟩

/-- **JURY'S CRITERION**: the conditions hold exactly when the leading coefficient is
    positive and all three roots lie inside. -/
theorem jury_iff (a0 a1 a2 a3 : ℝ) :
    JuryConditions a0 a1 a2 a3 ↔ 0 < a3 ∧ Inside (cubic a0 a1 a2 a3) := by
  by_cases ha : 0 < a3
  · obtain ⟨r, b, c, rfl, rfl, rfl⟩ := exists_factors ha a0 a1 a2
    have hscale : JuryConditions (-(a3 * (r * c))) (a3 * (c - r * b)) (a3 * (b - r)) a3
        ↔ JuryConditions (-(r * c)) (c - r * b) (b - r) 1 := by
      rw [← jury_scale ha, mul_neg]
    have hcubic : cubic (-(a3 * (r * c))) (a3 * (c - r * b)) (a3 * (b - r)) a3
        = fun z => (a3 : ℂ) * ((z - r) * quadratic b c z) :=
      funext (cubic_eq_factors a3 r b c)
    have hroot : ‖(r : ℂ)‖ = |r| := by
      rw [Complex.norm_real, Real.norm_eq_abs]
    rw [hscale, jury_factors_iff, hcubic, inside_const_mul (Complex.ofReal_ne_zero.mpr ha.ne'),
      inside_mul, inside_sub, hroot]
    -- both factors
    rw [and_iff_right ha]
    exact and_congr_right fun _ => quadratic_inside_iff.symm
  · constructor
    · rintro ⟨-, -, hpos, -⟩
      exact absurd ((abs_nonneg a0).trans_lt hpos) ha
    · rintro ⟨hpos, -⟩
      exact absurd hpos ha

/-! ## Conjugate roots -/

/-- The line of a root and the line of its conjugate. -/
theorem conj_factors (w z : ℂ) :
    (z - w) * (z - star w) = quadratic (-(2 * w.re)) (Complex.normSq w) z := by
  have hsum : w + star w = ((2 * w.re : ℝ) : ℂ) := Complex.add_conj w
  have hproduct : w * star w = (Complex.normSq w : ℂ) := Complex.mul_conj w
  rw [quadratic, Complex.ofReal_neg]
  linear_combination -z * hsum + hproduct

/-- **A COMPLEX PAIR**: with a root off the real line a cubic is the lines of the root,
    of its conjugate, and of the real root that its constant term leaves. -/
theorem cubic_eq_pair {a0 a1 a2 a3 : ℝ} (ha : a3 ≠ 0) {w : ℂ} (hw : w.im ≠ 0)
    (hroot : cubic a0 a1 a2 a3 w = 0) (z : ℂ) :
    cubic a0 a1 a2 a3 z
      = a3 * ((z - w) * (z - star w)) * (z - ((-a0 / (a3 * Complex.normSq w) : ℝ) : ℂ)) := by
  have hnorm : Complex.normSq w ≠ 0 := by
    intro hzero
    rw [Complex.normSq_eq_zero.mp hzero] at hw
    exact hw rfl
  have hre := congrArg Complex.re hroot
  have him := congrArg Complex.im hroot
  simp only [cubic, pow_succ, pow_zero, one_mul, Complex.add_re, Complex.add_im,
    Complex.mul_re, Complex.mul_im, Complex.ofReal_re, Complex.ofReal_im, Complex.zero_re,
    Complex.zero_im] at hre him
  have hsq : Complex.normSq w = w.re * w.re + w.im * w.im := Complex.normSq_apply w
  -- the imaginary part gives one coefficient, the real part another
  have h1 : a1 = a3 * (Complex.normSq w - 4 * w.re ^ 2) - 2 * a2 * w.re := by
    refine mul_left_cancel₀ hw ?_
    rw [hsq]
    linear_combination him
  have h0 : a0 = Complex.normSq w * (2 * a3 * w.re + a2) := by
    rw [h1] at hre
    rw [hsq] at hre ⊢
    linear_combination hre
  have hp : -a0 / (a3 * Complex.normSq w) = -(2 * w.re + a2 / a3) := by
    rw [h0]
    field_simp
  rw [conj_factors, hp, cubic, quadratic, h0, h1]
  have ha' : (a3 : ℂ) ≠ 0 := Complex.ofReal_ne_zero.mpr ha
  push_cast
  field_simp
  ring

end JuryCriterion
