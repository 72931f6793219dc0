import Mathlib.Analysis.Normed.Module.Basic
import Mathlib.Tactic.Positivity
import Mathlib.Tactic.FieldSimp
import Mathlib.Tactic.Linarith

/-! # Iterating for a direction

    A unknown vector is a magnitude times a unit direction, and a function of a guessed
    direction comes closer to it than the guess was.  Taking the direction of what the
    function gives as the next guess then converges, from any first guess, and so does
    the magnitude. -/

namespace NormalizedIteration

variable {E : Type} [NormedAddCommGroup E] [NormedSpace ℝ E]

/-- The direction of a vector, the old one where it has none. -/
noncomputable def direction (old x : E) : E := if 0 < ‖x‖ then ‖x‖⁻¹ • x else old

/-- The next guess. -/
noncomputable def next (f : E → E) (w : E) : E := direction w (f w)

variable {f : E → E} {w target : E} {magnitude rate : ℝ}

theorem norm_direction (old : E) {x : E} (hx : 0 < ‖x‖) : ‖direction old x‖ = 1 := by
  rw [direction, if_pos hx, norm_smul, norm_inv, norm_norm, inv_mul_cancel₀ hx.ne']

/-- The direction is off by no more than twice what the vector is off by. -/
theorem direction_sub_le (old : E) {x : E} (hx : 0 < ‖x‖) (htarget : ‖target‖ = 1)
    (hmagnitude : 0 < magnitude) :
    ‖direction old x - target‖ ≤ 2 / magnitude * ‖x - magnitude • target‖ := by
  have hnorm : |magnitude - ‖x‖| ≤ ‖x - magnitude • target‖ := by
    have h := abs_norm_sub_norm_le (magnitude • target) x
    rw [norm_smul, htarget, mul_one, Real.norm_of_nonneg hmagnitude.le,
      norm_sub_rev (magnitude • target)] at h
    exact h
  have hsplit : direction old x - target
      = magnitude⁻¹ • (x - magnitude • target)
        + ((magnitude - ‖x‖) * (magnitude⁻¹ * ‖x‖⁻¹)) • x := by
    rw [direction, if_pos hx, smul_sub, smul_smul, inv_mul_cancel₀ hmagnitude.ne', one_smul]
    have hcoefficient : (magnitude - ‖x‖) * (magnitude⁻¹ * ‖x‖⁻¹) = ‖x‖⁻¹ - magnitude⁻¹ := by
      field_simp
    rw [hcoefficient, sub_smul]
    abel
  have hfirst : ‖magnitude⁻¹ • (x - magnitude • target)‖
      = magnitude⁻¹ * ‖x - magnitude • target‖ := by
    rw [norm_smul, norm_inv, Real.norm_of_nonneg hmagnitude.le]
  have hsecond : ‖((magnitude - ‖x‖) * (magnitude⁻¹ * ‖x‖⁻¹)) • x‖
      = magnitude⁻¹ * |magnitude - ‖x‖| := by
    rw [norm_smul, norm_mul, norm_mul, norm_inv, norm_inv, norm_norm,
      Real.norm_of_nonneg hmagnitude.le, Real.norm_eq_abs, mul_assoc, mul_assoc,
      inv_mul_cancel₀ hx.ne', mul_one, mul_comm]
  calc ‖direction old x - target‖
      ≤ magnitude⁻¹ * ‖x - magnitude • target‖ + magnitude⁻¹ * |magnitude - ‖x‖| := by
        rw [hsplit, ← hfirst, ← hsecond]
        exact norm_add_le _ _
    _ ≤ magnitude⁻¹ * ‖x - magnitude • target‖
        + magnitude⁻¹ * ‖x - magnitude • target‖ := by gcongr
    _ = 2 / magnitude * ‖x - magnitude • target‖ := by ring

/-- The function of a direction comes this much closer to the vector. -/
def Approaches (f : E → E) (target : E) (magnitude rate : ℝ) : Prop :=
  ∀ w, ‖w‖ = 1 → ‖f w - magnitude • target‖ ≤ rate * ‖w - target‖

omit [NormedSpace ℝ E] in
theorem norm_sub_le_two (hw : ‖w‖ = 1) (htarget : ‖target‖ = 1) : ‖w - target‖ ≤ 2 := by
  have h := norm_sub_le w target
  rw [hw, htarget] at h
  linarith

/-- A function that approaches fast enough is not zero at any direction. -/
theorem norm_pos_of_approaches (h : Approaches f target magnitude rate)
    (htarget : ‖target‖ = 1) (hrate : 0 ≤ rate) (hfast : 2 * rate < magnitude)
    (hw : ‖w‖ = 1) : 0 < ‖f w‖ := by
  have hclose := h w hw
  have htwo := norm_sub_le_two hw htarget
  have hsize : ‖magnitude • target‖ ≤ ‖f w‖ + ‖f w - magnitude • target‖ := by
    have h := norm_sub_le (f w) (f w - magnitude • target)
    rw [sub_sub_cancel] at h
    exact h
  rw [norm_smul, htarget, mul_one, Real.norm_of_nonneg (by linarith)] at hsize
  have hmul := mul_le_mul_of_nonneg_left htwo hrate
  linarith

/-- **CONTRACTION**: the guess comes closer by the same factor in every turn. -/
theorem iterate_next (h : Approaches f target magnitude rate) (htarget : ‖target‖ = 1)
    (hrate : 0 ≤ rate) (hfast : 2 * rate < magnitude) (hw : ‖w‖ = 1) (n : Nat) :
    ‖(next f)^[n] w‖ = 1 ∧
      ‖(next f)^[n] w - target‖ ≤ (2 * rate / magnitude) ^ n * ‖w - target‖ := by
  have hmagnitude : 0 < magnitude := by linarith
  induction n with
  | zero =>
      refine ⟨hw, ?_⟩
      rw [pow_zero, one_mul]
      exact le_refl _
  | succ n ih =>
      obtain ⟨hnorm, hclose⟩ := ih
      have hpos := norm_pos_of_approaches h htarget hrate hfast hnorm
      rw [Function.iterate_succ_apply']
      refine ⟨norm_direction _ hpos, ?_⟩
      calc ‖next f ((next f)^[n] w) - target‖
          ≤ 2 / magnitude * ‖f ((next f)^[n] w) - magnitude • target‖ :=
            direction_sub_le _ hpos htarget hmagnitude
        _ ≤ 2 / magnitude * (rate * ‖(next f)^[n] w - target‖) := by
            gcongr
            exact h _ hnorm
        _ ≤ 2 / magnitude * (rate * ((2 * rate / magnitude) ^ n * ‖w - target‖)) := by
            gcongr
        _ = (2 * rate / magnitude) ^ (n + 1) * ‖w - target‖ := by ring

/-- ... and so does the magnitude. -/
theorem abs_norm_sub_le (h : Approaches f target magnitude rate) (htarget : ‖target‖ = 1)
    (hrate : 0 ≤ rate) (hfast : 2 * rate < magnitude) (hw : ‖w‖ = 1) (n : Nat) :
    |‖f ((next f)^[n] w)‖ - magnitude| ≤ 2 * rate * (2 * rate / magnitude) ^ n := by
  obtain ⟨hnorm, hclose⟩ := iterate_next h htarget hrate hfast hw n
  have hmagnitude : 0 < magnitude := by linarith
  have hsize : ‖magnitude • target‖ = magnitude := by
    rw [norm_smul, htarget, mul_one, Real.norm_of_nonneg hmagnitude.le]
  have htwo := norm_sub_le_two hw htarget
  calc |‖f ((next f)^[n] w)‖ - magnitude|
      ≤ ‖f ((next f)^[n] w) - magnitude • target‖ := by
        have hdiff := abs_norm_sub_norm_le (f ((next f)^[n] w)) (magnitude • target)
        rw [hsize] at hdiff
        exact hdiff
    _ ≤ rate * ‖(next f)^[n] w - target‖ := h _ hnorm
    _ ≤ rate * ((2 * rate / magnitude) ^ n * 2) := by
        gcongr
        exact hclose.trans (by gcongr)
    _ = 2 * rate * (2 * rate / magnitude) ^ n := by ring

end NormalizedIteration
