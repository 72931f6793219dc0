import Stm32Foc.DampedOscillation
import Stm32Foc.Foc
import Stm32Foc.RealArithmetic
import Stm32Foc.StreamRun
import Mathlib.Analysis.Real.Pi.Bounds

/-! # The notch filter

    What `BiquadNotchFilter::new` is for: a constant passes it, and a sinusoid of its own
    frequency does not, from whatever state the filter is in.  What is left of the state
    is a damped oscillation, of the radius of the poles. -/

namespace NotchProofs

open FieldOriented Saliency CurrentControl StreamRun DampedOscillation

variable {K : Type} [Field K] [LinearOrder K] [IsStrictOrderedRing K] [Libm K]

/-! ## A filter along a stream -/

/-- The filter after a number of measurements. -/
def filterAt (notch : BiquadNotchFilter K) (measurements : Nat → K) :
    Nat → BiquadNotchFilter K :=
  after (fun notch measurement => (notch.update measurement).2) notch measurements

/-- What it makes of a measurement. -/
def outputAt (notch : BiquadNotchFilter K) (measurements : Nat → K) (n : Nat) : K :=
  ((filterAt notch measurements n).update (measurements n)).1

/-- The coefficients of a filter, without its state. -/
def coefficients (notch : BiquadNotchFilter K) : K × K × K × K :=
  (notch.b0, notch.b1, notch.a1, notch.a2)

omit [LinearOrder K] [IsStrictOrderedRing K] [Libm K] in
/-- No measurement changes the coefficients. -/
theorem coefficients_filterAt (notch : BiquadNotchFilter K) (measurements : Nat → K)
    (n : Nat) : coefficients (filterAt notch measurements n) = coefficients notch := by
  induction n with
  | zero => rfl
  | succ n ih => exact ih

omit [LinearOrder K] [IsStrictOrderedRing K] [Libm K] in
/-- **THE RECURRENCE**: an output is made of the last three measurements and of the two
    outputs before it. -/
theorem outputAt_add_two (notch : BiquadNotchFilter K) (x : Nat → K) (n : Nat) :
    outputAt notch x (n + 2)
      = notch.b0 * x (n + 2) + notch.b1 * x (n + 1) + notch.b0 * x n
        - notch.a1 * outputAt notch x (n + 1) - notch.a2 * outputAt notch x n := by
  have hcoefficients : ∀ m, (filterAt notch x m).b0 = notch.b0 ∧
      (filterAt notch x m).b1 = notch.b1 ∧ (filterAt notch x m).a1 = notch.a1 ∧
      (filterAt notch x m).a2 = notch.a2 := by
    intro m
    have h := coefficients_filterAt notch x m
    simp only [coefficients, Prod.mk.injEq] at h
    exact h
  have hs1 : ∀ m, (filterAt notch x (m + 1)).s1
      = notch.b1 * x m - notch.a1 * outputAt notch x m + (filterAt notch x m).s2 := by
    intro m
    obtain ⟨-, hb1, ha1, -⟩ := hcoefficients m
    rw [← hb1, ← ha1]
    rfl
  have hs2 : ∀ m, (filterAt notch x (m + 1)).s2
      = notch.b0 * x m - notch.a2 * outputAt notch x m := by
    intro m
    obtain ⟨hb0, -, -, ha2⟩ := hcoefficients m
    rw [← hb0, ← ha2]
    rfl
  have hout : outputAt notch x (n + 2)
      = notch.b0 * x (n + 2) + (filterAt notch x (n + 2)).s1 := by
    rw [← (hcoefficients (n + 2)).1]
    rfl
  rw [hout, hs1 (n + 1), hs2 n]
  ring

/-! ## A filter of the source -/

section Notch

variable (sampleRateHz notchHz bandwidthHz : K)

/-- The cosine of the angle from sample to sample, at the frequency of the notch. -/
def notchCosine : K := Libm.cosf (tau * notchHz / sampleRateHz)

/-- The radius of the poles. -/
def poleRadius : K := clamp (1 - pi * bandwidthHz / sampleRateHz) 0 0.9999

omit [Libm K] in
theorem poleRadius_range :
    0 ≤ poleRadius sampleRateHz bandwidthHz ∧
      poleRadius sampleRateHz bandwidthHz ≤ (0.9999 : K) := by
  refine clamp_mem ?_ _
  norm_num

/-- The measurements are a level, and a sinusoid that turns from one to the next by the
    angle whose cosine is `c`. -/
def OnNotch (c level : K) (measurements : Nat → K) : Prop :=
  Damped c 1 fun n => measurements n - level

variable {sampleRateHz notchHz bandwidthHz}

/-- **THE ERROR** of the output is a damped oscillation. -/
theorem damped_error {notch : BiquadNotchFilter K} {x : Nat → K} {level : K}
    (hnotch : coefficients notch
      = coefficients (notchFilter sampleRateHz notchHz bandwidthHz))
    (hc : notchCosine sampleRateHz notchHz ≠ 1)
    (hx : OnNotch (notchCosine sampleRateHz notchHz) level x) :
    Damped (notchCosine sampleRateHz notchHz) (poleRadius sampleRateHz bandwidthHz)
      fun n => outputAt notch x n - level := by
  set c := notchCosine sampleRateHz notchHz with hcdef
  set r := poleRadius sampleRateHz bandwidthHz with hrdef
  have htwo : (2.0 : K) = 2 := by norm_num
  have hgap : (2 : K) - 2 * c ≠ 0 := by
    intro h
    refine hc ?_
    linarith
  -- the gain is such that a level passes
  obtain ⟨gain, hgain, hb0, hb1, ha1, ha2⟩ : ∃ gain : K,
      gain * (2 - 2 * c) = 1 - 2 * r * c + r * r ∧ notch.b0 = gain ∧
      notch.b1 = -2 * gain * c ∧ notch.a1 = -2 * r * c ∧ notch.a2 = r * r := by
    simp only [coefficients, Prod.mk.injEq] at hnotch
    obtain ⟨h0, h1, h2, h3⟩ := hnotch
    refine ⟨_, ?_, h0, ?_, ?_, h3⟩
    · show (1 + -2.0 * r * c + r * r) / (2.0 - 2.0 * c) * (2 - 2 * c) = _
      rw [htwo, div_mul_cancel₀ _ hgap]
      ring
    · rw [h1]
      show -2.0 * (notchFilter sampleRateHz notchHz bandwidthHz).b0 * c = _
      rw [htwo]
    · rw [h2]
      show -2.0 * r * c = _
      rw [htwo]
  intro n
  have hw : x (n + 2) - level
      = (1 * c + 1 * c) * (x (n + 1) - level) - 1 * 1 * (x n - level) := hx n
  show outputAt notch x (n + 2) - level = _
  rw [outputAt_add_two, hb0, hb1, ha1, ha2]
  linear_combination gain * hw + level * hgain

/-- **THE NOTCH**: from whatever state the filter is in, a level passes it and a sinusoid
    of the frequency of the notch does not: what the output is off by shrinks
    geometrically. -/
theorem notch_settles {notch : BiquadNotchFilter K} {x : Nat → K} {level : K}
    (hnotch : coefficients notch
      = coefficients (notchFilter sampleRateHz notchHz bandwidthHz))
    (hc : |notchCosine sampleRateHz notchHz| < 1)
    (hx : OnNotch (notchCosine sampleRateHz notchHz) level x) :
    let c := notchCosine sampleRateHz notchHz
    let r := poleRadius sampleRateHz bandwidthHz
    let error := fun n => outputAt notch x n - level
    0 ≤ r ∧ r ≤ 0.9999 ∧ 0 < 1 - c * c ∧
      ∀ n, (1 - c * c) * (error (n + 1) * error (n + 1))
        ≤ (r * r) ^ n * energy c r (error 1) (error 0) := by
  intro c r error
  obtain ⟨hlow, hhigh⟩ := poleRadius_range sampleRateHz bandwidthHz
  have hsquare : c * c < 1 := by
    rw [← sq]
    exact (sq_lt_one_iff_abs_lt_one c).mpr hc
  refine ⟨hlow, hhigh, sub_pos.mpr hsquare, ?_⟩
  intro n
  exact sq_le (damped_error hnotch (abs_lt.mp hc).2.ne hx) n

end Notch

/-! ## Sinusoids -/

/-- In exact arithmetic such measurements are a level and a sinusoid of any amplitude and
    phase. -/
theorem onNotch_sinusoid (sampleRateHz notchHz level amplitude phase : ℝ) :
    OnNotch (notchCosine sampleRateHz notchHz) level fun n =>
      level + amplitude * Real.sin (n * (tau * notchHz / sampleRateHz) + phase) := by
  have hsine : Damped (Real.cos (tau * notchHz / sampleRateHz)) 1 fun n : Nat =>
      Real.sin (n * (tau * notchHz / sampleRateHz) + phase) := by
    intro n
    set theta : ℝ := tau * notchHz / sampleRateHz
    have hnext : ((n + 2 : ℕ) : ℝ) * theta + phase
        = (((n + 1 : ℕ) : ℝ) * theta + phase) + theta := by
      push_cast
      ring
    have hlast : (n : ℝ) * theta + phase
        = (((n + 1 : ℕ) : ℝ) * theta + phase) - theta := by
      push_cast
      ring
    show Real.sin _ = _ * Real.sin _ - _ * Real.sin _
    rw [hnext, hlast, Real.sin_add, Real.sin_sub]
    ring
  intro n
  have h := damped_smul hsine amplitude n
  show level + _ - level = _ * (level + _ - level) - _ * (level + _ - level)
  rw [add_sub_cancel_left, add_sub_cancel_left, add_sub_cancel_left]
  exact h

/-- The notch of the low speed estimator, at twice the frequency of the injection. -/
theorem notch_settles_secondHarmonic :
    let notch : BiquadNotchFilter ℝ := notchFilter 40000 8000 800
    let c := notchCosine (40000 : ℝ) 8000
    let r := poleRadius (40000 : ℝ) 800
    let error := fun n : Nat => outputAt notch
      (fun n => 3 + 1 * Real.sin (n * (tau * 8000 / 40000) + 0)) n - 3
    0 ≤ r ∧ r ≤ 0.9999 ∧ 0 < 1 - c * c ∧
      ∀ n, (1 - c * c) * (error (n + 1) * error (n + 1))
        ≤ (r * r) ^ n * energy c r (error 1) (error 0) := by
  refine notch_settles rfl ?_ (onNotch_sinusoid 40000 8000 3 1 0)
  have hpos : 0 < (tau * 8000 / 40000 : ℝ) := by
    rw [tau, FieldOriented.pi]
    norm_num
  have hlt : (tau * 8000 / 40000 : ℝ) < Real.pi := by
    refine lt_trans ?_ Real.pi_gt_three
    rw [tau, FieldOriented.pi]
    norm_num
  have hsin := Real.sin_pos_of_pos_of_lt_pi hpos hlt
  rw [← sq_lt_one_iff_abs_lt_one]
  show Real.cos (tau * 8000 / 40000) ^ 2 < 1
  rw [Real.cos_sq']
  exact sub_lt_self 1 (pow_pos hsin 2)

end NotchProofs
