import Stm32Foc.FocTypes
import Mathlib.Algebra.Order.Floor.Ring
import Mathlib.Data.Rat.Cast.OfScientific
import Mathlib.Tactic.Linarith
import Mathlib.Tactic.Positivity
import Mathlib.Tactic.Ring

/-! # Angles and their wrapping

    The functions that bring an angle back to one turn, and what they are good for:
    each changes an angle by whole turns only (`SameAngle`), and lands in its
    range. -/

namespace FieldOriented

variable {K : Type} [Field K] [LinearOrder K]

/-- `clamp` -/
def clamp (x lo hi : K) : K := if x < lo then lo else if x > hi then hi else x

omit [Field K] in
/-- A clamped value is within the bounds. -/
theorem clamp_mem {lo hi : K} (h : lo ≤ hi) (x : K) :
    lo ≤ clamp x lo hi ∧ clamp x lo hi ≤ hi := by
  rw [clamp]
  by_cases hlow : x < lo
  · rw [if_pos hlow]
    exact ⟨le_refl lo, h⟩
  · rw [if_neg hlow]
    by_cases hhigh : x > hi
    · rw [if_pos hhigh]
      exact ⟨h, le_refl hi⟩
    · rw [if_neg hhigh]
      exact ⟨not_lt.mp hlow, not_lt.mp hhigh⟩

omit [Field K] in
/-- What is within the bounds is not changed by the clamp. -/
theorem clamp_eq_self {x lo hi : K} (hlow : lo ≤ x) (hhigh : x ≤ hi) :
    clamp x lo hi = x := by
  rw [clamp, if_neg (not_lt.mpr hlow), if_neg (not_lt.mpr hhigh)]

/-! ## Wrapping -/

section Wrapping

variable [FloorRing K]

/-- `x as i32`: towards zero, and saturating. -/
def truncToI32 (x : K) : Int :=
  max (-2147483648) (min (if 0 ≤ x then ⌊x⌋ else ⌈x⌉) 2147483647)

/-- `wrap_to_pi`, of an angle within one turn of the range. -/
def wrapToPi (angleRad : K) : K :=
  let turns := angleRad * (1 / tau)
  let nearest := truncToI32 (turns + if turns ≥ 0 then 0.5 else -0.5)
  angleRad - tau * (nearest : K)

/-- `wrapped_diff` -/
def wrappedDiff (a b : K) : K := wrapToPi (a - b)

/-- `wrap_to_2pi` -/
def wrapTo2pi (angleRad : K) : K :=
  angleRad - tau * (⌊angleRad * (1 / tau)⌋ : K)

end Wrapping

/-- The angles differ by whole turns. -/
def SameAngle (a b : K) : Prop := ∃ turns : Int, a = b + tau * (turns : K)

omit [LinearOrder K] in
theorem SameAngle.trans {a b c : K} (h : SameAngle a b) (h' : SameAngle b c) :
    SameAngle a c := by
  obtain ⟨m, rfl⟩ := h
  obtain ⟨n, rfl⟩ := h'
  exact ⟨n + m, by push_cast; ring⟩

omit [LinearOrder K] in
theorem SameAngle.sub {a b a' b' : K} (h : SameAngle a b) (h' : SameAngle a' b') :
    SameAngle (a - a') (b - b') := by
  obtain ⟨m, rfl⟩ := h
  obtain ⟨n, rfl⟩ := h'
  refine ⟨m - n, ?_⟩
  push_cast
  ring

/-! ## What wrapping does -/

variable [IsStrictOrderedRing K]

/-- An angle in `(-TAU, 2*TAU)` is wrapped into one turn. -/
theorem wrapInRangeTo2pi_spec {angleRad : K} (hlo : -tau < angleRad)
    (hhi : angleRad < 2 * tau) :
    (0 ≤ wrapInRangeTo2pi angleRad ∧ wrapInRangeTo2pi angleRad < tau) ∧
      SameAngle (wrapInRangeTo2pi angleRad) angleRad := by
  have htau := tau_pos (K := K)
  rw [wrapInRangeTo2pi]
  by_cases hneg : angleRad < 0
  · rw [if_pos hneg, if_neg (by linarith)]
    exact ⟨⟨by linarith, by linarith⟩, 1, by push_cast; ring⟩
  · rw [if_neg hneg]
    by_cases hbig : angleRad ≥ tau
    · rw [if_pos hbig]
      exact ⟨⟨by linarith, by linarith⟩, -1, by push_cast; ring⟩
    · rw [if_neg hbig]
      exact ⟨⟨not_lt.mp hneg, not_le.mp hbig⟩, 0, by push_cast; ring⟩

/-- Within half a turn an angle is found in one turn only. -/
theorem eq_of_sameAngle {a b : K} (ha : |a| ≤ pi) (hb : |b| < pi) (h : SameAngle a b) :
    a = b := by
  obtain ⟨turns, rfl⟩ := h
  have htau : (tau : K) = 2 * pi := rfl
  have hpos := tau_pos (K := K)
  have hless : |tau * (turns : K)| < tau := by
    have hsplit : tau * (turns : K) = (b + tau * (turns : K)) - b := by ring
    rw [hsplit]
    refine (abs_sub _ _).trans_lt ?_
    linarith
  rw [abs_mul, abs_of_pos hpos] at hless
  have hone : |(turns : K)| < 1 := by
    refine lt_of_mul_lt_mul_left ?_ hpos.le
    rw [mul_one]
    exact hless
  have hzero : turns = 0 := by
    rw [← Int.cast_abs, ← Int.cast_one, Int.cast_lt] at hone
    exact Int.abs_lt_one_iff.mp hone
  rw [hzero, Int.cast_zero, mul_zero, add_zero]

section Wrapping

variable [FloorRing K]

omit [IsStrictOrderedRing K] in
/-- A wrapped angle is the angle. -/
theorem sameAngle_wrapToPi (angleRad : K) :
    SameAngle (wrapToPi angleRad) angleRad := by
  refine ⟨-truncToI32 (angleRad * (1 / tau) + if angleRad * (1 / tau) ≥ 0 then 0.5 else -0.5),
    ?_⟩
  rw [wrapToPi]
  push_cast
  ring

/-- The saturation of the cast does not show on a few turns. -/
theorem truncToI32_few {x : K} (h : |x| ≤ 4) :
    truncToI32 x = if 0 ≤ x then ⌊x⌋ else ⌈x⌉ := by
  obtain ⟨hlow, hhigh⟩ := abs_le.mp h
  rw [truncToI32]
  by_cases hpos : 0 ≤ x
  · have hfloor : 0 ≤ ⌊x⌋ := Int.floor_nonneg.mpr hpos
    have hfew : ⌊x⌋ ≤ 4 := by
      rw [← Int.cast_le (R := K)]
      exact (Int.floor_le x).trans (by push_cast; exact hhigh)
    rw [if_pos hpos]
    omega
  · have hceil : ⌈x⌉ ≤ 0 := Int.ceil_le.mpr (by push_cast; exact (not_le.mp hpos).le)
    have hfew : -4 ≤ ⌈x⌉ := by
      rw [← Int.cast_le (R := K)]
      exact le_trans (by push_cast; exact hlow) (Int.le_ceil x)
    rw [if_neg hpos]
    omega

/-- Three turns at most are wrapped to half a turn at most. -/
theorem abs_wrapToPi_le {angleRad : K} (h : |angleRad| ≤ 3 * tau) :
    |wrapToPi angleRad| ≤ pi := by
  have htau := tau_pos (K := K)
  have hpi : (tau : K) = 2 * pi := rfl
  obtain ⟨turns, hturns⟩ : ∃ turns, turns = angleRad * (1 / tau) := ⟨_, rfl⟩
  have hangle : angleRad = tau * turns := by
    rw [hturns]
    field_simp
  have hfew : |turns| ≤ 3 := by
    rw [hangle, abs_mul, abs_of_pos htau, mul_comm] at h
    exact le_of_mul_le_mul_right h htau
  obtain ⟨hlow, hhigh⟩ := abs_le.mp hfew
  have hhalf : (0.5 : K) = 1 / 2 := by norm_num
  -- the whole turns nearest are not more than half a turn away
  have hnear : |turns - (truncToI32 (turns + if turns ≥ 0 then 0.5 else -0.5) : K)|
      ≤ 1 / 2 := by
    by_cases hpos : turns ≥ 0
    · rw [if_pos hpos, hhalf, truncToI32_few (abs_le.mpr ⟨by linarith, by linarith⟩),
        if_pos (by linarith)]
      have hbelow := Int.floor_le (turns + 1 / 2)
      have habove := Int.lt_floor_add_one (turns + 1 / 2)
      exact abs_le.mpr ⟨by linarith, by linarith⟩
    · rw [if_neg hpos, hhalf, truncToI32_few (abs_le.mpr ⟨by linarith, by linarith⟩),
        if_neg (by linarith)]
      have habove := Int.le_ceil (turns + -(1 / 2))
      have hbelow := Int.ceil_lt_add_one (turns + -(1 / 2))
      exact abs_le.mpr ⟨by linarith, by linarith⟩
  rw [wrapToPi, ← hturns]
  rw [hangle, ← mul_sub, abs_mul, abs_of_pos htau]
  calc tau * |turns - (truncToI32 (turns + if turns ≥ 0 then 0.5 else -0.5) : K)|
      ≤ tau * (1 / 2) := mul_le_mul_of_nonneg_left hnear htau.le
    _ = pi := by rw [hpi]; ring

/-- An angle is wrapped into one turn. -/
theorem wrapTo2pi_spec (angleRad : K) :
    (0 ≤ wrapTo2pi angleRad ∧ wrapTo2pi angleRad < tau) ∧
      SameAngle (wrapTo2pi angleRad) angleRad := by
  have htau := tau_pos (K := K)
  have hcancel : angleRad * (1 / tau) * tau = angleRad := by
    field_simp
  have hlow := mul_le_mul_of_nonneg_right (Int.floor_le (angleRad * (1 / tau))) htau.le
  have hhigh := mul_lt_mul_of_pos_right (Int.lt_floor_add_one (angleRad * (1 / tau))) htau
  rw [hcancel] at hlow hhigh
  rw [wrapTo2pi]
  refine ⟨⟨by linarith, by linarith⟩, -⌊angleRad * (1 / tau)⌋, by push_cast; ring⟩

end Wrapping

end FieldOriented
