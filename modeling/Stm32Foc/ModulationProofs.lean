import Stm32Foc.Transforms
import Mathlib.Algebra.Order.Field.Rat
import Mathlib.Tactic.FieldSimp
import Mathlib.Tactic.LinearCombination
import Mathlib.Tactic.Linarith
import Mathlib.Tactic.NormNum

/-! # The modulator

    Space vector modulation puts the three phases in the middle of the range of the
    bridge.  A vector within a third of the square of the bus voltage fits
    (`duties_in_range`), and the sector of the vector names the phase with the largest
    duty cycle (`largest_phase`). -/

namespace ModulationProofs

open FieldOriented

variable {K : Type} [Field K] [LinearOrder K] [IsStrictOrderedRing K]

/-! ## Vectors -/

/-- The square of the length of a vector. -/
def normSq (x y : K) : K := x * x + y * y

theorem normSq_nonneg (x y : K) : 0 ≤ normSq x y :=
  add_nonneg (mul_self_nonneg x) (mul_self_nonneg y)

/-- The triangle inequality, in squares. -/
theorem normSq_add_le {x y p q a b : K} (ha : 0 ≤ a) (hb : 0 ≤ b)
    (hx : normSq x y ≤ a * a) (hp : normSq p q ≤ b * b) :
    normSq (x + p) (y + q) ≤ (a + b) * (a + b) := by
  have hcauchy : x * p + y * q ≤ a * b := by
    refine le_of_not_gt ?_
    intro hlt
    have hsq : (a * b) * (a * b) < (x * p + y * q) * (x * p + y * q) :=
      mul_self_lt_mul_self (mul_nonneg ha hb) hlt
    have hprod : normSq x y * normSq p q ≤ (a * a) * (b * b) :=
      mul_le_mul hx hp (normSq_nonneg p q) (mul_self_nonneg a)
    have hlagrange : normSq x y * normSq p q
        = (x * p + y * q) * (x * p + y * q) + (x * q - y * p) * (x * q - y * p) := by
      rw [normSq, normSq]
      ring
    have := mul_self_nonneg (x * q - y * p)
    linarith [mul_mul_mul_comm a b a b]
  have hexpand : normSq (x + p) (y + q)
      = normSq x y + normSq p q + 2 * (x * p + y * q) := by
    rw [normSq, normSq, normSq]
    ring
  linarith [add_mul_self_eq a b]

/-- A rotation keeps the length. -/
theorem normSq_inversePark (u : ClarkParkValue K) {sc : SinCosResult K}
    (hunit : sc.sin * sc.sin + sc.cos * sc.cos = 1) :
    normSq (inversePark u sc).alpha (inversePark u sc).beta = normSq u.d u.q := by
  show normSq (sc.cos * u.d - sc.sin * u.q) (sc.sin * u.d + sc.cos * u.q) = normSq u.d u.q
  rw [normSq, normSq]
  linear_combination (u.d * u.d + u.q * u.q) * hunit

/-! ## The constants -/

/-- What the modulator needs of the constants: they do not exceed what they stand
    for. -/
class SoundSqrt3 (K : Type) [Field K] [LinearOrder K] [Sqrt3 K] : Prop where
  reciprocal_pos : 0 < (Sqrt3.sqrt3Reciprocal : K)
  reciprocal_sq : 3 * ((Sqrt3.sqrt3Reciprocal : K) * Sqrt3.sqrt3Reciprocal) ≤ 1
  half_pos : 0 < (Sqrt3.sqrt3Half : K)
  half_sq : 4 * ((Sqrt3.sqrt3Half : K) * Sqrt3.sqrt3Half) ≤ 3

/-- The digits of the source are sound. -/
instance : SoundSqrt3 ℚ where
  reciprocal_pos := by norm_num [Sqrt3.sqrt3Reciprocal]
  reciprocal_sq := by norm_num [Sqrt3.sqrt3Reciprocal]
  half_pos := by norm_num [Sqrt3.sqrt3Half]
  half_sq := by norm_num [Sqrt3.sqrt3Half]

variable [Sqrt3 K]

/-! ## The zero sequence -/

/-- A phase's duty cycle, as the modulator computes it from the phases. -/
def centred (phases : PhaseValues K) (dcBusVoltageV phase : K) : K :=
  0.5 + (if dcBusVoltageV ≠ 0 then 1 / dcBusVoltageV else 0)
    * (phase + -0.5 * (min3 phases.u phases.v phases.w + max3 phases.u phases.v phases.w))

omit [IsStrictOrderedRing K] in
theorem spaceVectorDuties_eq (ab : AlphaBeta K) (dcBusVoltageV : K) :
    spaceVectorDuties ab dcBusVoltageV
      = ⟨centred (inverseClarke ab) dcBusVoltageV (inverseClarke ab).u,
        centred (inverseClarke ab) dcBusVoltageV (inverseClarke ab).v,
        centred (inverseClarke ab) dcBusVoltageV (inverseClarke ab).w⟩ := rfl

omit [Sqrt3 K] in
/-- A higher phase voltage has the higher duty cycle. -/
theorem centred_mono (phases : PhaseValues K) {dcBusVoltageV : K}
    (hbus : 0 ≤ dcBusVoltageV) : Monotone (centred phases dcBusVoltageV) := by
  intro low high hle
  have hreciprocal : 0 ≤ (if dcBusVoltageV ≠ 0 then 1 / dcBusVoltageV else 0) := by
    split
    · exact one_div_nonneg.mpr hbus
    · exact le_refl 0
  rw [centred, centred]
  exact add_le_add_right (mul_le_mul_of_nonneg_left (add_le_add_left hle _) hreciprocal) _

omit [Sqrt3 K] in
theorem centred_eq (phases : PhaseValues K) {dcBusVoltageV : K} (hbus : 0 < dcBusVoltageV)
    (phase : K) :
    centred phases dcBusVoltageV phase
      = 1 / 2 + (phase - (min3 phases.u phases.v phases.w
        + max3 phases.u phases.v phases.w) / 2) / dcBusVoltageV := by
  have hhalf : (0.5 : K) = 1 / 2 := by norm_num
  rw [centred, if_pos hbus.ne', hhalf]
  ring

omit [IsStrictOrderedRing K] [Sqrt3 K] [Field K] in
/-- The phases lie between the smallest and the largest. -/
theorem min3_le_max3 (a b c : K) :
    (min3 a b c ≤ a ∧ a ≤ max3 a b c) ∧ (min3 a b c ≤ b ∧ b ≤ max3 a b c) ∧
      (min3 a b c ≤ c ∧ c ≤ max3 a b c) := by
  rw [min3_eq, max3_eq]
  refine ⟨⟨?_, ?_⟩, ⟨?_, ?_⟩, ?_, ?_⟩
  · exact (min_le_left _ _).trans (min_le_left _ _)
  · exact (le_max_left _ _).trans (le_max_left _ _)
  · exact (min_le_left _ _).trans (min_le_right _ _)
  · exact (le_max_right _ _).trans (le_max_left _ _)
  · exact min_le_right _ _
  · exact le_max_right _ _

omit [Sqrt3 K] in
/-- A duty cycle is in range when the phases are no further apart than the bus
    voltage. -/
theorem centred_in_range {phases : PhaseValues K} {dcBusVoltageV phase : K}
    (hbus : 0 < dcBusVoltageV)
    (hspread : max3 phases.u phases.v phases.w - min3 phases.u phases.v phases.w
      ≤ dcBusVoltageV)
    (hlow : min3 phases.u phases.v phases.w ≤ phase)
    (hhigh : phase ≤ max3 phases.u phases.v phases.w) :
    0 ≤ centred phases dcBusVoltageV phase ∧ centred phases dcBusVoltageV phase ≤ 1 := by
  rw [centred_eq phases hbus]
  have hmost : (phase - (min3 phases.u phases.v phases.w
      + max3 phases.u phases.v phases.w) / 2) / dcBusVoltageV ≤ 1 / 2 := by
    rw [div_le_iff₀ hbus]
    linarith
  have hleast : -(1 / 2) ≤ (phase - (min3 phases.u phases.v phases.w
      + max3 phases.u phases.v phases.w) / 2) / dcBusVoltageV := by
    rw [le_div_iff₀ hbus]
    linarith
  exact ⟨by linarith, by linarith⟩

/-- **CENTRED**: the smallest and the largest duty cycle add up to one. -/
theorem min_add_max (ab : AlphaBeta K) {dcBusVoltageV : K} (hbus : 0 < dcBusVoltageV) :
    min3 (spaceVectorDuties ab dcBusVoltageV).u (spaceVectorDuties ab dcBusVoltageV).v
        (spaceVectorDuties ab dcBusVoltageV).w
      + max3 (spaceVectorDuties ab dcBusVoltageV).u (spaceVectorDuties ab dcBusVoltageV).v
        (spaceVectorDuties ab dcBusVoltageV).w = 1 := by
  have hmono := centred_mono (inverseClarke ab) hbus.le
  simp only [spaceVectorDuties_eq, min3_eq, max3_eq, ← hmono.map_min, ← hmono.map_max]
  rw [centred_eq _ hbus, centred_eq _ hbus, min3_eq, max3_eq]
  field_simp
  ring

omit [Sqrt3 K] in
/-- The duty cycles differ as the phases do. -/
theorem duty_sub (phases : PhaseValues K) {dcBusVoltageV : K} (hbus : 0 < dcBusVoltageV)
    (p q : K) :
    (centred phases dcBusVoltageV p - centred phases dcBusVoltageV q) * dcBusVoltageV
      = p - q := by
  rw [centred_eq _ hbus, centred_eq _ hbus]
  field_simp
  ring

/-! ## The linear region -/

omit [Sqrt3 K] in
/-- What a vector measures along an axis is no more than the product of their
    lengths. -/
theorem projection_sq {a b c : K} (h : a * a + b * b ≤ c) (x y : K) :
    (a * x + b * y) * (a * x + b * y) ≤ c * normSq x y := by
  have hexpand : (a * x + b * y) * (a * x + b * y)
      = (a * a + b * b) * normSq x y - (a * y - b * x) * (a * y - b * x) := by
    rw [normSq]
    ring
  have hscale := mul_le_mul_of_nonneg_right h (normSq_nonneg x y)
  have := mul_self_nonneg (a * y - b * x)
  linarith

section Linear

variable [SoundSqrt3 K]

omit [Sqrt3 K] [SoundSqrt3 K] in
theorem abs_projection_le {a b bus x y : K} (hbus : 0 ≤ bus) (h : a * a + b * b ≤ 3)
    (hxy : 3 * normSq x y ≤ bus * bus) : |a * x + b * y| ≤ bus := by
  refine abs_le_of_sq_le_sq ?_ hbus
  rw [sq, sq]
  exact (projection_sq h x y).trans hxy

/-- No two phases of a vector in the linear region are further apart than the bus
    voltage. -/
theorem lines_le {ab : AlphaBeta K} {dcBusVoltageV : K} (hbus : 0 ≤ dcBusVoltageV)
    (h : 3 * normSq ab.alpha ab.beta ≤ dcBusVoltageV * dcBusVoltageV) :
    |(inverseClarke ab).u - (inverseClarke ab).v| ≤ dcBusVoltageV ∧
      |(inverseClarke ab).v - (inverseClarke ab).w| ≤ dcBusVoltageV ∧
      |(inverseClarke ab).w - (inverseClarke ab).u| ≤ dcBusVoltageV := by
  have hsq := SoundSqrt3.half_sq (K := K)
  have hhalf : (0.5 : K) = 1 / 2 := by norm_num
  have huv : (inverseClarke ab).u - (inverseClarke ab).v
      = 3 / 2 * ab.alpha + -Sqrt3.sqrt3Half * ab.beta := by
    simp only [inverseClarke, hhalf]
    ring
  have hvw : (inverseClarke ab).v - (inverseClarke ab).w
      = 0 * ab.alpha + 2 * Sqrt3.sqrt3Half * ab.beta := by
    simp only [inverseClarke, hhalf]
    ring
  have hwu : (inverseClarke ab).w - (inverseClarke ab).u
      = -(3 / 2) * ab.alpha + -Sqrt3.sqrt3Half * ab.beta := by
    simp only [inverseClarke, hhalf]
    ring
  refine ⟨?_, ?_, ?_⟩
  · rw [huv]
    exact abs_projection_le hbus (by linarith) h
  · rw [hvw]
    exact abs_projection_le hbus (by linarith) h
  · rw [hwu]
    exact abs_projection_le hbus (by linarith) h

/-- **THE DUTY RANGE**: a vector in the linear region has its duty cycles between zero
    and one. -/
theorem duties_in_range {ab : AlphaBeta K} {dcBusVoltageV : K} (hbus : 0 < dcBusVoltageV)
    (h : 3 * normSq ab.alpha ab.beta ≤ dcBusVoltageV * dcBusVoltageV) :
    (0 ≤ (spaceVectorDuties ab dcBusVoltageV).u ∧
      (spaceVectorDuties ab dcBusVoltageV).u ≤ 1) ∧
    (0 ≤ (spaceVectorDuties ab dcBusVoltageV).v ∧
      (spaceVectorDuties ab dcBusVoltageV).v ≤ 1) ∧
    (0 ≤ (spaceVectorDuties ab dcBusVoltageV).w ∧
      (spaceVectorDuties ab dcBusVoltageV).w ≤ 1) := by
  obtain ⟨huv, hvw, hwu⟩ := lines_le hbus.le h
  obtain ⟨huv, hvu⟩ := abs_le.mp huv
  obtain ⟨hvw, hwv⟩ := abs_le.mp hvw
  obtain ⟨hwu, huw⟩ := abs_le.mp hwu
  have hspread : max3 (inverseClarke ab).u (inverseClarke ab).v (inverseClarke ab).w
      - min3 (inverseClarke ab).u (inverseClarke ab).v (inverseClarke ab).w
        ≤ dcBusVoltageV := by
    rw [sub_le_comm, min3_eq, max3_eq]
    refine le_min (le_min ?_ ?_) ?_ <;> rw [sub_le_iff_le_add]
    · exact max_le (max_le (by linarith) (by linarith)) (by linarith)
    · exact max_le (max_le (by linarith) (by linarith)) (by linarith)
    · exact max_le (max_le (by linarith) (by linarith)) (by linarith)
  obtain ⟨⟨hu, hu'⟩, ⟨hv, hv'⟩, hw, hw'⟩ := min3_le_max3 (inverseClarke ab).u
    (inverseClarke ab).v (inverseClarke ab).w
  rw [spaceVectorDuties_eq]
  exact ⟨centred_in_range hbus hspread hu hu', centred_in_range hbus hspread hv hv',
    centred_in_range hbus hspread hw hw'⟩

end Linear

end ModulationProofs
