import Mathlib.Algebra.Order.Field.Basic
import Mathlib.Tactic.Linarith
import Mathlib.Tactic.LinearCombination
import Mathlib.Tactic.Ring

/-! # Damped oscillations

    A sequence whose every entry is the one before it, times `2 r c`, less the one before
    that, times `r` squared.  With the cosine of an angle for `c` it turns by that angle
    from entry to entry and shrinks by `r`.  Two entries in a row have an energy, which
    shrinks by the square of `r` exactly. -/

namespace DampedOscillation

section Recurrence

variable {K : Type} [CommRing K]

/-- The sequence turns by the angle whose cosine is `c`, and shrinks by `r`. -/
def Damped (c r : K) (e : Nat → K) : Prop :=
  ∀ n, e (n + 2) = (r * c + r * c) * e (n + 1) - r * r * e n

/-- The energy of two entries in a row. -/
def energy (c r later earlier : K) : K :=
  later * later - (r * c + r * c) * (later * earlier) + r * r * (earlier * earlier)

variable {c r : K} {e : Nat → K}

theorem damped_smul (h : Damped c r e) (a : K) : Damped c r fun n => a * e n := by
  intro n
  show a * e (n + 2) = _
  rw [h n]
  ring

/-- **ONE STEP** takes the square of `r` of the energy. -/
theorem energy_succ (h : Damped c r e) (n : Nat) :
    energy c r (e (n + 2)) (e (n + 1)) = r * r * energy c r (e (n + 1)) (e n) := by
  rw [energy, h n, energy]
  ring

/-- ... and many steps as many of them. -/
theorem energy_eq (h : Damped c r e) (n : Nat) :
    energy c r (e (n + 1)) (e n) = (r * r) ^ n * energy c r (e 1) (e 0) := by
  induction n with
  | zero => rw [pow_zero, one_mul]
  | succ n ih =>
      calc energy c r (e (n + 2)) (e (n + 1))
          = r * r * energy c r (e (n + 1)) (e n) := energy_succ h n
        _ = r * r * ((r * r) ^ n * energy c r (e 1) (e 0)) := by rw [ih]
        _ = (r * r) ^ (n + 1) * energy c r (e 1) (e 0) := by rw [pow_succ']; ring

end Recurrence

section Bounds

variable {K : Type} [Field K] [LinearOrder K] [IsStrictOrderedRing K]
variable {c r : K} {e : Nat → K}

/-- The energy has the square of its later entry, but for the share of the cosine. -/
theorem sq_le_energy (c r later earlier : K) :
    (1 - c * c) * (later * later) ≤ energy c r later earlier := by
  have hsquare : 0 ≤ (r * earlier - c * later) * (r * earlier - c * later) :=
    mul_self_nonneg _
  rw [energy]
  linarith

/-- **DECAY**: the entries of a damped oscillation shrink geometrically. -/
theorem sq_le (h : Damped c r e) (n : Nat) :
    (1 - c * c) * (e (n + 1) * e (n + 1)) ≤ (r * r) ^ n * energy c r (e 1) (e 0) := by
  rw [← energy_eq h n]
  exact sq_le_energy c r (e (n + 1)) (e n)

end Bounds

end DampedOscillation
