import Mathlib
import Stm32Foc.MotorEstimation
import Stm32Foc.NormalizedIteration
import Stm32Foc.RealArithmetic

/-! # The flux of the magnets

    A rotor that is dragged leads the commanded angle by an unknown load angle.  The
    solver takes the flux of the stator apart into that of the inductances and that of
    the magnets, and finds the load angle with it.  In the plane of complex numbers one
    iteration is `NormalizedIteration.next`, and the guess of a direction changes the
    flux of the inductances by no more than the saliency. -/

namespace MagnetFlux

open FieldOriented Commission NormalizedIteration

/-- The square root and the check for a number, in exact arithmetic. -/
noncomputable instance : FloatOps ℝ where
  isFinite _ := true
  sqrtf := Real.sqrt

/-- A value of the rotating frame as a complex number. -/
def toComplex (value : ClarkParkValue ℝ) : ℂ := ⟨value.d, value.q⟩

/-- The flux of the inductances at a current, were the magnets in the direction `w`. -/
noncomputable def inductorFlux (lAvg lDiff : ℝ) (w i : ℂ) : ℂ :=
  lAvg * i + lDiff * (w * w * starRingEnd ℂ i)

/-! ## The motor -/

/-- A motor that turns with a constant load angle: its inductances, the flux of its
    magnets, and their direction in the frame of the controller. -/
structure Motor where
  dInductance : ℝ
  qInductance : ℝ
  pmFlux : ℝ
  magnets : ℂ
  magnets_unit : ‖magnets‖ = 1

namespace Motor

variable (motor : Motor)

/-- The flux of the stator at a current: both axes of the rotor carry the current by
    their own inductance, the direct one carries the magnets too. -/
noncomputable def flux (i : ℂ) : ℂ :=
  let rotorI := starRingEnd ℂ motor.magnets * i
  motor.magnets * ⟨motor.dInductance * rotorI.re + motor.pmFlux,
    motor.qInductance * rotorI.im⟩

noncomputable def lAvg : ℝ := 0.5 * (motor.dInductance + motor.qInductance)

noncomputable def lDiff : ℝ := 0.5 * (motor.dInductance - motor.qInductance)

theorem magnets_mul_conj : motor.magnets * starRingEnd ℂ motor.magnets = 1 := by
  rw [Complex.mul_conj, Complex.normSq_eq_norm_sq, motor.magnets_unit]
  norm_num

/-- **FLUX**: the part of the inductances, and the magnets. -/
theorem flux_eq (i : ℂ) :
    motor.flux i = inductorFlux motor.lAvg motor.lDiff motor.magnets i
      + motor.pmFlux * motor.magnets := by
  have hrotor : ∀ z : ℂ, (⟨motor.dInductance * z.re + motor.pmFlux,
      motor.qInductance * z.im⟩ : ℂ)
        = motor.lAvg * z + motor.lDiff * starRingEnd ℂ z + motor.pmFlux := by
    intro z
    refine Complex.ext ?_ ?_ <;> simp [lAvg, lDiff] <;> ring
  have hunit := motor.magnets_mul_conj
  rw [flux, hrotor, map_mul, Complex.conj_conj, inductorFlux]
  linear_combination (motor.lAvg * i : ℂ) * hunit

end Motor

/-! ## The solver -/

/-- The direction that a solver takes the magnets to have. -/
def guess (solver : PmFluxSolver ℝ) : ℂ := ⟨solver.cos, solver.sin⟩

/-- The flux that is left for the magnets, if they have the direction `w`. -/
noncomputable def rest (solver : PmFluxSolver ℝ) (w : ℂ) : ℂ :=
  toComplex solver.lambda
    - inductorFlux solver.lAvg solver.lDiff w (toComplex solver.i)

/-- What an iteration finds for the magnets. -/
theorem rest_guess (solver : PmFluxSolver ℝ) :
    rest solver (guess solver)
      = ⟨solver.lambda.d - (solver.lAvg * solver.i.d
          + solver.lDiff * ((solver.cos * solver.cos - solver.sin * solver.sin) * solver.i.d
            + 2.0 * solver.sin * solver.cos * solver.i.q)),
        solver.lambda.q - (solver.lAvg * solver.i.q
          + solver.lDiff * (2.0 * solver.sin * solver.cos * solver.i.d
            - (solver.cos * solver.cos - solver.sin * solver.sin) * solver.i.q))⟩ := by
  have htwo : (2.0 : ℝ) = 1 + 1 := by norm_num
  rw [htwo]
  refine Complex.ext ?_ ?_
  · simp only [rest, guess, toComplex, inductorFlux, Complex.sub_re, Complex.add_re,
      Complex.mul_re, Complex.mul_im, Complex.ofReal_re, Complex.ofReal_im, Complex.conj_re,
      Complex.conj_im]
    ring
  · simp only [rest, guess, toComplex, inductorFlux, Complex.sub_im, Complex.add_im,
      Complex.mul_re, Complex.mul_im, Complex.ofReal_re, Complex.ofReal_im, Complex.conj_re,
      Complex.conj_im]
    ring

/-- One iteration: the solver keeps its data, and guesses again. -/
theorem iterate_spec (solver : PmFluxSolver ℝ) :
    rest solver.iterate = rest solver ∧
      guess solver.iterate = next (rest solver) (guess solver) ∧
      solver.iterate.pmFlux = ‖rest solver (guess solver)‖ := by
  have hnorm : ∀ x y : ℝ, FloatOps.sqrtf (x * x + y * y) = ‖(⟨x, y⟩ : ℂ)‖ := by
    intro x y
    rw [Complex.norm_eq_sqrt_sq_add_sq, sq, sq]
    rfl
  have hscale : ∀ r x y : ℝ, r⁻¹ • (⟨x, y⟩ : ℂ) = ⟨x / r, y / r⟩ := by
    intro r x y
    refine Complex.ext ?_ ?_
    · rw [Complex.smul_re, smul_eq_mul]
      exact (div_eq_inv_mul x r).symm
    · rw [Complex.smul_im, smul_eq_mul]
      exact (div_eq_inv_mul y r).symm
  rw [next, direction, rest_guess]
  simp only [PmFluxSolver.iterate, hnorm, hscale]
  split_ifs with hpos
  · exact ⟨rfl, rfl, rfl⟩
  · exact ⟨rfl, rfl, rfl⟩

/-- The guesses of a solver are those of `NormalizedIteration`. -/
theorem iterate_iterate (solver : PmFluxSolver ℝ) (n : Nat) :
    rest (PmFluxSolver.iterate^[n] solver) = rest solver ∧
      guess (PmFluxSolver.iterate^[n] solver)
        = (next (rest solver))^[n] (guess solver) := by
  induction n with
  | zero => exact ⟨rfl, rfl⟩
  | succ n ih =>
      obtain ⟨hrest, hguess⟩ := ih
      obtain ⟨hrest', hguess', -⟩ := iterate_spec (PmFluxSolver.iterate^[n] solver)
      rw [Function.iterate_succ_apply', Function.iterate_succ_apply']
      exact ⟨hrest'.trans hrest, by rw [hguess', hrest, hguess]⟩

theorem pmFlux_iterate (solver : PmFluxSolver ℝ) (n : Nat) :
    (PmFluxSolver.iterate^[n + 1] solver).pmFlux
      = ‖rest solver ((next (rest solver))^[n] (guess solver))‖ := by
  obtain ⟨hrest, hguess⟩ := iterate_iterate solver n
  rw [Function.iterate_succ_apply', (iterate_spec _).2.2, hrest, hguess]

/-- Guessing a direction wrong changes the flux of the inductances by no more than the
    saliency allows. -/
theorem inductorFlux_sub_le (lAvg lDiff : ℝ) {w w' : ℂ} (hw : ‖w‖ = 1) (hw' : ‖w'‖ = 1)
    (i : ℂ) :
    ‖inductorFlux lAvg lDiff w' i - inductorFlux lAvg lDiff w i‖
      ≤ 2 * (|lDiff| * ‖i‖) * ‖w - w'‖ := by
  have hsplit : inductorFlux lAvg lDiff w' i - inductorFlux lAvg lDiff w i
      = lDiff * ((w' - w) * (w' + w) * starRingEnd ℂ i) := by
    rw [inductorFlux, inductorFlux]
    ring
  have hsum : ‖w' + w‖ ≤ 2 := by
    have h := norm_add_le w' w
    rw [hw, hw'] at h
    linarith
  rw [hsplit, norm_mul, norm_mul, norm_mul, Complex.norm_real, Real.norm_eq_abs,
    RCLike.norm_conj, norm_sub_rev w w']
  calc |lDiff| * (‖w' - w‖ * ‖w' + w‖ * ‖i‖)
      ≤ |lDiff| * (‖w' - w‖ * 2 * ‖i‖) := by gcongr
    _ = 2 * (|lDiff| * ‖i‖) * ‖w' - w‖ := by ring

/-- The solver has the flux of the motor at its mean current. -/
structure Solves (motor : Motor) (solver : PmFluxSolver ℝ) : Prop where
  lambda : toComplex solver.lambda = motor.flux (toComplex solver.i)
  lAvg : solver.lAvg = motor.lAvg
  lDiff : solver.lDiff = motor.lDiff

theorem approaches_of_solves {motor : Motor} {solver : PmFluxSolver ℝ}
    (h : Solves motor solver) :
    Approaches (rest solver) motor.magnets motor.pmFlux
      (2 * (|motor.lDiff| * ‖toComplex solver.i‖)) := by
  intro w hw
  have hoff : rest solver w - motor.pmFlux • motor.magnets
      = inductorFlux motor.lAvg motor.lDiff motor.magnets (toComplex solver.i)
        - inductorFlux motor.lAvg motor.lDiff w (toComplex solver.i) := by
    rw [rest, h.lambda, h.lAvg, h.lDiff, motor.flux_eq, Complex.real_smul]
    ring
  rw [hoff]
  exact inductorFlux_sub_le _ _ hw motor.magnets_unit _

end MagnetFlux
