import Stm32Foc.ModulationProofs
import Mathlib.Analysis.SpecialFunctions.Complex.Arg
import Mathlib.Analysis.SpecialFunctions.Log.Basic

/-! # Exact arithmetic

    The reals, with the functions and the accelerator of the source as what they stand
    for.  Its constants keep the digits that it gives them. -/

namespace FieldOriented

open ModulationProofs

noncomputable instance : Sqrt3 ℝ := sqrt3Digits

/-- The digits of the source are sound for the reals. -/
instance : SoundSqrt3 ℝ where
  reciprocal_pos := by norm_num [Sqrt3.sqrt3Reciprocal]
  reciprocal_sq := by norm_num [Sqrt3.sqrt3Reciprocal]
  half_pos := by norm_num [Sqrt3.sqrt3Half]
  half_sq := by norm_num [Sqrt3.sqrt3Half]

/-- `libm`, in exact arithmetic. -/
noncomputable instance : Libm ℝ where
  isFinite _ := true
  expf := Real.exp
  logf := Real.log
  sinf := Real.sin
  cosf := Real.cos
  sqrtf := Real.sqrt

/-- An accelerator without rounding. -/
structure ExactAccelerator where

noncomputable instance : DoesFocMath ExactAccelerator ℝ where
  sinCos accelerator theta := (⟨Real.sin theta, Real.cos theta⟩, accelerator)
  sqrt accelerator x := (Real.sqrt x, accelerator)
  atan2 accelerator y x := (Complex.arg ⟨x, y⟩, accelerator)

end FieldOriented
