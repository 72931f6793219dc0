import Stm32Foc.Angles

/-! # Clarke, Park and the space vector

    The transforms between the phases of the motor and its rotating frame, the sector
    of the voltage hexagon, and the duty cycles of space vector modulation. -/

namespace FieldOriented

/-- The functions of `libm`, and `f32::is_finite`. -/
class Libm (K : Type) where
  isFinite : K → Bool
  expf : K → K
  logf : K → K
  sinf : K → K
  cosf : K → K
  sqrtf : K → K

/-- The constants of the source that stand for the root of three, its half and, in
    `FOC::compute`, its reciprocal. -/
class Sqrt3 (K : Type) where
  /-- `SQRT3` -/
  sqrt3 : K
  /-- `SQRT3_2` -/
  sqrt3Half : K
  /-- `SQRT3_RECIPROCAL` -/
  sqrt3Reciprocal : K

/-- The digits that the source gives the constants. -/
@[reducible] def sqrt3Digits {K : Type} [Field K] : Sqrt3 K where
  sqrt3 := 1.73205080757
  sqrt3Half := 0.86602540378
  sqrt3Reciprocal := 1 / 1.73205080757

instance : Sqrt3 ℚ := sqrt3Digits

section Minimum

variable {K : Type} [LinearOrder K]

def min2 (a b : K) : K := if a < b then a else b

def max2 (a b : K) : K := if a > b then a else b

def min3 (a b c : K) : K :=
  let m := if a < b then a else b
  if m < c then m else c

def max3 (a b c : K) : K :=
  let m := if a > b then a else b
  if m > c then m else c

theorem min2_eq (a b : K) : min2 a b = min a b := by
  rw [min2]
  split
  · rename_i h
    exact (min_eq_left h.le).symm
  · rename_i h
    exact (min_eq_right (not_lt.mp h)).symm

theorem max2_eq (a b : K) : max2 a b = max a b := by
  rw [max2]
  split
  · rename_i h
    exact (max_eq_left (le_of_lt h)).symm
  · rename_i h
    exact (max_eq_right (not_lt.mp h)).symm

theorem min3_eq (a b c : K) : min3 a b c = min (min a b) c :=
  (min2_eq (min2 a b) c).trans (by rw [min2_eq])

theorem max3_eq (a b c : K) : max3 a b c = max (max a b) c :=
  (max2_eq (max2 a b) c).trans (by rw [max2_eq])

end Minimum

variable {K : Type} [Field K]

/-! ## Transforms -/

/-- `forward_clarke`, with a root of three of its own. -/
def forwardClarke (vals : PhaseValues K) : AlphaBeta K where
  alpha := 0.666667 * (vals.u - 0.5 * (vals.v + vals.w))
  beta := 0.57735026919 * (vals.v - vals.w)

/-- `forward_park` -/
def forwardPark (vals : AlphaBeta K) (sc : SinCosResult K) : ClarkParkValue K where
  d := sc.cos * vals.alpha + sc.sin * vals.beta
  q := sc.cos * vals.beta - sc.sin * vals.alpha

/-- `forward_clark_park` -/
def forwardClarkPark (vals : PhaseValues K) (sc : SinCosResult K) :
    AlphaBeta K × ClarkParkValue K :=
  let ab := forwardClarke vals
  (ab, forwardPark ab sc)

/-- `inverse_park` -/
def inversePark (vals : ClarkParkValue K) (sc : SinCosResult K) : AlphaBeta K where
  alpha := sc.cos * vals.d - sc.sin * vals.q
  beta := sc.sin * vals.d + sc.cos * vals.q

/-- `inverse_clarke` -/
def inverseClarke [Sqrt3 K] (ab : AlphaBeta K) : PhaseValues K where
  u := ab.alpha
  v := -0.5 * ab.alpha + Sqrt3.sqrt3Half * ab.beta
  w := -0.5 * ab.alpha - Sqrt3.sqrt3Half * ab.beta

variable [LinearOrder K] [Sqrt3 K]

/-- `voltage_sector`: three comparisons, read as a code of three bits. -/
def voltageSector (ab : AlphaBeta K) : UInt8 :=
  let compare1 := decide (ab.beta > 0)
  let compare2 := decide (ab.beta > Sqrt3.sqrt3 * ab.alpha)
  let compare3 := decide (ab.beta > -Sqrt3.sqrt3 * ab.alpha)
  match compare1, compare2, compare3 with
  | true, false, true => 0
  | true, true, true => 1
  | true, true, false => 2
  | false, true, false => 3
  | false, false, false => 4
  | false, false, true => 5
  | _, _, _ => 0

/-- The duty cycles of a voltage vector: the zero sequence centres the phases. -/
def spaceVectorDuties (uAb : AlphaBeta K) (dcBusVoltageV : K) : PhaseValues K :=
  let vTgt := inverseClarke uAb
  let v0Tgt :=
    -0.5 * (min3 vTgt.u vTgt.v vTgt.w + max3 vTgt.u vTgt.v vTgt.w)
  let busReciprocal := if dcBusVoltageV ≠ 0 then 1 / dcBusVoltageV else 0
  { u := 0.5 + busReciprocal * (vTgt.u + v0Tgt)
    v := 0.5 + busReciprocal * (vTgt.v + v0Tgt)
    w := 0.5 + busReciprocal * (vTgt.w + v0Tgt) }

end FieldOriented
