import Stm32Foc.EstimationProofs
import Stm32Foc.StreamRun
import Mathlib.Data.Rat.Floor

/-! # The measured resistance

    At standstill the voltage is a line in the current, with the resistance as its slope
    and the deadtime as its offset.  Each accumulator is the samples that its blocks took
    (`levels_eq`), so both means are on the line, and the solve gives back its slope and
    its offset (`estRSolve_line`). -/

namespace ResistanceProofs

open FieldOriented Calibration Commission EstimationProofs StreamRun

variable {K : Type} [Field K]

/-! ## A line through two means -/

/-- The mean of the voltage is on the line, both relative to the bus. -/
structure OnLine (resistance deadtimeRatio : K) (mean : Mean K) : Prop where
  sums : mean.ySum = resistance * mean.xSum + 4 / 3 * deadtimeRatio * (mean.numData : K)

/-- What a measurement obeys: the phases drop the resistive voltage and the deadtime. -/
structure Obeys [LinearOrder K] (resistance deadtimeRatio : K) (data : FocResult K) :
    Prop where
  bus : 0 < data.dcBusVoltageV
  law : data.uDq.d / data.dcBusVoltageV
    = resistance * data.measuredIDq.d / data.dcBusVoltageV + 4 / 3 * deadtimeRatio

variable {resistance deadtimeRatio : K}

theorem onLine_new : OnLine resistance deadtimeRatio .new := by
  constructor
  simp [Mean.new]

theorem onLine_sampled [LinearOrder K] {data : FocResult K} {mean : Mean K}
    (hdata : Obeys resistance deadtimeRatio data)
    (h : OnLine resistance deadtimeRatio mean) :
    OnLine resistance deadtimeRatio (sampled data mean) := by
  have hlaw := hdata.law
  constructor
  simp only [sampled, Mean.accumulate, Nat.cast_add, Nat.cast_one]
  rw [h.sums, ← div_eq_mul_one_div, ← div_eq_mul_one_div, hlaw]
  ring

/-- On the line the means are too. -/
theorem onLine_mean [CharZero K] {mean : Mean K} (h : OnLine resistance deadtimeRatio mean)
    (hdata : mean.numData ≠ 0) :
    mean.y = resistance * mean.x + 4 / 3 * deadtimeRatio := by
  have hcast : (mean.numData : K) ≠ 0 := Nat.cast_ne_zero.mpr hdata
  rw [Mean.y, Mean.x, h.sums, add_div, mul_div_assoc, mul_div_cancel_right₀ _ hcast]

variable [LinearOrder K] [FloatOps K]

/-- **THE SOLVE**: two means on a line give its slope and its offset. -/
theorem estRSolve_line [IsStrictOrderedRing K] {levels : Vector (Mean K) 2}
    (hline : ∀ level : Fin 2, OnLine resistance deadtimeRatio (levels.get level))
    {solved : Option (StepResult K)} (h : estRSolve levels = .ok solved) :
    solved = some (.estimateR resistance deadtimeRatio
      (.hallCalibrationRequired resistance)) := by
  dsimp only [estRSolve] at h
  split at h
  · cases h
  · rename_i hfew
    split at h
    · cases h
    · rename_i hdegenerate
      split at h
      · cases h
      · -- enough samples for the means to be means
        have hsamples : ∀ level : Fin 2, (levels.get level).numData ≠ 0 := by
          intro level hzero
          refine hfew (List.any_eq_true.mpr ⟨levels.get level, ?_, ?_⟩)
          · exact Vector.mem_toList_iff.mpr (Vector.getElem_mem level.isLt)
          · rw [hzero]
            exact decide_eq_true (by decide)
        have hhigh : levels[0].y = resistance * levels[0].x + 4 / 3 * deadtimeRatio :=
          onLine_mean (hline 0) (hsamples 0)
        have hlow : levels[1].y = resistance * levels[1].x + 4 / 3 * deadtimeRatio :=
          onLine_mean (hline 1) (hsamples 1)
        have hne : levels[0].x - levels[1].x ≠ 0 := by
          intro hzero
          rw [hzero, abs_zero, not_not] at hdegenerate
          norm_num at hdegenerate
        have hslope : (levels[0].y - levels[1].y) / (levels[0].x - levels[1].x)
            = resistance := by
          rw [hhigh, hlow, div_eq_iff hne]
          ring
        have hoffset : (0.75 : K) * (levels[0].y - resistance * levels[0].x)
            = deadtimeRatio := by
          rw [hhigh]
          ring
        rw [hslope, hoffset] at h
        exact (Except.ok.inj h).symm

/-! ## Samples -/

omit [Field K] [LinearOrder K] [FloatOps K] in
/-- The block whose level an iteration from a state adds its sample to. -/
def accumulating : OfflineEstimatorState K → Option Nat
  | .estR block _ true _ => some block
  | _ => none

omit [Field K] [LinearOrder K] [FloatOps K] in
/-- The iteration from a state adds its sample to a level. -/
def adds (level : Fin 2) (state : OfflineEstimatorState K) : Bool :=
  (accumulating state).any (fun block => decide (block % 2 = level.val))

variable [FloorRing K] (estimator : OfflineMotorEstimator K) (numPolePairs : UInt8)
  (data : Nat → FocResult K)

/-- The estimator, started, after a number of iterations. -/
def estimatorAt (n : Nat) : OfflineMotorEstimator K :=
  after OfflineMotorEstimator.afterFocIteration (estimator.start numPolePairs) data n

/-- The samples of a level, in the order of their iterations. -/
def samples (level : Fin 2) (n : Nat) : List (FocResult K) :=
  ((List.range n).filter
    (fun m => adds level (estimatorAt estimator numPolePairs data m).state)).map data

/-- What an accumulator is that took some samples and no others. -/
def accumulated (taken : List (FocResult K)) : Mean K :=
  taken.foldl (fun mean data => sampled data mean) .new

/-- The iteration found the current of a block at its target. -/
def Reaches (block n : Nat) : Prop :=
  (∃ ran levels, (estimatorAt estimator numPolePairs data n).state
    = .estR block ran false levels) ∧
  |(data n).measuredIDq.d - estRTarget block estimator.config|
      / estRTarget block estimator.config ≤ estRTargetTolerance

/-- Every iteration that accumulates has a measurement of the motor. -/
def Measures (resistance deadtimeRatio : K) : Prop :=
  ∀ n, (accumulating (estimatorAt estimator numPolePairs data n).state).isSome →
    Obeys resistance deadtimeRatio (data n)

variable {estimator numPolePairs data} {n : Nat}

theorem samples_succ_of_adds {level : Fin 2}
    (h : adds level (estimatorAt estimator numPolePairs data n).state = true) :
    samples estimator numPolePairs data level (n + 1)
      = samples estimator numPolePairs data level n ++ [data n] := by
  simp only [samples, List.range_succ, List.filter_append, List.filter_singleton, h,
    List.map_append, cond_true, List.map_singleton]

theorem samples_succ_of_not_adds {level : Fin 2}
    (h : adds level (estimatorAt estimator numPolePairs data n).state = false) :
    samples estimator numPolePairs data level (n + 1)
      = samples estimator numPolePairs data level n := by
  simp only [samples, List.range_succ, List.filter_append, List.filter_singleton, h,
    cond_false, List.append_nil]

omit [LinearOrder K] [FloatOps K] [FloorRing K] in
theorem accumulated_append (taken : List (FocResult K)) (last : FocResult K) :
    accumulated (taken ++ [last]) = sampled last (accumulated taken) := by
  rw [accumulated, List.foldl_append]
  rfl

/-- Samples on the line add up to a mean on the line. -/
theorem onLine_samples (h : Measures estimator numPolePairs data resistance deadtimeRatio)
    (level : Fin 2) (n : Nat) :
    OnLine resistance deadtimeRatio
      (accumulated (samples estimator numPolePairs data level n)) := by
  induction n with
  | zero => exact onLine_new
  | succ n ih =>
      cases hadds : adds level (estimatorAt estimator numPolePairs data n).state with
      | false =>
          rw [samples_succ_of_not_adds hadds]
          exact ih
      | true =>
          rw [samples_succ_of_adds hadds, accumulated_append]
          refine onLine_sampled (h n ?_) ih
          rw [adds] at hadds
          exact Option.isSome_of_any hadds

/-! ## The stage -/

/-- How far the stage is after a number of iterations, and what it holds. -/
def Holds (estimator : OfflineMotorEstimator K) (numPolePairs : UInt8)
    (data : Nat → FocResult K) (n : Nat) (params : MotorParamsEstimate K) :
    OfflineEstimatorState K → Prop
  | .rotorLockWait _ none => ∀ level, samples estimator numPolePairs data level n = []
  | .estR block _ reached levels =>
      (∀ level : Fin 2, levels.get level
        = accumulated (samples estimator numPolePairs data level n)) ∧
      (reached = true → ∃ m, m < n ∧ Reaches estimator numPolePairs data block m)
  | .hallCalibrationRequired found =>
      ∃ deadtimeRatio levels,
        (∀ level : Fin 2, levels.get level
          = accumulated (samples estimator numPolePairs data level n)) ∧
        estRSolve levels = .ok (some (.estimateR found deadtimeRatio
          (.hallCalibrationRequired found))) ∧
        params.statorResistance = some found ∧ params.deadtimeRatio = some deadtimeRatio
  | .failure _ => True
  | _ => False

theorem estimatorAt_keeps (n : Nat) :
    (estimatorAt estimator numPolePairs data n).config = estimator.config ∧
      (estimatorAt estimator numPolePairs data n).params.numPolePairs = some numPolePairs := by
  have hstart : (estimator.start numPolePairs).config = estimator.config ∧
      (estimator.start numPolePairs).params.numPolePairs = some numPolePairs := ⟨rfl, rfl⟩
  refine after_keeps (I := fun e : OfflineMotorEstimator K =>
    e.config = estimator.config ∧ e.params.numPolePairs = some numPolePairs) ?_ hstart data n
  rintro e data' ⟨hconfig, hpoles⟩
  obtain ⟨hconfig', hpoles'⟩ := afterFocIteration_keeps e data'
  exact ⟨hconfig'.trans hconfig, hpoles'.trans hpoles⟩

theorem estimatorAt_poles (n : Nat) :
    (estimatorAt estimator numPolePairs data n).params.numPolePairs.isSome = true := by
  rw [(estimatorAt_keeps n).2]
  rfl

/-- The levels of an iteration that measures are its samples, with the one it takes. -/
theorem measured_eq {block : Nat} {ran : K} {levels measured : Vector (Mean K) 2}
    (hstate : (estimatorAt estimator numPolePairs data n).state = .estR block ran true levels)
    (hlevels : ∀ level : Fin 2, levels.get level
      = accumulated (samples estimator numPolePairs data level n))
    (hmeasured : ∀ level : Fin 2, measured.get level
      = if block % 2 = level then sampled (data n) (levels.get level)
        else levels.get level) (level : Fin 2) :
    measured.get level = accumulated (samples estimator numPolePairs data level (n + 1)) := by
  rw [hmeasured level]
  by_cases hlevel : block % 2 = level
  · have hadds : adds level (estimatorAt estimator numPolePairs data n).state = true := by
      rw [hstate]
      exact decide_eq_true hlevel
    rw [if_pos hlevel, samples_succ_of_adds hadds, accumulated_append, hlevels level]
  · have hadds : adds level (estimatorAt estimator numPolePairs data n).state = false := by
      rw [hstate]
      exact decide_eq_false hlevel
    rw [if_neg hlevel, samples_succ_of_not_adds hadds, hlevels level]

/-- An iteration from a state that accumulates nothing leaves the samples alone. -/
theorem samples_succ_of_idle
    (h : accumulating (estimatorAt estimator numPolePairs data n).state = none)
    (level : Fin 2) :
    samples estimator numPolePairs data level (n + 1)
      = samples estimator numPolePairs data level n := by
  refine samples_succ_of_not_adds ?_
  rw [adds, h]
  rfl

/-- The stage holds what it says, at an iteration. -/
def HoldsAt (estimator : OfflineMotorEstimator K) (numPolePairs : UInt8)
    (data : Nat → FocResult K) (n : Nat) : Prop :=
  Holds estimator numPolePairs data n (estimatorAt estimator numPolePairs data n).params
    (estimatorAt estimator numPolePairs data n).state

/-- From what the step of the state comes to, what holds after the iteration. -/
theorem holdsAt_of_none {state : OfflineEstimatorState K}
    (hstep : (estimatorAt estimator numPolePairs data n).state.step (data n) estimator.config
      = (.ok none, state))
    (h : Holds estimator numPolePairs data (n + 1)
      (estimatorAt estimator numPolePairs data n).params state) :
    HoldsAt estimator numPolePairs data (n + 1) := by
  rw [← (estimatorAt_keeps n).1] at hstep
  rw [HoldsAt, estimatorAt, after_succ, ← estimatorAt,
    afterFocIteration_none (estimatorAt_poles n) hstep]
  exact h

theorem holdsAt_of_error {state : OfflineEstimatorState K} {fault : EstimationStepFault}
    (hstep : (estimatorAt estimator numPolePairs data n).state.step (data n) estimator.config
      = (.error fault, state)) :
    HoldsAt estimator numPolePairs data (n + 1) := by
  rw [← (estimatorAt_keeps n).1] at hstep
  rw [HoldsAt, estimatorAt, after_succ, ← estimatorAt,
    afterFocIteration_error (estimatorAt_poles n) hstep]
  trivial

theorem holdsAt_of_some {state : OfflineEstimatorState K} {result : StepResult K}
    (hstep : (estimatorAt estimator numPolePairs data n).state.step (data n) estimator.config
      = (.ok (some result), state))
    (h : Holds estimator numPolePairs data (n + 1)
      ((estimatorAt estimator numPolePairs data n).apply result).params
      ((estimatorAt estimator numPolePairs data n).apply result).state) :
    HoldsAt estimator numPolePairs data (n + 1) := by
  rw [← (estimatorAt_keeps n).1] at hstep
  rw [HoldsAt, estimatorAt, after_succ, ← estimatorAt,
    afterFocIteration_some (estimatorAt_poles n) hstep]
  exact h

theorem holdsAt_rotorLockWait {waitedS : K}
    (hstate : (estimatorAt estimator numPolePairs data n).state = .rotorLockWait waitedS none)
    (h : HoldsAt estimator numPolePairs data n) :
    HoldsAt estimator numPolePairs data (n + 1) := by
  rw [HoldsAt, hstate] at h
  have hnone : ∀ level, samples estimator numPolePairs data level (n + 1) = [] := by
    intro level
    rw [samples_succ_of_idle (by rw [hstate]; rfl) level]
    exact h level
  by_cases hlocked : waitedS + estimator.config.dtS ≥ estimator.config.settleTimeS
  · have hstep : (estimatorAt estimator numPolePairs data n).state.step (data n)
        estimator.config
        = (.ok (some (.transition (.estR 0 0 false (Vector.replicate 2 .new)))),
            .rotorLockWait (waitedS + estimator.config.dtS) none) := by
      rw [hstate]
      exact if_pos hlocked
    refine holdsAt_of_some hstep ⟨fun level => ?_, fun hreached => by cases hreached⟩
    rw [hnone level]
    exact Vector.getElem_replicate level.isLt
  · have hstep : (estimatorAt estimator numPolePairs data n).state.step (data n)
        estimator.config
        = (.ok none, .rotorLockWait (waitedS + estimator.config.dtS) none) := by
      rw [hstate]
      exact if_neg hlocked
    exact holdsAt_of_none hstep hnone

theorem holdsAt_approach {block : Nat} {ran : K} {levels : Vector (Mean K) 2}
    (hstate : (estimatorAt estimator numPolePairs data n).state
      = .estR block ran false levels)
    (h : HoldsAt estimator numPolePairs data n) :
    HoldsAt estimator numPolePairs data (n + 1) := by
  rw [HoldsAt, hstate] at h
  have hlevels : ∀ level : Fin 2, levels.get level
      = accumulated (samples estimator numPolePairs data level (n + 1)) := by
    intro level
    rw [samples_succ_of_idle (by rw [hstate]; rfl) level]
    exact h.1 level
  have hstep : (estimatorAt estimator numPolePairs data n).state.step (data n)
      estimator.config = estRApproach block ran levels (data n) estimator.config := by
    rw [hstate]
    rfl
  rcases estRApproach_cases (data n) estimator.config block ran levels with
    ⟨hreached, he⟩ | he | ⟨-, he⟩
  · exact holdsAt_of_none (hstep.trans he)
      ⟨hlevels, fun _ => ⟨n, Nat.lt_succ_self n, ⟨⟨_, _, hstate⟩, hreached⟩⟩⟩
  · exact holdsAt_of_error (hstep.trans he)
  · exact holdsAt_of_none (hstep.trans he) ⟨hlevels, fun h => by cases h⟩

theorem holdsAt_measure {block : Nat} {ran : K} {levels : Vector (Mean K) 2}
    (hstate : (estimatorAt estimator numPolePairs data n).state = .estR block ran true levels)
    (h : HoldsAt estimator numPolePairs data n) :
    HoldsAt estimator numPolePairs data (n + 1) := by
  rw [HoldsAt, hstate] at h
  obtain ⟨measured, hmeasured, hcases⟩ :=
    estRMeasure_cases (data n) estimator.config block ran levels
  have hlevels := measured_eq hstate h.1 hmeasured
  have hstep : (estimatorAt estimator numPolePairs data n).state.step (data n)
      estimator.config = estRMeasure block ran levels (data n) estimator.config := by
    rw [hstate]
    rfl
  rcases hcases with ⟨-, he⟩ | ⟨-, he⟩ | he
  · obtain ⟨m, hm, hreaches⟩ := h.2 rfl
    exact holdsAt_of_none (hstep.trans he)
      ⟨hlevels, fun _ => ⟨m, Nat.lt_succ_of_lt hm, hreaches⟩⟩
  · exact holdsAt_of_none (hstep.trans he) ⟨hlevels, fun h => by cases h⟩
  · -- the last block: the two levels are solved
    cases hsolved : estRSolve measured with
    | error fault =>
        rw [hsolved] at he
        exact holdsAt_of_error (hstep.trans he)
    | ok solved =>
        obtain ⟨found, deadtimeRatio, rfl, -⟩ := estRSolve_ok hsolved
        rw [hsolved] at he
        exact holdsAt_of_some (hstep.trans he)
          ⟨deadtimeRatio, measured, hlevels, hsolved, rfl, rfl⟩

/-- The stage holds what it says from its start on. -/
theorem holdsAt (estimator : OfflineMotorEstimator K) (numPolePairs : UInt8)
    (data : Nat → FocResult K) (n : Nat) : HoldsAt estimator numPolePairs data n := by
  induction n with
  | zero => exact fun level => rfl
  | succ n ih =>
      cases hstate : (estimatorAt estimator numPolePairs data n).state with
      | rotorLockWait waitedS resistance =>
          cases resistance with
          | none => exact holdsAt_rotorLockWait hstate ih
          | some resistance =>
              rw [HoldsAt, hstate] at ih
              exact ih.elim
      | estR block ran reached levels =>
          cases reached with
          | false => exact holdsAt_approach hstate ih
          | true => exact holdsAt_measure hstate ih
      | hallCalibrationRequired found =>
          refine holdsAt_of_none (by rw [hstate]; rfl) ?_
          rw [HoldsAt, hstate] at ih
          obtain ⟨deadtimeRatio, levels, hlevels, hfound⟩ := ih
          refine ⟨deadtimeRatio, levels, fun level => ?_, hfound⟩
          rw [samples_succ_of_idle (by rw [hstate]; rfl) level]
          exact hlevels level
      | failure fault =>
          refine holdsAt_of_none (by rw [hstate]; rfl) ?_
          trivial
      | _ =>
          rw [HoldsAt, hstate] at ih
          exact ih.elim

/-- **THE RESISTANCE TEST**: if every iteration that accumulates has a measurement of a
    motor, a test that comes to its end reports the resistance of the motor and its
    deadtime ratio; what an accumulator holds is the samples that its blocks took; and a
    block takes none before its current has reached its target. -/
theorem resistance_test [IsStrictOrderedRing K] (estimator : OfflineMotorEstimator K)
    (numPolePairs : UInt8) (data : Nat → FocResult K) (resistance deadtimeRatio : K)
    (hmeasures : Measures estimator numPolePairs data resistance deadtimeRatio) (n : Nat) :
    (∀ found, (estimatorAt estimator numPolePairs data n).state
        = .hallCalibrationRequired found →
      found = resistance ∧
      (estimatorAt estimator numPolePairs data n).params.statorResistance
        = some resistance ∧
      (estimatorAt estimator numPolePairs data n).params.deadtimeRatio
        = some deadtimeRatio) ∧
    (∀ block ran reached levels, (estimatorAt estimator numPolePairs data n).state
        = .estR block ran reached levels →
      ∀ level : Fin 2, levels.get level
        = accumulated (samples estimator numPolePairs data level n)) ∧
    (∀ block, accumulating (estimatorAt estimator numPolePairs data n).state = some block →
      ∃ m, m < n ∧ Reaches estimator numPolePairs data block m) := by
  have hholds := holdsAt estimator numPolePairs data n
  rw [HoldsAt] at hholds
  refine ⟨?_, ?_, ?_⟩
  · intro found hstate
    rw [hstate] at hholds
    obtain ⟨ratio, levels, hlevels, hsolved, hr, hd⟩ := hholds
    -- both means are on the line of the motor
    have hline : ∀ level : Fin 2, OnLine resistance deadtimeRatio (levels.get level) := by
      intro level
      rw [hlevels level]
      exact onLine_samples hmeasures level n
    have hsolution := Option.some.inj (estRSolve_line hline hsolved)
    obtain ⟨rfl, rfl, -⟩ := StepResult.estimateR.inj hsolution
    exact ⟨rfl, hr, hd⟩
  · intro block ran reached levels hstate
    rw [hstate] at hholds
    exact hholds.1
  · intro block haccumulating
    cases hstate : (estimatorAt estimator numPolePairs data n).state with
    | estR block' ran reached levels =>
        rw [hstate] at hholds haccumulating
        cases reached with
        | false => cases haccumulating
        | true =>
            obtain rfl := Option.some.inj haccumulating
            exact hholds.2 rfl
    | _ =>
        rw [hstate] at haccumulating
        cases haccumulating

/-- A motor of three ohms with a deadtime ratio of a tenth on a bus of twenty volts, at
    a current. -/
def motorAt (i : ℚ) : FocResult ℚ where
  thetaE := 0
  omegaE := 0
  dcBusVoltageV := 20
  dutyCycles := ⟨0, 0, 0⟩
  voltageHexagonSector := 1
  measuredIAb := ⟨0, 0⟩
  measuredIDq := ⟨i, 0⟩
  targetIDq := ⟨i, 0⟩
  uDq := ⟨3 * i + 4 / 3 * (1 / 10) * 20, 0⟩
  uAb := ⟨0, 0⟩
  isInjecting := false
  hfiIDq := ⟨0, 0⟩
  hfiParams := ⟨0, 0, 0⟩

/-- The current of a block, two amperes or one. -/
def blockCurrent (block : Nat) : ℚ := if block % 2 = 0 then 2 else 1

/-- The motor at the current of its block. -/
def idealMeasurement (n : Nat) : FocResult ℚ := motorAt (blockCurrent ((n - 1) / 501))

theorem idealMeasurement_obeys (n : Nat) : Obeys 3 (1 / 10) (idealMeasurement n) where
  bus := by norm_num [idealMeasurement, motorAt]
  law := by
    simp only [idealMeasurement, motorAt]
    ring

/-- An estimator whose blocks take five hundred samples. -/
def idealEstimator : OfflineMotorEstimator ℚ := .new ⟨1, 1, 2000, 1, 1, 2, 10⟩ 7

/-! ### The run of an ideal motor -/

/-- The samples of the motor at a current, so many of them. -/
def taken (i : ℚ) (n : Nat) : Mean ℚ := ⟨n * (i / 20), n * ((3 * i + 8 / 3) / 20), n⟩

theorem taken_succ (i : ℚ) (n : Nat) :
    sampled (motorAt i) (taken i n) = taken i (n + 1) := by
  simp only [sampled, taken, Mean.accumulate, motorAt, Nat.cast_add, Nat.cast_one]
  congr 1 <;> ring

theorem taken_mean (i : ℚ) {n : Nat} (hn : n ≠ 0) :
    (taken i n).x = i / 20 ∧ (taken i n).y = (3 * i + 8 / 3) / 20 :=
  ⟨mul_div_cancel_left₀ _ (Nat.cast_ne_zero.mpr hn),
    mul_div_cancel_left₀ _ (Nat.cast_ne_zero.mpr hn)⟩

/-- The estimator in a block, with so many samples of each level. -/
def inBlock (block : Nat) (blockRanS : ℚ) (reached : Bool) (high low : Nat) :
    OfflineMotorEstimator ℚ :=
  { idealEstimator with
    state := .estR block blockRanS reached #v[taken 2 high, taken 1 low] }

theorem approach_inBlock (block high low : Nat) :
    (inBlock block 0 false high low).afterFocIteration (motorAt (blockCurrent block))
      = inBlock block 0 true high low := by
  have htarget : estRTarget block idealEstimator.config = blockCurrent block := by
    simp only [estRTarget, blockCurrent, idealEstimator, OfflineMotorEstimator.new]
    norm_num
  refine afterFocIteration_none rfl ?_
  show estRApproach block 0 _ (motorAt (blockCurrent block)) idealEstimator.config = _
  rw [estRApproach, htarget]
  norm_num [motorAt, estRTargetTolerance]

/-- The samples of the high level after some of a block. -/
def countHigh (block high n : Nat) : Nat := if block % 2 = 0 then high + n else high

/-- The samples of the low level after some of a block. -/
def countLow (block low n : Nat) : Nat := if block % 2 = 0 then low else low + n

theorem countHigh_succ (block high n : Nat) :
    countHigh block (countHigh block high n) 1 = countHigh block high (n + 1) := by
  simp only [countHigh]
  split <;> rfl

theorem countLow_succ (block low n : Nat) :
    countLow block (countLow block low n) 1 = countLow block low (n + 1) := by
  simp only [countLow]
  split <;> rfl

/-- The levels after a tick of a block. -/
theorem levels_set (block high low : Nat) (hlevel : block % 2 < 2) :
    (#v[taken 2 high, taken 1 low] : Vector (Mean ℚ) 2).set (block % 2)
        (sampled (motorAt (blockCurrent block)) (#v[taken 2 high, taken 1 low][block % 2]))
        hlevel
      = #v[taken 2 (countHigh block high 1), taken 1 (countLow block low 1)] := by
  rcases Nat.mod_two_eq_zero_or_one block with heven | hodd
  · simp [heven, blockCurrent, countHigh, countLow, taken_succ]
  · simp [hodd, blockCurrent, countHigh, countLow, taken_succ]

theorem estRMeasure_ideal (block high low : Nat) (blockRanS : ℚ) :
    estRMeasure block blockRanS #v[taken 2 high, taken 1 low] (motorAt (blockCurrent block))
        idealEstimator.config
      = if blockRanS + 1 < 500 then
          (.ok none, .estR block (blockRanS + 1) true
            #v[taken 2 (countHigh block high 1), taken 1 (countLow block low 1)])
        else if block + 1 ≥ 4 then
          (estRSolve #v[taken 2 (countHigh block high 1), taken 1 (countLow block low 1)],
            .estR (block + 1) 0 false
              #v[taken 2 (countHigh block high 1), taken 1 (countLow block low 1)])
        else
          (.ok none, .estR (block + 1) 0 false
            #v[taken 2 (countHigh block high 1), taken 1 (countLow block low 1)]) := by
  have hquarter : (2000 : ℚ) / (estRBlocks : ℚ) = 500 := by
    norm_num [estRBlocks]
  have hset := levels_set block high low (Nat.mod_lt block Nat.two_pos)
  rw [← hset, ← hquarter]
  rfl

theorem measure_inBlock (block n high low : Nat) (hn : n + 1 < 500) :
    (inBlock block n true high low).afterFocIteration (motorAt (blockCurrent block))
      = inBlock block (n + 1) true (countHigh block high 1) (countLow block low 1) := by
  have hn' : (n : ℚ) + 1 < 500 := by exact_mod_cast hn
  refine afterFocIteration_none rfl ?_
  show estRMeasure block (n : ℚ) _ (motorAt (blockCurrent block)) idealEstimator.config = _
  rw [estRMeasure_ideal, if_pos hn']

/-- The last tick of a block but the last. -/
theorem leave_inBlock (block high low : Nat) (hblock : block + 1 < 4) :
    (inBlock block (499 : Nat) true high low).afterFocIteration (motorAt (blockCurrent block))
      = inBlock (block + 1) 0 false (countHigh block high 1) (countLow block low 1) := by
  refine afterFocIteration_none rfl ?_
  show estRMeasure block ((499 : Nat) : ℚ) _ (motorAt (blockCurrent block))
    idealEstimator.config = _
  rw [estRMeasure_ideal, if_neg (by norm_num), if_neg (Nat.not_le.mpr hblock)]

/-- The last tick of the test. -/
theorem solve_inBlock :
    ((inBlock 3 (499 : Nat) true 1000 999).afterFocIteration (motorAt (blockCurrent 3))).state
      = .hallCalibrationRequired 3 := by
  have hsolve : estRSolve #v[taken 2 1000, taken 1 1000]
      = .ok (some (.estimateR 3 (1 / 10) (.hallCalibrationRequired 3))) := by
    have hmany : (#v[taken 2 1000, taken 1 1000] : Vector (Mean ℚ) 2).toList.any
        (fun level => level.numData < minSolveSamples) = false := rfl
    obtain ⟨hx, hy⟩ := taken_mean 2 (show 1000 ≠ 0 by decide)
    obtain ⟨hx', hy'⟩ := taken_mean 1 (show 1000 ≠ 0 by decide)
    rw [estRSolve, hmany]
    show (if _ then _ else _) = _
    simp only [Vector.getElem_mk, List.getElem_toArray, List.getElem_cons_zero,
      List.getElem_cons_succ, hx, hy, hx', hy']
    norm_num [FloatOps.isFinite]
  have hstep : (inBlock 3 (499 : Nat) true 1000 999).state.step (motorAt (blockCurrent 3))
      (inBlock 3 (499 : Nat) true 1000 999).config
        = (.ok (some (.estimateR 3 (1 / 10) (.hallCalibrationRequired 3))),
          .estR 4 0 false #v[taken 2 1000, taken 1 1000]) := by
    show estRMeasure 3 ((499 : Nat) : ℚ) _ (motorAt (blockCurrent 3))
      idealEstimator.config = _
    rw [estRMeasure_ideal, if_neg (by norm_num), if_pos (by decide)]
    exact congrArg (·, _) hsolve
  rw [afterFocIteration_some rfl hstep]
  rfl

/-- The ideal estimator after a number of iterations. -/
def idealAt (n : Nat) : OfflineMotorEstimator ℚ := estimatorAt idealEstimator 7 idealMeasurement n

theorem idealAt_succ {block n m : Nat} (hm : m = 501 * block + n + 1) (hn : n < 501) :
    idealAt (m + 1) = (idealAt m).afterFocIteration (motorAt (blockCurrent block)) := by
  have hblock : (m - 1) / 501 = block := by omega
  have hdata : idealMeasurement m = motorAt (blockCurrent block) := by
    rw [idealMeasurement, hblock]
  rw [← hdata]
  rfl

/-- **A BLOCK**: it approaches its current, and then it samples. -/
theorem idealAt_block {block high low n m : Nat}
    (h : idealAt (501 * block + 1) = inBlock block 0 false high low) (hn : n < 500)
    (hm : m = 501 * block + n + 2) :
    idealAt m = inBlock block n true (countHigh block high n) (countLow block low n) := by
  induction n generalizing m with
  | zero =>
      have hlevels : countHigh block high 0 = high ∧ countLow block low 0 = low := by
        simp [countHigh, countLow]
      rw [hm, idealAt_succ (n := 0) rfl (by decide), h, approach_inBlock, hlevels.1,
        hlevels.2]
      rfl
  | succ n ih =>
      have hbefore : m - 1 = 501 * block + n + 2 := by omega
      have hlast : m = m - 1 + 1 := by omega
      rw [hlast, idealAt_succ (n := n + 1) hbefore (Nat.lt_succ_of_lt hn),
        ih (Nat.lt_of_succ_lt hn) hbefore, measure_inBlock block n _ _ hn, countHigh_succ,
        countLow_succ, Nat.cast_succ]

/-- ... and the next one begins. -/
theorem idealAt_next {block high low m : Nat}
    (h : idealAt (501 * block + 1) = inBlock block 0 false high low) (hblock : block + 1 < 4)
    (hm : m = 501 * (block + 1)) :
    idealAt (m + 1)
      = inBlock (block + 1) 0 false (countHigh block high 500) (countLow block low 500) := by
  rw [idealAt_succ (show m = 501 * block + 500 + 1 by omega) (by decide),
    idealAt_block h (by decide) (show m = 501 * block + 499 + 2 by omega),
    ← countHigh_succ block high 499, ← countLow_succ block low 499]
  exact leave_inBlock block _ _ hblock

/-- The rotor is aligned for a tick. -/
theorem idealAt_one : idealAt (501 * 0 + 1) = inBlock 0 0 false 0 0 := by
  have hstep : (idealEstimator.start 7).state.step (idealMeasurement 0)
      (idealEstimator.start 7).config
        = (.ok (some (.transition (.estR 0 0 false (Vector.replicate 2 .new)))),
          .rotorLockWait (0 + 1) none) := by
    norm_num [OfflineMotorEstimator.start, OfflineEstimatorState.step, rotorLockWaitStep,
      idealEstimator, OfflineMotorEstimator.new]
  have hturn : idealAt (501 * 0 + 1) = (idealEstimator.start 7).apply
      (.transition (.estR 0 0 false (Vector.replicate 2 .new))) :=
    afterFocIteration_some rfl hstep
  have hlevels : (Vector.replicate 2 .new : Vector (Mean ℚ) 2) = #v[taken 2 0, taken 1 0] := by
    simp [taken, Mean.new]
    rfl
  rw [hturn, hlevels]
  rfl

/-- **THE END**: after the fourth block the resistance is there. -/
theorem idealAt_end : (idealAt 2005).state = .hallCalibrationRequired 3 := by
  have hsecond := idealAt_next idealAt_one (by decide) rfl
  have hthird := idealAt_next hsecond (by decide) rfl
  have hfourth := idealAt_next hthird (by decide) rfl
  have hlast : idealAt 2004 = inBlock 3 (499 : Nat) true
      (countHigh 3 (countHigh 2 (countHigh 1 (countHigh 0 0 500) 500) 500) 499)
      (countLow 3 (countLow 2 (countLow 1 (countLow 0 0 500) 500) 500) 499) :=
    idealAt_block hfourth (by decide) (by decide)
  have hhigh : countHigh 3 (countHigh 2 (countHigh 1 (countHigh 0 0 500) 500) 500) 499
      = 1000 := by decide
  have hlow : countLow 3 (countLow 2 (countLow 1 (countLow 0 0 500) 500) 500) 499
      = 999 := by decide
  have hend : idealAt (2004 + 1)
      = (idealAt 2004).afterFocIteration (motorAt (blockCurrent 3)) :=
    idealAt_succ (show 2004 = 501 * 3 + 500 + 1 by decide) (by decide)
  rw [hhigh, hlow] at hlast
  rw [hend, hlast]
  exact solve_inBlock

/-- The run of the ideal motor reports its resistance and its deadtime ratio. -/
theorem resistance_test_ideal :
    ∃ n, (estimatorAt idealEstimator 7 idealMeasurement n).state
        = .hallCalibrationRequired 3 ∧
      (estimatorAt idealEstimator 7 idealMeasurement n).params.statorResistance = some 3 ∧
      (estimatorAt idealEstimator 7 idealMeasurement n).params.deadtimeRatio
        = some (1 / 10) := by
  obtain ⟨hreported, -, -⟩ := resistance_test idealEstimator 7 idealMeasurement 3 (1 / 10)
    (fun n _ => idealMeasurement_obeys n) 2005
  obtain ⟨-, hresistance, hratio⟩ := hreported 3 idealAt_end
  exact ⟨2005, idealAt_end, hresistance, hratio⟩

end ResistanceProofs
