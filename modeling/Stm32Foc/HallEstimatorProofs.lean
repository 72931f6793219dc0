import Stm32Foc.HallTableProofs
import Stm32Foc.StreamRun
import Mathlib.Data.Rat.Floor
import Mathlib.Tactic.FieldSimp

/-! # The hall estimator over a run

    A sample is placed in its sector whatever the interpolation does, and its speed leads
    at most over it.  Over a run, a speed is only given after two samples in one direction
    with an edge between them (`Proven`). -/

namespace HallEstimatorProofs

open FieldOriented CircularMarks HallTableProofs StreamRun

variable {K : Type} [Field K] [LinearOrder K]

/-- The angle is one of the closed sector of `p`. -/
def InSector (calibrations : HallCalibration K) (p : Fin 6) (span theta : K) : Prop :=
  ∃ way, 0 ≤ way ∧ way ≤ span ∧ SameAngle theta (calibrations.get p + way)

/-! ## A sample -/

/-- The state in which a sample is interpolated. -/
def stateAt (self : HallEstimator K) (tables : HallTables K) (input : HallEstimatorInput K) :
    HallInterpolationState :=
  match HallEstimator.direction tables.forwardNext input.prevHallPattern input.hallPattern with
  | none => .stationary
  | some dir =>
      self.state.step (if self.prevPattern = 0 then input.hallPattern else self.prevPattern)
        input.hallPattern self.prevDir dir

/-- What a call returns, and what it keeps for the next. -/
theorem getEstimate_eq [FloorRing K] {self : HallEstimator K} {tables : HallTables K}
    {input : HallEstimatorInput K} (htables : self.tables = some tables)
    (hpattern : 1 ≤ input.hallPattern ∧ input.hallPattern ≤ 6) :
    self.getEstimate input =
      let estimate := HallEstimator.interpolate tables (stateAt self tables input)
        (dirOf tables input) input
      (.ok { theta := wrapTo2pi estimate.1, omega := estimate.2 },
        { tables := some tables
          state := stateAt self tables input
          prevPattern := input.hallPattern
          prevDir := dirOf tables input }) := by
  have hvalid : ¬(input.hallPattern = 0 ∨ input.hallPattern = 7) := by
    rintro (h | h)
    · rw [h] at hpattern
      exact absurd hpattern.1 (by decide)
    · rw [h] at hpattern
      exact absurd hpattern.2 (by decide)
  have hstay : HallInterpolationState.step .stationary input.hallPattern input.hallPattern
      self.prevDir 0 = .stationary := if_neg (not_not.mpr rfl)
  rw [HallEstimator.getEstimate, htables]
  simp only [if_neg hvalid, HallEstimator.takeDirection, stateAt, dirOf]
  cases HallEstimator.direction tables.forwardNext input.prevHallPattern
      input.hallPattern with
  | none =>
      by_cases hfirst : self.prevPattern = 0
      · simp only [if_pos hfirst, hstay, Option.getD_none]
      · simp only [if_neg hfirst, hstay, htables, Option.getD_none]
  | some dir =>
      by_cases hfirst : self.prevPattern = 0
      · simp only [if_pos hfirst, Option.getD_some]
      · simp only [if_neg hfirst, htables, Option.getD_some]

section Ordered

variable [IsStrictOrderedRing K] {tables : HallTables K} {calibrations : HallCalibration K}

/-- A way of at most a span from the edge that was crossed leads to an angle of the
    sector, in either direction. -/
theorem inSector_of_way (hdesc : Describes tables calibrations)
    (input : HallEstimatorInput K) {way : K} (hlow : 0 ≤ way)
    (hhigh : way ≤ tables.sectorSpan.get (sectorIndex input.hallPattern)) :
    InSector calibrations (sectorIndex input.hallPattern)
      (tables.sectorSpan.get (sectorIndex input.hallPattern))
      (tables.hallPatternToTheta.get
          (if dirOf tables input ≥ 0 then sectorIndex input.hallPattern
            else sectorIndex input.prevHallPattern)
        + (dirOf tables input : K) * way) := by
  rw [hdesc.edges]
  rcases dirOf_cases hdesc input with hdir | hdir | ⟨hdir, hedge⟩
  · rw [hdir, if_pos (le_refl 0), Int.cast_zero, zero_mul]
    exact ⟨0, le_refl 0, (hdesc.span_pos _).le, 0, by push_cast; ring⟩
  · rw [hdir, if_pos (by decide), Int.cast_one, one_mul]
    exact ⟨way, hlow, hhigh, 0, by push_cast; ring⟩
  · -- backwards, the edge is that of the sector's other end
    rw [hdir, if_neg (by decide)]
    refine ⟨tables.sectorSpan.get (sectorIndex input.hallPattern) - way, by linarith,
      by linarith, ?_⟩
    have hspan := hedge.span_eq hdesc
    rcases add_ahead tau (calibrations.get (sectorIndex input.hallPattern))
      (calibrations.get (sectorIndex input.prevHallPattern)) with hturn | hturn
    · exact ⟨0, by rw [← hspan] at hturn; push_cast; linarith⟩
    · exact ⟨-1, by rw [← hspan] at hturn; push_cast; linarith⟩

/-- **IN THE SECTOR**: whatever the state of the interpolation, the angle is one of the
    sector of the pattern. -/
theorem interpolate_inSector (hdesc : Describes tables calibrations)
    (state : HallInterpolationState) (input : HallEstimatorInput K) :
    InSector calibrations (sectorIndex input.hallPattern)
      (tables.sectorSpan.get (sectorIndex input.hallPattern))
      (HallEstimator.interpolate tables state (dirOf tables input) input).1 := by
  have hpos := hdesc.span_pos (sectorIndex input.hallPattern)
  have hhalf : (0.5 : K) = 1 / 2 := by norm_num
  have hlow : 0 ≤ 0.5 * tables.sectorSpan.get (sectorIndex input.hallPattern) := by
    rw [hhalf]
    linarith
  have hhigh : 0.5 * tables.sectorSpan.get (sectorIndex input.hallPattern)
      ≤ tables.sectorSpan.get (sectorIndex input.hallPattern) := by
    rw [hhalf]
    linarith
  cases state with
  | stationary =>
      refine ⟨_, hlow, hhigh, 0, ?_⟩
      rw [HallEstimator.interpolate, hdesc.edges]
      push_cast
      ring
  | directionChange =>
      have hclamp := clamp_mem hlow (tables.sectorSpan.get (sectorIndex input.prevHallPattern)
        * ((input.tickCounter.toNat : K) * input.previousPeriodReciprocal))
      exact inSector_of_way hdesc input hclamp.1 (hclamp.2.trans hhigh)
  | normal =>
      have hclamp := clamp_mem hpos.le (tables.sectorSpan.get (sectorIndex input.prevHallPattern)
        * ((input.tickCounter.toNat : K) * input.previousPeriodReciprocal))
      exact inSector_of_way hdesc input hclamp.1 hclamp.2

/-- The part of the sector that should have been travelled, at the last sector's speed. -/
def effectiveFraction (tables : HallTables K) (input : HallEstimatorInput K) : K :=
  tables.sectorSpan.get (sectorIndex input.prevHallPattern)
    * tables.sectorSpanReciprocal.get (sectorIndex input.hallPattern)
    * ((input.tickCounter.toNat : K) * input.previousPeriodReciprocal)

/-- The speed over the last sector. -/
def sectorSpeed (tables : HallTables K) (input : HallEstimatorInput K) : K :=
  tables.sectorSpan.get (sectorIndex input.prevHallPattern) * input.previousPeriodReciprocal
    * input.tickFrequencyHz

/-- That speed, tapered once the next edge is overdue. -/
def taperedSpeed (tables : HallTables K) (input : HallEstimatorInput K) : K :=
  if effectiveFraction tables input > 1 then
    sectorSpeed tables input / effectiveFraction tables input
  else sectorSpeed tables input

omit [IsStrictOrderedRing K] in
/-- A speed is only given in normal interpolation. -/
theorem interpolate_speed (tables : HallTables K) (state : HallInterpolationState) (dir : Int)
    (input : HallEstimatorInput K) :
    (HallEstimator.interpolate tables state dir input).2 =
      if state = .normal then (dir : K) * taperedSpeed tables input else 0 := by
  cases state with
  | stationary => rfl
  | directionChange => rfl
  | normal =>
      rw [if_pos rfl, taperedSpeed, mul_ite]
      show (if effectiveFraction tables input > 1 then _ / effectiveFraction tables input
        else _) = _
      rw [sectorSpeed]
      split
      · ring
      · ring

theorem taperedSpeed_nonneg (hdesc : Describes tables calibrations)
    {input : HallEstimatorInput K} (hrecip : 0 ≤ input.previousPeriodReciprocal)
    (hfreq : 0 ≤ input.tickFrequencyHz) : 0 ≤ taperedSpeed tables input := by
  have hspeed : 0 ≤ sectorSpeed tables input :=
    mul_nonneg (mul_nonneg (hdesc.span_pos _).le hrecip) hfreq
  rw [taperedSpeed]
  split
  · rename_i hover
    exact div_nonneg hspeed (zero_lt_one.trans hover).le
  · exact hspeed

omit [IsStrictOrderedRing K] in
/-- How far the speed over the last sector would have led by now. -/
theorem sectorSpeed_mul_ticks (hdesc : Describes tables calibrations)
    (input : HallEstimatorInput K) :
    sectorSpeed tables input * (input.tickCounter.toNat : K)
      = effectiveFraction tables input
        * (tables.sectorSpan.get (sectorIndex input.hallPattern) * input.tickFrequencyHz) := by
  have hne := (hdesc.span_pos (sectorIndex input.hallPattern)).ne'
  rw [sectorSpeed, effectiveFraction, hdesc.reciprocal]
  field_simp

/-- The tapered speed would have led at most over the sector. -/
theorem taperedSpeed_mul_ticks (hdesc : Describes tables calibrations)
    {input : HallEstimatorInput K} (hfreq : 0 ≤ input.tickFrequencyHz) :
    taperedSpeed tables input * (input.tickCounter.toNat : K)
      ≤ tables.sectorSpan.get (sectorIndex input.hallPattern) * input.tickFrequencyHz := by
  have hmul := sectorSpeed_mul_ticks hdesc input
  rw [taperedSpeed]
  by_cases hover : effectiveFraction tables input > 1
  · rw [if_pos hover, div_mul_eq_mul_div, hmul,
      mul_div_cancel_left₀ _ (zero_lt_one.trans hover).ne']
  · rw [if_neg hover, hmul]
    exact mul_le_of_le_one_left (mul_nonneg (hdesc.span_pos _).le hfreq) (not_lt.mp hover)

/-- **THE SPEED DECAYS**: over the time since the last edge, the speed given would lead at
    most over the sector. -/
theorem speed_bound (hdesc : Describes tables calibrations) (state : HallInterpolationState)
    {input : HallEstimatorInput K} (hrecip : 0 ≤ input.previousPeriodReciprocal)
    (hfreq : 0 ≤ input.tickFrequencyHz) :
    |(HallEstimator.interpolate tables state (dirOf tables input) input).2|
        * (input.tickCounter.toNat : K)
      ≤ tables.sectorSpan.get (sectorIndex input.hallPattern) * input.tickFrequencyHz := by
  have hspeed := taperedSpeed_nonneg hdesc hrecip hfreq
  have hdir : |(dirOf tables input : K)| ≤ 1 := by
    rcases dirOf_cases hdesc input with hdir | hdir | ⟨hdir, _⟩
    · rw [hdir, Int.cast_zero, abs_zero]
      exact zero_le_one
    · rw [hdir, Int.cast_one, abs_one]
    · rw [hdir, Int.cast_neg, Int.cast_one, abs_neg, abs_one]
  rw [interpolate_speed]
  by_cases hnormal : state = .normal
  · rw [if_pos hnormal, abs_mul, abs_of_nonneg hspeed]
    calc |(dirOf tables input : K)| * taperedSpeed tables input * (input.tickCounter.toNat : K)
        ≤ taperedSpeed tables input * (input.tickCounter.toNat : K) :=
          mul_le_mul_of_nonneg_right (mul_le_of_le_one_left hspeed hdir) (Nat.cast_nonneg _)
      _ ≤ tables.sectorSpan.get (sectorIndex input.hallPattern) * input.tickFrequencyHz :=
          taperedSpeed_mul_ticks hdesc hfreq
  · rw [if_neg hnormal, abs_zero, zero_mul]
    exact mul_nonneg (hdesc.span_pos _).le hfreq

/-- A speed has the sign of the direction. -/
theorem speed_sign (hdesc : Describes tables calibrations) {state : HallInterpolationState}
    {dir : Int} {input : HallEstimatorInput K} (hrecip : 0 ≤ input.previousPeriodReciprocal)
    (hfreq : 0 ≤ input.tickFrequencyHz)
    (hne : (HallEstimator.interpolate tables state dir input).2 ≠ 0) :
    state = .normal ∧ dir ≠ 0 ∧
      0 < (dir : K) * (HallEstimator.interpolate tables state dir input).2 := by
  rw [interpolate_speed] at hne ⊢
  by_cases hnormal : state = .normal
  · rw [if_pos hnormal] at hne ⊢
    have hdir : (dir : K) ≠ 0 := left_ne_zero_of_mul hne
    refine ⟨hnormal, fun h => hdir (by rw [h, Int.cast_zero]), ?_⟩
    rw [← mul_assoc]
    refine mul_pos (mul_self_pos.mpr hdir) ?_
    exact lt_of_le_of_ne (taperedSpeed_nonneg hdesc hrecip hfreq) (right_ne_zero_of_mul hne).symm
  · rw [if_neg hnormal] at hne
    exact absurd rfl hne

end Ordered

/-! ## A run -/

/-- Interpolation becomes normal with an edge in the direction of the last sample, and is
    so as long as the direction is the same. -/
theorem step_eq_normal {state : HallInterpolationState} {prevPattern pattern : UInt8}
    {prevDir dir : Int} (h : state.step prevPattern pattern prevDir dir = .normal) :
    state = .directionChange ∧ prevPattern ≠ pattern ∧ prevDir = dir ∨
      state = .normal ∧ prevDir = dir := by
  cases state with
  | stationary =>
      rw [HallInterpolationState.step] at h
      split at h
      · cases h
      · cases h
  | directionChange =>
      rw [HallInterpolationState.step] at h
      split at h
      · rename_i hedge
        exact Or.inl ⟨rfl, hedge⟩
      · cases h
  | normal =>
      rw [HallInterpolationState.step] at h
      split at h
      · cases h
      · rename_i hsame
        exact Or.inr ⟨rfl, not_not.mp hsame⟩

omit [Field K] [LinearOrder K] in
/-- The state in which a sample is interpolated is normal after an edge in the direction of
    the last sample, and then as long as the direction is the same. -/
theorem stateAt_eq_normal {estimator : HallEstimator K} {tables : HallTables K}
    {input : HallEstimatorInput K} (hprev : estimator.prevPattern ≠ 0)
    (h : stateAt estimator tables input = .normal) :
    estimator.state = .directionChange ∧ estimator.prevPattern ≠ input.hallPattern ∧
        estimator.prevDir = dirOf tables input ∨
      estimator.state = .normal ∧ estimator.prevDir = dirOf tables input := by
  unfold stateAt at h
  unfold dirOf
  cases hdirection : HallEstimator.direction tables.forwardNext input.prevHallPattern
      input.hallPattern with
  | none =>
      rw [hdirection] at h
      cases h
  | some dir =>
      simp only [hdirection, if_neg hprev] at h
      rw [Option.getD_some]
      exact step_eq_normal h

/-- The first call takes its own pattern for the last one, so it only finds a standstill. -/
theorem stateAt_new (calibrations : HallCalibration K) (tables : HallTables K)
    (input : HallEstimatorInput K) :
    stateAt (HallEstimator.new.setCalibration calibrations) tables input = .stationary := by
  rw [stateAt]
  cases HallEstimator.direction tables.forwardNext input.prevHallPattern input.hallPattern with
  | none => rfl
  | some dir => exact if_neg (not_not.mpr rfl)

section Run

variable {calibrations : HallCalibration K} {inputs : Nat → HallEstimatorInput K}

/-- The direction that a call takes. -/
def dirAt (calibrations : HallCalibration K) (inputs : Nat → HallEstimatorInput K) (n : Nat) :
    Int := dirOf (HallTables.ofCalibration calibrations) (inputs n)

/-- Some call saw an edge, and from the one before it on, every call had the direction of
    this one. -/
def Proven (calibrations : HallCalibration K) (inputs : Nat → HallEstimatorInput K)
    (n : Nat) : Prop :=
  ∃ m, 1 ≤ m ∧ m ≤ n ∧ (inputs m).hallPattern ≠ (inputs (m - 1)).hallPattern ∧
    ∀ k, m - 1 ≤ k → k ≤ n → dirAt calibrations inputs k = dirAt calibrations inputs n

/-- A direction that is proven stays so as long as it is the same. -/
theorem Proven.succ {n : Nat} (h : Proven calibrations inputs n)
    (hsame : dirAt calibrations inputs n = dirAt calibrations inputs (n + 1)) :
    Proven calibrations inputs (n + 1) := by
  obtain ⟨m, hone, hle, hedge, hdirs⟩ := h
  refine ⟨m, hone, Nat.le_succ_of_le hle, hedge, ?_⟩
  intro k hk hkn
  rcases Nat.lt_or_eq_of_le hkn with hlt | heq
  · exact (hdirs k hk (Nat.le_of_lt_succ hlt)).trans hsame
  · rw [heq]

/-- An edge in the direction of the call before proves it. -/
theorem Proven.of_edge {n : Nat}
    (hedge : (inputs n).hallPattern ≠ (inputs (n + 1)).hallPattern)
    (hsame : dirAt calibrations inputs n = dirAt calibrations inputs (n + 1)) :
    Proven calibrations inputs (n + 1) := by
  refine ⟨n + 1, Nat.le_add_left 1 n, Nat.le_refl _, ?_, ?_⟩
  · rw [Nat.add_sub_cancel]
    exact hedge.symm
  · intro k hk hkn
    rw [Nat.add_sub_cancel] at hk
    rcases Nat.lt_or_eq_of_le hkn with hlt | heq
    · rw [Nat.le_antisymm (Nat.le_of_lt_succ hlt) hk, hsame]
    · rw [heq]

/-- The estimator follows the calls up to `n`: it has the tables, the last pattern and the
    last direction, and interpolates normally in a proven direction only. -/
structure Follows (calibrations : HallCalibration K) (inputs : Nat → HallEstimatorInput K)
    (estimator : HallEstimator K) (n : Nat) : Prop where
  tables : estimator.tables = some (HallTables.ofCalibration calibrations)
  pattern : estimator.prevPattern = (inputs n).hallPattern
  dir : estimator.prevDir = dirAt calibrations inputs n
  proven : estimator.state = .normal → Proven calibrations inputs n

/-- Where a call interpolates normally, its direction is proven. -/
theorem Follows.proven_succ {estimator : HallEstimator K} {n : Nat}
    (h : Follows calibrations inputs estimator n) (hpattern : 1 ≤ (inputs n).hallPattern)
    (hnormal : stateAt estimator (HallTables.ofCalibration calibrations) (inputs (n + 1))
      = .normal) : Proven calibrations inputs (n + 1) := by
  have hprev : estimator.prevPattern ≠ 0 := by
    rw [h.pattern]
    intro hzero
    rw [hzero] at hpattern
    exact absurd hpattern (by decide)
  rcases stateAt_eq_normal hprev hnormal with ⟨_, hedge, hsame⟩ | ⟨hstate, hsame⟩
  · rw [h.pattern] at hedge
    rw [h.dir] at hsame
    exact Proven.of_edge hedge hsame
  · rw [h.dir] at hsame
    exact (h.proven hstate).succ hsame

variable [FloorRing K]

/-- A call on an estimator with the tables is followed, if a normal interpolation in it is
    in a proven direction. -/
theorem follows_call {estimator : HallEstimator K} {n : Nat}
    (htables : estimator.tables = some (HallTables.ofCalibration calibrations))
    (hpattern : 1 ≤ (inputs n).hallPattern ∧ (inputs n).hallPattern ≤ 6)
    (hproven : stateAt estimator (HallTables.ofCalibration calibrations) (inputs n) = .normal →
      Proven calibrations inputs n) :
    Follows calibrations inputs (estimator.getEstimate (inputs n)).2 n := by
  rw [getEstimate_eq htables hpattern]
  exact ⟨rfl, rfl, rfl, hproven⟩

/-- The estimator before a call. -/
def estimatorAt (calibrations : HallCalibration K) (inputs : Nat → HallEstimatorInput K)
    (n : Nat) : HallEstimator K :=
  after (fun estimator input => (estimator.getEstimate input).2)
    (HallEstimator.new.setCalibration calibrations) inputs n

/-- What a call returns. -/
def estimateAt (calibrations : HallCalibration K) (inputs : Nat → HallEstimatorInput K)
    (n : Nat) : Except RotorFeedbackFault (HallEstimatorOutput K) :=
  ((estimatorAt calibrations inputs n).getEstimate (inputs n)).1

/-- **EVERY CALL FINDS** the tables, and where it interpolates normally, its direction is
    proven: the first one is a standstill, and the others follow the one before. -/
theorem before_call (hpattern : ∀ n, 1 ≤ (inputs n).hallPattern ∧ (inputs n).hallPattern ≤ 6)
    (n : Nat) :
    (estimatorAt calibrations inputs n).tables
        = some (HallTables.ofCalibration calibrations) ∧
      (stateAt (estimatorAt calibrations inputs n) (HallTables.ofCalibration calibrations)
          (inputs n) = .normal → Proven calibrations inputs n) := by
  induction n with
  | zero =>
      refine ⟨rfl, ?_⟩
      intro hnormal
      have hstill := stateAt_new calibrations (HallTables.ofCalibration calibrations) (inputs 0)
      exact absurd (hstill.symm.trans hnormal) (by decide)
  | succ n ih =>
      have h := follows_call ih.1 (hpattern n) ih.2
      exact ⟨h.tables, h.proven_succ (hpattern n).1⟩

variable [IsStrictOrderedRing K]

omit [FloorRing K] in
/-- A proven direction that is not 0 is that of the edges of its calls. -/
theorem Proven.hasDirection (hcal : IsCalibrationTable calibrations) {n : Nat}
    (h : Proven calibrations inputs n) (hne : dirAt calibrations inputs n ≠ 0) :
    ∃ m, 1 ≤ m ∧ m ≤ n ∧ (inputs m).hallPattern ≠ (inputs (m - 1)).hallPattern ∧
      ∀ k, m - 1 ≤ k → k ≤ n →
        HasDirection calibrations (inputs k) (dirAt calibrations inputs n) := by
  obtain ⟨m, hone, hle, hedge, hdirs⟩ := h
  refine ⟨m, hone, hle, hedge, ?_⟩
  intro k hk hkn
  have hsame := hdirs k hk hkn
  rw [← hsame] at hne ⊢
  exact dirOf_hasDirection (describes hcal) hne

/-- **THE HALL ESTIMATE**: in every run of a newly calibrated estimator, the angle of a call
    is one of the sector of its pattern, the speed would lead at most over that sector in
    the time since the last edge, and there is a speed only after an edge since which, and
    from the call before it on, every call had the direction of the speed. -/
theorem hall_estimate (hcal : IsCalibrationTable calibrations)
    (hpattern : ∀ n, 1 ≤ (inputs n).hallPattern ∧ (inputs n).hallPattern ≤ 6)
    (hrecip : ∀ n, 0 ≤ (inputs n).previousPeriodReciprocal)
    (hfreq : ∀ n, 0 ≤ (inputs n).tickFrequencyHz) (n : Nat) :
    ∃ output span, estimateAt calibrations inputs n = .ok output ∧
      IsSpan calibrations (sectorIndex (inputs n).hallPattern) span ∧
      InSector calibrations (sectorIndex (inputs n).hallPattern) span output.theta ∧
      |output.omega| * ((inputs n).tickCounter.toNat : K)
        ≤ span * (inputs n).tickFrequencyHz ∧
      (output.omega ≠ 0 →
        ∃ (m : Nat) (d : Int), 1 ≤ m ∧ m ≤ n ∧
          (inputs m).hallPattern ≠ (inputs (m - 1)).hallPattern ∧
          0 < (d : K) * output.omega ∧
          ∀ k, m - 1 ≤ k → k ≤ n → HasDirection calibrations (inputs k) d) := by
  obtain ⟨htables, hproven⟩ := before_call hpattern n
  have hdesc := describes hcal
  have hcall := congrArg Prod.fst (getEstimate_eq htables (hpattern n))
  refine ⟨_, _, hcall, isSpan_sectorSpan hdesc _, ?_, ?_, ?_⟩
  · obtain ⟨way, hlow, hhigh, hsame⟩ := interpolate_inSector hdesc
      (stateAt (estimatorAt calibrations inputs n) (HallTables.ofCalibration calibrations)
        (inputs n)) (inputs n)
    exact ⟨way, hlow, hhigh, (wrapTo2pi_spec _).2.trans hsame⟩
  · exact speed_bound hdesc _ (hrecip n) (hfreq n)
  · intro hne
    obtain ⟨hnormal, hdir, hsign⟩ := speed_sign hdesc (hrecip n) (hfreq n) hne
    obtain ⟨m, hone, hle, hedge, hdirs⟩ := (hproven hnormal).hasDirection hcal hdir
    exact ⟨m, _, hone, hle, hedge, hsign, hdirs⟩

end Run

/-! ## A turning rotor -/

/-- Edges one radian apart, in the order of the patterns. -/
def evenEdges : HallCalibration ℚ := Vector.ofFn fun i => (i.val : ℚ)

/-- A rotor that turns forward by one sector a sample. -/
def turning (n : Nat) : HallEstimatorInput ℚ where
  prevHallPattern := [1, 2, 3, 4, 5, 6].getD ((n + 5) % 6) 1
  hallPattern := [1, 2, 3, 4, 5, 6].getD (n % 6) 1
  tickCounter := 5
  previousPeriodReciprocal := 1 / 10
  tickFrequencyHz := 1000

theorem evenEdges_isCalibrationTable : IsCalibrationTable evenEdges := by
  constructor
  · decide +kernel
  · decide +kernel
  · decide +kernel

example : estimateAt evenEdges turning 2 = .ok { theta := 5 / 2, omega := 100 } := by
  decide +kernel

theorem hall_estimate_turning :
    ∃ output span, estimateAt evenEdges turning 2 = .ok output ∧
      IsSpan evenEdges 2 span ∧ InSector evenEdges 2 span output.theta ∧
      |output.omega| * 5 ≤ span * 1000 ∧
      (output.omega ≠ 0 →
        ∃ (m : Nat) (d : Int), 1 ≤ m ∧ m ≤ 2 ∧
          (turning m).hallPattern ≠ (turning (m - 1)).hallPattern ∧
          0 < (d : ℚ) * output.omega ∧
          ∀ k, m - 1 ≤ k → k ≤ 2 → HasDirection evenEdges (turning k) d) := by
  have hpatterns : ∀ i < 6, 1 ≤ [1, 2, 3, 4, 5, 6].getD i (1 : UInt8) ∧
      [1, 2, 3, 4, 5, 6].getD i (1 : UInt8) ≤ 6 := by decide
  exact hall_estimate evenEdges_isCalibrationTable
    (fun n => hpatterns (n % 6) (Nat.mod_lt n (by decide)))
    (fun _ => by norm_num [turning]) (fun _ => by norm_num [turning]) 2

end HallEstimatorProofs
