import Stm32Foc.DurationProofs
import Stm32Foc.StreamRun

/-! # The measured inductances

    A square wave of voltage at standstill.  Where the voltage had one sign over the whole
    interval between two measurements, the current rises with the voltage over the
    inductance; what the resistance and the deadtime take of it is a share of the voltage.
    The fit is as good as that share (`close_of_fits`), for both axes one after the
    other. -/

namespace InductanceProofs

open FieldOriented Calibration Commission EstimationProofs DurationProofs StreamRun

variable {K : Type} [Field K] [LinearOrder K] [IsStrictOrderedRing K]

/-! ## The fit -/

/-- The sums are those of an inductance, up to a share of the voltage. -/
structure Fits (inductance share : K) (lse : Lse K) : Prop where
  low : (1 - share) * lse.xxSum ≤ inductance * lse.xySum
  high : inductance * lse.xySum ≤ (1 + share) * lse.xxSum

/-- What was found is off by a share of itself, at most. -/
def Close (inductance share found : K) : Prop := |inductance - found| ≤ share * found

variable {inductance share : K}

omit [IsStrictOrderedRing K] in
theorem fits_new : Fits inductance share .new := by
  constructor <;> simp [Lse.new]

theorem fits_accumulate [FloatOps K] {lse : Lse K} (h : Fits inductance share lse) {x y : K}
    (hx : 0 ≤ x) (hdata : |inductance * y - x| ≤ share * x) :
    Fits inductance share (lse.accumulate x y) := by
  obtain ⟨hlow, hhigh⟩ := abs_le.mp hdata
  rw [Lse.accumulate]
  split
  · have hlow' := mul_le_mul_of_nonneg_left hlow hx
    have hhigh' := mul_le_mul_of_nonneg_left hhigh hx
    constructor
    · show (1 - share) * (lse.xxSum + x * x) ≤ inductance * (lse.xySum + x * y)
      linarith [h.low]
    · show inductance * (lse.xySum + x * y) ≤ (1 + share) * (lse.xxSum + x * x)
      linarith [h.high]
  · exact ⟨h.low, h.high⟩

/-- **FIT**: the reciprocal of the slope is the inductance, up to the share. -/
theorem close_of_fits (hinductance : 0 < inductance) (hshare : share < 1) {lse : Lse K}
    (h : Fits inductance share lse) {minData : Nat} {slope : K}
    (hslope : lse.solve minData = .ok slope) : Close inductance share (1 / slope) := by
  rw [Lse.solve] at hslope
  split_ifs at hslope with hoverflow hfew hdata
  obtain rfl := Except.ok.inj hslope
  have hxx : 0 < lse.xxSum := lt_trans (by norm_num) hdata
  have hproduct : 0 < inductance * lse.xySum :=
    lt_of_lt_of_le (mul_pos (sub_pos.mpr hshare) hxx) h.low
  have hxy : 0 < lse.xySum := (mul_pos_iff_of_pos_left hinductance).mp hproduct
  have hfound : 1 / (lse.xySum / lse.xxSum) = lse.xxSum / lse.xySum := one_div_div ..
  have hsplit : inductance - lse.xxSum / lse.xySum
      = (inductance * lse.xySum - lse.xxSum) / lse.xySum := by
    rw [sub_div, mul_div_cancel_right₀ _ hxy.ne']
  rw [Close, hfound, hsplit, abs_div, abs_of_pos hxy, ← mul_div_assoc,
    div_le_div_iff_of_pos_right hxy, abs_le]
  constructor
  · linarith [h.low]
  · linarith [h.high]

/-! ## The test of an axis -/

/-- The rise of the current since the last iteration. -/
def rise (config : OfflineEstimatorConfig K) (test : EstL K) (data : FocResult K) : K :=
  (test.axis.of data.measuredIDq - test.prevI) / config.dtS

/-- The magnitude of the voltage of the axis. -/
def voltage (test : EstL K) (data : FocResult K) : K := |test.axis.of data.uDq|

/-- A measurement of the square wave.  Where it is taken, the rise of the current is the
    voltage over the inductance, up to a share of that. -/
def Obeys (inductance share : K) (config : OfflineEstimatorConfig K) (test : EstL K)
    (data : FocResult K) : Prop :=
  0 < test.signFlips → ∀ sign, test.appliedSigns = (some sign, some sign) →
    |inductance * (sign * rise config test data) - voltage test data|
      ≤ share * voltage test data

variable [FloatOps K]

theorem fits_sample {config : OfflineEstimatorConfig K} {test : EstL K} {data : FocResult K}
    (h : Fits inductance share test.lse) (hdata : Obeys inductance share config test data) :
    Fits inductance share (test.sample data (rise config test data)) := by
  rw [EstL.sample]
  split
  · rename_i hflips
    split
    · rename_i earlyHalf lateHalf hsigns
      split
      · rename_i hsame
        subst hsame
        exact fits_accumulate h (abs_nonneg _) (hdata hflips earlyHalf hsigns)
      · exact h
    · exact h
  · exact h

/-- What comes after the test of an axis. -/
def Follows (resistance : K) : Axis → OfflineEstimatorState K → Prop
  | .d, next => ∃ test : EstL K,
      next = .estL test ∧ test.axis = .q ∧ test.resistance = resistance ∧ test.lse = .new
  | .q, next => next = .tuningRequired resistance

theorem solve_close (hinductance : 0 < inductance) (hshare : share < 1) {test : EstL K}
    {data : FocResult K} (h : Fits inductance share test.lse)
    {solved : Option (StepResult K)} (hsolved : test.solve data = .ok solved) :
    ∃ found next, solved = some (.estimateL test.axis found next) ∧
      Close inductance share found ∧ Follows test.resistance test.axis next := by
  rw [EstL.solve] at hsolved
  cases hslope : test.lse.solve minSolveSamples with
  | error fault =>
      rw [hslope] at hsolved
      cases hsolved
  | ok slope =>
      rw [hslope] at hsolved
      dsimp only at hsolved
      split at hsolved
      · cases hsolved
      · refine ⟨_, _, (Except.ok.inj hsolved).symm,
          close_of_fits hinductance hshare h hslope, ?_⟩
        cases test.axis with
        | d => exact ⟨_, rfl, rfl, rfl, rfl⟩
        | q => rfl

/-- One iteration of the test. -/
theorem estL_fits (hinductance : 0 < inductance) (hshare : share < 1)
    (config : OfflineEstimatorConfig K) (test : EstL K) (data : FocResult K)
    (h : Fits inductance share test.lse) (hdata : Obeys inductance share config test data) :
    Meets (fun state => ∃ next : EstL K, state = .estL next ∧ next.axis = test.axis ∧
        next.resistance = test.resistance ∧ Fits inductance share next.lse)
      (fun result => ∃ found next, result = .estimateL test.axis found next ∧
        Close inductance share found ∧ Follows test.resistance test.axis next)
      (estLStep test data config) := by
  have hsample := fits_sample h hdata
  obtain ⟨axis, ranS, resistance, sign, signFlips, appliedSigns, prevI, lse⟩ := test
  dsimp only [estLStep]
  split
  · exact trivial
  · split
    · exact trivial
    · split
      · exact ⟨_, rfl, rfl, rfl, hsample⟩
      · split
        · generalize hlast : EstL.mk axis _ _ _ _ _ _ _ = last
          cases hsolved : last.solve data with
          | error fault => exact trivial
          | ok solved =>
              have hfits : Fits inductance share last.lse := by
                rw [← hlast]
                exact hsample
              obtain ⟨found, next, rfl, hclose, hnext⟩ :=
                solve_close hinductance hshare hfits hsolved
              have haxis : last.axis = axis := by rw [← hlast]
              have hresistance : last.resistance = resistance := by rw [← hlast]
              rw [haxis, hresistance] at hnext
              rw [haxis]
              exact ⟨found, next, rfl, hclose, hnext⟩
        · exact ⟨_, rfl, rfl, rfl, hsample⟩

/-! ## The run -/

/-- The parameter that the test of an axis reports. -/
def measured (params : MotorParamsEstimate K) : Axis → Option K
  | .d => params.dInductance
  | .q => params.qInductance

/-- The inductance of the axis has been reported, and is close. -/
def Found (inductance : Axis → K) (share : K) (params : MotorParamsEstimate K)
    (axis : Axis) : Prop :=
  ∃ found, measured params axis = some found ∧ Close (inductance axis) share found

/-- What the tests of the inductances hold, in each of their states. -/
def Holds (inductance : Axis → K) (share resistance : K) (params : MotorParamsEstimate K) :
    OfflineEstimatorState K → Prop
  | .rotorLockWait _ (some known) => known = resistance
  | .estL test => test.resistance = resistance ∧
      Fits (inductance test.axis) share test.lse ∧
      (test.axis = .q → Found inductance share params .d)
  | .tuningRequired known => known = resistance ∧
      Found inductance share params .d ∧ Found inductance share params .q
  | .failure _ => True
  | _ => False

/-- The estimator is in the tests of the inductances, or at their end. -/
structure Tested (inductance : Axis → K) (share resistance : K)
    (config : OfflineEstimatorConfig K) (estimator : OfflineMotorEstimator K) : Prop where
  config_eq : estimator.config = config
  poles : estimator.params.numPolePairs.isSome
  holds : Holds inductance share resistance estimator.params estimator.state

variable [FloorRing K] {inductances : Axis → K} {resistance : K}
  {config : OfflineEstimatorConfig K} {estimator : OfflineMotorEstimator K}
  {data : FocResult K}

omit [IsStrictOrderedRing K] in
theorem tested_rotorLockWait
    (h : Tested inductances share resistance config estimator) {waitedS known : K}
    (hstate : estimator.state = .rotorLockWait waitedS (some known)) :
    Tested inductances share resistance config (estimator.afterFocIteration data) := by
  have hholds := h.holds
  rw [hstate] at hholds
  have hmeets : Meets (fun state => ∃ waitedS, state = .rotorLockWait waitedS (some known))
      (fun result => ∃ test : EstL K, result = .transition (.estL test) ∧ test.axis = .d ∧
        test.resistance = known ∧ test.lse = .new)
      (rotorLockWaitStep waitedS (some known) data estimator.config) := by
    rw [rotorLockWaitStep]
    split
    · exact ⟨_, rfl, rfl, rfl, rfl⟩
    · exact ⟨_, rfl⟩
  refine afterFocIteration_of_meets h.poles (by rw [hstate]; exact hmeets) ?_ ?_ ?_
  · exact fun _ => ⟨h.config_eq, h.poles, trivial⟩
  · rintro state ⟨waitedS, rfl⟩
    exact ⟨h.config_eq, h.poles, hholds⟩
  · rintro result ⟨test, rfl, haxis, hresistance, hnew⟩
    refine ⟨h.config_eq, h.poles, hresistance.trans hholds, ?_, fun hq => ?_⟩
    · rw [hnew]
      exact fits_new
    · rw [haxis] at hq
      cases hq

theorem tested_estL (hinductance : ∀ axis, 0 < inductances axis) (hshare : share < 1)
    (h : Tested inductances share resistance config estimator) {test : EstL K}
    (hstate : estimator.state = .estL test)
    (hdata : Obeys (inductances test.axis) share config test data) :
    Tested inductances share resistance config (estimator.afterFocIteration data) := by
  have hholds := h.holds
  rw [hstate] at hholds
  obtain ⟨hresistance, hfits, hfound⟩ := hholds
  have hmeets := estL_fits (hinductance test.axis) hshare config test data hfits hdata
  refine afterFocIteration_of_meets h.poles
    (by rw [hstate, h.config_eq]; exact hmeets) ?_ ?_ ?_
  · exact fun _ => ⟨h.config_eq, h.poles, trivial⟩
  · rintro state ⟨next, rfl, haxis, hsame, hnext⟩
    refine ⟨h.config_eq, h.poles, hsame.trans hresistance, ?_, fun hq => ?_⟩
    · rw [haxis]
      exact hnext
    · exact hfound (haxis.symm.trans hq)
  · rintro result ⟨found, next, rfl, hclose, hfollows⟩
    cases haxis : test.axis with
    | d =>
        rw [haxis] at hclose hfollows
        obtain ⟨second, rfl, hq, hsame, hnew⟩ := hfollows
        refine ⟨h.config_eq, h.poles, hsame.trans hresistance, ?_, fun _ => ⟨found, rfl, hclose⟩⟩
        rw [hnew]
        exact fits_new
    | q =>
        rw [haxis] at hclose hfollows
        obtain rfl := hfollows
        exact ⟨h.config_eq, h.poles, hresistance, hfound haxis, found, rfl, hclose⟩

/-- An iteration of the estimator stays in the tests. -/
theorem tested_iteration (hinductance : ∀ axis, 0 < inductances axis) (hshare : share < 1)
    (h : Tested inductances share resistance config estimator)
    (hdata : ∀ test, estimator.state = .estL test →
      Obeys (inductances test.axis) share config test data) :
    Tested inductances share resistance config (estimator.afterFocIteration data) := by
  have hholds := h.holds
  cases hstate : estimator.state with
  | rotorLockWait waitedS resistance =>
      rw [hstate] at hholds
      cases resistance with
      | none => exact hholds.elim
      | some known => exact tested_rotorLockWait h hstate
  | estL test => exact tested_estL hinductance hshare h hstate (hdata test hstate)
  | tuningRequired known =>
      have hstep : estimator.state.step data estimator.config
          = (.ok none, .tuningRequired known) := by
        rw [hstate]
        rfl
      rw [hstate] at hholds
      rw [afterFocIteration_none h.poles hstep]
      exact ⟨h.config_eq, h.poles, hholds⟩
  | failure fault =>
      have hstep : estimator.state.step data estimator.config
          = (.ok none, .failure fault) := by
        rw [hstate]
        rfl
      rw [afterFocIteration_none h.poles hstep]
      exact ⟨h.config_eq, h.poles, trivial⟩
  | off | estR | hallCalibrationRequired | estF | rampDown | done =>
      rw [hstate] at hholds
      exact hholds.elim

/-- Iterations alone come to rest, from timers that count from zero. -/
theorem iterations_rest {estimator : OfflineMotorEstimator K}
    (hdt : 0 < estimator.config.dtS) (htimed : Timed estimator.config estimator.state)
    (hactive : Active estimator.state) (data : Nat → FocResult K) :
    ∃ n, n ≤ maxIterations estimator.config ∧
      ∀ m, n ≤ m → AtRest (iterationsFrom estimator data m).state := by
  let I := fun e : OfflineMotorEstimator K =>
    e.config = estimator.config ∧ Timed estimator.config e.state
  have hkeeps : ∀ (e : OfflineMotorEstimator K) d, I e → I (e.afterFocIteration d) := by
    rintro e d ⟨hconfig, he⟩
    rw [← hconfig] at hdt he
    refine ⟨(afterFocIteration_keeps e d).1.trans hconfig, ?_⟩
    rw [← hconfig]
    exact iteration_timed hdt he d
  have hprogress : ∀ (e : OfflineMotorEstimator K) d, I e → Active e.state →
      Progresses estimator.config e.state (e.afterFocIteration d).state := by
    rintro e d ⟨hconfig, he⟩ hgoing
    rw [← hconfig] at hdt he ⊢
    exact iteration_progresses hdt he hgoing d
  obtain ⟨n, hbound, hover, hbefore⟩ := leaves_within (I := I) (fun e => Active e.state)
    (fun e => remaining estimator.config e.state) hkeeps
    (fun e d he hgoing hgoes => (hprogress e d he hgoing).2.elim
      (fun hrest => absurd hgoes (not_active_of_atRest hrest)) And.right)
    (fun e _ he => remaining_pos he) ⟨rfl, htimed⟩ data
  refine ⟨n, hbound.trans (remaining_le hdt htimed), fun m hm => ?_⟩
  refine after_keeps_from (I := fun e : OfflineMotorEstimator K => AtRest e.state)
    (fun e d he => iteration_atRest he d) hm ?_
  cases n with
  | zero => exact absurd hactive hover
  | succ n =>
      rcases (hprogress _ (data n) (after_keeps hkeeps ⟨rfl, htimed⟩ data n)
        (hbefore n (Nat.lt_succ_self n))).2 with hrest | ⟨hgoes, -⟩
      · exact hrest
      · exact absurd hgoes hover

/-- The estimator after the hall calibration was acknowledged and `n` iterations. -/
def estimatorAt (estimator : OfflineMotorEstimator K) (data : Nat → FocResult K) (n : Nat) :
    OfflineMotorEstimator K :=
  iterationsFrom estimator.acknowledgeHallCalibration data n

/-- **INDUCTANCES**: on measurements of a motor, up to a share of the voltage, the tests
    of both axes end, with a fault or with inductances that are off by no more than that
    share of themselves. -/
theorem inductance_test (inductances : Axis → K) (share resistance : K)
    (estimator : OfflineMotorEstimator K) (data : Nat → FocResult K)
    (hinductances : ∀ axis, 0 < inductances axis) (hshare : share < 1)
    (hstate : estimator.state = .hallCalibrationRequired resistance)
    (hpoles : estimator.params.numPolePairs.isSome) (hdt : 0 < estimator.config.dtS)
    (hdata : ∀ n test, (estimatorAt estimator data n).state = .estL test →
      Obeys (inductances test.axis) share estimator.config test (data n)) :
    ∃ n, n ≤ maxIterations estimator.config ∧ ∀ m, n ≤ m →
      (∃ fault, (estimatorAt estimator data m).state = .failure fault) ∨
        (estimatorAt estimator data m).state = .tuningRequired resistance ∧
        ∃ d q, (estimatorAt estimator data m).params.dInductance = some d ∧
          (estimatorAt estimator data m).params.qInductance = some q ∧
          |inductances .d - d| ≤ share * d ∧ |inductances .q - q| ≤ share * q := by
  have hbegin : estimator.acknowledgeHallCalibration
      = { estimator with state := .rotorLockWait 0 (some resistance) } := by
    simp only [OfflineMotorEstimator.acknowledgeHallCalibration, hstate]
  have htested : ∀ n, Tested inductances share resistance estimator.config
      (estimatorAt estimator data n) := by
    intro n
    induction n with
    | zero =>
        show Tested _ _ _ _ estimator.acknowledgeHallCalibration
        rw [hbegin]
        exact ⟨rfl, hpoles, rfl⟩
    | succ n ih => exact tested_iteration hinductances hshare ih (hdata n)
  have hends : ∃ n, n ≤ maxIterations estimator.acknowledgeHallCalibration.config ∧
      ∀ m, n ≤ m → AtRest (estimatorAt estimator data m).state := by
    refine iterations_rest ?_ ?_ ?_ data
    · rw [hbegin]
      exact hdt
    · rw [hbegin]
      exact le_refl (0 : K)
    · rw [hbegin]
      trivial
  obtain ⟨n, hn, hrest⟩ := hends
  rw [hbegin] at hn
  refine ⟨n, hn, fun m hm => ?_⟩
  have hatRest := hrest m hm
  have hholds := (htested m).holds
  cases hend : (estimatorAt estimator data m).state with
  | failure fault => exact .inl ⟨fault, rfl⟩
  | tuningRequired known =>
      rw [hend] at hholds
      obtain ⟨rfl, ⟨d, hd, hdclose⟩, q, hq, hqclose⟩ := hholds
      exact .inr ⟨rfl, d, q, hd, hq, hdclose, hqclose⟩
  | rotorLockWait | estL =>
      rw [hend] at hatRest
      exact hatRest.elim
  | off | estR | hallCalibrationRequired | estF | rampDown | done =>
      rw [hend] at hholds
      exact hholds.elim

/-! ## On the test bench

    An ideal axis: an inductance of one, and one volt of the sign that was applied. -/

/-- What the bench measures: the current of the axis rises with the sign that was
    applied since the last iteration. -/
def observed (estimator : OfflineMotorEstimator ℚ) : FocResult ℚ :=
  match estimator.state with
  | .estL test =>
      let sign := test.appliedSigns.2.getD 0
      { noCurrent with
        measuredIDq := test.axis.vector (test.prevI + sign * estimator.config.dtS)
        uDq := test.axis.vector (sign * |sign|) }
  | _ => noCurrent

/-- One iteration of the estimator on the bench. -/
def turn (estimator : OfflineMotorEstimator ℚ) : OfflineMotorEstimator ℚ :=
  estimator.afterFocIteration (observed estimator)

/-- The estimator on the bench after a number of iterations. -/
def bench (estimator : OfflineMotorEstimator ℚ) (n : Nat) : OfflineMotorEstimator ℚ :=
  turn^[n] estimator.acknowledgeHallCalibration

theorem bench_succ (estimator : OfflineMotorEstimator ℚ) (n : Nat) :
    bench estimator (n + 1) = turn (bench estimator n) :=
  Function.iterate_succ_apply' turn n _

theorem estimatorAt_bench (estimator : OfflineMotorEstimator ℚ) (n : Nat) :
    estimatorAt estimator (fun n => observed (bench estimator n)) n = bench estimator n := by
  induction n with
  | zero => rfl
  | succ n ih =>
      show (estimatorAt estimator _ n).afterFocIteration _ = _
      rw [ih, bench_succ]
      rfl

theorem observed_obeys {estimator : OfflineMotorEstimator ℚ} (hdt : 0 < estimator.config.dtS)
    {test : EstL ℚ} (hstate : estimator.state = .estL test) :
    Obeys 1 0 estimator.config test (observed estimator) := by
  intro _ sign hsigns
  have haxis : ∀ x : ℚ, test.axis.of (test.axis.vector x) = x := by
    intro x
    cases test.axis <;> rfl
  have hrise : rise estimator.config test (observed estimator) = sign := by
    simp only [rise, observed, hstate, hsigns, haxis, Option.getD_some]
    rw [add_sub_cancel_left, mul_div_cancel_right₀ _ hdt.ne']
  have hvoltage : voltage test (observed estimator) = sign * sign := by
    simp only [voltage, observed, hstate, hsigns, haxis, Option.getD_some]
    rw [abs_mul, abs_abs, abs_mul_abs_self]
  rw [hrise, hvoltage, one_mul, sub_self, abs_zero, zero_mul]

/-! ### A whole test -/

/-- A test of two thousand ticks of a second, whose wave flips every other tick. -/
def rig : OfflineEstimatorConfig ℚ := ⟨1, 1, 2002, 1, 1, 1 / 2, 1⟩

/-- An estimator that waits for the hall calibration. -/
def calibratedEstimator : OfflineMotorEstimator ℚ where
  state := .hallCalibrationRequired 1
  params := ⟨some 7, some 1, none, none, none, some 0⟩
  config := rig
  shouldUnwindController := false

/-- An estimator in the test of an axis. -/
def testing (d : Option ℚ) (test : EstL ℚ) : OfflineMotorEstimator ℚ where
  state := .estL test
  params := ⟨some 7, some 1, d, none, none, some 0⟩
  config := rig
  shouldUnwindController := false

/-- A tick of the test that neither fails nor ends it. -/
theorem turn_testing {d : Option ℚ} {test next : EstL ℚ}
    (h : estLStep test (observed (testing d test)) rig = (.ok none, .estL next)) :
    turn (testing d test) = testing d next := by
  have hturn : turn (testing d test) = { testing d test with state := .estL next } :=
    afterFocIteration_none rfl h
  exact hturn

/-- The test where its wave has flipped down for the `k`-th time, and the three ticks
    after that. -/
def wave (axis : Axis) (k : Nat) : Fin 4 → EstL ℚ
  | 0 => ⟨axis, 4 * k + 2, 1, -1, 2 * k + 1, (some 1, some 1), 1, ⟨2 * k, 2 * k, 2 * k, false⟩⟩
  | 1 => ⟨axis, 4 * k + 3, 1, -1, 2 * k + 1, (some 1, some (-1)), 2,
      ⟨2 * k + 1, 2 * k + 1, 2 * k + 1, false⟩⟩
  | 2 => ⟨axis, 4 * k + 4, 1, 1, 2 * k + 2, (some (-1), some (-1)), 1,
      ⟨2 * k + 1, 2 * k + 1, 2 * k + 1, false⟩⟩
  | 3 => ⟨axis, 4 * k + 5, 1, 1, 2 * k + 2, (some (-1), some 1), 0,
      ⟨2 * k + 2, 2 * k + 2, 2 * k + 2, false⟩⟩

variable {d : Option ℚ} {axis : Axis} {k : Nat}

/-- A sample follows the flip down ... -/
theorem turn_down (hk : k < 500) :
    turn (testing d (wave axis k 0)) = testing d (wave axis k 1) := by
  have hk' : (k : ℚ) < 500 := by exact_mod_cast hk
  have hran : ¬ (4004 : ℚ) ≤ 4 * (k : ℚ) + 2 + 1 := by linarith
  refine turn_testing ?_
  cases axis <;>
  · norm_num [estLStep, observed, testing, wave, rig, EstL.sample, Lse.accumulate, Axis.of,
      Axis.vector, estLVoltageMargin, FloatOps.isFinite, hran]
    ring

/-- ... and none the turn of the current, which flips the wave up ... -/
theorem turn_flipUp (hk : k < 500) :
    turn (testing d (wave axis k 1)) = testing d (wave axis k 2) := by
  have hk' : (k : ℚ) < 500 := by exact_mod_cast hk
  have hran : ¬ (4004 : ℚ) ≤ 4 * (k : ℚ) + 3 + 1 := by linarith
  have hodd : ¬ (2 * k + 1) % 2 = 0 := by omega
  refine turn_testing ?_
  cases axis <;>
  · norm_num [estLStep, observed, testing, wave, rig, EstL.sample, Lse.accumulate, Axis.of,
      Axis.vector, estLVoltageMargin, FloatOps.isFinite, hran, hodd]
    ring

/-- ... and so again ... -/
theorem turn_up (hk : k < 500) :
    turn (testing d (wave axis k 2)) = testing d (wave axis k 3) := by
  have hk' : (k : ℚ) < 500 := by exact_mod_cast hk
  have hran : ¬ (4004 : ℚ) ≤ 4 * (k : ℚ) + 4 + 1 := by linarith
  refine turn_testing ?_
  cases axis <;>
  · norm_num [estLStep, observed, testing, wave, rig, EstL.sample, Lse.accumulate, Axis.of,
      Axis.vector, estLVoltageMargin, FloatOps.isFinite, hran]
    constructor <;> ring

/-- ... until the next flip down, as long as the test goes on. -/
theorem turn_flipDown (hk : k + 1 < 500) :
    turn (testing d (wave axis k 3)) = testing d (wave axis (k + 1) 0) := by
  have hk' : (k : ℚ) + 1 < 500 := by exact_mod_cast hk
  have hran : ¬ (4004 : ℚ) ≤ 4 * (k : ℚ) + 5 + 1 := by linarith
  have hgoes : ¬ (2002 : ℚ) ≤ 4 * (k : ℚ) + 5 + 1 := by linarith
  refine turn_testing ?_
  cases axis <;>
  · norm_num [estLStep, observed, testing, wave, rig, EstL.sample, Lse.accumulate, Axis.of,
      Axis.vector, estLVoltageMargin, FloatOps.isFinite, hran, hgoes]
    refine ⟨?_, ?_, ?_, ?_⟩ <;> ring

/-- The periods before the last. -/
theorem turns_wave (d : Option ℚ) (axis : Axis) (hk : k < 500) :
    turn^[4 * k] (testing d (wave axis 0 0)) = testing d (wave axis k 0) := by
  induction k with
  | zero => rfl
  | succ k ih =>
      have hbefore : k < 500 := Nat.lt_of_succ_lt hk
      rw [Nat.mul_succ, Nat.add_comm, Function.iterate_add_apply, ih hbefore]
      show turn (turn (turn (turn _))) = _
      rw [turn_down hbefore, turn_flipUp hbefore, turn_up hbefore, turn_flipDown hk]

/-- The test of an axis from which no current flows. -/
def fresh (axis : Axis) : EstL ℚ := ⟨axis, 0, 1, 1, 0, (none, none), 0, .new⟩

/-- Its first tick, which nothing has been applied on. -/
def begun (axis : Axis) : EstL ℚ := ⟨axis, 1, 1, 1, 0, (none, some 1), 0, .new⟩

theorem turn_fresh (d : Option ℚ) (axis : Axis) :
    turn (testing d (fresh axis)) = testing d (begun axis) := by
  refine turn_testing ?_
  cases axis <;>
  · norm_num [estLStep, observed, testing, fresh, begun, rig, EstL.sample, Axis.of,
      Axis.vector, estLVoltageMargin]

theorem turn_begun (d : Option ℚ) (axis : Axis) :
    turn (testing d (begun axis)) = testing d (wave axis 0 0) := by
  refine turn_testing ?_
  cases axis <;>
  · norm_num [estLStep, observed, testing, begun, wave, rig, EstL.sample, Axis.of, Lse.new,
      Axis.vector, estLVoltageMargin]

/-- **AN AXIS**: its last tick before the solution comes after two thousand. -/
theorem turns_axis (d : Option ℚ) (axis : Axis) :
    turn^[2001] (testing d (fresh axis)) = testing d (wave axis 499 3) := by
  show turn^[3 + 4 * 499 + 2] _ = _
  rw [Function.iterate_add_apply]
  show turn^[3 + 4 * 499] (turn (turn _)) = _
  rw [turn_fresh, turn_begun, Function.iterate_add_apply, turns_wave d axis (by decide)]
  show turn (turn (turn _)) = _
  rw [turn_down (by decide), turn_flipUp (by decide), turn_up (by decide)]

/-- What comes after the test of an axis on the bench. -/
def following : Axis → OfflineEstimatorState ℚ
  | .d => .estL (fresh .q)
  | .q => .tuningRequired 1

/-- The last tick finds the inductance. -/
theorem last_step (d : Option ℚ) (axis : Axis) :
    ∃ state, estLStep (wave axis 499 3) (observed (testing d (wave axis 499 3))) rig
      = (.ok (some (.estimateL axis 1 (following axis))), state) := by
  refine ⟨_, Prod.ext ?_ rfl⟩
  cases axis <;>
  · norm_num [estLStep, observed, testing, wave, rig, following, fresh, EstL.sample, EstL.solve,
      EstL.start, Lse.solve, Lse.new, minSolveSamples, Axis.of, Axis.vector,
      estLVoltageMargin, FloatOps.isFinite]

/-- The estimator after both axes. -/
def measuredEstimator : OfflineMotorEstimator ℚ where
  state := .tuningRequired 1
  params := ⟨some 7, some 1, some 1, some 1, none, some 0⟩
  config := rig
  shouldUnwindController := false

theorem turn_d : turn (testing none (wave .d 499 3)) = testing (some 1) (fresh .q) := by
  obtain ⟨state, hstep⟩ := last_step none .d
  have hturn : turn (testing none (wave .d 499 3))
      = (testing none (wave .d 499 3)).apply (.estimateL .d 1 (following .d)) :=
    afterFocIteration_some rfl hstep
  exact hturn

theorem turn_q : turn (testing (some 1) (wave .q 499 3)) = measuredEstimator := by
  obtain ⟨state, hstep⟩ := last_step (some 1) .q
  have hturn : turn (testing (some 1) (wave .q 499 3))
      = (testing (some 1) (wave .q 499 3)).apply (.estimateL .q 1 (following .q)) :=
    afterFocIteration_some rfl hstep
  exact hturn

/-- The rotor is aligned for a tick. -/
theorem turn_calibratedEstimator :
    turn calibratedEstimator.acknowledgeHallCalibration = testing none (fresh .d) := by
  have hstep : rotorLockWaitStep 0 (some 1) noCurrent rig
      = (.ok (some (.transition (.estL (fresh .d)))), .rotorLockWait (0 + 1) (some 1)) := by
    norm_num [rotorLockWaitStep, rig, EstL.start, fresh, noCurrent, Axis.of]
  have hturn : turn calibratedEstimator.acknowledgeHallCalibration
      = calibratedEstimator.acknowledgeHallCalibration.apply
          (.transition (.estL (fresh .d))) := afterFocIteration_some rfl hstep
  exact hturn

/-- **BOTH AXES** end with the inductance of one, and stay there. -/
theorem bench_ends {n : Nat} (hn : 4005 ≤ n) :
    bench calibratedEstimator n = measuredEstimator := by
  obtain ⟨m, rfl⟩ := Nat.exists_eq_add_of_le' hn
  have hrest : turn measuredEstimator = measuredEstimator := rfl
  show turn^[m + (1 + (2001 + (1 + (2001 + 1))))] _ = _
  rw [Function.iterate_add_apply, Function.iterate_add_apply, Function.iterate_add_apply,
    Function.iterate_add_apply, Function.iterate_add_apply, Function.iterate_one,
    turn_calibratedEstimator, turns_axis, turn_d, turns_axis, turn_q,
    Function.iterate_fixed hrest]

theorem bench_config (n : Nat) :
    (bench calibratedEstimator n).config = calibratedEstimator.config := by
  induction n with
  | zero => rfl
  | succ n ih =>
      rw [bench_succ]
      exact (afterFocIteration_keeps _ _).1.trans ih

/-- The run on the bench takes a thousand samples of each axis, and both inductances are
    found. -/
theorem inductance_test_calibratedEstimator :
    let data := fun n => observed (bench calibratedEstimator n)
    ∃ n, (estimatorAt calibratedEstimator data n).state = .tuningRequired 1 ∧
      ∃ d q, (estimatorAt calibratedEstimator data n).params.dInductance = some d ∧
        (estimatorAt calibratedEstimator data n).params.qInductance = some q ∧
        |1 - d| ≤ 0 * d ∧ |1 - q| ≤ 0 * q := by
  intro data
  have hdata : ∀ n test, (estimatorAt calibratedEstimator data n).state = .estL test →
      Obeys 1 0 calibratedEstimator.config test (data n) := by
    intro n test hstate
    rw [estimatorAt_bench] at hstate
    rw [← bench_config n]
    refine observed_obeys ?_ hstate
    rw [bench_config]
    decide
  obtain ⟨n, -, hn⟩ := inductance_test (fun _ => 1) 0 1 calibratedEstimator data
    (fun _ => one_pos) one_pos rfl rfl (by decide) hdata
  rcases hn (max n 4005) (le_max_left n 4005) with ⟨fault, hfault⟩ | hfound
  · -- the run has not failed
    rw [estimatorAt_bench, bench_ends (le_max_right n 4005)] at hfault
    cases hfault
  · exact ⟨max n 4005, hfound⟩

end InductanceProofs
