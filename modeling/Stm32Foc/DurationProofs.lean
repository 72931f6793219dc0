import Stm32Foc.EstimationProofs
import Stm32Foc.StreamRun
import Mathlib.Algebra.Order.Floor.Ring
import Mathlib.Algebra.Order.Floor.Semiring
import Mathlib.Data.Rat.Floor

/-! # How long a calibration takes

    Every test of the estimator has a timer, and so has the hall calibration.  An
    iteration leaves fewer ticks to the end of the tests (`iteration_progresses`), also
    where a timer starts anew: what is left then is less than what the test had left. -/

namespace DurationProofs

open FieldOriented Calibration Commission EstimationProofs StreamRun

variable {K : Type} [Field K] [LinearOrder K] [FloorRing K]

/-! ## Timers -/

/-- The ticks in which a timer reaches a duration, and the one that sees it. -/
def ticksLeft (dt duration ran : K) : Nat := ⌈(duration - ran) / dt⌉₊ + 1

theorem ticksLeft_pos (dt duration ran : K) : 0 < ticksLeft dt duration ran :=
  Nat.succ_pos _

variable [IsStrictOrderedRing K] {dt duration ran : K}

/-- A tick that does not reach the duration leaves fewer. -/
theorem ticksLeft_lt (hdt : 0 < dt) (h : ran + dt < duration) :
    ticksLeft dt duration (ran + dt) < ticksLeft dt duration ran := by
  have hone : (duration - ran) / dt = (duration - (ran + dt)) / dt + 1 := by
    field_simp
    ring
  have hpos : 0 ≤ (duration - (ran + dt)) / dt :=
    div_nonneg (sub_nonneg.mpr h.le) hdt.le
  rw [ticksLeft, ticksLeft, hone, Nat.ceil_add_one hpos]
  exact Nat.lt_succ_self _

theorem ticksLeft_le (duration : K) (hdt : 0 < dt) (hran : 0 ≤ ran) :
    ticksLeft dt duration ran ≤ ticksLeft dt duration 0 := by
  refine Nat.succ_le_succ (Nat.ceil_mono ?_)
  exact div_le_div_of_nonneg_right (by linarith) hdt.le

/-! ## The tests -/

/-- The states in which the estimator energises the motor. -/
def Active : OfflineEstimatorState K → Prop
  | .rotorLockWait _ _ | .estR _ _ _ _ | .estL _ | .estF _ | .rampDown _ => True
  | _ => False

/-- The states in which it waits for others, or is over. -/
def AtRest : OfflineEstimatorState K → Prop
  | .hallCalibrationRequired _ | .tuningRequired _ | .done | .failure _ => True
  | _ => False

/-- No timer is negative, and the ramp takes as long as a test. -/
def Timed (config : OfflineEstimatorConfig K) : OfflineEstimatorState K → Prop
  | .rotorLockWait waitedS _ => 0 ≤ waitedS
  | .estR _ blockRanS _ _ => 0 ≤ blockRanS
  | .estL test => 0 ≤ test.ranS
  | .estF test => 0 ≤ test.ranS
  | .rampDown ramp => 0 ≤ ramp.ranS ∧ ramp.rampDurationS = config.testTimeS
  | _ => True

variable (config : OfflineEstimatorConfig K)

def measureTicks : Nat :=
  ticksLeft config.dtS (config.testTimeS / (estRBlocks : K)) 0

/-- A block of the resistance test: the approach, and the measuring. -/
def blockTicks : Nat := ticksLeft config.dtS config.testTimeS 0 + measureTicks config

/-- The inductance test of an axis. -/
def axisTicks : Nat := ticksLeft config.dtS (2.0 * config.testTimeS) 0

def rampTicks : Nat := ticksLeft config.dtS config.testTimeS 0

/-- The ticks that are left until the estimator is at rest, at most. -/
def remaining : OfflineEstimatorState K → Nat
  | .rotorLockWait waitedS none =>
      ticksLeft config.dtS config.settleTimeS waitedS + estRBlocks * blockTicks config
  | .rotorLockWait waitedS (some _) =>
      ticksLeft config.dtS config.settleTimeS waitedS + 2 * axisTicks config
  | .estR block blockRanS false _ =>
      ticksLeft config.dtS config.testTimeS blockRanS + measureTicks config
        + (estRBlocks - 1 - block) * blockTicks config
  | .estR block blockRanS true _ =>
      ticksLeft config.dtS (config.testTimeS / (estRBlocks : K)) blockRanS
        + (estRBlocks - 1 - block) * blockTicks config
  | .estL test =>
      ticksLeft config.dtS (2.0 * config.testTimeS) test.ranS
        + (match test.axis with | .d => axisTicks config | .q => 0)
  | .estF test =>
      ticksLeft config.dtS (config.maxSpinTimeS + config.testTimeS) test.ranS
        + rampTicks config
  | .rampDown ramp => ticksLeft config.dtS ramp.rampDurationS ramp.ranS
  | _ => 0

/-- The ticks after which the estimator is at rest, wherever it was. -/
def maxIterations : Nat :=
  ticksLeft config.dtS config.settleTimeS 0 + estRBlocks * blockTicks config
    + 2 * axisTicks config
    + ticksLeft config.dtS (config.maxSpinTimeS + config.testTimeS) 0 + rampTicks config

variable {config}

omit [IsStrictOrderedRing K] in
theorem remaining_pos {state : OfflineEstimatorState K} (h : Active state) :
    0 < remaining config state := by
  cases state with
  | rotorLockWait waitedS resistance =>
      cases resistance <;> exact Nat.add_pos_left (ticksLeft_pos _ _ _) _
  | estR block ran reached levels =>
      cases reached with
      | false => exact Nat.add_pos_left (Nat.add_pos_left (ticksLeft_pos _ _ _) _) _
      | true => exact Nat.add_pos_left (ticksLeft_pos _ _ _) _
  | estL | estF => exact Nat.add_pos_left (ticksLeft_pos _ _ _) _
  | rampDown => exact ticksLeft_pos _ _ _
  | _ => exact h.elim

theorem remaining_le (hdt : 0 < config.dtS) {state : OfflineEstimatorState K}
    (h : Timed config state) : remaining config state ≤ maxIterations config := by
  have hblock : ∀ block, (estRBlocks - 1 - block) * blockTicks config
      ≤ (estRBlocks - 1) * blockTicks config :=
    fun block => Nat.mul_le_mul_right _ (Nat.sub_le _ _)
  have hblocks : estRBlocks * blockTicks config
      = blockTicks config + (estRBlocks - 1) * blockTicks config := by
    rw [estRBlocks]
    omega
  rw [maxIterations]
  cases state with
  | rotorLockWait waitedS resistance =>
      have hlock := ticksLeft_le config.settleTimeS hdt h
      cases resistance <;> rw [remaining] <;> omega
  | estR block ran reached levels =>
      have hleft := hblock block
      have hticks := ticksLeft_le config.testTimeS hdt h
      have hmeasure := ticksLeft_le
        (config.testTimeS / (estRBlocks : K)) hdt h
      rw [← measureTicks] at hmeasure
      have hone : blockTicks config
        = ticksLeft config.dtS config.testTimeS 0 + measureTicks config := rfl
      cases reached <;> rw [remaining] <;> omega
  | estL test =>
      have hticks := ticksLeft_le (2.0 * config.testTimeS) hdt h
      rw [← axisTicks] at hticks
      rw [remaining]
      cases test.axis <;> dsimp only <;> omega
  | estF test =>
      have hticks := ticksLeft_le
        (config.maxSpinTimeS + config.testTimeS) hdt h
      rw [remaining]
      omega
  | rampDown ramp =>
      obtain ⟨hran, hduration⟩ := h
      have hticks := ticksLeft_le config.testTimeS hdt hran
      rw [← rampTicks] at hticks
      rw [remaining, hduration]
      omega
  | _ => exact Nat.zero_le _

/-! ## Iterations -/

/-- The estimator has come to rest, or is nearer to it. -/
def Progresses (config : OfflineEstimatorConfig K)
    (before after : OfflineEstimatorState K) : Prop :=
  Timed config after ∧
    (AtRest after ∨ (Active after ∧ remaining config after < remaining config before))

omit [IsStrictOrderedRing K] in
theorem progresses_failure (before : OfflineEstimatorState K)
    (fault : EstimationStepFault) : Progresses config before (.failure fault) :=
  ⟨trivial, .inl trivial⟩

/-- The state that a result leads to. -/
def following : StepResult K → OfflineEstimatorState K
  | .transition next | .estimateR _ _ next | .estimateL _ _ next | .estimateF next => next
  | .rampDown _ => .done

omit [Field K] [LinearOrder K] [FloorRing K] [IsStrictOrderedRing K] in
theorem apply_state (estimator : OfflineMotorEstimator K) (result : StepResult K) :
    (estimator.apply result).state = following result := by
  cases result <;> rfl

/-- The step of a state faults, or progresses. -/
def StepProgresses [FloatOps K] (config : OfflineEstimatorConfig K)
    (state : OfflineEstimatorState K) (stepped : Stepped K) : Prop :=
  Meets (Progresses config state) (fun result => Progresses config state (following result))
    stepped

variable {data : FocResult K}

/-- A rotor that is aligned leaves the ticks of the tests behind. -/
theorem rotorLockWait_progresses [FloatOps K] (hdt : 0 < config.dtS) {waitedS : K}
    (h : 0 ≤ waitedS) (resistance : Option K) :
    StepProgresses config (.rotorLockWait waitedS resistance)
      (rotorLockWaitStep waitedS resistance data config) := by
  have hpos := ticksLeft_pos config.dtS config.settleTimeS waitedS
  refine (rotorLockWait_meets data config waitedS resistance).mono ?_ ?_
  · rintro state ⟨hwaits, rfl⟩
    have hticks := ticksLeft_lt hdt hwaits
    refine ⟨add_nonneg h hdt.le, .inr ⟨trivial, ?_⟩⟩
    cases resistance <;> rw [remaining, remaining] <;> omega
  · rintro result ⟨next, rfl, hnext⟩
    rw [following]
    cases resistance with
    | none =>
        obtain ⟨levels, rfl⟩ := hnext
        refine ⟨le_refl _, .inr ⟨trivial, ?_⟩⟩
        rw [remaining, remaining, estRBlocks, ← rampTicks]
        have hblock : blockTicks config = rampTicks config + measureTicks config := rfl
        omega
    | some resistance =>
        obtain rfl := hnext
        refine ⟨le_refl _, .inr ⟨trivial, ?_⟩⟩
        rw [remaining, remaining]
        have hstart : ticksLeft config.dtS (2.0 * config.testTimeS)
            (EstL.start .d resistance data).ranS = axisTicks config := rfl
        rw [hstart, EstL.start]
        dsimp only
        omega

theorem approach_progresses [FloatOps K] (hdt : 0 < config.dtS) {ran : K} (h : 0 ≤ ran)
    (block : Nat) (levels : Vector (Mean K) 2) :
    StepProgresses config (.estR block ran false levels)
      (estRApproach block ran levels data config) := by
  rcases estRApproach_cases data config block ran levels with
    ⟨-, he⟩ | he | ⟨hran, he⟩
  · rw [he]
    refine ⟨le_refl _, .inr ⟨trivial, ?_⟩⟩
    have hpos := ticksLeft_pos config.dtS config.testTimeS ran
    rw [remaining, remaining, ← measureTicks]
    omega
  · rw [he]
    trivial
  · rw [he]
    refine ⟨add_nonneg h hdt.le, .inr ⟨trivial, ?_⟩⟩
    have hticks := ticksLeft_lt hdt hran
    rw [remaining, remaining]
    omega

/-- The last block solves for the resistance; another block has the next before it. -/
theorem measure_progresses [FloatOps K] (hdt : 0 < config.dtS) {ran : K} (h : 0 ≤ ran)
    (block : Nat) (levels : Vector (Mean K) 2) :
    StepProgresses config (.estR block ran true levels)
      (estRMeasure block ran levels data config) := by
  obtain ⟨measured, -, ⟨hran, he⟩ | ⟨hmore, he⟩ | he⟩ :=
    estRMeasure_cases data config block ran levels
  · rw [he]
    refine ⟨add_nonneg h hdt.le, .inr ⟨trivial, ?_⟩⟩
    have hticks := ticksLeft_lt hdt hran
    rw [remaining, remaining]
    omega
  · rw [he]
    refine ⟨le_refl _, .inr ⟨trivial, ?_⟩⟩
    have hpos := ticksLeft_pos config.dtS (config.testTimeS / (estRBlocks : K)) ran
    have hblock : blockTicks config
      = ticksLeft config.dtS config.testTimeS 0 + measureTicks config := rfl
    rw [estRBlocks] at hmore
    have hnext : (estRBlocks - 1 - block) * blockTicks config
        = (estRBlocks - 1 - (block + 1)) * blockTicks config + blockTicks config := by
      rw [estRBlocks, ← Nat.succ_mul]
      congr 1
      omega
    rw [remaining, remaining, hnext]
    omega
  · rw [he]
    cases hsolved : estRSolve measured with
    | error fault => trivial
    | ok solved =>
        obtain ⟨resistance, deadtimeRatio, rfl, -⟩ := estRSolve_ok hsolved
        exact ⟨trivial, .inl trivial⟩

/-- After the d axis comes the q axis, and after it the wait for the tuning. -/
theorem estL_progresses [FloatOps K] (hdt : 0 < config.dtS) {test : EstL K}
    (h : 0 ≤ test.ranS) :
    StepProgresses config (.estL test) (estLStep test data config) := by
  refine (estL_meets data config test).mono ?_ ?_
  · rintro state ⟨next, rfl, haxis, hran, hless⟩
    rw [hran] at hless
    refine ⟨?_, .inr ⟨trivial, ?_⟩⟩
    · rw [Timed, hran]
      exact add_nonneg h hdt.le
    · have hticks := ticksLeft_lt hdt hless
      rw [remaining, remaining, haxis, hran]
      omega
  · rintro result ⟨inductance, next, rfl, -, -, hnext⟩
    rw [following]
    have hpos := ticksLeft_pos config.dtS (2.0 * config.testTimeS) test.ranS
    cases haxis : test.axis with
    | d =>
        rw [haxis] at hnext
        obtain ⟨test', rfl, hq, hran⟩ := hnext
        refine ⟨?_, .inr ⟨trivial, ?_⟩⟩
        · rw [Timed, hran]
        · rw [remaining, remaining, haxis, hq, hran, ← axisTicks]
          dsimp only
          omega
    | q =>
        rw [haxis] at hnext
        obtain ⟨resistance, rfl⟩ := hnext
        exact ⟨trivial, .inl trivial⟩

omit [FloorRing K] [IsStrictOrderedRing K] in
theorem timed_rampDown_of_start {ramp : RampDown K} (hran : ramp.ranS = 0)
    (hduration : ramp.rampDurationS = config.testTimeS) : Timed config (.rampDown ramp) := by
  rw [Timed, hran]
  exact ⟨le_refl _, hduration⟩

/-- After the rotation comes the ramp. -/
theorem estF_progresses [FloatOps K] (hdt : 0 < config.dtS) {test : EstF K}
    (h : 0 ≤ test.ranS) :
    StepProgresses config (.estF test) (estFStep test data config) := by
  refine (estF_meets data config test).mono ?_ ?_
  · rintro state ⟨next, rfl, hran, hless⟩
    rw [hran] at hless
    refine ⟨?_, .inr ⟨trivial, ?_⟩⟩
    · rw [Timed, hran]
      exact add_nonneg h hdt.le
    · have hticks := ticksLeft_lt hdt hless
      rw [remaining, remaining, hran]
      omega
  · rintro result ⟨ramp, rfl, hran, hduration⟩
    rw [following]
    refine ⟨timed_rampDown_of_start hran hduration, .inr ⟨trivial, ?_⟩⟩
    have hpos := ticksLeft_pos config.dtS (config.maxSpinTimeS + config.testTimeS) test.ranS
    rw [remaining, remaining, hran, hduration, ← rampTicks]
    omega

/-- After the ramp the estimation is done. -/
theorem rampDown_progresses [FloatOps K] (hdt : 0 < config.dtS) {ramp : RampDown K}
    (h : Timed config (.rampDown ramp)) :
    StepProgresses config (.rampDown ramp) (rampDownStep ramp config) := by
  obtain ⟨hran, hduration⟩ := h
  refine (rampDown_meets config ramp).mono ?_ ?_
  · rintro state ⟨next, rfl, hnext, hsame, hless⟩
    rw [hnext] at hless
    refine ⟨?_, .inr ⟨trivial, ?_⟩⟩
    · rw [Timed, hnext]
      exact ⟨add_nonneg hran hdt.le, hsame.trans hduration⟩
    · rw [remaining, remaining, hnext, hsame]
      exact ticksLeft_lt hdt hless
  · rintro result ⟨pmFluxLinkage, rfl, -⟩
    exact ⟨trivial, .inl trivial⟩

/-! ## Iterations -/

section Iterations

variable [FloatOps K] {estimator : OfflineMotorEstimator K}

/-- **STEP LEMMA**: an iteration that energises the motor brings the estimator nearer to
    rest, whatever it measures. -/
theorem iteration_progresses (hdt : 0 < estimator.config.dtS)
    (htimed : Timed estimator.config estimator.state) (hactive : Active estimator.state)
    (data : FocResult K) :
    Progresses estimator.config estimator.state (estimator.afterFocIteration data).state := by
  by_cases hpoles : estimator.params.numPolePairs.isSome
  · have hstep : StepProgresses estimator.config estimator.state
        (estimator.state.step data estimator.config) := by
      cases hstate : estimator.state with
      | rotorLockWait waitedS resistance =>
          rw [hstate] at htimed
          exact rotorLockWait_progresses hdt htimed resistance
      | estR block ran reached levels =>
          rw [hstate] at htimed
          cases reached with
          | false => exact approach_progresses hdt htimed block levels
          | true => exact measure_progresses hdt htimed block levels
      | estL test =>
          rw [hstate] at htimed
          exact estL_progresses hdt htimed
      | estF test =>
          rw [hstate] at htimed
          exact estF_progresses hdt htimed
      | rampDown ramp =>
          rw [hstate] at htimed
          exact rampDown_progresses hdt htimed
      | _ =>
          rw [hstate] at hactive
          exact hactive.elim
    refine afterFocIteration_of_meets
      (R := fun e => Progresses estimator.config estimator.state e.state) hpoles hstep
      (progresses_failure _) (fun state h => h) ?_
    intro result h
    rw [apply_state]
    exact h
  · have hfails : (estimator.afterFocIteration data).state = .failure .missingParameter := by
      have hnone := Option.not_isSome_iff_eq_none.mp hpoles
      simp only [OfflineMotorEstimator.afterFocIteration, hnone, Option.isNone_none, if_true,
        OfflineEstimatorState.step]
    rw [hfails]
    exact progresses_failure _ _

omit [IsStrictOrderedRing K] in
/-- An iteration that energises nothing leaves the state, or fails. -/
theorem iteration_waiting (hwaiting : ¬ Active estimator.state) (data : FocResult K) :
    (estimator.afterFocIteration data).state = estimator.state ∨
      ∃ fault, (estimator.afterFocIteration data).state = .failure fault := by
  by_cases hpoles : estimator.params.numPolePairs.isSome
  · refine .inl ?_
    have hstep : estimator.state.step data estimator.config
        = (.ok none, estimator.state) := by
      cases hstate : estimator.state with
      | rotorLockWait | estR | estL | estF | rampDown =>
          rw [hstate] at hwaiting
          exact absurd trivial hwaiting
      | _ => rfl
    rw [afterFocIteration_none hpoles hstep]
  · have hnone := Option.not_isSome_iff_eq_none.mp hpoles
    refine .inr ⟨.missingParameter, ?_⟩
    simp only [OfflineMotorEstimator.afterFocIteration, hnone, Option.isNone_none, if_true,
      OfflineEstimatorState.step]

omit [Field K] [LinearOrder K] [FloorRing K] [IsStrictOrderedRing K] [FloatOps K] in
theorem not_active_of_atRest {state : OfflineEstimatorState K} (h : AtRest state) :
    ¬ Active state := by
  cases state with
  | rotorLockWait | estR | estL | estF | rampDown => exact h.elim
  | _ => exact fun hactive => hactive

theorem iteration_timed (hdt : 0 < estimator.config.dtS)
    (htimed : Timed estimator.config estimator.state) (data : FocResult K) :
    Timed estimator.config (estimator.afterFocIteration data).state := by
  by_cases hactive : Active estimator.state
  · exact (iteration_progresses hdt htimed hactive data).1
  · rcases iteration_waiting hactive data with h | ⟨fault, h⟩
    · rw [h]
      exact htimed
    · rw [h]
      trivial

omit [IsStrictOrderedRing K] in
theorem iteration_atRest (h : AtRest estimator.state) (data : FocResult K) :
    AtRest (estimator.afterFocIteration data).state := by
  rcases iteration_waiting (not_active_of_atRest h) data with hsame | ⟨fault, hfails⟩
  · rw [hsame]
    exact h
  · rw [hfails]
    trivial

/-! ## Runs -/

/-- An estimator with a configuration, after any calls; its parameters are for
    everyone to write. -/
inductive Reachable (config : OfflineEstimatorConfig K) : OfflineMotorEstimator K → Prop
  | new (numPolePairs : UInt8) : Reachable config (.new config numPolePairs)
  | reset (e : OfflineMotorEstimator K) (h : Reachable config e) : Reachable config e.reset
  | start (e : OfflineMotorEstimator K) (h : Reachable config e) (numPolePairs : UInt8) :
      Reachable config (e.start numPolePairs)
  | iteration (e : OfflineMotorEstimator K) (h : Reachable config e) (data : FocResult K) :
      Reachable config (e.afterFocIteration data)
  | acknowledgeHall (e : OfflineMotorEstimator K) (h : Reachable config e) :
      Reachable config e.acknowledgeHallCalibration
  | acknowledgeUnwind (e : OfflineMotorEstimator K) (h : Reachable config e) :
      Reachable config e.acknowledgeUnwindRequest
  | acknowledgeTuning (e : OfflineMotorEstimator K) (h : Reachable config e) :
      Reachable config e.acknowledgeTuningRequest
  | params (e : OfflineMotorEstimator K) (h : Reachable config e)
      (params : MotorParamsEstimate K) : Reachable config { e with params := params }

omit [FloorRing K] [IsStrictOrderedRing K] [FloatOps K] in
/-- The acknowledgements start the timers anew, or leave the state. -/
theorem acknowledge_timed (htimed : Timed estimator.config estimator.state) :
    Timed estimator.config estimator.acknowledgeHallCalibration.state ∧
      Timed estimator.config estimator.acknowledgeTuningRequest.state := by
  refine ⟨?_, ?_⟩
  · rw [OfflineMotorEstimator.acknowledgeHallCalibration]
    split
    · exact le_refl (0 : K)
    · exact htimed
  · rw [OfflineMotorEstimator.acknowledgeTuningRequest]
    split
    · dsimp only
      split
      · exact le_refl (0 : K)
      · trivial
    · exact htimed

omit [LinearOrder K] [FloorRing K] [IsStrictOrderedRing K] [FloatOps K] in
theorem acknowledge_config (estimator : OfflineMotorEstimator K) :
    estimator.acknowledgeHallCalibration.config = estimator.config ∧
      estimator.acknowledgeTuningRequest.config = estimator.config := by
  refine ⟨?_, ?_⟩
  · rw [OfflineMotorEstimator.acknowledgeHallCalibration]
    split <;> rfl
  · rw [OfflineMotorEstimator.acknowledgeTuningRequest]
    split <;> rfl

/-- **INVARIANT**: the configuration stays, and every timer counts from zero. -/
theorem reachable_timed (hdt : 0 < config.dtS) (h : Reachable config estimator) :
    estimator.config = config ∧ Timed config estimator.state := by
  induction h with
  | new numPolePairs => exact ⟨rfl, trivial⟩
  | reset e h ih => exact ⟨ih.1, trivial⟩
  | start e h numPolePairs ih => exact ⟨ih.1, le_refl (0 : K)⟩
  | iteration e h data ih =>
      obtain ⟨rfl, htimed⟩ := ih
      obtain ⟨hconfig, -⟩ := afterFocIteration_keeps e data
      exact ⟨hconfig, iteration_timed hdt htimed data⟩
  | acknowledgeHall e h ih =>
      obtain ⟨rfl, htimed⟩ := ih
      exact ⟨(acknowledge_config e).1, (acknowledge_timed htimed).1⟩
  | acknowledgeUnwind e h ih => exact ih
  | acknowledgeTuning e h ih =>
      obtain ⟨rfl, htimed⟩ := ih
      exact ⟨(acknowledge_config e).2, (acknowledge_timed htimed).2⟩
  | params e h params ih => exact ih

/-- The estimator after a number of iterations. -/
def iterationsFrom (estimator : OfflineMotorEstimator K) (data : Nat → FocResult K)
    (n : Nat) : OfflineMotorEstimator K :=
  after OfflineMotorEstimator.afterFocIteration estimator data n

/-- The tests are over after a bounded number of iterations. -/
theorem tests_end (hdt : 0 < config.dtS) (hreachable : Reachable config estimator)
    (hactive : Active estimator.state) (data : Nat → FocResult K) :
    ∃ n, n ≤ maxIterations config ∧
      (∀ m, m < n → Active (iterationsFrom estimator data m).state) ∧
      ∀ m, n ≤ m → AtRest (iterationsFrom estimator data m).state := by
  have hkeeps : ∀ (e : OfflineMotorEstimator K) d, Reachable config e →
      Reachable config (e.afterFocIteration d) := fun e d h => h.iteration e d
  -- each iteration of an active state pays with its remaining ticks
  obtain ⟨n, hbound, hover, hbefore⟩ := leaves_within (I := Reachable config)
    (fun e : OfflineMotorEstimator K => Active e.state) (fun e => remaining config e.state)
    hkeeps
    (by
      intro e d h he he'
      obtain ⟨rfl, htimed⟩ := reachable_timed hdt h
      rcases (iteration_progresses hdt htimed he d).2 with hrest | ⟨-, hless⟩
      · exact absurd he' (not_active_of_atRest hrest)
      · exact hless)
    (fun e _ he => remaining_pos he) hreachable data
  obtain ⟨hconfig, htimed⟩ := reachable_timed hdt hreachable
  refine ⟨n, hbound.trans (remaining_le hdt htimed), hbefore, ?_⟩
  intro m hle
  refine after_keeps_from (I := fun e : OfflineMotorEstimator K => AtRest e.state)
    (fun e d he => iteration_atRest he d) hle ?_
  -- the last active state came to rest
  cases n with
  | zero => exact absurd hactive hover
  | succ n =>
      have hreachable' := after_keeps hkeeps hreachable data n
      obtain ⟨hconfig', htimed'⟩ := reachable_timed hdt hreachable'
      rw [← hconfig'] at hdt htimed'
      rcases (iteration_progresses hdt htimed' (hbefore n (Nat.lt_succ_self n))
        (data n)).2 with hrest | ⟨hgoes, -⟩
      · exact hrest
      · exact absurd hgoes hover

end Iterations

/-! ## The hall calibration -/

section HallCalibration

variable {H P : Type} [HallCalibrates H K] [EstimatesMotorParams P K]

/-- A runner after any calls; the current loop has its estimator to write. -/
inductive RunnerReachable (targets : CalibrationTargets K) (dtS : K) :
    CalibrationRunner K H P → Prop
  | new (numPolePairs : UInt8) (hasHall : Bool) :
      RunnerReachable targets dtS (.new numPolePairs targets hasHall dtS)
  | step (r : CalibrationRunner K H P) (h : RunnerReachable targets dtS r)
      (inputs : CalibrationInputs K) : RunnerReachable targets dtS (r.step inputs).2
  | resume (r : CalibrationRunner K H P) (h : RunnerReachable targets dtS r) :
      RunnerReachable targets dtS r.resume
  | estimator (r : CalibrationRunner K H P) (h : RunnerReachable targets dtS r) (e : P) :
      RunnerReachable targets dtS { r with motorEstimator := e }

/-- The result of a step. -/
def resultOf (runner : CalibrationRunner K H P) (inputs : CalibrationInputs K) :
    Option (StageResult K) := (runner.step inputs).1.2

/-- The runner after a number of steps. -/
def runnerAt (runner : CalibrationRunner K H P) (inputs : Nat → CalibrationInputs K)
    (n : Nat) : CalibrationRunner K H P :=
  after (fun r input => (r.step input).2) runner inputs n

/-- What ends the hall calibration: an angle table, or a failure. -/
def EndsHall (result : Option (StageResult K)) : Prop :=
  (∃ table, result = some (.hallCalibration table)) ∨ ∃ cause, result = some (.failure cause)

variable {runner : CalibrationRunner K H P} {timePassedS : K}

omit [FloorRing K] [IsStrictOrderedRing K] in
/-- A step of the hall calibration ends it, or counts a tick that is in time. -/
theorem hallStep_cases (hphase : runner.phase = .hallCalibration timePassedS)
    (inputs : CalibrationInputs K) :
    (runner.step inputs).2.config = runner.config ∧
    (EndsHall (resultOf runner inputs) ∨
      (timePassedS + runner.config.dtS ≤ runner.config.hallTimeoutS ∧
        resultOf runner inputs = none ∧
        (runner.step inputs).2.phase
          = .hallCalibration (timePassedS + runner.config.dtS))) := by
  simp only [resultOf, CalibrationRunner.step, hphase, CalibrationRunner.hallCalibrationStep]
  split
  · exact ⟨rfl, .inl (.inr ⟨_, rfl⟩)⟩
  · rename_i htime
    split
    · exact ⟨rfl, .inl (.inl ⟨_, rfl⟩)⟩
    · split
      · exact ⟨rfl, .inr ⟨not_lt.mp htime, rfl, rfl⟩⟩
      · exact ⟨rfl, .inl (.inr ⟨_, rfl⟩)⟩

omit [FloorRing K] [IsStrictOrderedRing K] in
/-- While no step ends it the hall calibration counts the time. -/
theorem runnerAt_counts (hphase : runner.phase = .hallCalibration timePassedS)
    (inputs : Nat → CalibrationInputs K) (n : Nat)
    (hnone : ∀ m, m < n → resultOf (runnerAt runner inputs m) (inputs m) = none) :
    (runnerAt runner inputs n).config = runner.config ∧
    (runnerAt runner inputs n).phase
      = .hallCalibration (timePassedS + n * runner.config.dtS) := by
  induction n with
  | zero =>
      rw [Nat.cast_zero, zero_mul, add_zero]
      exact ⟨rfl, hphase⟩
  | succ n ih =>
      obtain ⟨hconfig, hcounts⟩ := ih (fun m hm => hnone m (Nat.lt_succ_of_lt hm))
      obtain ⟨hkeeps, hends | ⟨-, -, hnext⟩⟩ := hallStep_cases hcounts (inputs n)
      · rw [hnone n (Nat.lt_succ_self n)] at hends
        rcases hends with ⟨table, h⟩ | ⟨cause, h⟩
        · cases h
        · cases h
      · rw [hconfig] at hkeeps hnext
        refine ⟨hkeeps, ?_⟩
        rw [runnerAt, after_succ, ← runnerAt, hnext, Nat.cast_succ]
        congr 1
        ring

/-- The steps after which the hall calibration has timed out. -/
def maxHallSteps (dtS : K) : Nat := ⌊hallCalibrationTimeoutS / dtS⌋₊

omit [FloorRing K] [IsStrictOrderedRing K] in
/-- No step changes the configuration, and the time passed of the hall calibration
    goes on by a tick, or starts at zero. -/
theorem step_phase (runner : CalibrationRunner K H P) (inputs : CalibrationInputs K) :
    (runner.step inputs).2.config = runner.config ∧
    ∀ passed, (runner.step inputs).2.phase = .hallCalibration passed →
      passed = 0 ∨ ∃ before, runner.phase = .hallCalibration before ∧
        passed = before + runner.config.dtS := by
  simp only [CalibrationRunner.step]
  cases hphase : runner.phase with
  | hallCalibration before =>
      simp only [CalibrationRunner.hallCalibrationStep]
      split_ifs
      · exact ⟨rfl, fun passed h =>
          .inr ⟨before, rfl, (CalibrationPhase.hallCalibration.inj h).symm⟩⟩
      · exact ⟨rfl, fun passed h => by cases h⟩
      · split <;>
          exact ⟨rfl, fun passed h =>
            .inr ⟨before, rfl, (CalibrationPhase.hallCalibration.inj h).symm⟩⟩
  | motorEstimation =>
      simp only [CalibrationRunner.motorEstimationStep]
      split
      · exact ⟨rfl, fun passed h => by cases h⟩
      · split_ifs
        · exact ⟨rfl, fun passed h => by cases h⟩
        · exact ⟨rfl, fun passed h => by rw [hphase] at h; cases h⟩
        · exact ⟨rfl, fun passed h => by cases h⟩
        · exact ⟨rfl, fun passed h => .inl (CalibrationPhase.hallCalibration.inj h).symm⟩
        · exact ⟨rfl, fun passed h => by rw [hphase] at h; cases h⟩
        · exact ⟨rfl, fun passed h => by rw [hphase] at h; cases h⟩
  | _ => exact ⟨rfl, fun passed h => by rw [hphase] at h; cases h⟩

omit [FloorRing K] in
/-- **INVARIANT**: the configuration stays, and the time passed is not negative. -/
theorem runner_timed {targets : CalibrationTargets K} {dtS : K} (hdt : 0 < dtS)
    (h : RunnerReachable targets dtS runner) :
    runner.config = CalibrationConfig.new targets dtS ∧
      ∀ timePassedS, runner.phase = .hallCalibration timePassedS → 0 ≤ timePassedS := by
  induction h with
  | new numPolePairs hasHall => exact ⟨rfl, fun _ h => by cases h⟩
  | step r h inputs ih =>
      obtain ⟨hconfig, hpassed⟩ := ih
      obtain ⟨hsame, hphase⟩ := step_phase r inputs
      refine ⟨hsame.trans hconfig, fun passed hat => ?_⟩
      rcases hphase passed hat with rfl | ⟨before, hbefore, rfl⟩
      · exact le_refl 0
      · have hdtS : r.config.dtS = dtS := by rw [hconfig]; rfl
        rw [hdtS]
        exact add_nonneg (hpassed before hbefore) hdt.le
  | resume r h ih =>
      obtain ⟨hconfig, hpassed⟩ := ih
      rw [CalibrationRunner.resume]
      cases hphase : r.phase with
      | clearingExistingParameters | waitingHallCompletion | waitingTuning =>
          exact ⟨hconfig, fun passed hat => by cases hat⟩
      | _ => exact ⟨hconfig, hpassed⟩
  | estimator r h e ih => exact ih

/-- The hall calibration ends after a bounded number of steps. -/
theorem hall_ends {targets : CalibrationTargets K} {dtS : K} (hdt : 0 < dtS)
    (hreachable : RunnerReachable targets dtS runner)
    (hphase : runner.phase = .hallCalibration timePassedS)
    (inputs : Nat → CalibrationInputs K) :
    ∃ n, n ≤ maxHallSteps dtS ∧
      EndsHall (resultOf (runnerAt runner inputs n) (inputs n)) ∧
      ∀ m, m < n → resultOf (runnerAt runner inputs m) (inputs m) = none := by
  classical
  obtain ⟨hconfig, hpassed⟩ := runner_timed hdt hreachable
  have hstart := hpassed timePassedS hphase
  have hdtS : runner.config.dtS = dtS := by rw [hconfig]; rfl
  have htimeout : runner.config.hallTimeoutS = hallCalibrationTimeoutS := by
    rw [hconfig]
    rfl
  -- the timeout ends it, if nothing else does
  have hsome : ∃ n, n ≤ maxHallSteps dtS ∧
      resultOf (runnerAt runner inputs n) (inputs n) ≠ none := by
    by_contra hall
    have hnone : ∀ m, m ≤ maxHallSteps dtS →
        resultOf (runnerAt runner inputs m) (inputs m) = none :=
      fun m hm => not_not.mp (fun h => hall ⟨m, hm, h⟩)
    obtain ⟨hsame, hcounts⟩ := runnerAt_counts hphase inputs (maxHallSteps dtS)
      (fun m hm => hnone m hm.le)
    obtain ⟨-, hends | ⟨hintime, -, -⟩⟩ := hallStep_cases hcounts (inputs (maxHallSteps dtS))
    · rw [hnone _ (Nat.le_refl _)] at hends
      rcases hends with ⟨table, h⟩ | ⟨cause, h⟩
      · cases h
      · cases h
    · rw [hsame, hdtS, htimeout] at hintime
      have hlate := Nat.lt_floor_add_one (hallCalibrationTimeoutS / dtS : K)
      rw [div_lt_iff₀ hdt, ← maxHallSteps, add_one_mul] at hlate
      linarith
  have hfind := Nat.find_spec hsome
  have hbefore : ∀ m, m < Nat.find hsome →
      resultOf (runnerAt runner inputs m) (inputs m) = none := by
    intro m hm
    by_contra h
    exact Nat.find_min hsome hm ⟨hm.le.trans hfind.1, h⟩
  refine ⟨Nat.find hsome, hfind.1, ?_, hbefore⟩
  obtain ⟨-, hcounts⟩ := runnerAt_counts hphase inputs (Nat.find hsome) hbefore
  obtain ⟨-, hends | ⟨-, hnone, -⟩⟩ := hallStep_cases hcounts (inputs (Nat.find hsome))
  · exact hends
  · exact absurd hnone hfind.2

end HallCalibration

/-- **EVERY STAGE ENDS**: the estimator energises the motor for no more iterations than
    its configuration says, and is at rest behind them; and the hall calibration has an
    angle table or a failure after no more steps than its timeout has ticks, whatever is
    measured. -/
theorem calibration_ends [FloatOps K] {H P : Type} [HallCalibrates H K]
    [EstimatesMotorParams P K] (config : OfflineEstimatorConfig K)
    (targets : CalibrationTargets K) (hdt : 0 < config.dtS) :
    (∀ estimator : OfflineMotorEstimator K, Reachable config estimator →
      Active estimator.state → ∀ data : Nat → FocResult K,
      ∃ n, n ≤ maxIterations config ∧
        (∀ m, m < n → Active (iterationsFrom estimator data m).state) ∧
        ∀ m, n ≤ m → AtRest (iterationsFrom estimator data m).state) ∧
    (∀ runner : CalibrationRunner K H P, RunnerReachable targets config.dtS runner →
      ∀ timePassedS, runner.phase = .hallCalibration timePassedS →
      ∀ inputs : Nat → CalibrationInputs K,
      ∃ n, n ≤ maxHallSteps config.dtS ∧
        EndsHall (resultOf (runnerAt runner inputs n) (inputs n)) ∧
        ∀ m, m < n → resultOf (runnerAt runner inputs m) (inputs m) = none) :=
  ⟨fun _ hreachable hactive data => tests_end hdt hreachable hactive data,
    fun _ hreachable _ hphase inputs => hall_ends hdt hreachable hphase inputs⟩

/-- Tests of ten ticks. -/
def shortTests : OfflineEstimatorConfig ℚ := ⟨1, 10, 10, 10, 1, 2, 10⟩

/-- A measurement without any current. -/
def noCurrent : FocResult ℚ where
  thetaE := 0
  omegaE := 0
  dcBusVoltageV := 20
  dutyCycles := ⟨0, 0, 0⟩
  voltageHexagonSector := 1
  measuredIAb := ⟨0, 0⟩
  measuredIDq := ⟨0, 0⟩
  targetIDq := ⟨0, 0⟩
  uDq := ⟨0, 0⟩
  uAb := ⟨0, 0⟩
  isInjecting := false
  hfiIDq := ⟨0, 0⟩
  hfiParams := ⟨0, 0, 0⟩

/-- Started with no motor connected, the estimator is soon at rest. -/
theorem calibration_ends_noMotor :
    ∃ n, n ≤ maxIterations shortTests ∧
      (∀ m, m < n → Active
        (iterationsFrom ((OfflineMotorEstimator.new shortTests 7).start 7)
          (fun _ => noCurrent) m).state) ∧
      ∀ m, n ≤ m → AtRest
        (iterationsFrom ((OfflineMotorEstimator.new shortTests 7).start 7)
          (fun _ => noCurrent) m).state :=
  (calibration_ends (H := MockHall ℚ) (P := MockEstimator ℚ) shortTests ⟨1, 1, 10, 2⟩
    (by decide)).1 _ ((Reachable.new 7).start _ 7) trivial (fun _ => noCurrent)

end DurationProofs
