import Stm32Foc.MotorEstimation

/-! # What the estimator has found

    The estimator goes through its tests in one order, and each adds what the next
    needs.  `Sound` says what is known of the motor in each state; an iteration
    keeps it, and moves on by one test at most. -/

namespace EstimationProofs

open FieldOriented Calibration Commission

variable {K : Type} [Field K] [LinearOrder K] [FloatOps K]

/-! ## What is known -/

/-- The parameter is there, finite and positive. -/
def Positive (param : Option K) : Prop :=
  ∃ value, param = some value ∧ FloatOps.isFinite value = true ∧ 0 < value

/-- What the tests at standstill need of each other. -/
structure Resistive (params : MotorParamsEstimate K) : Prop where
  numPolePairs : params.numPolePairs.isSome
  statorResistance : Positive params.statorResistance
  deadtimeRatio : params.deadtimeRatio.isSome

/-- What a tuning request carries. -/
structure Tunable (params : MotorParamsEstimate K) : Prop extends Resistive params where
  dInductance : Positive params.dInductance
  qInductance : Positive params.qInductance

/-- What the result of the estimation carries. -/
structure Complete (params : MotorParamsEstimate K) : Prop extends Tunable params where
  pmFluxLinkage : Positive params.pmFluxLinkage

/-- What is known in a state. -/
def Known (params : MotorParamsEstimate K) : OfflineEstimatorState K → Prop
  | .hallCalibrationRequired _ => Resistive params
  | .rotorLockWait _ (some _) => Resistive params
  | .estL test =>
      Resistive params ∧ (test.axis = .q → Positive params.dInductance)
  | .tuningRequired _ => Tunable params
  | .estF _ => Tunable params
  | .rampDown _ => Tunable params
  | .done => Complete params
  | _ => True

/-- The number of pole pairs is known, and so is what the state needs. -/
structure Sound (estimator : OfflineMotorEstimator K) : Prop where
  numPolePairs : estimator.params.numPolePairs.isSome
  known : Known estimator.params estimator.state

/-! ## Positions -/

/-- How far the estimation is. -/
inductive Position where
  | off
  | resistance
  | hallRequired
  | inductance
  | tuningRequired
  | flux
  | done
  | failed
  deriving DecidableEq, Repr

def position : OfflineEstimatorState K → Position
  | .off => .off
  | .rotorLockWait _ none => .resistance
  | .rotorLockWait _ (some _) => .inductance
  | .estR _ _ _ _ => .resistance
  | .estL _ => .inductance
  | .hallCalibrationRequired _ => .hallRequired
  | .tuningRequired _ => .tuningRequired
  | .estF _ => .flux
  | .rampDown _ => .flux
  | .failure _ => .failed
  | .done => .done

/-- Where the estimator is, and whether it asks to unwind. -/
def place (estimator : OfflineMotorEstimator K) : Position × Bool :=
  (position estimator.state, estimator.shouldUnwindController)

/-- How an iteration moves: the resistance and the end of the estimation ask to
    unwind, as every fault does. -/
inductive Moves : Position × Bool → Position × Bool → Prop where
  | stays (here : Position × Bool) : Moves here here
  | measured (unwind : Bool) : Moves (.resistance, unwind) (.hallRequired, true)
  | tunable (unwind : Bool) : Moves (.inductance, unwind) (.tuningRequired, unwind)
  | estimated (unwind : Bool) : Moves (.flux, unwind) (.done, true)
  | fails (test : Position) (unwind : Bool)
      (htest : test = .resistance ∨ test = .inductance ∨ test = .flux) :
      Moves (test, unwind) (.failed, true)

/-- Where nothing is tested an iteration moves nothing. -/
theorem Moves.eq_of_waiting {here there : Position × Bool} (h : Moves here there)
    (hwaiting : here.1 ≠ .resistance ∧ here.1 ≠ .inductance ∧ here.1 ≠ .flux) :
    there = here := by
  cases h with
  | stays => rfl
  | measured => exact absurd rfl hwaiting.1
  | tunable => exact absurd rfl hwaiting.2.1
  | estimated => exact absurd rfl hwaiting.2.2
  | fails test unwind htest =>
      rcases htest with rfl | rfl | rfl
      · exact absurd rfl hwaiting.1
      · exact absurd rfl hwaiting.2.1
      · exact absurd rfl hwaiting.2.2

/-! ## Steps of the states -/

/-- The step faults, leaves a state that meets `P`, or gives a result that meets
    `Q`. -/
def Meets (P : OfflineEstimatorState K → Prop) (Q : StepResult K → Prop) :
    Stepped K → Prop
  | (.error _, _) => True
  | (.ok none, state) => P state
  | (.ok (some result), _) => Q result

omit [Field K] [LinearOrder K] [FloatOps K] in
theorem Meets.mono {P P' : OfflineEstimatorState K → Prop} {Q Q' : StepResult K → Prop}
    {stepped : Stepped K} (h : Meets P Q stepped) (hstate : ∀ state, P state → P' state)
    (hresult : ∀ result, Q result → Q' result) : Meets P' Q' stepped := by
  obtain ⟨fault | result, state⟩ := stepped
  · trivial
  · cases result with
    | none => exact hstate state h
    | some result => exact hresult result h

variable {data : FocResult K} {config : OfflineEstimatorConfig K}

omit [FloatOps K] in
theorem rotorLockWait_meets (data : FocResult K) (config : OfflineEstimatorConfig K)
    (waitedS : K) (resistance : Option K) :
    Meets (fun state => waitedS + config.dtS < config.settleTimeS ∧
        state = .rotorLockWait (waitedS + config.dtS) resistance)
      (fun result => ∃ next, result = .transition next ∧
        match resistance with
        | none => ∃ levels, next = .estR 0 0 false levels
        | some resistance => next = .estL (.start .d resistance data))
      (rotorLockWaitStep waitedS resistance data config) := by
  cases resistance with
  | none =>
      dsimp only [rotorLockWaitStep]
      split
      · exact ⟨_, rfl, _, rfl⟩
      · rename_i hwaits
        exact ⟨not_le.mp hwaits, rfl⟩
  | some resistance =>
      dsimp only [rotorLockWaitStep]
      split
      · exact ⟨_, rfl, rfl⟩
      · rename_i hwaits
        exact ⟨not_le.mp hwaits, rfl⟩

omit [FloatOps K] in
/-- What a step towards the current of a block comes to. -/
theorem estRApproach_cases (data : FocResult K) (config : OfflineEstimatorConfig K)
    (block : Nat) (blockRanS : K) (levels : Vector (Mean K) 2) :
    (|data.measuredIDq.d - estRTarget block config| / estRTarget block config
        ≤ estRTargetTolerance ∧
      estRApproach block blockRanS levels data config
        = (.ok none, .estR block 0 true levels)) ∨
    estRApproach block blockRanS levels data config
      = (.error .targetCurrentUnreachable,
          .estR block (blockRanS + config.dtS) false levels) ∨
    (blockRanS + config.dtS < config.testTimeS ∧
      estRApproach block blockRanS levels data config
        = (.ok none, .estR block (blockRanS + config.dtS) false levels)) := by
  dsimp only [estRApproach]
  split
  · rename_i hreached
    exact .inl ⟨hreached, rfl⟩
  · split
    · exact .inr (.inl rfl)
    · rename_i hlate
      exact .inr (.inr ⟨not_le.mp hlate, rfl⟩)

omit [FloatOps K] in
theorem estRApproach_meets (data : FocResult K) (config : OfflineEstimatorConfig K)
    (block : Nat) (blockRanS : K) (levels : Vector (Mean K) 2) :
    Meets (fun state => ∃ block ran reached levels, state = .estR block ran reached levels)
      (fun _ => False) (estRApproach block blockRanS levels data config) := by
  rcases estRApproach_cases data config block blockRanS levels with ⟨-, h⟩ | h | ⟨-, h⟩
  · rw [h]
    exact ⟨_, _, _, _, rfl⟩
  · rw [h]
    exact trivial
  · rw [h]
    exact ⟨_, _, _, _, rfl⟩

/-- The resistance is checked before it is used. -/
theorem estRSolve_ok {levels : Vector (Mean K) 2} {solved : Option (StepResult K)}
    (h : estRSolve levels = .ok solved) :
    ∃ resistance deadtimeRatio,
      solved = some (.estimateR resistance deadtimeRatio
        (.hallCalibrationRequired resistance)) ∧
      FloatOps.isFinite resistance = true ∧ 0 < resistance := by
  dsimp only [estRSolve] at h
  split at h
  · exact nomatch h
  · split at h
    · exact nomatch h
    · split at h
      · exact nomatch h
      · rename_i hchecked
        rw [not_not, Bool.and_eq_true, Bool.and_eq_true, decide_eq_true_iff] at hchecked
        exact ⟨_, _, (Except.ok.inj h).symm, hchecked.1⟩

/-- The sample that a measuring step takes. -/
def sampled (data : FocResult K) (level : Mean K) : Mean K :=
  level.accumulate (data.measuredIDq.d * (1 / data.dcBusVoltageV))
    (data.uDq.d * (1 / data.dcBusVoltageV))

/-- What a step that measures a block comes to: its sample is added to the level of the
    block and to no other. -/
theorem estRMeasure_cases (data : FocResult K) (config : OfflineEstimatorConfig K)
    (block : Nat) (blockRanS : K) (levels : Vector (Mean K) 2) :
    ∃ measured : Vector (Mean K) 2,
      (∀ level : Fin 2, measured.get level
        = if block % 2 = level then sampled data (levels.get level)
          else levels.get level) ∧
      ((blockRanS + config.dtS < config.testTimeS / (estRBlocks : K) ∧
        estRMeasure block blockRanS levels data config
          = (.ok none, .estR block (blockRanS + config.dtS) true measured)) ∨
      (block + 1 < estRBlocks ∧
        estRMeasure block blockRanS levels data config
          = (.ok none, .estR (block + 1) 0 false measured)) ∨
      estRMeasure block blockRanS levels data config
        = (estRSolve measured, .estR (block + 1) 0 false measured)) := by
  refine ⟨levels.set (block % 2) (sampled data (levels.get ⟨block % 2, Nat.mod_lt _ two_pos⟩))
    (Nat.mod_lt _ two_pos), ?_, ?_⟩
  · intro level
    by_cases hlevel : block % 2 = level
    · rw [if_pos hlevel]
      obtain rfl : (⟨block % 2, Nat.mod_lt _ two_pos⟩ : Fin 2) = level := Fin.ext hlevel
      exact Vector.getElem_set_self _
    · rw [if_neg hlevel]
      exact Vector.getElem_set_ne _ level.isLt hlevel
  · dsimp only [estRMeasure]
    split
    · rename_i hran
      exact .inl ⟨hran, rfl⟩
    · split
      · exact .inr (.inr rfl)
      · rename_i hmore
        exact .inr (.inl ⟨not_le.mp hmore, rfl⟩)

theorem estRMeasure_meets (data : FocResult K) (config : OfflineEstimatorConfig K)
    (block : Nat) (blockRanS : K) (levels : Vector (Mean K) 2) :
    Meets (fun state => ∃ block ran reached levels, state = .estR block ran reached levels)
      (fun result => ∃ resistance deadtimeRatio,
        result = .estimateR resistance deadtimeRatio
          (.hallCalibrationRequired resistance) ∧
        FloatOps.isFinite resistance = true ∧ 0 < resistance)
      (estRMeasure block blockRanS levels data config) := by
  obtain ⟨measured, -, ⟨-, h⟩ | ⟨-, h⟩ | h⟩ :=
    estRMeasure_cases data config block blockRanS levels
  · rw [h]
    exact ⟨_, _, _, _, rfl⟩
  · rw [h]
    exact ⟨_, _, _, _, rfl⟩
  · rw [h]
    cases hsolved : estRSolve measured with
    | error fault => exact trivial
    | ok solved =>
        obtain ⟨resistance, deadtimeRatio, rfl, hpositive⟩ := estRSolve_ok hsolved
        exact ⟨resistance, deadtimeRatio, rfl, hpositive⟩

/-- What comes after the inductance of an axis. -/
def AfterInductance : Axis → OfflineEstimatorState K → Prop
  | .d, next => ∃ test : EstL K, next = .estL test ∧ test.axis = .q ∧ test.ranS = 0
  | .q, next => ∃ resistance, next = .tuningRequired resistance

/-- The inductance is checked before it is used. -/
theorem estLSolve_ok {test : EstL K} {solved : Option (StepResult K)}
    (h : test.solve data = .ok solved) :
    ∃ inductance next, solved = some (.estimateL test.axis inductance next) ∧
      FloatOps.isFinite inductance = true ∧ 0 < inductance ∧
      AfterInductance test.axis next := by
  dsimp only [EstL.solve] at h
  split at h
  · exact nomatch h
  · split at h
    · exact nomatch h
    · rename_i hchecked
      rw [not_not, Bool.and_eq_true, decide_eq_true_iff] at hchecked
      refine ⟨_, _, (Except.ok.inj h).symm, hchecked.1, hchecked.2, ?_⟩
      cases test.axis with
      | d => exact ⟨_, rfl, rfl, rfl⟩
      | q => exact ⟨_, rfl⟩

theorem estL_meets (data : FocResult K) (config : OfflineEstimatorConfig K)
    (test : EstL K) :
    Meets (fun state => ∃ next : EstL K, state = .estL next ∧ next.axis = test.axis ∧
        next.ranS = test.ranS + config.dtS ∧ next.ranS < 2.0 * config.testTimeS)
      (fun result => ∃ inductance next, result = .estimateL test.axis inductance next ∧
        FloatOps.isFinite inductance = true ∧ 0 < inductance ∧
        AfterInductance test.axis next)
      (estLStep test data config) := by
  obtain ⟨axis, ranS, resistance, sign, signFlips, appliedSigns, prevI, lse⟩ := test
  dsimp only [estLStep]
  split
  · exact trivial
  · split
    · exact trivial
    · rename_i hran
      split
      · exact ⟨_, rfl, rfl, rfl, not_le.mp hran⟩
      · split
        -- the last sample adds to the fit and keeps the axis
        · generalize hlast : EstL.mk axis _ _ _ _ _ _ _ = last
          cases hsolved : last.solve data with
          | error fault => exact trivial
          | ok solved =>
              obtain ⟨inductance, next, rfl, hfinite, hpositive, hnext⟩ :=
                estLSolve_ok hsolved
              have haxis : last.axis = axis := by rw [← hlast]
              rw [haxis] at hnext ⊢
              exact ⟨inductance, next, rfl, hfinite, hpositive, hnext⟩
        · exact ⟨_, rfl, rfl, rfl, not_le.mp hran⟩

section Rotation

variable [FloorRing K]

omit [FloatOps K] in
theorem estF_meets (data : FocResult K) (config : OfflineEstimatorConfig K)
    (test : EstF K) :
    Meets (fun state => ∃ next, state = .estF next ∧
        next.ranS = test.ranS + config.dtS ∧
        next.ranS < config.maxSpinTimeS + config.testTimeS)
      (fun result => ∃ ramp, result = .estimateF (.rampDown ramp) ∧
        ramp.ranS = 0 ∧ ramp.rampDurationS = config.testTimeS)
      (estFStep test data config) := by
  have hran : (test.turn data config).ranS = test.ranS + config.dtS := by
    dsimp only [EstF.turn]
    split <;> rfl
  rw [estFStep]
  split
  · exact ⟨_, rfl, rfl, rfl⟩
  · rename_i hturns
    exact ⟨_, rfl, hran, not_le.mp hturns⟩

omit [FloorRing K] in
/-- The flux linkage is checked before it is used. -/
theorem rampDownFinish_ok {ramp : RampDown K} {solved : Option (StepResult K)}
    (h : ramp.finish = .ok solved) :
    ∃ pmFluxLinkage, solved = some (.rampDown pmFluxLinkage) ∧ Positive pmFluxLinkage := by
  dsimp only [RampDown.finish] at h
  split at h
  · exact nomatch h
  · split at h
    · exact nomatch h
    · rename_i hchecked
      rw [not_not] at hchecked
      refine ⟨_, (Except.ok.inj h).symm, ?_⟩
      cases hflux : ramp.solver.map PmFluxSolver.pmFlux with
      | none =>
          rw [hflux] at hchecked
          exact nomatch hchecked
      | some pmf =>
          rw [hflux, Option.any_some, Bool.and_eq_true, decide_eq_true_iff] at hchecked
          exact ⟨pmf, rfl, hchecked⟩

theorem rampDown_meets (config : OfflineEstimatorConfig K) (ramp : RampDown K) :
    Meets (fun state => ∃ next, state = .rampDown next ∧
        next.ranS = ramp.ranS + config.dtS ∧
        next.rampDurationS = ramp.rampDurationS ∧ next.ranS < ramp.rampDurationS)
      (fun result => ∃ pmFluxLinkage,
        result = .rampDown pmFluxLinkage ∧ Positive pmFluxLinkage)
      (rampDownStep ramp config) := by
  dsimp only [rampDownStep]
  split
  · generalize RampDown.mk _ _ _ _ _ _ = last
    cases hsolved : last.finish with
    | error fault => exact trivial
    | ok solved =>
        obtain ⟨pmFluxLinkage, rfl, hpositive⟩ := rampDownFinish_ok hsolved
        exact ⟨pmFluxLinkage, rfl, hpositive⟩
  · rename_i hran
    exact ⟨_, rfl, rfl, rfl, not_le.mp hran⟩

/-! ## Iterations -/

variable {estimator : OfflineMotorEstimator K}

omit [FloatOps K] [FloorRing K] [LinearOrder K] [Field K] in
theorem poles_known (hpoles : estimator.params.numPolePairs.isSome) :
    ¬ estimator.params.numPolePairs.isNone = true := by
  obtain ⟨numPolePairs, hsome⟩ := Option.isSome_iff_exists.mp hpoles
  rw [hsome]
  exact fun h => nomatch h

/-- With the pole pairs known an iteration is the step of the state. -/
theorem afterFocIteration_none (hpoles : estimator.params.numPolePairs.isSome)
    {state : OfflineEstimatorState K}
    (h : estimator.state.step data estimator.config = (.ok none, state)) :
    estimator.afterFocIteration data = { estimator with state := state } := by
  simp only [OfflineMotorEstimator.afterFocIteration, if_neg (poles_known hpoles), h]

theorem afterFocIteration_some (hpoles : estimator.params.numPolePairs.isSome)
    {state : OfflineEstimatorState K} {result : StepResult K}
    (h : estimator.state.step data estimator.config = (.ok (some result), state)) :
    estimator.afterFocIteration data = estimator.apply result := by
  simp only [OfflineMotorEstimator.afterFocIteration, if_neg (poles_known hpoles), h]

theorem afterFocIteration_error (hpoles : estimator.params.numPolePairs.isSome)
    {state : OfflineEstimatorState K} {fault : EstimationStepFault}
    (h : estimator.state.step data estimator.config = (.error fault, state)) :
    estimator.afterFocIteration data
      = { estimator with state := .failure fault, shouldUnwindController := true } := by
  simp only [OfflineMotorEstimator.afterFocIteration, if_neg (poles_known hpoles), h]

/-- What an iteration of the estimator comes to, from what its step comes to. -/
theorem afterFocIteration_of_meets {P : OfflineEstimatorState K → Prop}
    {Q : StepResult K → Prop} {R : OfflineMotorEstimator K → Prop}
    (hpoles : estimator.params.numPolePairs.isSome)
    (h : Meets P Q (estimator.state.step data estimator.config))
    (hfault : ∀ fault, R { estimator with
      state := .failure fault, shouldUnwindController := true })
    (hstate : ∀ state, P state → R { estimator with state := state })
    (hresult : ∀ result, Q result → R (estimator.apply result)) :
    R (estimator.afterFocIteration data) := by
  -- the three things a step comes to
  cases hstep : estimator.state.step data estimator.config with
  | mk stepped state =>
      rw [hstep] at h
      cases stepped with
      | error fault =>
          rw [afterFocIteration_error hpoles hstep]
          exact hfault fault
      | ok result =>
          cases result with
          | none =>
              rw [afterFocIteration_none hpoles hstep]
              exact hstate state h
          | some result =>
              rw [afterFocIteration_some hpoles hstep]
              exact hresult result h

omit [Field K] [LinearOrder K] [FloatOps K] [FloorRing K] in
/-- No result changes the configuration or the pole pairs. -/
theorem apply_keeps (estimator : OfflineMotorEstimator K) (result : StepResult K) :
    (estimator.apply result).config = estimator.config ∧
      (estimator.apply result).params.numPolePairs = estimator.params.numPolePairs := by
  cases result with
  | transition | estimateR | estimateF | rampDown => exact ⟨rfl, rfl⟩
  | estimateL axis => cases axis <;> exact ⟨rfl, rfl⟩

theorem afterFocIteration_keeps (estimator : OfflineMotorEstimator K)
    (data : FocResult K) :
    (estimator.afterFocIteration data).config = estimator.config ∧
      (estimator.afterFocIteration data).params.numPolePairs
        = estimator.params.numPolePairs := by
  simp only [OfflineMotorEstimator.afterFocIteration]
  split_ifs with hpoles
  · exact ⟨rfl, rfl⟩
  · split
    · exact ⟨rfl, rfl⟩
    · exact apply_keeps estimator _
    · exact ⟨rfl, rfl⟩

/-- An iteration keeps what is known, and moves on by one test at most. -/
def Advances (before after : OfflineMotorEstimator K) : Prop :=
  Sound after ∧ Moves (place before) (place after)

omit [FloorRing K] in
theorem advances_failure (hpoles : estimator.params.numPolePairs.isSome)
    (htest : position estimator.state = .resistance ∨
      position estimator.state = .inductance ∨ position estimator.state = .flux)
    (fault : EstimationStepFault) :
    Advances estimator { estimator with
      state := .failure fault, shouldUnwindController := true } :=
  ⟨⟨hpoles, trivial⟩, .fails _ _ htest⟩

omit [FloorRing K] in
/-- A state that is no further and in which no more is known. -/
theorem advances_state (hsound : Sound estimator) {state : OfflineEstimatorState K}
    (hposition : position state = position estimator.state)
    (hknown : Known estimator.params state) :
    Advances estimator { estimator with state := state } := by
  refine ⟨⟨hsound.numPolePairs, hknown⟩, ?_⟩
  rw [place, place, hposition]
  exact .stays _

/-- A state that waits for something else is left as it is. -/
theorem advances_waiting (hsound : Sound estimator)
    (h : estimator.state.step data estimator.config = (.ok none, estimator.state)) :
    Advances estimator (estimator.afterFocIteration data) := by
  rw [afterFocIteration_none hsound.numPolePairs h]
  exact advances_state hsound rfl hsound.known

omit [FloorRing K] in
theorem advances_estimateR (hsound : Sound estimator)
    (hposition : position estimator.state = .resistance) {resistance : K}
    (hfinite : FloatOps.isFinite resistance = true) (hpositive : 0 < resistance)
    (deadtimeRatio : K) :
    Advances estimator (estimator.apply (.estimateR resistance deadtimeRatio
      (.hallCalibrationRequired resistance))) := by
  refine ⟨⟨hsound.numPolePairs, hsound.numPolePairs, ?_, rfl⟩, ?_⟩
  · exact ⟨resistance, rfl, hfinite, hpositive⟩
  · rw [place, hposition]
    exact .measured _

omit [FloorRing K] in
theorem advances_estimateL (hsound : Sound estimator) {test : EstL K}
    (hstate : estimator.state = .estL test) {inductance : K}
    (hfinite : FloatOps.isFinite inductance = true) (hpositive : 0 < inductance)
    {next : OfflineEstimatorState K} (hnext : AfterInductance test.axis next) :
    Advances estimator (estimator.apply (.estimateL test.axis inductance next)) := by
  have hfound : Positive (some inductance) := ⟨inductance, rfl, hfinite, hpositive⟩
  have hknown := hsound.known
  rw [hstate] at hknown
  obtain ⟨hresistive, hd⟩ := hknown
  have hposition : position estimator.state = .inductance := by rw [hstate]; rfl
  rw [Advances, place, hposition]
  -- after d the other axis is measured; after q both are known
  cases haxis : test.axis with
  | d =>
      rw [haxis] at hnext
      obtain ⟨test', rfl, hq, -⟩ := hnext
      refine ⟨⟨hsound.numPolePairs, ?_, fun _ => hfound⟩, .stays _⟩
      exact ⟨hresistive.numPolePairs, hresistive.statorResistance,
        hresistive.deadtimeRatio⟩
  | q =>
      rw [haxis] at hnext
      obtain ⟨resistance, rfl⟩ := hnext
      refine ⟨⟨hsound.numPolePairs, ?_⟩, .tunable _⟩
      exact
        { numPolePairs := hresistive.numPolePairs
          statorResistance := hresistive.statorResistance
          deadtimeRatio := hresistive.deadtimeRatio
          dInductance := hd haxis
          qInductance := hfound }

omit [FloorRing K] in
theorem advances_rampDown (hsound : Sound estimator) {ramp : RampDown K}
    (hstate : estimator.state = .rampDown ramp) {pmFluxLinkage : Option K}
    (hpositive : Positive pmFluxLinkage) :
    Advances estimator (estimator.apply (.rampDown pmFluxLinkage)) := by
  have htunable := hsound.known
  rw [hstate] at htunable
  have hposition : position estimator.state = .flux := by rw [hstate]; rfl
  rw [Advances, place, hposition]
  refine ⟨⟨hsound.numPolePairs, ?_⟩, .estimated _⟩
  exact
    { numPolePairs := htunable.numPolePairs
      statorResistance := htunable.statorResistance
      deadtimeRatio := htunable.deadtimeRatio
      dInductance := htunable.dInductance
      qInductance := htunable.qInductance
      pmFluxLinkage := hpositive }

theorem advances_rotorLockWait (hsound : Sound estimator) {waitedS : K}
    {resistance : Option K} (hstate : estimator.state = .rotorLockWait waitedS resistance)
    (data : FocResult K) : Advances estimator (estimator.afterFocIteration data) := by
  have hmeets := rotorLockWait_meets data estimator.config
    waitedS resistance
  have hknown := hsound.known
  rw [hstate] at hknown
  refine afterFocIteration_of_meets hsound.numPolePairs (by rw [hstate]; exact hmeets)
    (advances_failure hsound.numPolePairs ?_) ?_ ?_
  · rw [hstate]
    -- the first lock is for the resistance, the second for the inductances
    cases resistance with
    | none => exact .inl rfl
    | some resistance => exact .inr (.inl rfl)
  · rintro state ⟨-, rfl⟩
    cases resistance with
    | none => exact advances_state hsound (by rw [hstate]; rfl) trivial
    | some resistance => exact advances_state hsound (by rw [hstate]; rfl) hknown
  · rintro result ⟨next, rfl, hnext⟩
    cases resistance with
    | none =>
        obtain ⟨levels, rfl⟩ := hnext
        exact advances_state hsound (by rw [hstate]; rfl) trivial
    | some resistance =>
        obtain rfl := hnext
        exact advances_state hsound (by rw [hstate]; rfl) ⟨hknown, fun h => nomatch h⟩

theorem advances_estR (hsound : Sound estimator) {block : Nat} {blockRanS : K}
    {targetReached : Bool} {levels : Vector (Mean K) 2}
    (hstate : estimator.state = .estR block blockRanS targetReached levels)
    (data : FocResult K) : Advances estimator (estimator.afterFocIteration data) := by
  have hpoles := hsound.numPolePairs
  have hposition : position estimator.state = .resistance := by rw [hstate]; rfl
  have hfault := advances_failure hpoles (.inl hposition)
  have hgoesOn : ∀ state, (∃ block ran reached levels,
      state = OfflineEstimatorState.estR block ran reached levels) →
      Advances estimator { estimator with state := state } := by
    rintro state ⟨block', ran, reached, levels', rfl⟩
    exact advances_state hsound hposition.symm trivial
  cases targetReached with
  | false =>
      have hmeets := estRApproach_meets data estimator.config
        block blockRanS levels
      exact afterFocIteration_of_meets hpoles (by rw [hstate]; exact hmeets) hfault
        hgoesOn (fun _ hresult => False.elim hresult)
  | true =>
      have hmeets := estRMeasure_meets data estimator.config
        block blockRanS levels
      refine afterFocIteration_of_meets hpoles (by rw [hstate]; exact hmeets) hfault
        hgoesOn ?_
      rintro result ⟨resistance, deadtimeRatio, rfl, hfinite, hpositive⟩
      exact advances_estimateR hsound hposition hfinite hpositive deadtimeRatio

theorem advances_estL (hsound : Sound estimator) {test : EstL K}
    (hstate : estimator.state = .estL test) (data : FocResult K) :
    Advances estimator (estimator.afterFocIteration data) := by
  have hposition : position estimator.state = .inductance := by rw [hstate]; rfl
  have hmeets := estL_meets data estimator.config test
  have hknown := hsound.known
  rw [hstate] at hknown
  refine afterFocIteration_of_meets hsound.numPolePairs (by rw [hstate]; exact hmeets)
    (advances_failure hsound.numPolePairs (.inr (.inl hposition))) ?_ ?_
  · rintro state ⟨next, rfl, haxis, -⟩
    refine advances_state hsound hposition.symm ⟨hknown.1, fun hq => hknown.2 ?_⟩
    exact haxis.symm.trans hq
  · rintro result ⟨inductance, next, rfl, hfinite, hpositive, hnext⟩
    exact advances_estimateL hsound hstate hfinite hpositive hnext

theorem advances_estF (hsound : Sound estimator) {test : EstF K}
    (hstate : estimator.state = .estF test) (data : FocResult K) :
    Advances estimator (estimator.afterFocIteration data) := by
  have hposition : position estimator.state = .flux := by rw [hstate]; rfl
  have hmeets := estF_meets data estimator.config test
  have hknown := hsound.known
  rw [hstate] at hknown
  refine afterFocIteration_of_meets hsound.numPolePairs (by rw [hstate]; exact hmeets)
    (advances_failure hsound.numPolePairs (.inr (.inr hposition))) ?_ ?_
  · rintro state ⟨next, rfl, -⟩
    exact advances_state hsound hposition.symm hknown
  · rintro result ⟨ramp, rfl, -⟩
    exact advances_state hsound hposition.symm hknown

theorem advances_ramp (hsound : Sound estimator) {ramp : RampDown K}
    (hstate : estimator.state = .rampDown ramp) (data : FocResult K) :
    Advances estimator (estimator.afterFocIteration data) := by
  have hposition : position estimator.state = .flux := by rw [hstate]; rfl
  have hmeets := rampDown_meets estimator.config ramp
  have hknown := hsound.known
  rw [hstate] at hknown
  refine afterFocIteration_of_meets hsound.numPolePairs (by rw [hstate]; exact hmeets)
    (advances_failure hsound.numPolePairs (.inr (.inr hposition))) ?_ ?_
  · rintro state ⟨next, rfl, -⟩
    exact advances_state hsound hposition.symm hknown
  · rintro result ⟨pmFluxLinkage, rfl, hpositive⟩
    exact advances_rampDown hsound hstate hpositive

/-- **STEP LEMMA**: every iteration advances. -/
theorem afterFocIteration_advances (hsound : Sound estimator) (data : FocResult K) :
    Advances estimator (estimator.afterFocIteration data) := by
  cases hstate : estimator.state with
  | rotorLockWait waitedS resistance => exact advances_rotorLockWait hsound hstate data
  | estR block blockRanS targetReached levels => exact advances_estR hsound hstate data
  | estL test => exact advances_estL hsound hstate data
  | estF test => exact advances_estF hsound hstate data
  | rampDown ramp => exact advances_ramp hsound hstate data
  | _ => exact advances_waiting hsound (by rw [hstate]; rfl)

end Rotation

/-! ## Acknowledgements -/

variable {estimator : OfflineMotorEstimator K}

/-- The hall calibration done, the rotor is aligned again for the inductances. -/
theorem acknowledgeHall (hsound : Sound estimator)
    (hposition : position estimator.state = .hallRequired) :
    Sound estimator.acknowledgeHallCalibration ∧
      place estimator.acknowledgeHallCalibration
        = (.inductance, estimator.shouldUnwindController) := by
  have hknown := hsound.known
  rw [OfflineMotorEstimator.acknowledgeHallCalibration]
  cases hstate : estimator.state with
  | hallCalibrationRequired resistance =>
      rw [hstate] at hknown
      exact ⟨⟨hsound.numPolePairs, hknown⟩, rfl⟩
  | rotorLockWait waitedS resistance =>
      rw [hstate] at hposition
      cases resistance <;> exact nomatch hposition
  | _ => exact nomatch hstate ▸ hposition

/-- Tuned, the motor has the inductances that the rotation needs. -/
theorem acknowledgeTuning (hsound : Sound estimator)
    (hposition : position estimator.state = .tuningRequired) :
    Sound estimator.acknowledgeTuningRequest ∧
      place estimator.acknowledgeTuningRequest
        = (.flux, estimator.shouldUnwindController) := by
  have hknown := hsound.known
  rw [OfflineMotorEstimator.acknowledgeTuningRequest]
  cases hstate : estimator.state with
  | tuningRequired resistance =>
      rw [hstate] at hknown
      have htunable : Tunable estimator.params := hknown
      -- the solver of the rotation takes both inductances from the parameters
      obtain ⟨dInductance, hd, -⟩ := htunable.dInductance
      obtain ⟨qInductance, hq, -⟩ := htunable.qInductance
      simp only [hd, hq]
      exact ⟨⟨hsound.numPolePairs, htunable⟩, rfl⟩
  | rotorLockWait waitedS resistance =>
      rw [hstate] at hposition
      cases resistance <;> exact nomatch hposition
  | _ => exact nomatch hstate ▸ hposition

end EstimationProofs
