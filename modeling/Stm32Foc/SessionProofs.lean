import Stm32Foc.EstimationProofs
import Stm32Foc.GateProofs

/-! # A calibration session

    From its start until the mode leaves it, a session hands out the results of its
    stages in one order, each once.  `Reported` says which results are out in each
    phase of the runner and at each position of the estimator; every step, every
    iteration and every resume keeps it, so a resume that nothing waits for can skip
    no stage. -/

namespace SessionProofs

open EventRun FieldOriented Faults SafeStrategy Calibration Modes Control Saliency
open TickProofs GateProofs Commission EstimationProofs

/-! ## Ticks and sessions -/

section Ticks

variable {K : Type} {C : Type} [Calibrator C K]

/-- The calibrator of a session. -/
def session : OperatingMode K C → Option C
  | .calibration calibrator => some calibrator
  | _ => none

omit [Calibrator C K] in
theorem session_of_isFault {mode : OperatingMode K C} (h : mode.IsFault) :
    session mode = none := by
  cases mode with
  | fault safeStrategy writeIndex trace => rfl
  | _ => exact h.elim

omit [Calibrator C K] in
theorem eq_of_session {mode : OperatingMode K C} {calibrator : C}
    (h : session mode = some calibrator) : mode = .calibration calibrator := by
  cases mode with
  | calibration c => exact congrArg _ (Option.some.inj h)
  | _ => exact nomatch h

/-- The mode is kept, or there is no session in it any more. -/
def Keeps (before after : OperatingMode K C) : Prop :=
  after = before ∨ session after = none

omit [Calibrator C K] in
theorem Keeps.trans {first second third : OperatingMode K C} (h : Keeps first second)
    (h' : Keeps second third) : Keeps first third := by
  rcases h' with rfl | hnone
  · exact h
  · exact .inr hnone

variable [Field K]

theorem assertIf_keeps (condition : Bool) (cause : FaultCause) (mode : OperatingMode K C) :
    Keeps mode (assertIf condition cause mode) := by
  cases condition with
  | true => exact .inr (session_of_isFault (assertFault_isFault mode cause))
  | false => exact .inl rfl

theorem boardFaults_keeps (inputs : FocStepInputs K) (mode : OperatingMode K C) :
    Keeps mode (boardFaults inputs mode) :=
  (assertIf_keeps _ _ _).trans ((assertIf_keeps _ _ _).trans (assertIf_keeps _ _ _))

variable [LinearOrder K] {F A E : Type} [CurrentController F K] [DoesFocMath A K]
  [SaliencyBasedEstimator E K]

theorem diagnose_keeps (params : MotorParamsEstimate K) (inputs : FocStepInputs K)
    (drive : Drive K C F A E) :
    Keeps drive.mode (diagnose params inputs drive).drive.mode := by
  obtain ⟨mode', hresolved, -, hmode⟩ := diagnose_stages params inputs drive
  rw [hmode]
  refine Keeps.trans ?_ ((assertIf_keeps _ _ _).trans (assertIf_keeps _ _ _))
  generalize (diagnose params inputs drive).rotorFeedback = feedback at hresolved
  cases hresolved with
  | other => exact boardFaults_keeps inputs drive.mode
  | ongoing => exact .inr rfl
  | seeded => exact .inr rfl
  | passed => exact .inr rfl
  | failed hm e => exact .inr (session_of_isFault (assertFault_isFault _ _))

theorem safetyCommand_keeps (input : SafeControlStrategyInput K)
    (mode : OperatingMode K C) : Keeps mode (safetyCommand input mode).2 := by
  cases mode with
  | calibration calibrator =>
      rw [safetyCommand_calibration]
      split <;> exact .inl rfl
  | _ => exact .inr rfl

theorem safetyCommand_isFault (input : SafeControlStrategyInput K)
    {mode : OperatingMode K C} (h : mode.IsFault) :
    (safetyCommand input mode).2.IsFault := by
  cases mode with
  | fault safeStrategy writeIndex trace => exact trivial
  | _ => exact h.elim

/-- What a tick can do to a session: it lets it be, or takes one step of its
    calibrator, whose result is the tick's; a failure ends it in `Fault`. -/
inductive SessionTick (before : OperatingMode K C) :
    Option (StageResult K) → OperatingMode K C → Prop where
  | unstepped {after : OperatingMode K C} (hafter : Keeps before after) :
      SessionTick before none after
  | stepped (calibrator : C) (inputs : CalibrationInputs K)
      (hbefore : before = .calibration calibrator) {after : OperatingMode K C}
      (hafter : Keeps (.calibration (Calibrator.step calibrator inputs).2) after)
      (hfailure : ∀ cause,
        (Calibrator.step calibrator inputs).1.2 = some (.failure cause) → after.IsFault) :
      SessionTick before (Calibrator.step calibrator inputs).1.2 after

omit [Field K] [LinearOrder K] in
/-- What keeps the mode of a tick that has gone through keeps what the tick did. -/
theorem SessionTick.keeps {before middle after : OperatingMode K C}
    {result : Option (StageResult K)} (h : SessionTick before result middle)
    (hafter : Keeps middle after) (hfault : middle.IsFault → after.IsFault) :
    SessionTick before result after := by
  cases h with
  | unstepped hmiddle => exact .unstepped (hmiddle.trans hafter)
  | stepped calibrator inputs hbefore hmiddle hfailure =>
      exact .stepped calibrator inputs hbefore (hmiddle.trans hafter)
        (fun cause hcause => hfault (hfailure cause hcause))

omit [LinearOrder K] in
theorem calibrate_sessionTick (params : MotorParamsEstimate K)
    (inputs : CalibrationInputs K) (mode : OperatingMode K C) :
    SessionTick mode (calibrate params inputs mode).stageResult
      (stageFault (calibrate params inputs mode).stageResult
        (calibrate params inputs mode).mode) := by
  cases mode with
  | calibration calibrator =>
      rw [calibrate]
      split
      · generalize hstep : Calibrator.step calibrator inputs = stepped
        obtain ⟨⟨output, result⟩, calibrator'⟩ := stepped
        have hresult : (Calibrator.step calibrator inputs).1.2 = result := by rw [hstep]
        have hnext : (Calibrator.step calibrator inputs).2 = calibrator' := by rw [hstep]
        have htick : ∀ after : OperatingMode K C, Keeps (.calibration calibrator') after →
            (∀ cause, result = some (.failure cause) → after.IsFault) →
            SessionTick (.calibration calibrator) result after := by
          intro after hafter hfailure
          rw [← hnext] at hafter
          rw [← hresult] at hfailure ⊢
          exact .stepped calibrator inputs rfl hafter hfailure
        cases result with
        | none => exact htick _ (.inl rfl) (fun cause hcause => by cases hcause)
        | some stage =>
            cases stage with
            | failure cause =>
                have hfault := assertFault_isFault (.calibration calibrator' :
                  OperatingMode K C) cause.toFaultCause
                exact htick _ (.inr (session_of_isFault hfault)) (fun _ _ => hfault)
            | _ => exact htick _ (.inl rfl) (fun cause hcause => by cases hcause)
      · exact .unstepped (.inl rfl)
  | _ => exact .unstepped (.inl rfl)

variable (t : Tick K F A E) (mode : OperatingMode K C)

theorem supervised_sessionTick (dcBusVoltageV : K) :
    SessionTick (t.diagnosed mode).drive.mode
      (t.supervised mode dcBusVoltageV).stageResult
      (t.supervised mode dcBusVoltageV).mode := by
  refine (calibrate_sessionTick _ _ _).keeps (assertIf_keeps _ _ _) ?_
  exact fun h => assertIf_isFault _ _ h

omit [Field K] [LinearOrder K] in
/-- A tick of what is left of the session is one of the session. -/
theorem SessionTick.of_keeps {before middle after : OperatingMode K C}
    {result : Option (StageResult K)} (h : Keeps before middle)
    (htick : SessionTick middle result after) : SessionTick before result after := by
  rcases h with rfl | hnone
  · exact htick
  · cases htick with
    | unstepped hafter =>
        refine .unstepped (Keeps.trans (.inr hnone) hafter)
    | stepped calibrator inputs hbefore hafter hfailure =>
        rw [hbefore] at hnone
        exact nomatch hnone

theorem prepare_sessionTick :
    SessionTick mode (prepare t.params t.inputs (t.drive mode)).stageResult
      (prepare t.params t.inputs (t.drive mode)).drive.mode := by
  refine .of_keeps (diagnose_keeps t.params t.inputs (t.drive mode)) ?_
  rw [prepare]
  cases hdc : t.inputs.dcBusReadingV with
  | none => exact .unstepped (.inl rfl)
  | some dcBusVoltageV =>
      refine (supervised_sessionTick t mode dcBusVoltageV).keeps
        (safetyCommand_keeps _ _) ?_
      exact fun h => safetyCommand_isFault _ h

/-- **SESSION TICK**: a tick hands out what its calibrator's step has returned. -/
theorem focStep_sessionTick :
    SessionTick mode (focStep t.params t.inputs (t.drive mode)).1.2
      (focStep t.params t.inputs (t.drive mode)).2.mode := by
  have hprepare := prepare_sessionTick t mode
  rw [(focStep_inner t.params t.inputs (t.drive mode)).1,
    (focStep_inner t.params t.inputs (t.drive mode)).2, focStepInner]
  cases hcall : (prepare t.params t.inputs (t.drive mode)).call with
  | error outcome => exact hprepare
  | ok call =>
      obtain ⟨input, estimate⟩ := call
      cases hresult : (callController input estimate
          (prepare t.params t.inputs (t.drive mode)).drive).1 with
      | ok focResult =>
          simp only [hresult]
          exact hprepare
      | error fault =>
          simp only [hresult]
          have hfault := assertFault_isFault
            (prepare t.params t.inputs (t.drive mode)).drive.mode (.ofFocFault fault)
          exact hprepare.keeps (.inr (session_of_isFault hfault)) (fun _ => hfault)

/-- What the calibrator's step returns, on a tick that takes one. -/
def calibratorResult : Option (StageResult K) :=
  match t.inputs.dcBusReadingV, (t.diagnosed mode).drive.mode with
  | some dcBusVoltageV, .calibration calibrator =>
      if (OperatingMode.calibration calibrator : OperatingMode K C).focGate.active then
        (Calibrator.step calibrator
          { dcBusVoltageV := dcBusVoltageV
            angleType := (t.feedback mode).angleType
            theta := (t.feedback mode).theta
            hallPattern := t.inputs.hallPattern }).1.2
      else none
  | _, _ => none

theorem focStep_stageResult :
    (focStep t.params t.inputs (t.drive mode)).1.2
      = (prepare t.params t.inputs (t.drive mode)).stageResult := by
  rw [(focStep_inner t.params t.inputs (t.drive mode)).1, focStepInner]
  cases hcall : (prepare t.params t.inputs (t.drive mode)).call with
  | error outcome => rfl
  | ok call =>
      obtain ⟨input, estimate⟩ := call
      cases hresult : (callController input estimate
          (prepare t.params t.inputs (t.drive mode)).drive).1 with
      | ok focResult => simp only [hresult]
      | error fault => simp only [hresult]

/-- **ONCE**: a tick returns what its calibrator has returned to it, and no more. -/
theorem focStep_result_eq :
    (focStep t.params t.inputs (t.drive mode)).1.2 = calibratorResult t mode := by
  rw [focStep_stageResult, prepare, calibratorResult]
  cases hdc : t.inputs.dcBusReadingV with
  | none => rfl
  | some dcBusVoltageV =>
      show (t.supervised mode dcBusVoltageV).stageResult = _
      rw [Tick.supervised, supervise]
      cases hmode : (t.diagnosed mode).drive.mode with
      | calibration calibrator =>
          simp only [calibrate]
          split <;> rfl
      | _ => rfl

end Ticks

/-! ## Stages -/

/-- The results of a session other than a failure. -/
inductive Stage where
  | unwindRequest
  | hallCalibration
  | tuningRequest
  | motorParameters
  deriving DecidableEq, Repr

/-- The stage that a result ends. -/
def stageOf {K : Type} : StageResult K → Option Stage
  | .unwindRequest => some .unwindRequest
  | .hallCalibration _ => some .hallCalibration
  | .tuningRequest _ => some .tuningRequest
  | .motorParameters _ => some .motorParameters
  | .failure _ => none

/-- The stages before the tuning. -/
def untuned (hasHall : Bool) : List Stage :=
  .unwindRequest :: if hasHall then [.hallCalibration] else []

/-- The stages of a session, in their order. -/
def stages (hasHall : Bool) : List Stage :=
  untuned hasHall ++ [.tuningRequest, .motorParameters]

variable {K : Type} [Field K] [LinearOrder K] [FloatOps K] [FloorRing K]
  {H : Type} [HallCalibrates H K]

/-- The runner with the offline estimator. -/
abbrev Runner (K H : Type) : Type := CalibrationRunner K H (OfflineMotorEstimator K)

/-- A result carries what it is for. -/
def Carries : StageResult K → Prop
  | .tuningRequest params => Tunable params
  | .motorParameters params => Complete params
  | _ => True

/-- The stages that are out, by the phase of the runner and the place of its
    estimator. -/
inductive Reported (runner : Runner K H) : List Stage → Prop where
  | clearing (hphase : runner.phase = .clearingExistingParameters)
      (hplace : place runner.motorEstimator = (.off, false)) : Reported runner []
  | measuring (hphase : runner.phase = .motorEstimation)
      (hplace : place runner.motorEstimator = (.resistance, false)) : Reported runner []
  | measured (hphase : runner.phase = .motorEstimation)
      (hplace : place runner.motorEstimator = (.hallRequired, true)) : Reported runner []
  | unwound (hphase : runner.phase = .motorEstimation)
      (hplace : place runner.motorEstimator = (.hallRequired, false)) :
      Reported runner [.unwindRequest]
  | sweeping (timePassedS : K) (hphase : runner.phase = .hallCalibration timePassedS)
      (hhall : runner.hasHall = true)
      (hplace : place runner.motorEstimator = (.hallRequired, false)) :
      Reported runner [.unwindRequest]
  | swept (hphase : runner.phase = .waitingHallCompletion)
      (hhall : runner.hasHall = true)
      (hplace : place runner.motorEstimator = (.hallRequired, false)) :
      Reported runner [.unwindRequest, .hallCalibration]
  | aligned (hphase : runner.phase = .motorEstimation)
      (hplace : place runner.motorEstimator = (.inductance, false)) :
      Reported runner (untuned runner.hasHall)
  | tunable (hphase : runner.phase = .motorEstimation)
      (hplace : place runner.motorEstimator = (.tuningRequired, false)) :
      Reported runner (untuned runner.hasHall)
  | waitingTuning (hphase : runner.phase = .waitingTuning)
      (hplace : place runner.motorEstimator = (.tuningRequired, false)) :
      Reported runner (untuned runner.hasHall ++ [.tuningRequest])
  | spinning (hphase : runner.phase = .motorEstimation)
      (hplace : place runner.motorEstimator = (.flux, false)) :
      Reported runner (untuned runner.hasHall ++ [.tuningRequest])
  | estimated (hphase : runner.phase = .motorEstimation)
      (hplace : place runner.motorEstimator = (.done, true)) :
      Reported runner (untuned runner.hasHall ++ [.tuningRequest])
  | complete (hphase : runner.phase = .done)
      (hplace : place runner.motorEstimator = (.done, true)) :
      Reported runner (stages runner.hasHall)
  | failed (hphase : runner.phase = .motorEstimation) (unwind : Bool)
      (hplace : place runner.motorEstimator = (.failed, unwind)) {out : List Stage}
      (hout : out <+: stages runner.hasHall) : Reported runner out

/-- A session that goes on: what is out, and that its estimator is sound. -/
structure Going (runner : Runner K H) (out : List Stage) : Prop where
  reported : Reported runner out
  sound : Sound runner.motorEstimator

variable {runner : Runner K H} {out : List Stage}

omit [Field K] [LinearOrder K] [FloatOps K] [FloorRing K] [HallCalibrates H K] in
/-- What is out is where the session's stages start. -/
theorem Reported.isPrefix (h : Reported runner out) : out <+: stages runner.hasHall := by
  cases h with
  | clearing | measuring | measured => exact List.nil_prefix
  | unwound => exact ⟨_, rfl⟩
  | sweeping => exact ⟨_, rfl⟩
  | swept hphase hhall =>
      rw [hhall]
      exact ⟨[.tuningRequest, .motorParameters], rfl⟩
  | aligned | tunable => exact List.prefix_append _ _
  | waitingTuning | spinning | estimated =>
      exact ⟨[.motorParameters], List.append_assoc ..⟩
  | complete => exact List.prefix_refl _
  | failed hphase unwind hplace hout => exact hout

/-- A new session has nothing out. -/
theorem going_new (numPolePairs : UInt8) (targets : CalibrationTargets K) (hasHall : Bool)
    (dtS : K) :
    Going (CalibrationRunner.new numPolePairs targets hasHall dtS : Runner K H) [] :=
  ⟨.clearing rfl rfl, rfl, trivial⟩

/-! ## Steps of the runner -/

section Asked

variable (estimator : OfflineMotorEstimator K)

/-- What the runner asks its estimator is said by the place. -/
theorem getFault_none (h : position estimator.state ≠ .failed) :
    EstimatesMotorParams.getFault estimator = none := by
  show estimator.getFault = none
  rw [OfflineMotorEstimator.getFault]
  cases hstate : estimator.state with
  | failure fault =>
      rw [hstate] at h
      exact absurd rfl h
  | _ => rfl

theorem estimationDone_eq :
    EstimatesMotorParams.estimationDone estimator
      = decide (position estimator.state = .done) := by
  show estimator.estimationDone = _
  rw [OfflineMotorEstimator.estimationDone]
  cases estimator.state with
  | rotorLockWait waitedS resistance => cases resistance <;> rfl
  | _ => rfl

theorem shouldTuneController_eq :
    EstimatesMotorParams.shouldTuneController estimator
      = decide (position estimator.state = .tuningRequired) := by
  show estimator.shouldTuneController = _
  rw [OfflineMotorEstimator.shouldTuneController]
  cases estimator.state with
  | rotorLockWait waitedS resistance => cases resistance <;> rfl
  | _ => rfl

theorem shouldCalibrateHall_eq :
    EstimatesMotorParams.shouldCalibrateHall estimator
      = decide (position estimator.state = .hallRequired) := by
  show estimator.shouldCalibrateHall = _
  rw [OfflineMotorEstimator.shouldCalibrateHall]
  cases estimator.state with
  | rotorLockWait waitedS resistance => cases resistance <;> rfl
  | _ => rfl

end Asked

/-- What a step of the runner comes to, with `out` before it. -/
def StepGoes (out : List Stage) :
    (CalibrationOutput K × Option (StageResult K)) × Runner K H → Prop
  | ((_, none), runner) => Going runner out
  | ((_, some result), runner) =>
      Carries result ∧ ∀ stage, stageOf result = some stage → Going runner (out ++ [stage])

/-- A step in the motor estimation, at a place without a fault. -/
theorem motorEstimationStep_eq {here : Position} {unwind : Bool}
    (hplace : place runner.motorEstimator = (here, unwind)) (hfailed : here ≠ .failed)
    (inputs : CalibrationInputs K) :
    runner.motorEstimationStep inputs
      = if here = .done then
          ((CalibrationRunner.idleOutput inputs,
            some (.motorParameters runner.motorEstimator.params)),
            { runner with phase := .done })
        else if unwind = true then
          ((CalibrationRunner.idleOutput inputs, some .unwindRequest),
            { runner with
              motorEstimator := runner.motorEstimator.acknowledgeUnwindRequest })
        else if here = .tuningRequired then
          ((CalibrationRunner.idleOutput inputs,
            some (.tuningRequest runner.motorEstimator.params)),
            { runner with phase := .waitingTuning })
        else if here = .hallRequired then
          if runner.hasHall then
            ((CalibrationRunner.idleOutput inputs, none),
              { runner with
                hallCalibrator := HallCalibrates.start runner.hallCalibrator
                phase := .hallCalibration 0 })
          else
            ((CalibrationRunner.idleOutput inputs, none),
              { runner with
                motorEstimator := runner.motorEstimator.acknowledgeHallCalibration })
        else ((runner.motorEstimationOutput inputs, none), runner) := by
  -- the five questions of the runner are answered by the place
  obtain ⟨hposition, hunwind⟩ := Prod.mk.inj hplace
  rw [CalibrationRunner.motorEstimationStep,
    getFault_none _ (by rw [hposition]; exact hfailed)]
  simp only [estimationDone_eq, shouldTuneController_eq, shouldCalibrateHall_eq, hposition,
    decide_eq_true_iff]
  rw [← hunwind]
  rfl

omit [FloorRing K] in
theorem tunable_of_position {estimator : OfflineMotorEstimator K} (hsound : Sound estimator)
    (h : position estimator.state = .tuningRequired) : Tunable estimator.params := by
  have hknown := hsound.known
  cases hstate : estimator.state with
  | tuningRequired resistance =>
      rw [hstate] at hknown
      exact hknown
  | rotorLockWait waitedS resistance =>
      rw [hstate] at h
      cases resistance <;> exact nomatch h
  | _ => exact nomatch hstate ▸ h

omit [FloorRing K] in
theorem complete_of_position {estimator : OfflineMotorEstimator K} (hsound : Sound estimator)
    (h : position estimator.state = .done) : Complete estimator.params := by
  have hknown := hsound.known
  cases hstate : estimator.state with
  | done =>
      rw [hstate] at hknown
      exact hknown
  | rotorLockWait waitedS resistance =>
      rw [hstate] at h
      cases resistance <;> exact nomatch h
  | _ => exact nomatch hstate ▸ h

omit [FloorRing K] in
/-- A step of the hall calibration. -/
theorem going_hallCalibrationStep {timePassedS : K} (hhall : runner.hasHall = true)
    (hplace : place runner.motorEstimator = (.hallRequired, false))
    (hsound : Sound runner.motorEstimator) (inputs : CalibrationInputs K) :
    StepGoes [.unwindRequest] (runner.hallCalibrationStep timePassedS inputs) := by
  rw [CalibrationRunner.hallCalibrationStep]
  split
  · exact ⟨trivial, fun stage hstage => by cases hstage⟩
  · split
    · refine ⟨trivial, ?_⟩
      rintro stage hstage
      obtain rfl := Option.some.inj hstage
      exact ⟨.swept rfl hhall hplace, hsound⟩
    · generalize HallCalibrates.calibrationStep runner.hallCalibrator inputs.hallPattern
        runner.config.hallSweepOmega = stepped
      obtain ⟨result, hallCalibrator⟩ := stepped
      cases result with
      | ok theta => exact ⟨.sweeping _ rfl hhall hplace, hsound⟩
      | error fault => exact ⟨trivial, fun stage hstage => by cases hstage⟩

/-- Required, the hall calibration is entered or passed over. -/
theorem going_hallRequired (hphase : runner.phase = .motorEstimation)
    (hplace : place runner.motorEstimator = (.hallRequired, false))
    (hsound : Sound runner.motorEstimator) (inputs : CalibrationInputs K) :
    StepGoes [.unwindRequest] (runner.motorEstimationStep inputs) := by
  rw [motorEstimationStep_eq hplace (by decide), if_neg (by decide), if_neg (by decide),
    if_neg (by decide), if_pos rfl]
  by_cases hhall : runner.hasHall = true
  · rw [if_pos hhall]
    exact ⟨.sweeping 0 rfl hhall hplace, hsound⟩
  -- without a hall sensor the stage is acknowledged at once
  · rw [if_neg hhall]
    obtain ⟨hsound', hplace'⟩ := acknowledgeHall hsound (Prod.mk.inj hplace).1
    rw [(Prod.mk.inj hplace).2] at hplace'
    have hout : [.unwindRequest] = untuned runner.hasHall := by
      rw [untuned, if_neg hhall]
    rw [hout]
    exact ⟨.aligned hphase hplace', hsound'⟩

/-- A failed estimation is reported as such. -/
theorem going_failed (hposition : position runner.motorEstimator.state = .failed)
    (inputs : CalibrationInputs K) :
    StepGoes out (runner.motorEstimationStep inputs) := by
  have hfault : ∃ fault, EstimatesMotorParams.getFault runner.motorEstimator = some fault := by
    show ∃ fault, runner.motorEstimator.getFault = some fault
    rw [OfflineMotorEstimator.getFault]
    cases hstate : runner.motorEstimator.state with
    | failure fault => exact ⟨fault, rfl⟩
    | rotorLockWait waitedS resistance =>
        rw [hstate] at hposition
        cases resistance <;> exact nomatch hposition
    | _ => exact nomatch hstate ▸ hposition
  obtain ⟨fault, hfault⟩ := hfault
  rw [CalibrationRunner.motorEstimationStep, hfault]
  exact ⟨trivial, fun stage hstage => by cases hstage⟩

/-- **STEP LEMMA**: a step of the runner hands out the next stage or none. -/
theorem going_step (h : Going runner out) (inputs : CalibrationInputs K) :
    StepGoes out (runner.step inputs) := by
  obtain ⟨hreported, hsound⟩ := h
  cases hreported with
  | clearing hphase hplace =>
      rw [CalibrationRunner.step, hphase]
      exact ⟨.clearing hphase hplace, hsound⟩
  | measuring hphase hplace =>
      rw [CalibrationRunner.step, hphase]
      simp only
      -- nothing is asked for: the measurement goes on
      rw [motorEstimationStep_eq hplace (by decide)]
      exact ⟨.measuring hphase hplace, hsound⟩
  | measured hphase hplace =>
      rw [CalibrationRunner.step, hphase]
      simp only
      rw [motorEstimationStep_eq hplace (by decide)]
      refine ⟨trivial, ?_⟩
      rintro stage hstage
      obtain rfl := Option.some.inj hstage
      exact ⟨.unwound hphase (congrArg (fun p => (p.1, false)) hplace),
        hsound.numPolePairs, hsound.known⟩
  | unwound hphase hplace =>
      rw [CalibrationRunner.step, hphase]
      exact going_hallRequired hphase hplace hsound inputs
  | sweeping timePassedS hphase hhall hplace =>
      rw [CalibrationRunner.step, hphase]
      exact going_hallCalibrationStep hhall hplace hsound inputs
  | swept hphase hhall hplace =>
      rw [CalibrationRunner.step, hphase]
      exact ⟨.swept hphase hhall hplace, hsound⟩
  | aligned hphase hplace =>
      rw [CalibrationRunner.step, hphase]
      simp only
      rw [motorEstimationStep_eq hplace (by decide)]
      exact ⟨.aligned hphase hplace, hsound⟩
  | tunable hphase hplace =>
      rw [CalibrationRunner.step, hphase]
      simp only
      rw [motorEstimationStep_eq hplace (by decide)]
      refine ⟨tunable_of_position hsound (Prod.mk.inj hplace).1, ?_⟩
      rintro stage hstage
      obtain rfl := Option.some.inj hstage
      exact ⟨.waitingTuning rfl hplace, hsound⟩
  | waitingTuning hphase hplace =>
      rw [CalibrationRunner.step, hphase]
      exact ⟨.waitingTuning hphase hplace, hsound⟩
  | spinning hphase hplace =>
      rw [CalibrationRunner.step, hphase]
      simp only
      rw [motorEstimationStep_eq hplace (by decide)]
      exact ⟨.spinning hphase hplace, hsound⟩
  | estimated hphase hplace =>
      rw [CalibrationRunner.step, hphase]
      simp only
      rw [motorEstimationStep_eq hplace (by decide)]
      refine ⟨complete_of_position hsound (Prod.mk.inj hplace).1, ?_⟩
      rintro stage hstage
      obtain rfl := Option.some.inj hstage
      rw [List.append_assoc]
      exact ⟨.complete rfl hplace, hsound⟩
  | complete hphase hplace =>
      rw [CalibrationRunner.step, hphase]
      exact ⟨.complete hphase hplace, hsound⟩
  | failed hphase unwind hplace hout =>
      rw [CalibrationRunner.step, hphase]
      exact going_failed (Prod.mk.inj hplace).1 inputs

theorem step_hasHall (runner : Runner K H) (inputs : CalibrationInputs K) :
    (runner.step inputs).2.hasHall = runner.hasHall := by
  rw [CalibrationRunner.step]
  split
  · rw [CalibrationRunner.hallCalibrationStep]
    split
    · rfl
    · split
      · rfl
      · generalize HallCalibrates.calibrationStep runner.hallCalibrator inputs.hallPattern
          runner.config.hallSweepOmega = stepped
        obtain ⟨result, hallCalibrator⟩ := stepped
        cases result <;> rfl
  · rw [CalibrationRunner.motorEstimationStep]
    repeat' split
    all_goals rfl
  · rfl

/-! ## Iterations and resumes -/

omit [HallCalibrates H K] in
/-- An iteration of the estimator hands out nothing and skips nothing. -/
theorem going_iteration (h : Going runner out) (data : FocResult K) :
    Going { runner with motorEstimator := runner.motorEstimator.afterFocIteration data }
      out := by
  obtain ⟨hreported, hsound⟩ := h
  obtain ⟨hsound', hmoves⟩ := afterFocIteration_advances hsound data
  have hout := hreported.isPrefix
  -- a fault is possible wherever a test is run; the phase is kept
  let next : Runner K H := { runner with
    motorEstimator := runner.motorEstimator.afterFocIteration data }
  have hfailed : ∀ unwind, next.phase = .motorEstimation →
      place next.motorEstimator = (.failed, unwind) → Reported next out :=
    fun unwind hphase hplace => .failed hphase unwind hplace hout
  refine ⟨?_, hsound'⟩
  cases hreported with
  | clearing hphase hplace =>
      rw [hplace] at hmoves
      exact .clearing hphase (hmoves.eq_of_waiting (by decide))
  | measuring hphase hplace =>
      rw [hplace] at hmoves
      generalize hthere : place _ = there at hmoves
      cases hmoves with
      | stays => exact .measuring hphase hthere
      | measured => exact .measured hphase hthere
      | fails => exact hfailed true hphase hthere
  | measured hphase hplace =>
      rw [hplace] at hmoves
      exact .measured hphase (hmoves.eq_of_waiting (by decide))
  | unwound hphase hplace =>
      rw [hplace] at hmoves
      exact .unwound hphase (hmoves.eq_of_waiting (by decide))
  | sweeping timePassedS hphase hhall hplace =>
      rw [hplace] at hmoves
      exact .sweeping timePassedS hphase hhall (hmoves.eq_of_waiting (by decide))
  | swept hphase hhall hplace =>
      rw [hplace] at hmoves
      exact .swept hphase hhall (hmoves.eq_of_waiting (by decide))
  | aligned hphase hplace =>
      rw [hplace] at hmoves
      generalize hthere : place _ = there at hmoves
      cases hmoves with
      | stays => exact .aligned hphase hthere
      | tunable => exact .tunable hphase hthere
      | fails => exact hfailed true hphase hthere
  | tunable hphase hplace =>
      rw [hplace] at hmoves
      exact .tunable hphase (hmoves.eq_of_waiting (by decide))
  | waitingTuning hphase hplace =>
      rw [hplace] at hmoves
      exact .waitingTuning hphase (hmoves.eq_of_waiting (by decide))
  | spinning hphase hplace =>
      rw [hplace] at hmoves
      generalize hthere : place _ = there at hmoves
      cases hmoves with
      | stays => exact .spinning hphase hthere
      | estimated => exact .estimated hphase hthere
      | fails => exact hfailed true hphase hthere
  | estimated hphase hplace =>
      rw [hplace] at hmoves
      exact .estimated hphase (hmoves.eq_of_waiting (by decide))
  | complete hphase hplace =>
      rw [hplace] at hmoves
      exact .complete hphase (hmoves.eq_of_waiting (by decide))
  | failed hphase unwind hplace =>
      rw [hplace] at hmoves
      exact hfailed unwind hphase (hmoves.eq_of_waiting ⟨nofun, nofun, nofun⟩)

omit [HallCalibrates H K] in
/-- **RESUME**: where nothing waits it does nothing, and elsewhere it goes on with
    what was waited for. -/
theorem going_resume (h : Going runner out) : Going runner.resume out := by
  have hstays : runner.resume = runner → Going runner.resume out :=
    fun hsame => hsame.symm ▸ h
  obtain ⟨hreported, hsound⟩ := h
  -- only three places wait for a resume
  cases hreported with
  | clearing hphase hplace =>
      rw [CalibrationRunner.resume, hphase]
      exact ⟨.measuring rfl rfl, rfl, trivial⟩
  | swept hphase hhall hplace =>
      obtain ⟨hsound', hplace'⟩ := acknowledgeHall hsound (Prod.mk.inj hplace).1
      rw [(Prod.mk.inj hplace).2] at hplace'
      have hout : [.unwindRequest, .hallCalibration] = untuned runner.hasHall := by
        rw [untuned, if_pos hhall]
      rw [CalibrationRunner.resume, hphase, hout]
      exact ⟨.aligned rfl hplace', hsound'⟩
  | waitingTuning hphase hplace =>
      obtain ⟨hsound', hplace'⟩ := acknowledgeTuning hsound (Prod.mk.inj hplace).1
      rw [(Prod.mk.inj hplace).2] at hplace'
      rw [CalibrationRunner.resume, hphase]
      exact ⟨.spinning rfl hplace', hsound'⟩
  | measuring hphase hplace =>
      refine hstays ?_
      rw [CalibrationRunner.resume, hphase]
  | measured hphase hplace =>
      refine hstays ?_
      rw [CalibrationRunner.resume, hphase]
  | unwound hphase hplace =>
      refine hstays ?_
      rw [CalibrationRunner.resume, hphase]
  | sweeping timePassedS hphase hhall hplace =>
      refine hstays ?_
      rw [CalibrationRunner.resume, hphase]
  | aligned hphase hplace =>
      refine hstays ?_
      rw [CalibrationRunner.resume, hphase]
  | tunable hphase hplace =>
      refine hstays ?_
      rw [CalibrationRunner.resume, hphase]
  | spinning hphase hplace =>
      refine hstays ?_
      rw [CalibrationRunner.resume, hphase]
  | estimated hphase hplace =>
      refine hstays ?_
      rw [CalibrationRunner.resume, hphase]
  | complete hphase hplace =>
      refine hstays ?_
      rw [CalibrationRunner.resume, hphase]
  | failed hphase unwind hplace hout =>
      refine hstays ?_
      rw [CalibrationRunner.resume, hphase]

/-! ## Runs -/

variable {F A E : Type} [CurrentController F K] [DoesFocMath A K]
  [SaliencyBasedEstimator E K]

/-- What happens in a session: a tick, with what follows it, or a command other than
    a new start. -/
inductive Event (K F A E : Type) where
  | tick (t : Tick K F A E) (params : ConstantMotorParameters K)
  | command (command : Command K) (hstart : ∀ numPolePairs targets hasHall dtS,
      command ≠ .startCalibration numPolePairs targets hasHall dtS)

/-- The mode, and what `foc_step` has returned. -/
structure Session (K H : Type) where
  mode : OperatingMode K (Runner K H)
  results : List (StageResult K)

/-- `foc_step` and then `after_foc_step`, or a command. -/
def step (s : Session K H) : Event K F A E → Session K H
  | .tick t params =>
      let ((outcome, result), drive) := focStep t.params t.inputs (t.drive s.mode)
      { mode := (afterFocStep params outcome result drive.mode).2.2
        results := s.results ++ result.toList }
  | .command command _ => { s with mode := s.mode.after command }

/-- A session as it starts. -/
def Session.start (numPolePairs : UInt8) (targets : CalibrationTargets K) (hasHall : Bool)
    (dtS : K) : Session K H where
  mode := .calibration (CalibrationRunner.new numPolePairs targets hasHall dtS)
  results := []

/-- The mode goes with the stages that are out: the session goes on, or is over. -/
def Follows (hasHall : Bool) (mode : OperatingMode K (Runner K H)) (out : List Stage) :
    Prop :=
  (∀ runner, session mode = some runner → Going runner out ∧ runner.hasHall = hasHall) ∧
    out <+: stages hasHall

variable {hasHall : Bool} {mode mode' : OperatingMode K (Runner K H)}

omit [FloorRing K] [HallCalibrates H K] in
theorem Follows.of_going (h : Going runner out) (hhall : runner.hasHall = hasHall) :
    Follows hasHall (.calibration runner : OperatingMode K (Runner K H)) out := by
  refine ⟨?_, hhall ▸ h.reported.isPrefix⟩
  rintro runner' hsession
  obtain rfl := Option.some.inj hsession
  exact ⟨h, hhall⟩

omit [FloorRing K] [HallCalibrates H K] in
theorem Follows.keeps (h : Follows hasHall mode out) (hkeeps : Keeps mode mode') :
    Follows hasHall mode' out := by
  rcases hkeeps with rfl | hnone
  · exact h
  · exact ⟨fun runner hsession => (nomatch hnone.symm.trans hsession), h.2⟩

omit [FloorRing K] [HallCalibrates H K] in
/-- The mode of a session that is over. -/
theorem Follows.over (hout : out <+: stages hasHall) (hnone : session mode = none) :
    Follows hasHall mode out :=
  ⟨fun _ hsession => (nomatch hnone.symm.trans hsession), hout⟩

omit [FloorRing K] [HallCalibrates H K] in
/-- What a step of the runner hands out goes with the mode it leaves. -/
theorem StepGoes.follows
    {stepped : (CalibrationOutput K × Option (StageResult K)) × Runner K H}
    (h : StepGoes out stepped) (hhall : stepped.2.hasHall = hasHall)
    (hout : out <+: stages hasHall) (hafter : Keeps (.calibration stepped.2) mode')
    (hfailure : ∀ cause, stepped.1.2 = some (.failure cause) → mode'.IsFault) :
    Follows hasHall mode' (out ++ stepped.1.2.toList.filterMap stageOf) ∧
      ∀ r ∈ stepped.1.2, Carries r := by
  obtain ⟨⟨output, result⟩, runner'⟩ := stepped
  cases result with
  | none =>
      refine ⟨?_, fun r hr => nomatch hr⟩
      show Follows hasHall mode' (out ++ [])
      rw [List.append_nil]
      exact (Follows.of_going h hhall).keeps hafter
  | some result =>
      refine ⟨?_, fun r hr => Option.some.inj hr ▸ h.1⟩
      show Follows hasHall mode' (out ++ [result].filterMap stageOf)
      cases hstage : stageOf result with
      | some stage =>
          rw [List.filterMap_cons_some hstage]
          exact (Follows.of_going (h.2 stage hstage) hhall).keeps hafter
      | none =>
          rw [List.filterMap_cons_none hstage, List.filterMap_nil, List.append_nil]
          -- a result that is no stage is a failure
          have hcause : ∃ cause, result = .failure cause := by
            cases result with
            | failure cause => exact ⟨cause, rfl⟩
            | _ => exact nomatch hstage
          obtain ⟨cause, rfl⟩ := hcause
          exact .over hout (session_of_isFault (hfailure cause rfl))

/-- **TICK**: what a tick returns is the next stage, or a failure, or nothing. -/
theorem Follows.tick {result : Option (StageResult K)} (h : Follows hasHall mode out)
    (htick : SessionTick mode result mode') :
    Follows hasHall mode' (out ++ result.toList.filterMap stageOf) ∧
      (∀ r ∈ result, Carries r) ∧
      ∀ cause, result = some (.failure cause) → mode'.IsFault := by
  cases htick with
  | unstepped hafter =>
      refine ⟨?_, fun r hr => (nomatch hr), fun cause hcause => nomatch hcause⟩
      rw [Option.toList_none, List.filterMap_nil, List.append_nil]
      exact h.keeps hafter
  | stepped runner inputs hbefore hafter hfailure =>
      obtain ⟨hgoing, hhall⟩ := h.1 runner (by rw [hbefore]; rfl)
      have hhall' := (step_hasHall runner inputs).trans hhall
      obtain ⟨hfollows, hcarries⟩ :=
        (going_step hgoing inputs).follows hhall' h.2 hafter hfailure
      exact ⟨hfollows, hcarries, hfailure⟩

/-- What follows a tick hands out nothing. -/
theorem Follows.afterFocStep (h : Follows hasHall mode out)
    (params : ConstantMotorParameters K) (outcome : FocStepOutcome K)
    (result : Option (StageResult K)) :
    Follows hasHall (afterFocStep params outcome result mode).2.2 out := by
  cases mode with
  | calibration runner =>
      obtain ⟨hgoing, hhall⟩ := h.1 runner rfl
      rw [Control.afterFocStep]
      cases hshown : shownResult outcome result with
      | none => exact .of_going hgoing hhall
      | some data => exact .of_going (going_iteration hgoing data) hhall
  | _ => exact h

theorem afterFocStep_isFault (hfault : mode.IsFault) (params : ConstantMotorParameters K)
    (outcome : FocStepOutcome K) (result : Option (StageResult K)) :
    (afterFocStep params outcome result mode).2.2.IsFault := by
  cases mode with
  | fault safeStrategy writeIndex trace => exact trivial
  | _ => exact hfault.elim

omit [HallCalibrates H K] in
theorem resume_hasHall (runner : Runner K H) : runner.resume.hasHall = runner.hasHall := by
  rw [CalibrationRunner.resume]
  split <;> rfl

/-- A command that starts no session resumes it, ends it or leaves it alone. -/
theorem Follows.command (h : Follows hasHall mode out) {command : Command K}
    (hstart : ∀ numPolePairs targets hasHall dtS,
      command ≠ .startCalibration numPolePairs targets hasHall dtS) :
    Follows hasHall (mode.after command) out := by
  cases mode with
  | calibration runner =>
      cases command with
      | startCalibration numPolePairs targets hasHall dtS =>
          exact absurd rfl (hstart _ _ _ _)
      | resumeCalibration =>
          obtain ⟨hgoing, hhall⟩ := h.1 runner rfl
          exact .of_going (going_resume hgoing) ((resume_hasHall runner).trans hhall)
      | finishCalibration => exact h.keeps (.inr rfl)
      | cancelCalibration => exact h.keeps (.inr rfl)
      | assertFault cause => exact h.keeps (.inr rfl)
      | _ => exact h
  | fault safeStrategy writeIndex trace =>
      cases command with
      | startCalibration numPolePairs targets hasHall dtS =>
          exact absurd rfl (hstart _ _ _ _)
      | clearFault => cases safeStrategy <;> exact h.keeps (.inr rfl)
      | _ => exact h.keeps (.inr rfl)
  | _ =>
      cases command with
      | startCalibration numPolePairs targets hasHall dtS =>
          exact absurd rfl (hstart _ _ _ _)
      | _ => exact h.keeps (.inr rfl)

/-- What a session's results are: the stages of it in their order, from the first
    on, and what each stands for. -/
structure Ordered (hasHall : Bool) (s : Session K H) : Prop where
  follows : Follows hasHall s.mode (s.results.filterMap stageOf)
  carries : ∀ r ∈ s.results, Carries r

theorem ordered_step {s : Session K H} (h : Ordered hasHall s) (event : Event K F A E) :
    Ordered hasHall (step s event) := by
  cases event with
  | command command hstart => exact ⟨h.follows.command hstart, h.carries⟩
  | tick t params =>
      obtain ⟨hfollows, hcarries, -⟩ := h.follows.tick (focStep_sessionTick t s.mode)
      refine ⟨?_, ?_⟩
      · show Follows hasHall _ ((s.results ++ _).filterMap stageOf)
        rw [List.filterMap_append]
        exact hfollows.afterFocStep params _ _
      · intro r hr
        rcases List.mem_append.mp hr with hr | hr
        · exact h.carries r hr
        · exact hcarries r (Option.mem_toList.mp hr)

/-- What one event of a session shows: a tick returns what its calibrator has
    returned to it, and leaves the mode `Fault` if that is a failure. -/
def Returns (s : Session K H) : Event K F A E → Prop
  | .tick t params =>
      let result := (focStep t.params t.inputs (t.drive s.mode)).1.2
      result = calibratorResult t s.mode ∧
        (step s (.tick t params)).results = s.results ++ result.toList ∧
        ∀ cause, result = some (.failure cause) → (step s (.tick t params)).mode.IsFault
  | .command command hstart =>
      (step s (.command command hstart : Event K F A E)).results = s.results

/-- **SESSION**: in every run each result of the calibrator is returned once; the
    results other than failures are the first of the session's stages, in their
    order; a tuning request carries the resistance and the inductances and the motor
    parameters all that was estimated; and a failure leaves the mode `Fault`. -/
theorem session_ordered (numPolePairs : UInt8) (targets : CalibrationTargets K)
    (hasHall : Bool) (dtS : K) (events : List (Event K F A E)) :
    let start : Session K H := .start numPolePairs targets hasHall dtS
    Always step Returns start events ∧
      (run step start events).results.filterMap stageOf <+: stages hasHall ∧
      (∀ params, .tuningRequest params ∈ (run step start events).results →
        Positive params.statorResistance ∧ Positive params.dInductance ∧
          Positive params.qInductance) ∧
      ∀ params, .motorParameters params ∈ (run step start events).results →
        params.numPolePairs.isSome ∧ Positive params.statorResistance ∧
          Positive params.dInductance ∧ Positive params.qInductance ∧
          Positive params.pmFluxLinkage ∧ params.deadtimeRatio.isSome := by
  intro start
  have hstart : Ordered hasHall start := by
    refine ⟨.of_going (going_new numPolePairs targets hasHall dtS) rfl, ?_⟩
    exact fun r hr => nomatch hr
  -- one invariant gives all four: the results so far, and where the session is
  have hordered : Ordered hasHall (run step start events) := by
    refine run_keeps (A := fun _ => True) (I := Ordered hasHall) ?_ events start
      (fun _ _ => trivial) hstart
    exact fun s event _ h => ordered_step h event
  refine ⟨?_, hordered.follows.2, ?_, ?_⟩
  · refine always_of_inv (A := fun _ => True) (I := Ordered hasHall)
      (fun s event _ h => ordered_step h event) ?_ events start (fun _ _ => trivial) hstart
    intro s event _ h
    cases event with
    | command command hcommand => exact rfl
    | tick t params =>
        refine ⟨focStep_result_eq t s.mode, rfl, ?_⟩
        intro cause hcause
        obtain ⟨-, -, hfault⟩ := h.follows.tick (focStep_sessionTick t s.mode)
        exact afterFocStep_isFault (hfault cause hcause) params _ _
  · intro params hparams
    have htunable : Tunable params := hordered.carries _ hparams
    exact ⟨htunable.statorResistance, htunable.dInductance, htunable.qInductance⟩
  · intro params hparams
    have hcomplete : Complete params := hordered.carries _ hparams
    exact ⟨hcomplete.numPolePairs, hcomplete.statorResistance, hcomplete.dInductance,
      hcomplete.qInductance, hcomplete.pmFluxLinkage, hcomplete.deadtimeRatio⟩

end SessionProofs
