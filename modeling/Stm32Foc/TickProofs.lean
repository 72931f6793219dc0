import Stm32Foc.Control
import Stm32Foc.EventRun
import Mathlib.Tactic.Positivity

/-! # The stages of a tick

    One lemma a stage on what it can do to the mode.  A fault that is asserted
    anywhere leaves the mode `Fault`, so a mode that is not `Fault` at a later
    stage has passed every check before it: read backwards, that gives what is
    known when the current controller is called. -/

namespace TickProofs

open EventRun FieldOriented Faults SafeStrategy Calibration Modes Control Saliency

/-- A feedback that is not missed by a mode that needs it is there. -/
theorem feedback_ok {K C : Type} [Calibrator C K]
    {feedback : Except RotorFeedbackFault (RotorFeedback K)}
    {mode : OperatingMode K C} (h : feedbackMissed feedback mode = false)
    (hmode : mode.focGate.feedbackOptional = false) :
    ∃ f, feedback = .ok f := by
  cases feedback with
  | ok f => exact ⟨f, rfl⟩
  | error fault =>
      rw [feedbackMissed, hmode] at h
      exact nomatch h

variable {K : Type} {C : Type} [Calibrator C K]

/-! ## Calibration steps -/

theorem calibrate_other (params : MotorParamsEstimate K)
    (inputs : CalibrationInputs K) {mode : OperatingMode K C}
    (h : ∀ calibrator, mode ≠ .calibration calibrator) :
    calibrate params inputs mode = ⟨none, none, params, mode⟩ := by
  cases mode with
  | calibration calibrator => exact absurd rfl (h calibrator)
  | _ => rfl

/-- A calibration step stays in calibration, and nothing enters it. -/
theorem calibrate_mode_iff (params : MotorParamsEstimate K)
    (inputs : CalibrationInputs K) (mode : OperatingMode K C) :
    (∃ calibrator, (calibrate params inputs mode).mode = .calibration calibrator) ↔
      ∃ calibrator, mode = .calibration calibrator := by
  cases mode with
  | calibration calibrator =>
      refine iff_of_true ?_ ⟨calibrator, rfl⟩
      rw [calibrate]
      split
      · exact ⟨_, rfl⟩
      · exact ⟨_, rfl⟩
  | _ => exact iff_of_false (fun ⟨_, h⟩ => nomatch h) (fun ⟨_, h⟩ => nomatch h)

/-- A calibration that is active after the step has been stepped. -/
theorem calibrate_output {params : MotorParamsEstimate K}
    {inputs : CalibrationInputs K} {mode : OperatingMode K C} {calibrator : C}
    (h : (calibrate params inputs mode).mode = .calibration calibrator)
    (hactive : (calibrate params inputs mode).mode.focGate.active = true) :
    ∃ before : C, (calibrate params inputs mode).output
      = some (Calibrator.step before inputs).1.1 := by
  obtain ⟨before, rfl⟩ := (calibrate_mode_iff params inputs mode).mp ⟨_, h⟩
  rw [calibrate] at hactive ⊢
  by_cases hgate : (OperatingMode.calibration before).focGate.active = true
  · rw [if_pos hgate]
    exact ⟨before, rfl⟩
  · rw [if_neg hgate] at hactive
    exact absurd hactive hgate

variable [Field K]

/-! ## Asserted faults -/

theorem assertFault_isFault (mode : OperatingMode K C) (cause : FaultCause) :
    (mode.after (.assertFault cause)).IsFault := by
  cases mode <;> exact trivial

/-- A mode that is not `Fault` after a check has passed it. -/
theorem assertIf_passed {condition : Bool} {cause : FaultCause}
    {mode mode' : OperatingMode K C} (h : assertIf condition cause mode = mode')
    (hmode : ¬ mode'.IsFault) : condition = false ∧ mode = mode' := by
  cases condition with
  | true =>
      rw [assertIf, if_pos rfl] at h
      exact absurd (h ▸ assertFault_isFault mode cause) hmode
  | false => exact ⟨rfl, h⟩

/-- ... and one that was `Fault` stays so. -/
theorem assertIf_isFault (condition : Bool) (cause : FaultCause)
    {mode : OperatingMode K C} (h : mode.IsFault) :
    (assertIf condition cause mode).IsFault := by
  cases condition with
  | true => exact assertFault_isFault mode cause
  | false => exact h

/-- One of the board's fault inputs is set. -/
def boardFault (inputs : FocStepInputs K) : Bool :=
  inputs.watchdogFault || inputs.overcurrent || inputs.brakingLimitExceeded

theorem boardFaults_of_none {inputs : FocStepInputs K}
    (h : boardFault inputs = false) (mode : OperatingMode K C) :
    boardFaults inputs mode = mode := by
  rw [boardFault, Bool.or_eq_false_iff, Bool.or_eq_false_iff] at h
  rw [boardFaults, h.1.1, h.1.2, h.2]
  rfl

theorem boardFaults_isFault {inputs : FocStepInputs K}
    (h : boardFault inputs = true) (mode : OperatingMode K C) :
    (boardFaults inputs mode).IsFault := by
  rw [boardFault, Bool.or_eq_true, Bool.or_eq_true] at h
  rw [boardFaults]
  -- the first fault is kept by the checks after it
  rcases h with (h | h) | h
  · rw [h]
    exact assertIf_isFault _ _
      (assertIf_isFault _ _ (assertFault_isFault mode _))
  · rw [h]
    exact assertIf_isFault _ _ (assertFault_isFault _ _)
  · rw [h]
    exact assertFault_isFault _ _

/-- A mode that is not `Fault` after the board's checks has passed them all. -/
theorem boardFaults_passed {inputs : FocStepInputs K} {mode mode' : OperatingMode K C}
    (h : boardFaults inputs mode = mode') (hmode : ¬ mode'.IsFault) :
    boardFault inputs = false ∧ mode = mode' := by
  have hnone : boardFault inputs = false := by
    rw [Bool.eq_false_iff]
    intro hset
    exact hmode (h ▸ boardFaults_isFault hset mode)
  exact ⟨hnone, (boardFaults_of_none hnone mode).symm.trans h⟩

theorem stageFault_passed {result : Option (StageResult K)}
    {mode mode' : OperatingMode K C} (h : stageFault result mode = mode')
    (hmode : ¬ mode'.IsFault) : mode = mode' := by
  cases result with
  | none => exact h
  | some stage =>
      cases stage with
      | failure cause =>
          have hfault := assertFault_isFault mode cause.toFaultCause
          exact absurd (show mode'.IsFault from h ▸ hfault) hmode
      | _ => exact h

/-! ## Diagnostics -/

variable [LinearOrder K]
variable {F A E : Type} [CurrentController F K] [DoesFocMath A K]
  [SaliencyBasedEstimator E K]

/-- What `resolvePolarity` can do: the feedback it takes, and the mode it leaves. -/
inductive Resolved (inputs : FocStepInputs K) (drive : Drive K C F A E) :
    Except RotorFeedbackFault (RotorFeedback K) → OperatingMode K C → Prop where
  /-- There is no polarity test. -/
  | other (hm : drive.mode ≠ .saliencyPolarityTest) :
      Resolved inputs drive inputs.rotorFeedback drive.mode
  /-- The test goes on, on the estimator's own feedback. -/
  | ongoing (hm : drive.mode = .saliencyPolarityTest)
      (hv : SaliencyBasedEstimator.polePolarity drive.saliencyEstimator = none)
      (hs : ∀ feedback, inputs.rotorFeedback = .ok feedback →
        seeds inputs feedback = false) :
      Resolved inputs drive
        (SaliencyBasedEstimator.read drive.saliencyEstimator).1
        .saliencyPolarityTest
  /-- The feedback resolves the polarity. -/
  | seeded (hm : drive.mode = .saliencyPolarityTest)
      (hv : SaliencyBasedEstimator.polePolarity drive.saliencyEstimator = none)
      (feedback : RotorFeedback K) (hf : inputs.rotorFeedback = .ok feedback)
      (hs : seeds inputs feedback = true) :
      Resolved inputs drive inputs.rotorFeedback .torqueControl
  | passed (hm : drive.mode = .saliencyPolarityTest)
      (hv : SaliencyBasedEstimator.polePolarity drive.saliencyEstimator
        = some (.ok ())) :
      Resolved inputs drive inputs.rotorFeedback .torqueControl
  | failed (hm : drive.mode = .saliencyPolarityTest) (e : PolarityTestFault)
      (hv : SaliencyBasedEstimator.polePolarity drive.saliencyEstimator
        = some (.error e)) :
      Resolved inputs drive inputs.rotorFeedback
        (drive.mode.after (.assertFault (.ofPolarityTestFault e)))

theorem resolvePolarity_cases (params : MotorParamsEstimate K)
    (inputs : FocStepInputs K) (drive : Drive K C F A E) :
    Resolved inputs drive (resolvePolarity params inputs drive).1
      (resolvePolarity params inputs drive).2.mode := by
  obtain ⟨mode, foc, acceleration, saliencyEstimator⟩ := drive
  cases mode with
  | saliencyPolarityTest =>
      rw [resolvePolarity]
      cases hv : SaliencyBasedEstimator.polePolarity saliencyEstimator with
      | none =>
          cases hf : inputs.rotorFeedback with
          | error fault =>
              refine .ongoing rfl hv ?_
              intro feedback h
              exact nomatch hf.symm.trans h
          | ok feedback =>
              -- a fast feedback seeds the polarity; any other leaves the test on
              cases hs : seeds inputs feedback with
              | true =>
                  simp only [hs, if_true]
                  rw [← hf]
                  exact .seeded rfl hv feedback hf hs
              | false =>
                  simp only [hs, Bool.false_eq_true, if_false]
                  refine .ongoing rfl hv ?_
                  intro feedback' h
                  obtain rfl := Except.ok.inj (hf.symm.trans h)
                  exact hs
      | some verdict =>
          cases verdict with
          | ok _ => exact .passed rfl hv
          | error e => exact .failed rfl e hv
  | idle safeStrategy => exact .other (fun h => nomatch h)
  | calibration calibrator => exact .other (fun h => nomatch h)
  | torqueControl => exact .other (fun h => nomatch h)
  | fault safeStrategy writeIndex trace => exact .other (fun h => nomatch h)

/-- The parts of `diagnose`, one after the other. -/
theorem diagnose_stages (params : MotorParamsEstimate K) (inputs : FocStepInputs K)
    (drive : Drive K C F A E) :
    let diagnosed := diagnose params inputs drive
    ∃ mode', Resolved inputs { drive with mode := boardFaults inputs drive.mode }
        diagnosed.rotorFeedback mode' ∧
      diagnosed.rotorFeedbackFault
        = feedbackMissed diagnosed.rotorFeedback (setpointFault inputs mode') ∧
      diagnosed.drive.mode = assertIf diagnosed.rotorFeedbackFault
        .invalidRotorFeedback (setpointFault inputs mode') :=
  ⟨_, resolvePolarity_cases params inputs _, rfl, rfl⟩

/-- **WHAT IS DIAGNOSED** where torque control goes on: no fault input is set, and
    there is a setpoint and a feedback. -/
theorem diagnose_torqueControl {params : MotorParamsEstimate K}
    {inputs : FocStepInputs K} {drive : Drive K C F A E}
    (h : (diagnose params inputs drive).drive.mode = .torqueControl) :
    boardFault inputs = false ∧ (∃ s, inputs.targetTorque = some s) ∧
      (diagnose params inputs drive).rotorFeedbackFault = false ∧
      ∃ f, inputs.rotorFeedback = .ok f ∧
        (diagnose params inputs drive).rotorFeedback = .ok f := by
  obtain ⟨mode', hresolved, hfault, hmode⟩ := diagnose_stages params inputs drive
  -- backwards: the feedback, the setpoint, the hand-over, the board
  obtain ⟨hnotMissed, hset⟩ := assertIf_passed (hmode.symm.trans h) id
  obtain ⟨hsetpoint, hdriving⟩ := assertIf_passed hset id
  rw [hnotMissed, hset] at hfault
  obtain ⟨f, hf⟩ := feedback_ok hfault.symm rfl
  have htarget : ∃ s, inputs.targetTorque = some s := by
    rw [hdriving, needsSetpoint, Bool.true_and] at hsetpoint
    exact Option.isSome_iff_exists.mp (Option.isNone_eq_false_iff.mp hsetpoint)
  have hboard : boardFault inputs = false ∧
      (diagnose params inputs drive).rotorFeedback = inputs.rotorFeedback := by
    generalize (diagnose params inputs drive).rotorFeedback = feedback at hresolved ⊢
    cases hresolved with
    | other hm => exact ⟨(boardFaults_passed hdriving id).1, rfl⟩
    | ongoing hm => exact nomatch hdriving
    | seeded hm => exact ⟨(boardFaults_passed hm id).1, rfl⟩
    | passed hm => exact ⟨(boardFaults_passed hm id).1, rfl⟩
    | failed hm e =>
        have hfailed := assertFault_isFault (boardFaults inputs drive.mode)
          (.ofPolarityTestFault e)
        rw [hdriving] at hfailed
        exact hfailed.elim
  exact ⟨hboard.1, htarget, hnotMissed, f, hboard.2.symm.trans hf, hf⟩

/-- A mode that needs feedback goes on with feedback only. -/
theorem diagnose_feedback {params : MotorParamsEstimate K} {inputs : FocStepInputs K}
    {drive : Drive K C F A E}
    (h : (diagnose params inputs drive).drive.mode.focGate.feedbackOptional
      = false) :
    ∃ f, (diagnose params inputs drive).rotorFeedback = .ok f := by
  obtain ⟨mode', -, hfault, hmode⟩ := diagnose_stages params inputs drive
  have hnotFault : ¬ (diagnose params inputs drive).drive.mode.IsFault := by
    intro hf
    revert h
    cases hm : (diagnose params inputs drive).drive.mode with
    | fault safeStrategy writeIndex trace => exact fun h => nomatch h
    | _ => exact (hm ▸ hf).elim
  obtain ⟨hnotMissed, hset⟩ := assertIf_passed hmode.symm hnotFault
  rw [hnotMissed, hset] at hfault
  exact feedback_ok hfault.symm h

/-! ## Supervision -/

section Supervise

variable {params : MotorParamsEstimate K} {inputs : FocStepInputs K}
  {dcBusVoltageV : K} {rotorFeedbackFault : Bool} {feedback : RotorFeedback K}
  {mode mode' : OperatingMode K C}

/-- A mode that is not `Fault` after the supervision has passed it. -/
theorem supervise_passed
    (h : (supervise params inputs dcBusVoltageV rotorFeedbackFault feedback
      mode).mode = mode') (hmode : ¬ mode'.IsFault) :
    let calibrated := calibrate params
      { dcBusVoltageV := dcBusVoltageV
        angleType := feedback.angleType
        theta := feedback.theta
        hallPattern := inputs.hallPattern } mode
    calibrated.mode = mode' ∧
      overspeed inputs rotorFeedbackFault
        (mechToFeedback feedback.angleType calibrated.activeEstimate)
        feedback.omega = false := by
  obtain ⟨hspeed, hstage⟩ := assertIf_passed h hmode
  exact ⟨stageFault_passed hstage hmode, hspeed⟩

/-- Supervised in calibration, the tick has a calibrator's output. -/
theorem supervise_calibration {calibrator : C}
    (h : (supervise params inputs dcBusVoltageV rotorFeedbackFault feedback
      mode).mode = .calibration calibrator)
    (hactive : (OperatingMode.calibration calibrator : OperatingMode K
      C).focGate.active = true) :
    ∃ (before : C) (calibrationInputs : CalibrationInputs K),
      (supervise params inputs dcBusVoltageV rotorFeedbackFault feedback
        mode).output = some (Calibrator.step before calibrationInputs).1.1 := by
  obtain ⟨hmode, -⟩ := supervise_passed h id
  obtain ⟨before, houtput⟩ := calibrate_output hmode (hmode ▸ hactive)
  exact ⟨before, _, houtput⟩

/-- Supervised in any other mode but `Fault`, it has gone through unchanged. -/
theorem supervise_other
    (h : (supervise params inputs dcBusVoltageV rotorFeedbackFault feedback
      mode).mode = mode') (hfault : ¬ mode'.IsFault)
    (hcal : ∀ calibrator, mode' ≠ .calibration calibrator) :
    mode = mode' ∧
      (supervise params inputs dcBusVoltageV rotorFeedbackFault feedback
        mode).output = none ∧
      (supervise params inputs dcBusVoltageV rotorFeedbackFault feedback
        mode).activeEstimate = params ∧
      overspeed inputs rotorFeedbackFault
        (mechToFeedback feedback.angleType params) feedback.omega = false := by
  obtain ⟨hmode, hspeed⟩ := supervise_passed h hfault
  have hother : ∀ calibrator, mode ≠ .calibration calibrator := by
    intro calibrator hc
    obtain ⟨c, hc'⟩ := (calibrate_mode_iff params _ mode).mpr ⟨calibrator, hc⟩
    exact hcal c (hmode.symm.trans hc')
  have hcalibrate := calibrate_other params
    { dcBusVoltageV := dcBusVoltageV
      angleType := feedback.angleType
      theta := feedback.theta
      hallPattern := inputs.hallPattern } hother
  rw [hcalibrate] at hmode hspeed
  refine ⟨hmode, ?_, ?_, hspeed⟩
  · exact congrArg Calibrated.output hcalibrate
  · exact congrArg Calibrated.activeEstimate hcalibrate

end Supervise

/-! ## The safety reaction -/

/-- What a strategy does to a tick. -/
theorem actOn_focTick (strategy : SafeControlStrategy K)
    (input : SafeControlStrategyInput K) :
    actOn (strategy.focTick input).1
      = match strategy.evolved input with
        | .rampDown _ => .ok (some (.targetTorque 0))
        | .asc _ => .error .activeShort
        | _ => .error .nonConducting := by
  rw [SafeControlStrategy.focTick]
  generalize strategy.evolved input = evolved
  cases evolved <;> rfl

theorem safetyCommand_calibration (input : SafeControlStrategyInput K)
    (calibrator : C) :
    let mode : OperatingMode K C := .calibration calibrator
    safetyCommand input mode
      = if mode.focGate.active then (.ok none, mode)
        else (.error .nonConducting, mode) := by
  intro mode
  have hrun : safetyCommand input mode
      = if !mode.focGate.active then (.error .nonConducting, mode)
        else (.ok none, mode) := rfl
  rw [hrun]
  cases mode.focGate.active <;> rfl

/-- The safety reaction commands no torque but zero. -/
theorem safetyCommand_some {input : SafeControlStrategyInput K}
    {mode : OperatingMode K C} {command : FocInputType K}
    (h : (safetyCommand input mode).1 = .ok (some command)) :
    command = .targetTorque 0 := by
  have hact : ∀ strategy : SafeControlStrategy K,
      actOn (strategy.focTick input).1 = .ok (some command) →
      command = .targetTorque 0 := by
    intro strategy hs
    rw [actOn_focTick] at hs
    split at hs
    · exact (Option.some.inj (Except.ok.inj hs)).symm
    · exact nomatch hs
    · exact nomatch hs
  cases mode with
  | idle safeStrategy => exact hact safeStrategy h
  | fault safeStrategy writeIndex trace => exact hact safeStrategy h
  | saliencyPolarityTest => exact nomatch h
  | torqueControl => exact nomatch h
  | calibration calibrator =>
      rw [safetyCommand_calibration] at h
      split at h <;> exact nomatch h

/-- The tick goes on without a safety command in the modes that modulate by
    themselves. -/
theorem safetyCommand_none {input : SafeControlStrategyInput K}
    {mode : OperatingMode K C} (h : (safetyCommand input mode).1 = .ok none) :
    (safetyCommand input mode).2 = mode ∧ mode.focGate.active = true ∧
      mode.focGate.useSafetyCommand = false := by
  have hact : ∀ strategy : SafeControlStrategy K,
      actOn (strategy.focTick input).1 ≠ .ok none := by
    intro strategy hs
    rw [actOn_focTick] at hs
    split at hs <;> exact nomatch hs
  cases mode with
  | idle safeStrategy => exact absurd h (hact safeStrategy)
  | fault safeStrategy writeIndex trace => exact absurd h (hact safeStrategy)
  | saliencyPolarityTest => exact ⟨rfl, rfl, rfl⟩
  | torqueControl => exact ⟨rfl, rfl, rfl⟩
  | calibration calibrator =>
      rw [safetyCommand_calibration] at h ⊢
      split at h
      · rename_i hactive
        rw [if_pos hactive]
        exact ⟨rfl, hactive, rfl⟩
      · exact nomatch h

/-! ## Calls of the controller -/

/-- A tick: all that it reads but the mode. -/
structure Tick (K F A E : Type) where
  params : MotorParamsEstimate K
  inputs : FocStepInputs K
  foc : F
  acceleration : A
  saliencyEstimator : E

/-- A call of the controller, with the mode at that moment. -/
structure ComputeCall (K C : Type) where
  mode : OperatingMode K C
  input : FocInput K
  estimate : MotorParamsEstimate K

namespace Tick

variable (t : Tick K F A E) (mode : OperatingMode K C)

def drive : Drive K C F A E where
  mode := mode
  foc := t.foc
  acceleration := t.acceleration
  saliencyEstimator := t.saliencyEstimator

/-- What the tick finds in its first part. -/
def diagnosed : Diagnosed K C F A E := diagnose t.params t.inputs (t.drive mode)

/-- The feedback the tick goes on with. -/
def feedback : RotorFeedback K := orDefault (t.diagnosed mode).rotorFeedback

/-- What the tick comes to in its second part. -/
def supervised (dcBusVoltageV : K) : Calibrated K C :=
  supervise t.params t.inputs dcBusVoltageV (t.diagnosed mode).rotorFeedbackFault
    (t.feedback mode) (t.diagnosed mode).drive.mode

/-- The safety command of the tick. -/
def safety (dcBusVoltageV : K) :
    Except (FocStepOutcome K) (Option (FocInputType K)) × OperatingMode K C :=
  safetyCommand (safetyInput t.inputs dcBusVoltageV
    (t.diagnosed mode).rotorFeedback.isOk (t.feedback mode)
    (t.supervised mode dcBusVoltageV).activeEstimate)
    (t.supervised mode dcBusVoltageV).mode

/-- The call that the tick makes, if it makes one. -/
def call : Option (ComputeCall K C) :=
  let prepared := prepare t.params t.inputs (t.drive mode)
  match prepared.call with
  | .ok (input, estimate) => some ⟨prepared.drive.mode, input, estimate⟩
  | .error _ => none

variable {t mode}

/-- **A CALL** is made exactly with a DC bus reading and a safety command that lets
    the tick go on. -/
theorem call_eq_some_iff {c : ComputeCall K C} :
    t.call mode = some c ↔ ∃ dcBusVoltageV command,
      t.inputs.dcBusReadingV = some dcBusVoltageV ∧
      (t.safety mode dcBusVoltageV).1 = .ok command ∧
      c = ⟨(t.safety mode dcBusVoltageV).2,
        focInput t.inputs dcBusVoltageV (t.feedback mode)
          (t.supervised mode dcBusVoltageV)
          (t.diagnosed mode).drive.saliencyEstimator command,
        (t.supervised mode dcBusVoltageV).activeEstimate⟩ := by
  cases hdc : t.inputs.dcBusReadingV with
  | none =>
      have hnone : t.call mode = none := by
        rw [call, prepare, hdc]
      rw [hnone]
      exact iff_of_false (fun h => nomatch h) (fun ⟨_, _, h, _⟩ => nomatch h)
  | some dcBusVoltageV =>
      have hcall : t.call mode
          = match (t.safety mode dcBusVoltageV).1.map (fun command =>
              (focInput t.inputs dcBusVoltageV (t.feedback mode)
                (t.supervised mode dcBusVoltageV)
                (t.diagnosed mode).drive.saliencyEstimator command,
                (t.supervised mode dcBusVoltageV).activeEstimate)) with
            | .ok (input, estimate) =>
                some ⟨(t.safety mode dcBusVoltageV).2, input, estimate⟩
            | .error _ => none := by
        rw [call, prepare, hdc]
        rfl
      rw [hcall]
      cases hsafety : (t.safety mode dcBusVoltageV).1 with
      | error outcome =>
          refine iff_of_false (fun h => nomatch h) ?_
          rintro ⟨dc, command, hsame, h, -⟩
          obtain rfl := Option.some.inj hsame
          exact nomatch hsafety.symm.trans h
      | ok command =>
          constructor
          · intro h
            exact ⟨dcBusVoltageV, command, rfl, hsafety, (Option.some.inj h).symm⟩
          · rintro ⟨dc, command', hsame, h, rfl⟩
            obtain rfl := Option.some.inj hsame
            obtain rfl := Except.ok.inj (hsafety.symm.trans h)
            rfl

end Tick

/-! ## What the controller is given -/

/-- A controller that keeps what it is called with. -/
structure Recording (K F : Type) where
  controller : F
  calls : List (FocInput K × MotorParamsEstimate K)

instance : CurrentController (Recording K F) K where
  compute foc input motorParams accelerator hfi fieldWeakening :=
    let (result, controller, accelerator, hfi) :=
      CurrentController.compute foc.controller input motorParams accelerator hfi fieldWeakening
    (result, ⟨controller, foc.calls ++ [(input, motorParams)]⟩, accelerator, hfi)
  clearWindup foc := { foc with controller := CurrentController.clearWindup foc.controller }

section Records

variable {A E : Type} [DoesFocMath A K] [SaliencyBasedEstimator E K]

/-- The first part of a tick calls nothing. -/
theorem resolvePolarity_calls (params : MotorParamsEstimate K) (inputs : FocStepInputs K)
    (drive : Drive K C (Recording K F) A E) :
    (resolvePolarity params inputs drive).2.foc.calls = drive.foc.calls := by
  rw [resolvePolarity]
  split
  · split
    · split
      · split <;> rfl
      · rfl
    · rfl
    · rfl
  · rfl

/-- **THE CALL OF A TICK** is the one that the controller gets, and the only one. -/
theorem focStep_calls (t : Tick K (Recording K F) A E) (mode : OperatingMode K C) :
    (focStep t.params t.inputs (t.drive mode)).2.foc.calls
      = t.foc.calls ++ ((t.call mode).map fun c => (c.input, c.estimate)).toList := by
  have hprepared : (prepare t.params t.inputs (t.drive mode)).drive.foc.calls
      = t.foc.calls := by
    have hdiagnosed := resolvePolarity_calls t.params t.inputs
      { t.drive mode with mode := boardFaults t.inputs mode }
    rw [prepare]
    cases t.inputs.dcBusReadingV <;> exact hdiagnosed
  have hinner : (focStepInner t.params t.inputs (t.drive mode)).2.foc.calls
      = t.foc.calls ++ ((t.call mode).map fun c => (c.input, c.estimate)).toList := by
    rw [focStepInner, Tick.call]
    cases hcall : (prepare t.params t.inputs (t.drive mode)).call with
    | error outcome =>
        simp only
        rw [hprepared]
        exact (List.append_nil _).symm
    | ok call =>
        simp only
        rw [← hprepared]
        split
        · show (if _ then _ else _ : Recording K F).calls = _
          split <;> rfl
        · rfl
  rw [← hinner, focStep]
  generalize focStepInner t.params t.inputs (t.drive mode) = inner
  obtain ⟨⟨outcome, stageResult⟩, drive⟩ := inner
  cases outcome <;> rfl

end Records

/-- The calibrator commands no torque. -/
def CommandsNoTorque (K C : Type) [Calibrator C K] : Prop :=
  ∀ (calibrator : C) (inputs : CalibrationInputs K) (torque : K),
    (Calibrator.step calibrator inputs).1.1.focCommand ≠ .targetTorque torque

/-- Where the torque of a call comes from: the safety reaction, whose torque is
    zero; the polarity test; or torque control. -/
inductive TorqueCall (t : Tick K F A E) (mode : OperatingMode K C)
    (dcBusVoltageV : K) (c : ComputeCall K C) (torque : K) : Prop where
  | safety (hs : (t.safety mode dcBusVoltageV).1 = .ok (some (.targetTorque 0)))
      (ht : torque = 0)
  | polarityTest (hm : (t.supervised mode dcBusVoltageV).mode = .saliencyPolarityTest)
      (ht : SaliencyBasedEstimator.polarityTestCommand
        (t.diagnosed mode).drive.saliencyEstimator = .targetTorque torque)
  | torqueControl (hm : (t.supervised mode dcBusVoltageV).mode = .torqueControl)
      (hc : c.mode = .torqueControl)
      (ht : torque = torqueDemand t.inputs (t.feedback mode)
        (t.supervised mode dcBusVoltageV).activeEstimate)

/-- The runner commands currents and voltages only. -/
theorem runner_commandsNoTorque {H P : Type} [HallCalibrates H K]
    [EstimatesMotorParams P K] : CommandsNoTorque K (CalibrationRunner K H P) := by
  intro runner inputs torque
  show (CalibrationRunner.step runner inputs).1.1.focCommand ≠ _
  rw [CalibrationRunner.step]
  split
  · rw [CalibrationRunner.hallCalibrationStep]
    split
    · exact fun h => nomatch h
    split
    · exact fun h => nomatch h
    dsimp only
    split <;> exact fun h => nomatch h
  · rw [CalibrationRunner.motorEstimationStep]
    split
    · exact fun h => nomatch h
    split
    · exact fun h => nomatch h
    split
    · exact fun h => nomatch h
    split
    · exact fun h => nomatch h
    split
    · split <;> exact fun h => nomatch h
    rw [CalibrationRunner.motorEstimationOutput]
    dsimp only
    split <;> exact fun h => nomatch h
  · exact fun h => nomatch h

/-- **THE SOURCES OF TORQUE**, and what a call with a torque passes on: the angle
    and the speed of the feedback. -/
theorem torqueCall_cases (hcal : CommandsNoTorque K C) {t : Tick K F A E}
    {mode : OperatingMode K C} {c : ComputeCall K C} {torque : K}
    (hcall : t.call mode = some c) (htorque : c.input.command = .targetTorque torque) :
    ∃ dcBusVoltageV, t.inputs.dcBusReadingV = some dcBusVoltageV ∧
      c.input.dcBusVoltageV = dcBusVoltageV ∧
      c.estimate = (t.supervised mode dcBusVoltageV).activeEstimate ∧
      c.input.angleType = (t.feedback mode).angleType ∧
      c.input.theta = (t.feedback mode).theta ∧
      c.input.omega = (t.feedback mode).omega ∧
      TorqueCall t mode dcBusVoltageV c torque := by
  obtain ⟨dcBusVoltageV, command, hdc, hsafety, rfl⟩ := Tick.call_eq_some_iff.mp hcall
  refine ⟨dcBusVoltageV, hdc, rfl, rfl, ?_⟩
  cases command with
  | some command =>
      obtain rfl := safetyCommand_some hsafety
      exact ⟨rfl, rfl, rfl,
        .safety hsafety (FocInputType.targetTorque.inj htorque).symm⟩
  | none =>
      obtain ⟨hkept, hactive, hsafe⟩ := safetyCommand_none hsafety
      dsimp only [focInput] at htorque ⊢
      cases hmode : (t.supervised mode dcBusVoltageV).mode with
      | idle safeStrategy =>
          rw [hmode] at hsafe
          exact nomatch hsafe
      | fault safeStrategy writeIndex trace =>
          rw [hmode] at hsafe
          exact nomatch hsafe
      | calibration calibrator =>
          obtain ⟨before, calibrationInputs, houtput⟩ :=
            supervise_calibration hmode (hmode ▸ hactive)
          have houtput' : (t.supervised mode dcBusVoltageV).output = _ := houtput
          rw [focSource, houtput'] at htorque
          exact absurd htorque (hcal before calibrationInputs torque)
      | saliencyPolarityTest =>
          obtain ⟨-, houtput, -⟩ := supervise_other hmode id (fun _ h => nomatch h)
          have houtput' : (t.supervised mode dcBusVoltageV).output = none := houtput
          rw [focSource, houtput', hmode] at htorque ⊢
          exact ⟨rfl, rfl, rfl, .polarityTest hmode htorque⟩
      | torqueControl =>
          obtain ⟨-, houtput, -⟩ := supervise_other hmode id (fun _ h => nomatch h)
          have houtput' : (t.supervised mode dcBusVoltageV).output = none := houtput
          rw [focSource, houtput', hmode] at htorque ⊢
          refine ⟨rfl, rfl, rfl, .torqueControl hmode (hkept.trans hmode) ?_⟩
          exact (FocInputType.targetTorque.inj htorque).symm

/-! ## Speeds -/

section Speeds

variable [IsStrictOrderedRing K]

theorem rpmToRads_nonneg : (0 : K) ≤ rpmToRads := by
  have := pi_pos (K := K)
  rw [rpmToRads]
  positivity

theorem mechToFeedback_nonneg {angleType : AngleType}
    {estimate : MotorParamsEstimate K} {scale : K}
    (h : mechToFeedback angleType estimate = some scale) : 0 ≤ scale := by
  cases angleType with
  | mechanical =>
      obtain rfl := Option.some.inj h
      exact zero_le_one
  | electrical =>
      obtain ⟨pp, -, rfl⟩ := Option.map_eq_some_iff.mp h
      exact Nat.cast_nonneg _

end Speeds

/-! ## Runs -/

/-- What happens to the mode: a tick, what follows a tick, or a command. -/
inductive Event (K F A E : Type) where
  | tick (t : Tick K F A E)
  | afterTick (params : ConstantMotorParameters K) (outcome : FocStepOutcome K)
      (stageResult : Option (StageResult K))
  | command (command : Command K)

/-- The mode after an event. -/
def step (mode : OperatingMode K C) : Event K F A E → OperatingMode K C
  | .tick t => (focStep t.params t.inputs (t.drive mode)).2.mode
  | .afterTick params outcome stageResult =>
      (afterFocStep params outcome stageResult mode).2.2
  | .command command => mode.after command

/-! ## A tick of a motor with seven pole pairs -/

/-- A saliency estimator after a reset, with its polarity test passed. -/
def estimatorQ : SinusoidalPulsingEstimator ℚ where
  hfi := ⟨20, 0, ⟨0, 1⟩, ⟨0, 1⟩, ⟨0, 1⟩, ⟨0, 1⟩⟩
  notch := ⟨1, 0, 0, 0, 0, 0⟩
  pll := ⟨1, 1, 0, 0⟩
  feedbackFault := none
  polarityTest := ⟨⟨100, 1, 10⟩, .done, 20000, 0, 2000, 200, 10, ⟨0, 0⟩⟩

/-- The inputs of a tick without faults, with a rotor feedback and a setpoint. -/
def inputsQ (rotorFeedback : Except RotorFeedbackFault (RotorFeedback ℚ))
    (targetTorque : Option ℚ) : FocStepInputs ℚ where
  phaseCurrents := ⟨0, 0, 0⟩
  watchdogFault := false
  overcurrent := false
  brakingLimitExceeded := false
  dcBusReadingV := some 48
  rotorFeedback := rotorFeedback
  hallPattern := 1
  stationaryOmegaThreshold := 5
  targetTorque := targetTorque
  activeCurrentLimitA := 10
  rotorSpeedLimitMechRpm := 2000
  rotorOverspeedFaultThresholdMechRpm := 3000
  brakingCurrentLimitA := 4
  dcBusMinV := 20
  dcBusMaxV := 60
  tickDtMs := 1 / 20
  hfiAmplitudeV := 1
  hfiStartupAmplitudeV := 2
  hfiFrequencyHz := 1000
  hfiDisableThresholdOmegaRads := 30

/-- ... and the tick. -/
def tickQ (rotorFeedback : Except RotorFeedbackFault (RotorFeedback ℚ))
    (targetTorque : Option ℚ) :
    Tick ℚ (MockController ℚ) (MockAccelerator ℚ)
      (SinusoidalPulsingEstimator ℚ) where
  params := ⟨some 7, some 1, some 1, some 1, some (1 / 100), none⟩
  inputs := inputsQ rotorFeedback targetTorque
  foc := ⟨0⟩
  acceleration := {}
  saliencyEstimator := estimatorQ

end TickProofs
