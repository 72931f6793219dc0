import Stm32Foc.Reactions
import Stm32Foc.TickProofs

/-! # What a torque command knows of the rotor

    A closed-loop torque needs the rotor's angle.  The tick checks for feedback in
    the modes that need it, before the safety reaction is known: a ramp down then
    commands its zero torque on whatever angle there is.  `passesFeedback_iff` says
    exactly on which ticks that is the zero that stands for no feedback. -/

namespace FeedbackProofs

open EventRun Debounce FieldOriented Faults SafeStrategy Calibration Modes Reactions
open Control TickProofs Saliency

/-! ## Ramps -/

/-- How long the ramp down of a mode has been waiting. -/
def ramp {K C : Type} : OperatingMode K C → Option K
  | .idle safeStrategy => waited safeStrategy
  | .fault safeStrategy _ _ => waited safeStrategy
  | _ => none

variable {K C : Type}

variable [Calibrator C K]

theorem fault_optional {mode : OperatingMode K C} (h : mode.IsFault) :
    mode.focGate.feedbackOptional = true := by
  cases mode with
  | fault safeStrategy writeIndex trace => rfl
  | _ => exact h.elim

variable [Field K]

/-- A fault that asks for anything else leaves no ramp down. -/
theorem ramp_assertFault (mode : OperatingMode K C) {cause : FaultCause}
    (h : ownReaction K cause ≠ .rampDown) :
    ramp (mode.after (.assertFault cause)) = none := by
  cases mode with
  | fault safeStrategy writeIndex trace =>
      exact waited_eq_none (faultEvolve_ne_rampDown safeStrategy h)
  | _ => exact waited_eq_none h

theorem ramp_boardFaults {inputs : FocStepInputs K} (h : boardFault inputs = true)
    (mode : OperatingMode K C) : ramp (boardFaults inputs mode) = none := by
  rw [boardFault, Bool.or_eq_true, Bool.or_eq_true] at h
  have hassert : ∀ {condition : Bool} {cause : FaultCause} {m : OperatingMode K C},
      ownReaction K cause ≠ .rampDown → condition = true ∨ ramp m = none →
      ramp (assertIf condition cause m) = none := by
    intro condition cause m hc hor
    cases condition with
    | true => exact ramp_assertFault m hc
    | false => exact hor.resolve_left Bool.false_ne_true
  have hsto : ∀ cause, ownReaction K cause = .sto →
      ownReaction K cause ≠ .rampDown := by
    intro cause hc
    rw [hc]
    decide
  rw [boardFaults]
  rcases h with (h | h) | h
  · exact hassert (hsto _ rfl) (Or.inr (hassert (hsto _ rfl)
      (Or.inr (hassert (hsto _ rfl) (Or.inl h)))))
  · exact hassert (hsto _ rfl) (Or.inr (hassert (hsto _ rfl) (Or.inl h)))
  · exact hassert (hsto _ rfl) (Or.inl h)

/-- A failed stage leaves no ramp down, unless it has timed out. -/
theorem ramp_stageFault_failure (cause : CalibrationFailureCause)
    (h : cause ≠ .timeout) (calibrator : C) :
    ramp (stageFault (some (.failure cause)) (.calibration calibrator :
      OperatingMode K C)) = none := by
  refine ramp_assertFault _ ?_
  cases cause with
  | timeout => exact absurd rfl h
  | missingParameter => exact fun he => nomatch he
  | motorParameterEstimation fault => cases fault <;> exact fun he => nomatch he
  | hallCalibration fault =>
      cases fault
      exact fun he => nomatch he

/-! ## The last checks of the diagnostics -/

/-- The ramp down that a mode in need of a setpoint starts without one. -/
def setpointRamp (inputs : FocStepInputs K) : Option K :=
  if inputs.targetTorque.isNone then some 0 else none

/-- The last two checks of the diagnostics. -/
def checked (inputs : FocStepInputs K)
    (feedback : Except RotorFeedbackFault (RotorFeedback K))
    (mode : OperatingMode K C) : OperatingMode K C :=
  assertIf (feedbackMissed feedback (setpointFault inputs mode))
    .invalidRotorFeedback (setpointFault inputs mode)

/-- They pass a mode that does without feedback. -/
theorem checked_optional (inputs : FocStepInputs K)
    (feedback : Except RotorFeedbackFault (RotorFeedback K))
    {mode : OperatingMode K C} (h : mode.focGate.feedbackOptional = true) :
    checked inputs feedback mode = mode := by
  have hset : setpointFault inputs mode = mode := by
    cases mode with
    | saliencyPolarityTest => exact nomatch h
    | torqueControl => exact nomatch h
    | _ => rfl
  rw [checked, hset, feedbackMissed, h, Bool.not_true, Bool.and_false]
  rfl

/-- They end a mode that needs feedback and has none in a fault: a missing setpoint
    makes it ramp down, and the feedback is not asked for any more. -/
theorem checked_needed (inputs : FocStepInputs K) (fault : RotorFeedbackFault)
    {mode : OperatingMode K C} (h : mode.focGate.feedbackOptional = false) :
    (checked inputs (.error fault) mode).IsFault ∧
      ramp (checked inputs (.error fault) mode) = setpointRamp inputs := by
  have hneeds : needsSetpoint mode = true := by
    cases mode with
    | saliencyPolarityTest => rfl
    | torqueControl => rfl
    | _ => exact nomatch h
  have hnotFault : ¬ mode.IsFault := by
    cases mode with
    | fault safeStrategy writeIndex trace => exact nomatch h
    | _ => exact id
  rw [checked, setpointRamp]
  cases htarget : inputs.targetTorque with
  | none =>
      have hset : setpointFault inputs mode = .enterFault .setpointTimeout := by
        rw [setpointFault, hneeds, htarget]
        show mode.after (.assertFault .setpointTimeout) = _
        cases mode with
        | fault safeStrategy writeIndex trace => exact absurd trivial hnotFault
        | _ => rfl
      rw [hset]
      exact ⟨trivial, rfl⟩
  | some setpoint =>
      have hset : setpointFault inputs mode = mode := by
        rw [setpointFault, hneeds, htarget]
        rfl
      have hmissed : feedbackMissed (.error fault) mode = true := by
        rw [feedbackMissed, h]
        rfl
      rw [hset, hmissed]
      exact ⟨assertFault_isFault mode _, ramp_assertFault mode
        (show Reaction.sto ≠ .rampDown by decide)⟩

/-! ## The safety command -/

variable [LinearOrder K]

/-- **A SAFETY COMMAND** is given exactly while a ramp down waits. -/
theorem safetyCommand_some_iff {input : SafeControlStrategyInput K}
    {mode : OperatingMode K C} :
    (∃ command, (safetyCommand input mode).1 = .ok (some command)) ↔
      ∃ waitedMs, ramp mode = some waitedMs ∧
        waitedMs + input.tickDtMs < rampdownDurationMs := by
  have hact : ∀ strategy : SafeControlStrategy K,
      (∃ command, actOn (strategy.focTick input).1 = .ok (some command)) ↔
        ∃ waitedMs, waited strategy = some waitedMs ∧
          waitedMs + input.tickDtMs < rampdownDurationMs := by
    intro strategy
    rw [← evolved_rampDown_iff, actOn_focTick]
    generalize strategy.evolved input = evolved
    cases evolved with
    | rampDown waitedMs => exact iff_of_true ⟨_, rfl⟩ rfl
    | _ => exact iff_of_false (fun ⟨_, h⟩ => nomatch h) (fun h => nomatch h)
  cases mode with
  | idle safeStrategy => exact hact safeStrategy
  | fault safeStrategy writeIndex trace => exact hact safeStrategy
  | calibration calibrator =>
      refine iff_of_false ?_ (fun ⟨_, h, _⟩ => nomatch h)
      rintro ⟨command, h⟩
      rw [safetyCommand_calibration] at h
      split at h <;> exact nomatch h
  | saliencyPolarityTest =>
      exact iff_of_false (fun ⟨_, h⟩ => nomatch h) (fun ⟨_, h, _⟩ => nomatch h)
  | torqueControl =>
      exact iff_of_false (fun ⟨_, h⟩ => nomatch h) (fun ⟨_, h, _⟩ => nomatch h)

/-! ## The feedback of a tick -/

variable {F A E : Type} [CurrentController F K] [DoesFocMath A K]
  [SaliencyBasedEstimator E K]

/-- The measured feedback seeds the saliency estimator. -/
def seeded (t : Tick K F A E) : Bool :=
  match t.inputs.rotorFeedback with
  | .ok feedback => seeds t.inputs feedback
  | .error _ => false

/-- The rotor feedback of a tick: the estimator's own during a polarity test, the
    measured one otherwise. -/
def usedFeedback (t : Tick K F A E) (mode : OperatingMode K C) :
    Except RotorFeedbackFault (RotorFeedback K) :=
  match mode with
  | .saliencyPolarityTest =>
      if boardFault t.inputs then t.inputs.rotorFeedback
      else match SaliencyBasedEstimator.polePolarity t.saliencyEstimator with
        | some _ => t.inputs.rotorFeedback
        | none =>
            if seeded t then t.inputs.rotorFeedback
            else (SaliencyBasedEstimator.read t.saliencyEstimator).1
  | _ => t.inputs.rotorFeedback

omit [Calibrator C K] [CurrentController F K] [DoesFocMath A K] in
theorem usedFeedback_other (t : Tick K F A E) {mode : OperatingMode K C}
    (h : mode ≠ .saliencyPolarityTest) : usedFeedback t mode = t.inputs.rotorFeedback := by
  cases mode with
  | saliencyPolarityTest => exact absurd rfl h
  | _ => rfl

theorem diagnosed_rotorFeedback (t : Tick K F A E) (mode : OperatingMode K C) :
    (t.diagnosed mode).rotorFeedback = usedFeedback t mode := by
  obtain ⟨mode', hresolved, -, -⟩ := diagnose_stages t.params t.inputs (t.drive mode)
  show (diagnose t.params t.inputs (t.drive mode)).rotorFeedback = _
  generalize (diagnose t.params t.inputs (t.drive mode)).rotorFeedback = feedback
    at hresolved ⊢
  cases hboard : boardFault t.inputs with
  | true =>
      have hfault := boardFaults_isFault hboard mode
      -- a board fault has ended the polarity test before it could be resolved
      have hne : boardFaults t.inputs mode ≠ .saliencyPolarityTest := by
        intro h
        rw [h] at hfault
        exact hfault
      have hused : usedFeedback t mode = t.inputs.rotorFeedback := by
        cases mode with
        | saliencyPolarityTest =>
            show (if boardFault t.inputs then _ else _) = _
            rw [hboard, if_pos rfl]
        | _ => rfl
      rw [hused]
      cases hresolved with
      | ongoing hm => exact absurd hm hne
      | _ => rfl
  | false =>
      -- without a board fault the mode is resolved as the tick found it
      have hsame := boardFaults_of_none hboard mode
      have hpolarity : mode = .saliencyPolarityTest → usedFeedback t mode
          = match SaliencyBasedEstimator.polePolarity t.saliencyEstimator with
            | some _ => t.inputs.rotorFeedback
            | none =>
                if seeded t then t.inputs.rotorFeedback
                else (SaliencyBasedEstimator.read t.saliencyEstimator).1 := by
        rintro rfl
        show (if boardFault t.inputs then _ else _) = _
        rw [hboard, if_neg Bool.false_ne_true]
      cases hresolved with
      | other hm => exact (usedFeedback_other t (hsame ▸ hm)).symm
      | ongoing hm hv hs =>
          have hnot : seeded t = false := by
            rw [seeded]
            split
            · exact hs _ ‹_›
            · rfl
          rw [hpolarity (hsame.symm.trans hm)]
          show _ = match SaliencyBasedEstimator.polePolarity t.saliencyEstimator with
            | some _ => _
            | none => _
          rw [show SaliencyBasedEstimator.polePolarity t.saliencyEstimator = none
            from hv, hnot, if_neg Bool.false_ne_true]
          rfl
      | seeded hm hv f hf hs =>
          have hyes : seeded t = true := by
            rw [seeded, show t.inputs.rotorFeedback = .ok f from hf]
            exact hs
          rw [hpolarity (hsame.symm.trans hm)]
          rw [show SaliencyBasedEstimator.polePolarity t.saliencyEstimator = none
            from hv, hyes, if_pos rfl]
      | passed hm hv =>
          rw [hpolarity (hsame.symm.trans hm), show SaliencyBasedEstimator.polePolarity
            t.saliencyEstimator = some (.ok ()) from hv]
      | failed hm e hv =>
          rw [hpolarity (hsame.symm.trans hm), show SaliencyBasedEstimator.polePolarity
            t.saliencyEstimator = some (.error e) from hv]

/-! ## Diagnostics without feedback -/

/-- The parts of the diagnostics, on the feedback of the tick. -/
theorem diagnosed_mode (t : Tick K F A E) (mode : OperatingMode K C) :
    ∃ mode', Resolved t.inputs (t.drive (boardFaults t.inputs mode))
        (usedFeedback t mode) mode' ∧
      (t.diagnosed mode).drive.mode = checked t.inputs (usedFeedback t mode) mode' := by
  obtain ⟨mode', hresolved, hfault, hmode⟩ :=
    diagnose_stages t.params t.inputs (t.drive mode)
  have hused : (diagnose t.params t.inputs (t.drive mode)).rotorFeedback
      = usedFeedback t mode := diagnosed_rotorFeedback t mode
  rw [hused] at hresolved hfault
  rw [hfault] at hmode
  exact ⟨mode', hresolved, hmode⟩

/-- A board fault leaves a fault that does not ramp down. -/
theorem diagnosed_boardFault {t : Tick K F A E} {mode : OperatingMode K C}
    (h : boardFault t.inputs = true) :
    (t.diagnosed mode).drive.mode.IsFault ∧
      ramp (t.diagnosed mode).drive.mode = none := by
  have hfault := boardFaults_isFault h mode
  have hne : boardFaults t.inputs mode ≠ .saliencyPolarityTest := by
    intro he
    rw [he] at hfault
    exact hfault
  obtain ⟨mode', hresolved, hmode⟩ := diagnosed_mode t mode
  have hmode' : mode' = boardFaults t.inputs mode := by
    generalize usedFeedback t mode = feedback at hresolved
    cases hresolved with
    | other hm => rfl
    | ongoing hm => exact absurd hm hne
    | seeded hm => exact absurd hm hne
    | passed hm => exact absurd hm hne
    | failed hm => exact absurd hm hne
  rw [hmode, hmode', checked_optional t.inputs _ (fault_optional hfault)]
  exact ⟨hfault, ramp_boardFaults h mode⟩

/-- Without feedback, a mode that does not need it is left as it is. -/
theorem diagnosed_optional {t : Tick K F A E} {mode : OperatingMode K C}
    (hboard : boardFault t.inputs = false)
    (h : mode.focGate.feedbackOptional = true) :
    (t.diagnosed mode).drive.mode = mode := by
  have hne : boardFaults t.inputs mode ≠ .saliencyPolarityTest := by
    rw [boardFaults_of_none hboard]
    rintro rfl
    exact nomatch h
  obtain ⟨mode', hresolved, hmode⟩ := diagnosed_mode t mode
  have hmode' : mode' = mode := by
    generalize usedFeedback t mode = feedback at hresolved
    cases hresolved with
    | other hm => exact boardFaults_of_none hboard mode
    | ongoing hm => exact absurd hm hne
    | seeded hm => exact absurd hm hne
    | passed hm => exact absurd hm hne
    | failed hm => exact absurd hm hne
  rw [hmode, hmode', checked_optional t.inputs _ h]

/-- The ramp down that a mode in need of feedback starts without it: none after a
    polarity test that failed. -/
def blindRamp (t : Tick K F A E) (mode : OperatingMode K C) : Option K :=
  match mode with
  | .saliencyPolarityTest =>
      match SaliencyBasedEstimator.polePolarity t.saliencyEstimator with
      | some (.error _) => none
      | _ => setpointRamp t.inputs
  | _ => setpointRamp t.inputs

/-- Without feedback, a mode that needs it ends in a fault. -/
theorem diagnosed_needed {t : Tick K F A E} {mode : OperatingMode K C}
    {fault : RotorFeedbackFault} (hlost : usedFeedback t mode = .error fault)
    (hboard : boardFault t.inputs = false)
    (h : mode.focGate.feedbackOptional = false) :
    (t.diagnosed mode).drive.mode.IsFault ∧
      ramp (t.diagnosed mode).drive.mode = blindRamp t mode := by
  obtain ⟨mode', hresolved, hmode⟩ := diagnosed_mode t mode
  rw [hlost] at hmode
  rw [hmode]
  rw [boardFaults_of_none hboard] at hresolved
  generalize usedFeedback t mode = feedback at hresolved hlost
  cases hresolved with
  | other hm =>
      have hblind : blindRamp t mode = setpointRamp t.inputs := by
        cases mode with
        | saliencyPolarityTest => exact absurd rfl hm
        | _ => rfl
      rw [hblind]
      exact checked_needed t.inputs fault h
  | ongoing hm hv =>
      obtain rfl : mode = .saliencyPolarityTest := hm
      have hv' : SaliencyBasedEstimator.polePolarity t.saliencyEstimator = none := hv
      simp only [blindRamp, hv']
      exact checked_needed t.inputs fault rfl
  | seeded hm hv f hf => exact nomatch hlost.symm.trans hf
  | passed hm hv =>
      obtain rfl : mode = .saliencyPolarityTest := hm
      have hv' : SaliencyBasedEstimator.polePolarity t.saliencyEstimator
        = some (.ok ()) := hv
      simp only [blindRamp, hv']
      exact checked_needed t.inputs fault rfl
  | failed hm e hv =>
      obtain rfl : mode = .saliencyPolarityTest := hm
      have hv' : SaliencyBasedEstimator.polePolarity t.saliencyEstimator
        = some (.error e) := hv
      simp only [blindRamp, hv']
      -- the failed test has asserted its fault first, and that does not ramp down
      have hrest := checked_optional t.inputs (.error fault) (fault_optional
        (assertFault_isFault (.saliencyPolarityTest : OperatingMode K C)
          (.ofPolarityTestFault e)))
      refine ⟨?_, (congrArg ramp hrest).trans ?_⟩
      · exact hrest.symm ▸ assertFault_isFault _ _
      · exact ramp_assertFault _ (by cases e <;> exact fun he => nomatch he)

/-! ## Supervision without feedback -/

variable {H P : Type} [HallCalibrates H K] [EstimatesMotorParams P K]

/-- The ramp down that a calibration step starts: the hall calibration has timed
    out. -/
def calibrationRamp (runner : CalibrationRunner K H P) : Option K :=
  match runner.phase with
  | .hallCalibration timePassedS =>
      if timePassedS + runner.config.dtS > runner.config.hallTimeoutS then some 0
      else none
  | _ => none

/-- A calibration step leaves a ramp down exactly on the timeout of the hall
    calibration. -/
theorem ramp_step (runner : CalibrationRunner K H P) (inputs : CalibrationInputs K) :
    ramp (stageFault (CalibrationRunner.step runner inputs).1.2
      (.calibration (CalibrationRunner.step runner inputs).2 :
        OperatingMode K (CalibrationRunner K H P))) = calibrationRamp runner := by
  rw [CalibrationRunner.step, calibrationRamp]
  cases runner.phase with
  | hallCalibration timePassedS =>
      dsimp only [CalibrationRunner.hallCalibrationStep]
      by_cases htimeout : timePassedS + runner.config.dtS
          > runner.config.hallTimeoutS
      · rw [if_pos htimeout, if_pos htimeout]
        rfl
      rw [if_neg htimeout, if_neg htimeout]
      split
      · rfl
      split
      · rfl
      · exact ramp_stageFault_failure (.hallCalibration _) (by simp) _
  | motorEstimation =>
      dsimp only [CalibrationRunner.motorEstimationStep]
      split
      · exact ramp_stageFault_failure (.motorParameterEstimation _) (by simp) _
      split
      · rfl
      split
      · rfl
      split
      · rfl
      split
      · split <;> rfl
      · rfl
  | _ => rfl

/-- A stopped rotor is not too fast. -/
theorem overspeed_zero [IsStrictOrderedRing K] (inputs : FocStepInputs K)
    (rotorFeedbackFault : Bool) (angleType : AngleType)
    (estimate : MotorParamsEstimate K) :
    overspeed inputs rotorFeedbackFault (mechToFeedback angleType estimate) 0
      = false := by
  cases rotorFeedbackFault with
  | true => rfl
  | false =>
      cases hscale : mechToFeedback angleType estimate with
      | none => rfl
      | some scale =>
          have hmax : 0 ≤ maxOmega inputs scale :=
            mul_nonneg (mul_nonneg (Nat.cast_nonneg _) rpmToRads_nonneg)
              (mechToFeedback_nonneg hscale)
          show decide (|(0 : K)| > maxOmega inputs scale) = false
          rw [abs_zero, decide_eq_false_iff_not]
          exact not_lt.mpr hmax

/-- **THE RAMP OF A TICK** without feedback: the one that it finds in `Idle` or
    `Fault`, or the one that it starts where the setpoint is missing too or the hall
    calibration times out; none after a fault of the board. -/
def rampFound (t : Tick K F A E) (mode : OperatingMode K (CalibrationRunner K H P)) :
    Option K :=
  if boardFault t.inputs then none
  else match mode with
    | .idle safeStrategy => waited safeStrategy
    | .fault safeStrategy _ _ => waited safeStrategy
    | .calibration runner => calibrationRamp runner
    | .saliencyPolarityTest => blindRamp t mode
    | .torqueControl => blindRamp t mode

/-- Without feedback the supervision is the calibration step and its failure: the
    default speed is zero. -/
theorem supervised_lost [IsStrictOrderedRing K] {t : Tick K F A E}
    {mode : OperatingMode K C} {fault : RotorFeedbackFault}
    (hlost : usedFeedback t mode = .error fault) (dcBusVoltageV : K) :
    ∃ inputs, (t.supervised mode dcBusVoltageV).mode
      = stageFault (calibrate t.params inputs (t.diagnosed mode).drive.mode).stageResult
        (calibrate t.params inputs (t.diagnosed mode).drive.mode).mode := by
  have homega : (t.feedback mode).omega = 0 := by
    rw [Tick.feedback, diagnosed_rotorFeedback, hlost]
    rfl
  have hslow := overspeed_zero t.inputs (t.diagnosed mode).rotorFeedbackFault
    (t.feedback mode).angleType (t.supervised mode dcBusVoltageV).activeEstimate
  rw [← homega] at hslow
  refine ⟨{ dcBusVoltageV := dcBusVoltageV
            angleType := (t.feedback mode).angleType
            theta := (t.feedback mode).theta
            hallPattern := t.inputs.hallPattern }, ?_⟩
  exact congrArg (fun b => assertIf b FaultCause.overspeed _) hslow

/-- It leaves every other mode as the diagnostics did. -/
theorem supervised_lost_other [IsStrictOrderedRing K] {t : Tick K F A E}
    {mode : OperatingMode K C} {fault : RotorFeedbackFault}
    (hlost : usedFeedback t mode = .error fault) (dcBusVoltageV : K)
    (hne : ∀ calibrator, (t.diagnosed mode).drive.mode ≠ .calibration calibrator) :
    (t.supervised mode dcBusVoltageV).mode = (t.diagnosed mode).drive.mode := by
  obtain ⟨inputs, h⟩ := supervised_lost hlost dcBusVoltageV
  rw [calibrate_other t.params inputs hne] at h
  exact h

theorem supervised_lost_fault [IsStrictOrderedRing K] {t : Tick K F A E}
    {mode : OperatingMode K C} {fault : RotorFeedbackFault}
    (hlost : usedFeedback t mode = .error fault) (dcBusVoltageV : K)
    (hfault : (t.diagnosed mode).drive.mode.IsFault) :
    (t.supervised mode dcBusVoltageV).mode = (t.diagnosed mode).drive.mode := by
  refine supervised_lost_other hlost dcBusVoltageV ?_
  intro calibrator hc
  rw [hc] at hfault
  exact hfault

/-- A calibration that waits does not start a ramp down. -/
theorem calibrationRamp_waiting {runner : CalibrationRunner K H P}
    (h : (.calibration runner : OperatingMode K
      (CalibrationRunner K H P)).focGate.active ≠ true) :
    calibrationRamp runner = none := by
  rw [calibrationRamp]
  cases hphase : runner.phase with
  | hallCalibration timePassedS =>
      have hcalibrator : Calibrator.phase runner = .hallCalibration timePassedS :=
        hphase
      rw [OperatingMode.focGate, hcalibrator] at h
      exact absurd rfl h
  | _ => rfl

/-- **THE RAMP** that a tick without feedback gives the safety reaction is the one
    that it finds or starts. -/
theorem supervised_ramp [IsStrictOrderedRing K] {t : Tick K F A E}
    {mode : OperatingMode K (CalibrationRunner K H P)} {fault : RotorFeedbackFault}
    (hlost : usedFeedback t mode = .error fault) (dcBusVoltageV : K) :
    ramp (t.supervised mode dcBusVoltageV).mode = rampFound t mode := by
  rw [rampFound.eq_def]
  cases hboard : boardFault t.inputs with
  | true =>
      obtain ⟨hfault, hnone⟩ : (t.diagnosed mode).drive.mode.IsFault ∧ _ :=
        diagnosed_boardFault hboard
      rw [supervised_lost_fault hlost dcBusVoltageV hfault, hnone]
      rfl
  | false =>
      rw [if_neg Bool.false_ne_true]
      have hkept : mode.focGate.feedbackOptional = true →
          (t.diagnosed mode).drive.mode = mode := diagnosed_optional hboard
      cases mode with
      | idle safeStrategy =>
          rw [supervised_lost_other hlost dcBusVoltageV
            (fun _ h => nomatch (hkept rfl).symm.trans h), hkept rfl]
          rfl
      | fault safeStrategy writeIndex trace =>
          rw [supervised_lost_other hlost dcBusVoltageV
            (fun _ h => nomatch (hkept rfl).symm.trans h), hkept rfl]
          rfl
      | saliencyPolarityTest =>
          obtain ⟨hfault, hramp⟩ := diagnosed_needed hlost hboard rfl
          rw [supervised_lost_fault hlost dcBusVoltageV hfault, hramp]
      | torqueControl =>
          obtain ⟨hfault, hramp⟩ := diagnosed_needed hlost hboard rfl
          rw [supervised_lost_fault hlost dcBusVoltageV hfault, hramp]
      | calibration runner =>
          obtain ⟨inputs, h⟩ := supervised_lost hlost dcBusVoltageV
          rw [h, hkept rfl, calibrate]
          by_cases hactive : (OperatingMode.calibration runner : OperatingMode K
              (CalibrationRunner K H P)).focGate.active = true
          · rw [if_pos hactive]
            exact ramp_step runner inputs
          · rw [if_neg hactive]
            exact (calibrationRamp_waiting hactive).symm

/-! ## Torque commands -/

/-- A torque command passes on a feedback that is there. -/
def PassesFeedback (mode : OperatingMode K C) : Event K F A E → Prop
  | .tick t => ∀ c torque, t.call mode = some c →
      c.input.command = .targetTorque torque →
      ∃ feedback, usedFeedback t mode = .ok feedback ∧
        c.input.angleType = feedback.angleType ∧
        c.input.theta = feedback.theta ∧ c.input.omega = feedback.omega
  | _ => True

/-- The tick has no feedback, and finds or starts a ramp down that goes on. -/
def RampsBlind (t : Tick K F A E)
    (mode : OperatingMode K (CalibrationRunner K H P)) : Prop :=
  (∃ fault, usedFeedback t mode = .error fault) ∧
    (∃ dcBusVoltageV, t.inputs.dcBusReadingV = some dcBusVoltageV) ∧
    ∃ waitedMs, rampFound t mode = some waitedMs ∧
      waitedMs + t.inputs.tickDtMs < rampdownDurationMs

/-- The condition: no tick ramps down without feedback. -/
def FeedbackHolds (mode : OperatingMode K (CalibrationRunner K H P)) :
    Event K F A E → Prop
  | .tick t => ¬ RampsBlind t mode
  | _ => True

variable [IsStrictOrderedRing K]

/-- A tick that ramps down without feedback commands a torque all the same. -/
theorem RampsBlind.call {t : Tick K F A E}
    {mode : OperatingMode K (CalibrationRunner K H P)} (h : RampsBlind t mode) :
    ∃ c, t.call mode = some c ∧ c.input.command = .targetTorque 0 := by
  obtain ⟨⟨fault, hlost⟩, ⟨dcBusVoltageV, hdc⟩, waitedMs, hramp, hwaits⟩ := h
  rw [← supervised_ramp hlost dcBusVoltageV] at hramp
  obtain ⟨command, hsafety⟩ := safetyCommand_some_iff.mpr
    (show ∃ waitedMs, ramp (t.supervised mode dcBusVoltageV).mode = some waitedMs ∧
        waitedMs + (safetyInput t.inputs dcBusVoltageV
          (t.diagnosed mode).rotorFeedback.isOk (t.feedback mode)
          (t.supervised mode dcBusVoltageV).activeEstimate).tickDtMs
          < rampdownDurationMs from ⟨waitedMs, hramp, hwaits⟩)
  obtain rfl := safetyCommand_some hsafety
  exact ⟨_, Tick.call_eq_some_iff.mpr ⟨dcBusVoltageV, _, hdc, hsafety, rfl⟩, rfl⟩

/-- A torque command without feedback is that of a ramp down. -/
theorem rampsBlind_of_call {t : Tick K F A E}
    {mode : OperatingMode K (CalibrationRunner K H P)}
    {c : ComputeCall K (CalibrationRunner K H P)} {torque : K}
    {fault : RotorFeedbackFault} (hcall : t.call mode = some c)
    (htorque : c.input.command = .targetTorque torque)
    (hlost : usedFeedback t mode = .error fault) : RampsBlind t mode := by
  obtain ⟨dcBusVoltageV, hdc, -, -, -, -, -, hsource⟩ :=
    torqueCall_cases runner_commandsNoTorque hcall htorque
  refine ⟨⟨fault, hlost⟩, ⟨dcBusVoltageV, hdc⟩, ?_⟩
  -- the modes that need feedback do not get this far without it
  have hneeded : ∀ m, (t.supervised mode dcBusVoltageV).mode = m → ¬ m.IsFault →
      (∀ runner, m ≠ .calibration runner) →
      m.focGate.feedbackOptional = true := by
    intro m hm hnotFault hcal
    obtain ⟨hmode, -⟩ := supervise_other hm hnotFault hcal
    by_contra hne
    rw [Bool.not_eq_true, ← hmode] at hne
    obtain ⟨f, hf⟩ := diagnose_feedback hne
    have hused : (t.diagnosed mode).rotorFeedback = .ok f := hf
    rw [diagnosed_rotorFeedback, hlost] at hused
    exact nomatch hused
  cases hsource with
  | safety hs _ =>
      obtain ⟨waitedMs, hramp, hwaits⟩ := safetyCommand_some_iff.mp ⟨_, hs⟩
      have hramp' : ramp (t.supervised mode dcBusVoltageV).mode = some waitedMs :=
        hramp
      rw [supervised_ramp hlost dcBusVoltageV] at hramp'
      exact ⟨waitedMs, hramp', hwaits⟩
  | polarityTest hm _ =>
      exact nomatch hneeded _ hm id (fun _ h => nomatch h)
  | torqueControl hm _ _ =>
      exact nomatch hneeded _ hm id (fun _ h => nomatch h)

/-- **STEP LEMMA**: a tick passes on a feedback exactly when it does not ramp down
    without one. -/
theorem passesFeedback_iff (mode : OperatingMode K (CalibrationRunner K H P))
    (event : Event K F A E) :
    PassesFeedback mode event ↔ FeedbackHolds mode event := by
  cases event with
  | tick t =>
      constructor
      · intro hpasses hblind
        obtain ⟨c, hcall, htorque⟩ := hblind.call
        obtain ⟨feedback, hused, -⟩ := hpasses c 0 hcall htorque
        obtain ⟨⟨fault, hlost⟩, -⟩ := hblind
        exact nomatch hlost.symm.trans hused
      · intro hholds c torque hcall htorque
        cases hused : usedFeedback t mode with
        | error fault =>
            exact absurd (rampsBlind_of_call hcall htorque hused) hholds
        | ok feedback =>
            obtain ⟨_, -, -, -, hangle, htheta, homega, -⟩ :=
              torqueCall_cases runner_commandsNoTorque hcall htorque
            have hfeedback : t.feedback mode = feedback := by
              rw [Tick.feedback, diagnosed_rotorFeedback, hused]
              rfl
            rw [hfeedback] at hangle htheta homega
            exact ⟨feedback, rfl, hangle, htheta, homega⟩
  | _ => exact Iff.rfl

/-- **TORQUE ON A KNOWN ANGLE, AND ITS LIMIT**: along every run of ticks and
    commands, every torque command passes on a feedback that is there exactly when
    no tick ramps down without one. -/
theorem run_passesFeedback_iff (start : OperatingMode K (CalibrationRunner K H P))
    (events : List (Event K F A E)) :
    Always step PassesFeedback start events ↔
      Always step FeedbackHolds start events :=
  always_congr (I := fun _ => True) (A := fun _ => True) (fun _ _ _ _ => trivial)
    (fun mode event _ _ => passesFeedback_iff mode event) events start
    (fun _ _ => trivial) trivial

/-- A turning motor in torque control, with feedback. -/
theorem run_passesFeedback_iff_turning :
    Always step PassesFeedback (.torqueControl : OperatingMode ℚ RunnerQ)
      [.tick (tickQ (.ok ⟨.electrical, 1, 100⟩) (some 1))] := by
  refine (run_passesFeedback_iff .torqueControl _).mpr ⟨?_, trivial⟩
  rintro ⟨⟨fault, hlost⟩, -⟩
  exact nomatch hlost

/-- A ramp down in `Idle` commands its torque on the angle zero when the feedback
    is lost, and so does torque control when the setpoint is lost with it. -/
theorem rampDown_commands_blind :
    let t := tickQ (.error .noFeedback) none
    let idle : OperatingMode ℚ RunnerQ := .idle (.rampDown 0)
    let driving : OperatingMode ℚ RunnerQ := .torqueControl
    let passed := fun mode => (t.call mode).map fun c =>
      (c.input.command, c.input.theta, c.input.omega)
    (passed idle = some (.targetTorque 0, 0, 0) ∧
      ¬ Always step PassesFeedback idle [.tick t]) ∧
    (passed driving = some (.targetTorque 0, 0, 0) ∧
      ¬ Always step PassesFeedback driving [.tick t]) := by
  intro t idle driving passed
  have hidle : passed idle = some (.targetTorque 0, 0, 0) := by decide +kernel
  have hdriving : passed driving = some (.targetTorque 0, 0, 0) := by
    decide +kernel
  -- neither mode has a feedback that could be passed on
  have hblind : ∀ mode, passed mode = some (.targetTorque 0, 0, 0) →
      mode ≠ .saliencyPolarityTest → ¬ Always step PassesFeedback mode [.tick t] := by
    rintro mode hpassed hne ⟨hpasses, -⟩
    obtain ⟨c, hcall, hc⟩ := Option.map_eq_some_iff.mp hpassed
    obtain ⟨feedback, hused, -⟩ := hpasses c 0 hcall (Prod.ext_iff.mp hc).1
    rw [usedFeedback_other t hne] at hused
    exact nomatch hused
  exact ⟨⟨hidle, hblind idle hidle (fun h => nomatch h)⟩,
    ⟨hdriving, hblind driving hdriving (fun h => nomatch h)⟩⟩

end FeedbackProofs
