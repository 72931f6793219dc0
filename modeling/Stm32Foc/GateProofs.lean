import Stm32Foc.FeedbackProofs

/-! # What an inactive gate promises

    Flash is written while `foc_gate` reads inactive.  From a mode with an inactive
    gate a tick reaches the controller only through a ramp down that still waits,
    and without a new fault that is the ramp down of the mode `Fault`: its gate is
    inactive whatever its strategy does, where that of `Idle` is not. -/

namespace GateProofs

open EventRun Debounce FieldOriented Faults SafeStrategy Calibration Modes Reactions
open Control TickProofs Saliency FeedbackProofs

variable {K C : Type}

/-- The faults that a mode has recorded: the write index and the trace. -/
def recorded : OperatingMode K C → Option (Nat × Vector FaultCause 8)
  | .fault _ writeIndex trace => some (writeIndex, trace)
  | _ => none

variable [Calibrator C K]

theorem inactive_optional {mode : OperatingMode K C}
    (h : mode.focGate.active = false) : mode.focGate.feedbackOptional = true := by
  cases mode with
  | saliencyPolarityTest => exact nomatch h
  | torqueControl => exact nomatch h
  | _ => rfl

theorem fault_inactive {mode : OperatingMode K C} (h : mode.IsFault) :
    mode.focGate.active = false := by
  cases mode with
  | fault safeStrategy writeIndex trace => rfl
  | _ => exact h.elim

/-- An inactive gate does not step the calibration. -/
theorem calibrate_inactive (params : MotorParamsEstimate K)
    (inputs : CalibrationInputs K) {mode : OperatingMode K C}
    (h : mode.focGate.active = false) :
    calibrate params inputs mode = ⟨none, none, params, mode⟩ := by
  cases mode with
  | calibration calibrator =>
      rw [calibrate, if_neg (Bool.eq_false_iff.mp h)]
  | _ => rfl

/-- The modes with an inactive gate that ramp down: only `Fault` does. -/
theorem ramp_inactive {mode : OperatingMode K C} (h : mode.focGate.active = false)
    {waitedMs : K} (hramp : ramp mode = some waitedMs) :
    ∃ writeIndex trace, mode = .fault (.rampDown waitedMs) writeIndex trace := by
  cases mode with
  | idle safeStrategy =>
      cases safeStrategy with
      | rampDown w => exact nomatch h
      | _ => cases hramp
  | fault safeStrategy writeIndex trace =>
      cases safeStrategy with
      | rampDown w =>
          obtain rfl := Option.some.inj hramp
          exact ⟨writeIndex, trace, rfl⟩
      | _ => cases hramp
  | _ => cases hramp

variable [Field K]

/-- A fault that ramps down keeps the reaction of the mode `Fault`. -/
theorem ramp_overspeed {mode : OperatingMode K C} (h : mode.IsFault) (condition : Bool) :
    ramp (assertIf condition .overspeed mode) = ramp mode := by
  cases condition with
  | false => rfl
  | true =>
      cases mode with
      | fault safeStrategy writeIndex trace => cases safeStrategy <;> rfl
      | _ => exact h.elim

/-- An overspeed on a ramp down in `Fault` changes no more than the trace. -/
theorem assertIf_rampDown (condition : Bool) (waitedMs : K) (writeIndex : Nat)
    (trace : Vector FaultCause 8) :
    let mode : OperatingMode K C := .fault (.rampDown waitedMs) writeIndex trace
    ramp (assertIf condition .overspeed mode) = some waitedMs ∧
      recorded (assertIf condition .overspeed mode)
        = some (if condition then OperatingMode.recordCause writeIndex trace .overspeed
          else (writeIndex, trace)) := by
  cases condition with
  | true => exact ⟨rfl, rfl⟩
  | false => exact ⟨rfl, rfl⟩

variable [LinearOrder K]

/-- The measured rotor is too fast. -/
def tooFast (params : MotorParamsEstimate K) (inputs : FocStepInputs K) : Bool :=
  let feedback := orDefault inputs.rotorFeedback
  overspeed inputs false (mechToFeedback feedback.angleType params) feedback.omega

theorem safetyCommand_mode (input : SafeControlStrategyInput K)
    (mode : OperatingMode K C) :
    recorded (safetyCommand input mode).2 = recorded mode := by
  cases mode with
  | calibration calibrator =>
      rw [safetyCommand_calibration]
      split <;> rfl
  | _ => rfl

/-! ## Ticks that modulate -/

variable {F A E : Type} [CurrentController F K] [DoesFocMath A K]
  [SaliencyBasedEstimator E K] {t : Tick K F A E} {mode : OperatingMode K C}

/-- Clearing the windup changes neither the result nor the mode. -/
theorem focStep_inner (params : MotorParamsEstimate K) (inputs : FocStepInputs K)
    (drive : Drive K C F A E) :
    (focStep params inputs drive).1 = (focStepInner params inputs drive).1 ∧
      (focStep params inputs drive).2.mode
        = (focStepInner params inputs drive).2.mode := by
  rw [focStep]
  generalize focStepInner params inputs drive = inner
  obtain ⟨⟨outcome, stageResult⟩, drive'⟩ := inner
  cases outcome <;> exact ⟨rfl, rfl⟩

/-- The outcome of a safe command that ends the tick is no modulation. -/
theorem safetyCommand_error {input : SafeControlStrategyInput K}
    {outcome : FocStepOutcome K} (h : (safetyCommand input mode).1 = .error outcome)
    (result : FocResult K) : outcome ≠ .normal result := by
  rintro rfl
  have hact : ∀ command : SafeCommand K, actOn command ≠ .error (.normal result) := by
    intro command
    cases command <;> exact fun he => nomatch he
  cases mode with
  | idle safeStrategy => exact hact _ h
  | fault safeStrategy writeIndex trace => exact hact _ h
  | calibration calibrator =>
      rw [safetyCommand_calibration] at h
      split at h <;> cases h
  | saliencyPolarityTest => cases h
  | torqueControl => cases h

theorem prepare_error {outcome : FocStepOutcome K}
    (h : (prepare t.params t.inputs (t.drive mode)).call = .error outcome)
    (result : FocResult K) : outcome ≠ .normal result := by
  rw [prepare] at h
  cases hdc : t.inputs.dcBusReadingV with
  | none =>
      simp only [hdc] at h
      cases h
      intro he
      cases he
  | some dcBusVoltageV =>
      have hsafety : (t.safety mode dcBusVoltageV).1 = .error outcome := by
        simp only [hdc] at h
        change Except.map _ (t.safety mode dcBusVoltageV).1 = _ at h
        cases hs : (t.safety mode dcBusVoltageV).1 with
        | ok command =>
            rw [hs] at h
            cases h
        | error outcome' =>
            rw [hs] at h
            exact congrArg _ (Except.error.inj h)
      exact safetyCommand_error hsafety result

omit [Calibrator C K] [Field K] [LinearOrder K] in
theorem faultOutcome_ne_normal (mode : OperatingMode K C) (result : FocResult K) :
    faultOutcome mode ≠ .normal result := by
  rw [faultOutcome.eq_def]
  split <;> exact fun h => nomatch h

section Called

variable {input : FocInput K} {estimate : MotorParamsEstimate K}

/-- A call that succeeds is the modulation of the tick. -/
theorem focStepInner_ok {result : FocResult K}
    (hp : (prepare t.params t.inputs (t.drive mode)).call = .ok (input, estimate))
    (hc : (callController input estimate
      (prepare t.params t.inputs (t.drive mode)).drive).1 = .ok result) :
    (focStepInner t.params t.inputs (t.drive mode)).1.1 = .normal result ∧
      (focStepInner t.params t.inputs (t.drive mode)).2.mode
        = (prepare t.params t.inputs (t.drive mode)).drive.mode := by
  rw [focStepInner]
  simp only [hp, hc]
  exact ⟨trivial, rfl⟩

/-- A call that fails is none. -/
theorem focStepInner_error {fault : FocFault}
    (hp : (prepare t.params t.inputs (t.drive mode)).call = .ok (input, estimate))
    (hc : (callController input estimate
      (prepare t.params t.inputs (t.drive mode)).drive).1 = .error fault)
    (result : FocResult K) :
    (focStepInner t.params t.inputs (t.drive mode)).1.1 ≠ .normal result := by
  rw [focStepInner]
  simp only [hp, hc]
  exact faultOutcome_ne_normal _ result

end Called

/-- **MODULATION**: a tick that modulates has called the controller, in the mode
    that it leaves. -/
theorem call_of_normal {result : FocResult K}
    (h : (focStep t.params t.inputs (t.drive mode)).1.1 = .normal result) :
    ∃ c, t.call mode = some c ∧
      (focStep t.params t.inputs (t.drive mode)).2.mode = c.mode := by
  obtain ⟨hresult, hmode⟩ := focStep_inner t.params t.inputs (t.drive mode)
  rw [hresult] at h
  rw [hmode]
  cases hp : (prepare t.params t.inputs (t.drive mode)).call with
  | error outcome =>
      have houtcome : (focStepInner t.params t.inputs (t.drive mode)).1.1 = outcome := by
        rw [focStepInner]
        simp only [hp]
      exact absurd (houtcome.symm.trans h) (prepare_error hp result)
  | ok call =>
      obtain ⟨input, estimate⟩ := call
      refine ⟨⟨(prepare t.params t.inputs (t.drive mode)).drive.mode, input, estimate⟩,
        by simp only [Tick.call, hp], ?_⟩
      cases hc : (callController input estimate
          (prepare t.params t.inputs (t.drive mode)).drive).1 with
      | ok focResult => exact (focStepInner_ok hp hc).2
      | error fault => exact absurd h (focStepInner_error hp hc result)

/-! ## Ticks from an inactive gate -/

omit [Field K] [LinearOrder K] in
theorem inactive_ne_polarityTest (h : mode.focGate.active = false) :
    mode ≠ .saliencyPolarityTest := by
  rintro rfl
  exact nomatch h

/-- Without a board fault an inactive mode misses no feedback. -/
theorem diagnosed_inactive (hboard : boardFault t.inputs = false)
    (h : mode.focGate.active = false) :
    (t.diagnosed mode).rotorFeedbackFault = false := by
  obtain ⟨mode', hresolved, hfault, -⟩ :=
    diagnose_stages t.params t.inputs (t.drive mode)
  have hsame : boardFaults t.inputs mode = mode := boardFaults_of_none hboard mode
  have hne := inactive_ne_polarityTest h
  -- the check of the rotor changes only a polarity test, which is active
  have hmode' : mode' = mode := by
    generalize (diagnose t.params t.inputs (t.drive mode)).rotorFeedback = feedback
      at hresolved
    cases hresolved with
    | other hm => exact hsame
    | ongoing hm => exact absurd (hsame.symm.trans hm) hne
    | seeded hm => exact absurd (hsame.symm.trans hm) hne
    | passed hm => exact absurd (hsame.symm.trans hm) hne
    | failed hm => exact absurd (hsame.symm.trans hm) hne
  have hset : setpointFault t.inputs mode = mode := by
    cases mode with
    | saliencyPolarityTest => exact absurd rfl hne
    | torqueControl => exact nomatch h
    | _ => rfl
  rw [hmode', hset, feedbackMissed, inactive_optional h, Bool.not_true,
    Bool.and_false] at hfault
  exact hfault

/-- ... and is left as it is but for the check of the speed. -/
theorem supervised_inactive (hboard : boardFault t.inputs = false)
    (h : mode.focGate.active = false) (dcBusVoltageV : K) :
    (t.supervised mode dcBusVoltageV).mode
      = assertIf (tooFast t.params t.inputs) .overspeed mode := by
  have hmode : (t.diagnosed mode).drive.mode = mode :=
    diagnosed_optional hboard (inactive_optional h)
  have hfeedback : t.feedback mode = orDefault t.inputs.rotorFeedback := by
    rw [Tick.feedback, diagnosed_rotorFeedback,
      usedFeedback_other t (inactive_ne_polarityTest h)]
  rw [Tick.supervised, supervise, hmode, hfeedback, diagnosed_inactive hboard h,
    calibrate_inactive t.params _ h]
  rfl

/-- A board fault leaves nothing that modulates. -/
theorem supervised_boardFault (hboard : boardFault t.inputs = true) (dcBusVoltageV : K) :
    (t.supervised mode dcBusVoltageV).mode.IsFault ∧
      ramp (t.supervised mode dcBusVoltageV).mode = none := by
  obtain ⟨hfault, hramp⟩ : (t.diagnosed mode).drive.mode.IsFault ∧ _ :=
    diagnosed_boardFault hboard
  have hother : ∀ calibrator,
      (t.diagnosed mode).drive.mode ≠ .calibration calibrator := by
    intro calibrator hc
    rw [hc] at hfault
    exact hfault
  rw [Tick.supervised, supervise, calibrate_other t.params _ hother]
  exact ⟨assertIf_isFault _ _ hfault, (ramp_overspeed hfault _).trans hramp⟩

/-- **CALLS FROM AN INACTIVE GATE** come from a ramp down that waits: that of the
    mode, or one that the speed has started. -/
theorem call_inactive (h : mode.focGate.active = false) {c : ComputeCall K C}
    (hcall : t.call mode = some c) :
    boardFault t.inputs = false ∧ t.inputs.dcBusReadingV.isSome ∧
      recorded c.mode = recorded (assertIf (tooFast t.params t.inputs) .overspeed mode) ∧
      ∃ waitedMs, ramp (assertIf (tooFast t.params t.inputs) .overspeed mode)
          = some waitedMs ∧
        waitedMs + t.inputs.tickDtMs < rampdownDurationMs := by
  obtain ⟨dcBusVoltageV, command, hdc, hsafety, rfl⟩ := Tick.call_eq_some_iff.mp hcall
  cases command with
  | none =>
      -- a mode that goes on by itself is active, and not a fault
      exfalso
      obtain ⟨-, hactive, -⟩ := safetyCommand_none hsafety
      have hinactive : (t.supervised mode dcBusVoltageV).mode.focGate.active = false := by
        cases hboard : boardFault t.inputs with
        -- a board fault ends every ramp down
        | true => exact fault_inactive (supervised_boardFault hboard dcBusVoltageV).1
        | false =>
            rw [supervised_inactive hboard h]
            cases tooFast t.params t.inputs with
            | true => exact fault_inactive (assertFault_isFault mode _)
            | false => exact h
      rw [hinactive] at hactive
      exact absurd hactive Bool.false_ne_true
  | some command =>
      obtain ⟨waitedMs, hramp, hlt⟩ := safetyCommand_some_iff.mp ⟨command, hsafety⟩
      cases hboard : boardFault t.inputs with
      | true =>
          rw [(supervised_boardFault hboard dcBusVoltageV).2] at hramp
          cases hramp
      | false =>
          have hmode := supervised_inactive hboard h dcBusVoltageV
          rw [hmode] at hramp
          refine ⟨rfl, by rw [hdc]; rfl, ?_, waitedMs, hramp, hlt⟩
          rw [Tick.safety, safetyCommand_mode, hmode]

/-! ## The promise -/

/-- **THE PROMISE** of an inactive gate on a tick: without a new fault on the record
    the tick does not modulate, whatever the controller and the estimator do. -/
def Quiet (mode : OperatingMode K C) (params : MotorParamsEstimate K)
    (inputs : FocStepInputs K) : Prop :=
  ∀ (F A E : Type) [CurrentController F K] [DoesFocMath A K]
    [SaliencyBasedEstimator E K] (t : Tick K F A E),
    t.params = params → t.inputs = inputs →
    let after := focStep t.params t.inputs (t.drive mode)
    mode.focGate.active = false → recorded after.2.mode = recorded mode →
      ∀ result, after.1.1 ≠ .normal result

/-- The mode is a fault whose ramp down outlasts the tick, and nothing the tick is
    told ends it: there is a bus reading, no board fault, and no overspeed that the
    trace would take. -/
def RampsInFault (mode : OperatingMode K C) (params : MotorParamsEstimate K)
    (inputs : FocStepInputs K) : Prop :=
  ∃ waitedMs writeIndex trace, mode = .fault (.rampDown waitedMs) writeIndex trace ∧
    waitedMs + inputs.tickDtMs < rampdownDurationMs ∧
    inputs.dcBusReadingV.isSome ∧ boardFault inputs = false ∧
    (tooFast params inputs = true →
      OperatingMode.recordCause writeIndex trace .overspeed = (writeIndex, trace))

/-- Whatever modulates without a new fault is a ramp down in `Fault`. -/
theorem rampsInFault_of_normal (h : mode.focGate.active = false)
    (hsame : recorded (focStep t.params t.inputs (t.drive mode)).2.mode = recorded mode)
    {result : FocResult K}
    (hnormal : (focStep t.params t.inputs (t.drive mode)).1.1 = .normal result) :
    RampsInFault mode t.params t.inputs := by
  obtain ⟨c, hcall, hc⟩ := call_of_normal hnormal
  obtain ⟨hboard, hdc, hrecorded, waitedMs, hramp, hlt⟩ := call_inactive h hcall
  rw [hc, hrecorded] at hsame
  -- an overspeed that is new starts the record of another fault
  have hmode : ramp mode = some waitedMs := by
    cases hfast : tooFast t.params t.inputs with
    | false =>
        rw [hfast] at hramp
        exact hramp
    | true =>
        rw [hfast] at hramp hsame
        cases mode with
        | fault safeStrategy writeIndex trace =>
            have hfault : (OperatingMode.fault safeStrategy writeIndex trace :
                OperatingMode K C).IsFault := trivial
            exact (ramp_overspeed hfault true).symm.trans hramp
        | _ => cases hsame
  obtain ⟨writeIndex, trace, rfl⟩ := ramp_inactive h hmode
  refine ⟨waitedMs, writeIndex, trace, rfl, hlt, hdc, hboard, ?_⟩
  intro hfast
  rw [(assertIf_rampDown _ waitedMs writeIndex trace).2, hfast, if_pos rfl] at hsame
  exact Option.some.inj hsame

/-- A call of a controller that takes everything is a modulation. -/
theorem focStep_mock {t : Tick K (MockController K) A E} {c : ComputeCall K C}
    (hcall : t.call mode = some c) :
    (∃ result, (focStep t.params t.inputs (t.drive mode)).1.1 = .normal result) ∧
      (focStep t.params t.inputs (t.drive mode)).2.mode = c.mode := by
  obtain ⟨hresult, hmode⟩ := focStep_inner t.params t.inputs (t.drive mode)
  rw [hresult, hmode]
  cases hp : (prepare t.params t.inputs (t.drive mode)).call with
  | error outcome =>
      simp only [Tick.call, hp] at hcall
      cases hcall
  | ok call =>
      obtain ⟨input, estimate⟩ := call
      simp only [Tick.call, hp] at hcall
      obtain ⟨hnormal, hkept⟩ := focStepInner_ok hp rfl
      obtain rfl := Option.some.inj hcall
      exact ⟨⟨_, hnormal⟩, hkept⟩

/-- A ramp down in `Fault` goes on to the controller. -/
theorem RampsInFault.call (h : RampsInFault mode t.params t.inputs) :
    ∃ c, t.call mode = some c ∧ recorded c.mode = recorded mode := by
  obtain ⟨waitedMs, writeIndex, trace, hm, hlt, hdc, hboard, hspeed⟩ := h
  obtain ⟨dcBusVoltageV, hdc⟩ := Option.isSome_iff_exists.mp hdc
  have hinactive : mode.focGate.active = false := by
    rw [hm]
    rfl
  have hmode := supervised_inactive hboard hinactive dcBusVoltageV
  obtain ⟨hramp, hrecorded⟩ := assertIf_rampDown (C := C) (tooFast t.params t.inputs)
    waitedMs writeIndex trace
  rw [← hm] at hramp hrecorded
  rw [← hmode] at hramp hrecorded
  have hsafe : ∃ command, (t.safety mode dcBusVoltageV).1 = .ok (some command) :=
    safetyCommand_some_iff.mpr ⟨waitedMs, hramp, hlt⟩
  obtain ⟨command, hsafety⟩ := hsafe
  refine ⟨_, Tick.call_eq_some_iff.mpr
    ⟨dcBusVoltageV, some command, hdc, hsafety, rfl⟩, ?_⟩
  show recorded (t.safety mode dcBusVoltageV).2 = _
  rw [Tick.safety, safetyCommand_mode, hrecorded, hm]
  cases hfast : tooFast t.params t.inputs with
  | false => rfl
  | true => exact congrArg some (hspeed hfast)

/-- A saliency estimator at rest. -/
def restingEstimator : SinusoidalPulsingEstimator K where
  hfi := ⟨0, 0, ⟨0, 1⟩, ⟨0, 1⟩, ⟨0, 1⟩, ⟨0, 1⟩⟩
  notch := ⟨1, 0, 0, 0, 0, 0⟩
  pll := ⟨0, 0, ⟨0, 0⟩⟩
  feedbackFault := none
  polarityTest := ⟨⟨0, 0, 0⟩, .init, 0, 0, 0, 0, 0, ⟨0, 0⟩⟩

/-- An inactive gate keeps its promise on a tick exactly when the mode is not a fault
    that is still ramping down. -/
theorem quiet_iff (mode : OperatingMode K C) (params : MotorParamsEstimate K)
    (inputs : FocStepInputs K) :
    Quiet mode params inputs ↔ ¬ RampsInFault mode params inputs := by
  constructor
  · intro hquiet hramps
    -- a controller that takes everything turns the call into a modulation
    let t : Tick K (MockController K) (MockAccelerator K) (SinusoidalPulsingEstimator K) :=
      ⟨params, inputs, ⟨0⟩, {}, restingEstimator⟩
    obtain ⟨c, hcall, hsame⟩ := RampsInFault.call (t := t) hramps
    obtain ⟨⟨result, hnormal⟩, hmode⟩ := focStep_mock hcall
    obtain ⟨waitedMs, writeIndex, trace, rfl, -⟩ := hramps
    exact hquiet _ _ _ t rfl rfl rfl ((congrArg recorded hmode).trans hsame) result hnormal
  · rintro hnot F A E _ _ _ t rfl rfl after hactive hsame result hnormal
    exact hnot (rampsInFault_of_normal hactive hsame hnormal)

/-- The gate that a tick finds keeps its promise. -/
def QuietTick (mode : OperatingMode K C) : Event K F A E → Prop
  | .tick t => Quiet mode t.params t.inputs
  | _ => True

/-- The tick finds no fault that is still ramping down. -/
def NotRamping (mode : OperatingMode K C) : Event K F A E → Prop
  | .tick t => ¬ RampsInFault mode t.params t.inputs
  | _ => True

/-- **THE PROMISE, AND ITS LIMIT**: along a run of ticks and commands an inactive gate
    keeps its promise exactly when no tick finds a fault that is still ramping down. -/
theorem run_quiet_iff (start : OperatingMode K C) (events : List (Event K F A E)) :
    Always step QuietTick start events ↔ Always step NotRamping start events := by
  refine always_congr (I := fun _ => True) (A := fun _ => True)
    (fun _ _ _ _ => trivial) ?_ events start (fun _ _ => trivial) trivial
  intro mode event _ _
  cases event with
  | tick t => exact quiet_iff mode t.params t.inputs
  | _ => exact Iff.rfl

/-- Corrupted setpoints fault an idle drive, and the next tick modulates: the gate of
    its ramp down reads inactive, though no fault is new. -/
theorem fault_rampDown_modulates :
    let t := tickQ (.ok ⟨.electrical, 1, 0⟩) (some 0)
    let start : OperatingMode ℚ RunnerQ := .idle .freshSto
    let mode := start.after (.assertFault .canMessageIntegrity)
    let after := focStep t.params t.inputs (t.drive mode)
    (mode.focGate.active = false ∧ recorded after.2.mode = recorded mode ∧
      ∃ result, after.1.1 = .normal result) ∧
      ¬ Always step QuietTick start
        [.command (.assertFault .canMessageIntegrity), .tick t] := by
  intro t start mode after
  have hruns : RampsInFault mode t.params t.inputs := by
    refine ⟨0, 1, _, rfl, ?_, rfl, rfl, ?_⟩
    · decide +kernel
    · intro hfast
      exact absurd hfast (by decide +kernel)
  obtain ⟨c, hcall, hsame⟩ := hruns.call
  obtain ⟨hnormal, hmode⟩ := focStep_mock hcall
  have hrecorded : recorded after.2.mode = recorded mode :=
    (congrArg recorded hmode).trans hsame
  refine ⟨⟨rfl, hrecorded, hnormal⟩, ?_⟩
  rintro ⟨-, hquiet, -⟩
  obtain ⟨result, hresult⟩ := hnormal
  exact hquiet _ _ _ t rfl rfl rfl hrecorded result hresult

end GateProofs
