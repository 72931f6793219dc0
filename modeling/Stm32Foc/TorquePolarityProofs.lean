import Stm32Foc.GateProofs
import Stm32Foc.NumberRuns
import Stm32Foc.PolarityProofs
import Stm32Foc.TorqueProofs

/-! # No torque on an unknown polarity

    What the injection tells of the rotor at standstill is known up to half a turn: on the
    wrong half a torque turns the motor backwards.  The interrupt keeps the two apart over
    whole runs: whatever the tasks and the other interrupts do, a torque is commanded only
    where the polarity has been found and the bridge has not stopped modulating since. -/

namespace TorquePolarityProofs

open EventRun FieldOriented Faults SafeStrategy Calibration Modes Control Saliency
open TickProofs (Tick Resolved CommandsNoTorque ComputeCall boardFault boardFaults_passed
  resolvePolarity_cases assertIf_passed assertFault_isFault supervise_other)
open FeedbackProofs (seeded)
open GateProofs (focStep_inner call_of_normal)
open AdcIsr AdcIsr.Isr Arbitration Bsp

/-! ## The test along a tick -/

section Ticks

variable {K : Type} [Field K] [LinearOrder K] {C : Type} [Calibrator C K]
  {F A : Type} [CurrentController F K] [DoesFocMath A K]
  {t : Tick K F A (SinusoidalPulsingEstimator K)} {mode : OperatingMode K C}

/-- The tick finds the polarity by a fast feedback, which ends the polarity test. -/
structure SeedsTest (t : Tick K F A (SinusoidalPulsingEstimator K))
    (mode : OperatingMode K C) : Prop where
  board : boardFault t.inputs = false
  testing : mode = .saliencyPolarityTest
  ongoing : t.saliencyEstimator.polarityTest.verdict = none
  seeded : seeded t = true

/-- A tick seeds the test, or leaves it as it is. -/
theorem resolvePolarity_test (params : MotorParamsEstimate K) (inputs : FocStepInputs K)
    (drive : Drive K C F A (SinusoidalPulsingEstimator K)) :
    let test := (resolvePolarity params inputs drive).2.saliencyEstimator.polarityTest
    (drive.mode = .saliencyPolarityTest ∧
        drive.saliencyEstimator.polarityTest.verdict = none ∧
        (∃ feedback, inputs.rotorFeedback = .ok feedback ∧ seeds inputs feedback = true) ∧
        test.state = .done) ∨
      ((∀ feedback, drive.mode = .saliencyPolarityTest →
          drive.saliencyEstimator.polarityTest.verdict = none →
          inputs.rotorFeedback = .ok feedback → seeds inputs feedback = false) ∧
        test = drive.saliencyEstimator.polarityTest) := by
  obtain ⟨mode, foc, acceleration, estimator⟩ := drive
  cases mode with
  | saliencyPolarityTest =>
      intro test
      have htest : test = (resolvePolarity params inputs
        ⟨.saliencyPolarityTest, foc, acceleration, estimator⟩
          ).2.saliencyEstimator.polarityTest := rfl
      rw [resolvePolarity] at htest
      cases hv : estimator.polarityTest.verdict with
      | none =>
          simp only [SaliencyBasedEstimator.polePolarity, hv] at htest
          cases hf : inputs.rotorFeedback with
          | error fault =>
              simp only [hf] at htest
              refine .inr ⟨?_, htest⟩
              rintro feedback - - ⟨⟩
          | ok feedback =>
              cases hs : seeds inputs feedback with
              | true =>
                  simp only [hf, hs, if_true] at htest
                  refine .inl ⟨rfl, rfl, ⟨feedback, rfl, hs⟩, ?_⟩
                  rw [htest]
                  rfl
              | false =>
                  simp only [hf, hs, Bool.false_eq_true, if_false] at htest
                  refine .inr ⟨?_, htest⟩
                  intro feedback' _ _ h
                  obtain rfl := Except.ok.inj h
                  exact hs
      | some verdict =>
          refine .inr ⟨?_, ?_⟩
          · rintro feedback - ⟨⟩
          · simp only [SaliencyBasedEstimator.polePolarity, hv] at htest
            cases verdict <;> exact htest
  | _ =>
      refine .inr ⟨?_, rfl⟩
      rintro feedback ⟨⟩

/-- What a tick does to the estimator's test happens in its diagnostics. -/
theorem focStep_test :
    (focStep t.params t.inputs (t.drive mode)).2.saliencyEstimator.polarityTest
      = (t.diagnosed mode).drive.saliencyEstimator.polarityTest := by
  have hprepared : (prepare t.params t.inputs (t.drive mode)).drive.saliencyEstimator
      = (t.diagnosed mode).drive.saliencyEstimator := by
    rw [prepare]
    cases t.inputs.dcBusReadingV <;> rfl
  have hinner :
      (focStepInner t.params t.inputs (t.drive mode)).2.saliencyEstimator.polarityTest
        = (t.diagnosed mode).drive.saliencyEstimator.polarityTest := by
    rw [← hprepared, focStepInner]
    cases (prepare t.params t.inputs (t.drive mode)).call with
    | error outcome => rfl
    | ok call =>
        simp only
        split <;> rfl
  rw [← hinner, focStep]
  generalize focStepInner t.params t.inputs (t.drive mode) = inner
  obtain ⟨⟨outcome, stageResult⟩, drive⟩ := inner
  cases outcome <;> rfl

/-- **THE TEST ALONG A TICK**: seeded it is done, and otherwise it is left. -/
theorem focStep_test_cases :
    let test := (focStep t.params t.inputs (t.drive mode)).2.saliencyEstimator.polarityTest
    (SeedsTest t mode ∧ test.state = .done) ∨
      (¬ SeedsTest t mode ∧ test = t.saliencyEstimator.polarityTest) := by
  intro test
  have htest : test = (resolvePolarity t.params t.inputs
      { t.drive mode with mode := boardFaults t.inputs mode }
        ).2.saliencyEstimator.polarityTest := focStep_test
  rcases resolvePolarity_test t.params t.inputs
    { t.drive mode with mode := boardFaults t.inputs mode } with
    ⟨hm, hv, ⟨feedback, hf, hs⟩, hdone⟩ | ⟨hnot, hsame⟩
  · obtain ⟨hboard, htesting⟩ := boardFaults_passed hm id
    refine .inl ⟨⟨hboard, htesting, hv, ?_⟩, htest ▸ hdone⟩
    rw [seeded, hf]
    exact hs
  · refine .inr ⟨?_, htest.trans hsame⟩
    rintro ⟨hboard, rfl, hv, hs⟩
    rw [seeded] at hs
    split at hs
    · rename_i feedback hf
      rw [hnot feedback (TickProofs.boardFaults_of_none hboard _) hv hf] at hs
      cases hs
    · cases hs

/-- A tick that goes on in torque control has found the polarity itself, or it finds it
    known: by the test that has passed, or in torque control already. -/
theorem torqueControl_cases (h : (t.diagnosed mode).drive.mode = .torqueControl) :
    SeedsTest t mode ∨
      t.saliencyEstimator.polarityTest.verdict = some (.ok ()) ∨
      (mode = .torqueControl ∧ ∃ feedback, t.inputs.rotorFeedback = .ok feedback) := by
  obtain ⟨hboard, -, -, feedback, hfeedback, -⟩ := TickProofs.diagnose_torqueControl h
  obtain ⟨mode', hresolved, -, hmode⟩ :=
    TickProofs.diagnose_stages t.params t.inputs (t.drive mode)
  have hmode' : mode' = .torqueControl := by
    obtain ⟨-, hset⟩ := assertIf_passed (hmode.symm.trans h) id
    exact (assertIf_passed hset id).2
  have hsame := TickProofs.boardFaults_of_none hboard mode
  clear hmode
  generalize (diagnose t.params t.inputs (t.drive mode)).rotorFeedback = used at hresolved
  cases hresolved with
  | other hm => exact .inr (.inr ⟨hsame.symm.trans hmode', feedback, hfeedback⟩)
  | ongoing hm hv hs => cases hmode'
  | seeded hm hv feedback' hf hs =>
      refine .inl ⟨hboard, hsame.symm.trans hm, hv, ?_⟩
      rw [seeded, show t.inputs.rotorFeedback = .ok feedback' from hf]
      exact hs
  | passed hm hv => exact .inr (.inl hv)
  | failed hm e =>
      have hfailed := assertFault_isFault (boardFaults t.inputs mode)
        (.ofPolarityTestFault e)
      rw [show OperatingMode.after (boardFaults t.inputs mode) _ = _ from hmode'] at hfailed
      exact hfailed.elim

/-- The mode of a tick is torque control only if its diagnostics leave it so. -/
theorem diagnosed_of_supervised {dcBusVoltageV : K}
    (h : (t.supervised mode dcBusVoltageV).mode = .torqueControl) :
    (t.diagnosed mode).drive.mode = .torqueControl :=
  (supervise_other h id (fun _ he => nomatch he)).1

/-- A tick that modulates and leaves torque control was in it when it called. -/
theorem diagnosed_of_normal {result : FocResult K}
    (hnormal : (focStep t.params t.inputs (t.drive mode)).1.1 = .normal result)
    (hmode : (focStep t.params t.inputs (t.drive mode)).2.mode = .torqueControl) :
    (t.diagnosed mode).drive.mode = .torqueControl := by
  obtain ⟨c, hcall, hc⟩ := call_of_normal hnormal
  obtain ⟨dcBusVoltageV, command, -, -, rfl⟩ := Tick.call_eq_some_iff.mp hcall
  have hsafety : (t.safety mode dcBusVoltageV).2 = .torqueControl := hc.symm.trans hmode
  rw [Tick.safety] at hsafety
  suffices hsupervised : (t.supervised mode dcBusVoltageV).mode = .torqueControl from
    diagnosed_of_supervised hsupervised
  cases hm : (t.supervised mode dcBusVoltageV).mode with
  | torqueControl => rfl
  | calibration calibrator =>
      rw [hm, TickProofs.safetyCommand_calibration] at hsafety
      split at hsafety <;> cases hsafety
  | _ =>
      rw [hm] at hsafety
      cases hsafety

end Ticks

/-! ## The mode between the ticks -/

section Modes

variable {K : Type} [Field K] {C : Type} [Calibrator C K] {mode : OperatingMode K C}

/-- Torque control is entered by its own command alone. -/
theorem after_torqueControl {command : Command K} (hne : command ≠ .enableTorqueControl)
    (h : mode.after command = .torqueControl) : mode = .torqueControl := by
  cases command with
  | enableTorqueControl => exact absurd rfl hne
  | clearFault =>
      cases mode with
      | fault safeStrategy writeIndex trace => cases safeStrategy <;> cases h
      | _ => exact h
  | startCalibration numPolePairs targets hasHall dtS =>
      cases mode with
      | idle safeStrategy => cases safeStrategy <;> cases h
      | _ => exact h
  | _ => cases mode <;> first | exact h | cases h

theorem assertFaults_torqueControl (causes : List FaultCause)
    (h : causes.foldl (fun mode cause => mode.after (.assertFault cause)) mode
      = .torqueControl) : mode = .torqueControl := by
  induction causes generalizing mode with
  | nil => exact h
  | cons cause causes ih =>
      refine after_torqueControl ?_ (ih h)
      intro he
      cases he

theorem unstored_torqueControl {hasHall : Bool} {stageResult : Option (StageResult K)}
    (h : unstored hasHall stageResult mode = .torqueControl) : mode = .torqueControl := by
  rw [unstored.eq_def] at h
  split at h
  · split at h
    · exact h
    · refine after_torqueControl ?_ h
      intro he
      cases he
  · exact h

omit [Field K] in
theorem afterFocStep_torqueControl {params : ConstantMotorParameters K}
    {outcome : FocStepOutcome K} {stageResult : Option (StageResult K)}
    (h : (afterFocStep params outcome stageResult mode).2.2 = .torqueControl) :
    mode = .torqueControl := by
  cases mode with
  | calibration calibrator => cases h
  | _ => exact h

end Modes

/-! ## What the arbitrator reads -/

section Reads

variable {K : Type} [Field K] [LinearOrder K]

/-- The arbitrator has no feedback to give. -/
structure Blind (arbitrator : FeedbackArbitrator K) : Prop where
  hall : arbitrator.hallFeedback.bind Except.toOption = none
  sensorless : arbitrator.sensorlessFeedback.bind Except.toOption = none

theorem Blind.read {arbitrator : FeedbackArbitrator K} (h : Blind arbitrator) :
    arbitrator.read = .error arbitrator.fault := by
  rw [FeedbackArbitrator.read, h.hall, h.sensorless]

variable [FloorRing K]

theorem updateSensorless_hall (arbitrator : FeedbackArbitrator K) (saliency flux : Feedback K) :
    (arbitrator.updateSensorless saliency flux).hallFeedback = arbitrator.hallFeedback := by
  cases saliency <;> cases flux <;>
    simp only [FeedbackArbitrator.updateSensorless, FeedbackArbitrator.blend,
      Option.bind_some, Except.toOption] <;>
    split <;> rfl

/-- Without a hall reading, and with both estimates lost, it has none. -/
theorem blind_updateSensorless {arbitrator : FeedbackArbitrator K}
    (saliency flux : RotorFeedbackFault)
    (hhall : arbitrator.hallFeedback.bind Except.toOption = none) :
    Blind (arbitrator.updateSensorless (.error saliency) (.error flux)) := by
  have hlost : (arbitrator.updateSensorless (.error saliency) (.error flux)
      ).sensorlessFeedback = none := by
    simp only [FeedbackArbitrator.updateSensorless, FeedbackArbitrator.blend,
      Option.bind_some, Except.toOption]
    split <;> rfl
  have hkept := updateSensorless_hall arbitrator (.error saliency) (.error flux)
  refine ⟨(congrArg (·.bind Except.toOption) hkept).trans hhall, ?_⟩
  rw [hlost]
  rfl

end Reads

/-! ## The test along an update -/

section Updates

variable {K : Type} [Field K] [LinearOrder K] [FloorRing K] [HasNormal K]
  {estimator : SinusoidalPulsingEstimator K} (input : SensorlessEstimatorInput K)

/-- An update ends a test only in its window. -/
theorem testing_of_update (h : (estimator.update input).polarityTest.state = .done)
    (hbefore : estimator.polarityTest.state ≠ .done) :
    ∃ ticks saturationSum,
      estimator.polarityTest.state = .testing ticks saturationSum := by
  have hactive : estimator.polarityTest.isActive = true := by
    by_contra hnot
    rw [Bool.not_eq_true] at hnot
    rw [PolarityProofs.update_keeps_verdict estimator input hnot] at h
    exact hbefore h
  have hverdict : estimator.polarityTest.verdict = none := Option.isNone_iff_eq_none.mp hactive
  rcases PolarityProofs.update_polarityTest estimator input hactive with ⟨error, -, hstep⟩ | habort
  · rw [hstep] at h
    let tick : PolarityProofs.PolarityInput K :=
      ⟨error, input.iDq.d, estimator.hfi.previousPhasor⟩
    cases hstate : estimator.polarityTest.state with
    | testing ticks saturationSum => exact ⟨ticks, saturationSum, rfl⟩
    | init =>
        have hafter := (PolarityProofs.step_init tick hstate).2
        rcases PolarityProofs.initStep_cases
          (estimator.polarityTest.filtered error).1
          (PolarityProofs.timedOut estimator.polarityTest) with ⟨-, he⟩ | he | ⟨-, he⟩ <;>
        · rw [he] at hafter
          cases hafter.symm.trans h
    | settling lockedTicks =>
        have hafter := (PolarityProofs.step_settling tick hstate).2
        rcases PolarityProofs.settlingStep_cases estimator.polarityTest lockedTicks
          (estimator.polarityTest.filtered error).1
          (PolarityProofs.timedOut estimator.polarityTest) with ⟨-, he⟩ | he | ⟨-, he⟩ <;>
        · rw [he] at hafter
          cases hafter.symm.trans h
    | done => exact absurd hstate hbefore
    | fault kind =>
        rw [PolarityTest.verdict, hstate] at hverdict
        cases hverdict
  · rw [habort, PolarityTest.abort, hverdict] at h
    cases h

/-- A test that is done stays so. -/
theorem update_done (h : estimator.polarityTest.state = .done) :
    (estimator.update input).polarityTest.state = .done := by
  have hactive : estimator.polarityTest.isActive = false := by
    rw [PolarityTest.isActive, PolarityTest.verdict, h]
    rfl
  rw [PolarityProofs.update_keeps_verdict estimator input hactive, h]

end Updates

variable {K : Type} [Field K] [LinearOrder K] [FloorRing K]
variable {C F A : Type} [Calibrator C K] [CurrentController F K] [DoesFocMath A K]
  [Libm K] [HasNormal K]

/-! ## What finds the polarity -/

/-- The polarity is known. -/
def Known (isr : Isr K C F A) : Prop :=
  isr.saliencyEstimator.polarityTest.state = .done

/-- An event does not end the modulation: a tick has modulated. -/
def Modulates (isr : Isr K C F A) : Event K F → Prop
  | .sharedAdcIsr sample =>
      ∀ phaseCurrents ∈ sample.phaseCurrents, ∃ result,
        isr.outcome phaseCurrents = .normal result
  | _ => True

/-- What finds the polarity: a fast feedback that ends the polarity test, the last tick
    of a test window, or the hall sensors while the bridge rests. -/
inductive Finds (isr : Isr K C F A) : Event K F → Prop where
  | seed (sample : Sample K) (phaseCurrents : PhaseValues K) (result : FocResult K)
      (hs : sample.phaseCurrents = some phaseCurrents)
      (hout : isr.outcome phaseCurrents = .normal result)
      (hseed : SeedsTest (isr.tick phaseCurrents) isr.mode) : Finds isr (.sharedAdcIsr sample)
  | test (sample : Sample K) (phaseCurrents : PhaseValues K) (result : FocResult K)
      (hs : sample.phaseCurrents = some phaseCurrents)
      (hout : isr.outcome phaseCurrents = .normal result)
      (ticks : Nat) (saturationSum : K)
      (hbefore : isr.saliencyEstimator.polarityTest.state = .testing ticks saturationSum)
      (hafter : Known (isr.sharedAdcIsr sample)) : Finds isr (.sharedAdcIsr sample)
  | hall (sample : Sample K) (phaseCurrents : PhaseValues K) (feedback : RotorFeedback K)
      (hs : sample.phaseCurrents = some phaseCurrents)
      (hout : ∀ result, isr.outcome phaseCurrents ≠ .normal result)
      (hseed : isr.seed sample = some feedback) : Finds isr (.sharedAdcIsr sample)

/-- The board's measurements leave the estimator as it is. -/
theorem loop_estimator (isr : Isr K C F A) {sample : Sample K}
    {phaseCurrents : PhaseValues K} (hs : sample.phaseCurrents = some phaseCurrents) :
    (isr.sharedAdcIsr sample).saliencyEstimator
      = (isr.currentLoop sample phaseCurrents).saliencyEstimator := by
  rw [sharedAdcIsr, hs]
  cases sample.boardInfo <;> rfl

/-- A tick that modulates updates the estimator. -/
theorem estimator_normal {isr : Isr K C F A} {sample : Sample K}
    {phaseCurrents : PhaseValues K} {result : FocResult K}
    (hs : sample.phaseCurrents = some phaseCurrents)
    (hout : isr.outcome phaseCurrents = .normal result) :
    ∃ input, (isr.sharedAdcIsr sample).saliencyEstimator
      = (isr.stepped phaseCurrents).2.saliencyEstimator.update input := by
  rw [loop_estimator isr hs]
  show ∃ input, ((isr.advanced phaseCurrents).estimated sample (isr.outcome phaseCurrents)
    _ _).saliencyEstimator = _
  rw [hout]
  exact ⟨_, rfl⟩

/-- Any other resets it. -/
theorem known_resting {isr : Isr K C F A} {sample : Sample K} {phaseCurrents : PhaseValues K}
    (hs : sample.phaseCurrents = some phaseCurrents)
    (hout : ∀ result, isr.outcome phaseCurrents ≠ .normal result) :
    Known (isr.sharedAdcIsr sample) ↔ (isr.seed sample).isSome := by
  have hestimator : (isr.sharedAdcIsr sample).saliencyEstimator
      = (isr.stepped phaseCurrents).2.saliencyEstimator.reset (isr.seed sample) := by
    rw [loop_estimator isr hs]
    show ((isr.advanced phaseCurrents).estimated sample (isr.outcome phaseCurrents)
      _ _).saliencyEstimator = _
    cases houtcome : isr.outcome phaseCurrents with
    | normal result => exact absurd houtcome (hout result)
    | _ => rfl
  rw [Known, hestimator]
  show (if (isr.seed sample).isSome then PolarityTestState.done else .init) = .done ↔ _
  cases (isr.seed sample).isSome with
  | true => exact iff_of_true rfl rfl
  | false => exact iff_of_false (fun h => nomatch h) Bool.false_ne_true

/-- A tick that modulates finds the polarity, or keeps a known one. -/
theorem known_iff_normal {isr : Isr K C F A} {sample : Sample K}
    {phaseCurrents : PhaseValues K} {result : FocResult K}
    (hs : sample.phaseCurrents = some phaseCurrents)
    (hout : isr.outcome phaseCurrents = .normal result) :
    Known (isr.sharedAdcIsr sample) ↔ Finds isr (.sharedAdcIsr sample) ∨ Known isr := by
  obtain ⟨input, hupdate⟩ := estimator_normal hs hout
  let t := isr.tick phaseCurrents
  have htest : (SeedsTest t isr.mode ∧
      (isr.stepped phaseCurrents).2.saliencyEstimator.polarityTest.state = .done) ∨
      (¬ SeedsTest t isr.mode ∧
        (isr.stepped phaseCurrents).2.saliencyEstimator.polarityTest
          = isr.saliencyEstimator.polarityTest) := focStep_test_cases
  constructor
  · intro hafter
    rcases htest with ⟨hseed, -⟩ | ⟨-, hsame⟩
    · exact .inl (.seed sample phaseCurrents result hs hout hseed)
    · by_cases hknown : Known isr
      · exact .inr hknown
      · have hbefore : (isr.stepped phaseCurrents).2.saliencyEstimator.polarityTest.state
            ≠ .done := fun h => hknown ((congrArg PolarityTest.state hsame).symm.trans h)
        rw [Known, hupdate] at hafter
        obtain ⟨ticks, saturationSum, hstate⟩ := testing_of_update input hafter hbefore
        refine .inl (.test sample phaseCurrents result hs hout ticks saturationSum ?_ ?_)
        · exact (congrArg PolarityTest.state hsame).symm.trans hstate
        · rw [Known, hupdate]
          exact hafter
  · intro h
    rw [Known, hupdate]
    rcases htest with ⟨-, hdone⟩ | ⟨hnot, hsame⟩
    · exact update_done input hdone
    · rcases h with hfinds | hknown
      · cases hfinds with
        | seed _ phaseCurrents' _ hs' _ hseed =>
            obtain rfl := Option.some.inj (hs.symm.trans hs')
            exact absurd hseed hnot
        | test _ _ _ _ _ _ _ _ hafter =>
            rw [Known, hupdate] at hafter
            exact hafter
        | hall _ phaseCurrents' _ hs' hrest =>
            obtain rfl := Option.some.inj (hs.symm.trans hs')
            exact absurd hout (hrest result)
      · exact update_done input ((congrArg PolarityTest.state hsame).trans hknown)

/-- A tick that does not modulate finds it by the hall sensors only. -/
theorem known_iff_resting {isr : Isr K C F A} {sample : Sample K}
    {phaseCurrents : PhaseValues K} (hs : sample.phaseCurrents = some phaseCurrents)
    (hout : ∀ result, isr.outcome phaseCurrents ≠ .normal result) :
    Known (isr.sharedAdcIsr sample) ↔ Finds isr (.sharedAdcIsr sample) := by
  rw [known_resting hs hout]
  constructor
  · intro h
    obtain ⟨feedback, hseed⟩ := Option.isSome_iff_exists.mp h
    exact .hall sample phaseCurrents feedback hs hout hseed
  · intro hfinds
    cases hfinds with
    | seed _ phaseCurrents' result hs' hout' =>
        obtain rfl := Option.some.inj (hs.symm.trans hs')
        exact absurd hout' (hout result)
    | test _ phaseCurrents' result hs' hout' =>
        obtain rfl := Option.some.inj (hs.symm.trans hs')
        exact absurd hout' (hout result)
    | hall _ _ feedback _ _ hseed => exact Option.isSome_iff_exists.mpr ⟨feedback, hseed⟩

/-- **ONE EVENT**: the polarity is known after it if it finds the polarity, or leaves a
    known one by not ending the modulation. -/
theorem known_step (isr : Isr K C F A) (e : Event K F) :
    Known (step isr e) ↔ Finds isr e ∨ Known isr ∧ Modulates isr e := by
  cases e with
  | sharedAdcIsr sample =>
      show Known (isr.sharedAdcIsr sample) ↔ _
      cases hs : sample.phaseCurrents with
      | none =>
          have hmodulates : Modulates isr (.sharedAdcIsr sample) := by
            intro phaseCurrents hp
            rw [hs] at hp
            cases hp
          have hnot : ¬ Finds isr (.sharedAdcIsr sample) := by
            rintro (⟨_, _, _, hp⟩ | ⟨_, _, _, hp⟩ | ⟨_, _, _, hp⟩) <;>
            · rw [hs] at hp
              cases hp
          have hsame : (isr.sharedAdcIsr sample).saliencyEstimator
              = isr.saliencyEstimator := by
            rw [sharedAdcIsr, hs]
            cases sample.boardInfo <;> rfl
          rw [Known, hsame]
          exact ⟨fun h => .inr ⟨h, hmodulates⟩, fun h => (h.resolve_left hnot).1⟩
      | some phaseCurrents =>
          by_cases hout : ∃ result, isr.outcome phaseCurrents = .normal result
          · have hmodulates : Modulates isr (.sharedAdcIsr sample) := by
              intro phaseCurrents' hp
              obtain rfl := Option.some.inj (hs.symm.trans hp)
              exact hout
            rw [and_iff_left hmodulates]
            exact known_iff_normal hs hout.choose_spec
          · have hends : ¬ Modulates isr (.sharedAdcIsr sample) := fun h =>
              hout (h phaseCurrents hs)
            rw [known_iff_resting hs fun result h => hout ⟨result, h⟩]
            exact ⟨.inl, fun h => h.resolve_right fun hk => hends hk.2⟩
  | _ =>
      refine ⟨fun h => .inr ⟨h, trivial⟩, ?_⟩
      rintro (hfinds | h)
      · cases hfinds
      · exact h.1

/-! ## The interlock -/

/-- **THE INTERLOCK**: in torque control the polarity is known, or there is no feedback
    and the next tick ends it. -/
structure Interlocked (isr : Isr K C F A) : Prop where
  wired : isr.hallFeedback = none → isr.feedbackArbitrator.hallFeedback = none
  torque : isr.mode = .torqueControl → Known isr ∨ Blind isr.feedbackArbitrator

omit [FloorRing K] [Libm K] [HasNormal K] in
/-- A tick that is in torque control has found the polarity or finds it known. -/
theorem torqueControl_known {isr : Isr K C F A} (h : Interlocked isr)
    {phaseCurrents : PhaseValues K}
    (hmode : ((isr.tick phaseCurrents).diagnosed isr.mode).drive.mode = .torqueControl) :
    SeedsTest (isr.tick phaseCurrents) isr.mode ∨ Known isr := by
  rcases torqueControl_cases hmode with hseed | hpassed | ⟨hdriving, feedback, hfeedback⟩
  · exact .inl hseed
  · refine .inr ?_
    have hverdict : isr.saliencyEstimator.polarityTest.verdict = some (.ok ()) := hpassed
    rw [PolarityTest.verdict] at hverdict
    cases hstate : isr.saliencyEstimator.polarityTest.state with
    | done => exact hstate
    | _ =>
        rw [hstate] at hverdict
        cases hverdict
  · refine .inr ((h.torque hdriving).resolve_right ?_)
    intro hblind
    have hread : (numbers isr.feedbackArbitrator.read).map (latencyCompensate · dtS)
        = .ok feedback := hfeedback
    rw [hblind.read] at hread
    cases hread

omit [Calibrator C K] [CurrentController F K] [DoesFocMath A K] [Libm K] [HasNormal K] in
/-- With both estimates lost, and no hall reading that they could start from, the
    arbitrator has nothing. -/
theorem blind_arbitrated {isr : Isr K C F A} {sample : Sample K}
    (hwired : isr.hallFeedback = none → isr.feedbackArbitrator.hallFeedback = none)
    (hseed : isr.seed sample = none) (saliency flux : RotorFeedbackFault) :
    Blind (isr.arbitrated sample (.error saliency) (.error flux)) := by
  refine blind_updateSensorless saliency flux ?_
  rw [seed] at hseed
  cases hreading : isr.hallReading sample with
  | none =>
      show isr.feedbackArbitrator.hallFeedback.bind Except.toOption = none
      rw [hwired (Option.map_eq_none_iff.mp hreading)]
      rfl
  | some reading =>
      rw [hreading] at hseed
      exact hseed

omit [FloorRing K] [CurrentController F K] [DoesFocMath A K] [Libm K]
  [HasNormal K] in
/-- The board's measurements keep the interlock. -/
theorem boardMeasured_interlocked {isr : Isr K C F A} (h : Interlocked isr)
    (vbus tboard : K) : Interlocked (isr.boardMeasured vbus tboard) := by
  refine ⟨h.wired, ?_⟩
  intro hmode
  rw [boardMeasured, BoardChecks.boardStatus_eq] at hmode
  exact h.torque (assertFaults_torqueControl _ hmode)

/-- A tick keeps it: one that modulates in torque control has the polarity, and after any
    other the next tick has no feedback, or the polarity from the hall sensors. -/
theorem currentLoop_interlocked {isr : Isr K C F A} (h : Interlocked isr)
    {sample : Sample K} {phaseCurrents : PhaseValues K}
    (hs : sample.phaseCurrents = some phaseCurrents) :
    Interlocked (isr.currentLoop sample phaseCurrents) := by
  refine ⟨?_, ?_⟩
  · intro hnone
    have hnot : isr.hallReading sample = none := Option.map_eq_none_iff.mp hnone
    have hhall : isr.feedbackArbitrator.hallFeedback = none :=
      h.wired (Option.map_eq_none_iff.mp hnot)
    have hkept : ∀ saliency flux,
        ((isr.advanced phaseCurrents).arbitrated sample saliency flux
          ).hallFeedback = none := by
      intro saliency flux
      simp only [arbitrated, show (isr.advanced phaseCurrents).hallReading sample = none
        from hnot]
      exact (updateSensorless_hall _ _ _).trans hhall
    exact hkept _ _
  · intro hmode
    have hdriving : (isr.stepped phaseCurrents).2.mode = .torqueControl :=
      afterFocStep_torqueControl (unstored_torqueControl hmode)
    rw [Known, ← loop_estimator isr hs]
    by_cases hout : ∃ result, isr.outcome phaseCurrents = .normal result
    · obtain ⟨result, hout⟩ := hout
      refine .inl ((known_iff_normal hs hout).mpr ?_)
      rcases torqueControl_known h (diagnosed_of_normal hout hdriving) with hseed | hknown
      · exact .inl (.seed sample phaseCurrents result hs hout hseed)
      · exact .inr hknown
    · have hrest : ∀ result, isr.outcome phaseCurrents ≠ .normal result := fun result he =>
        hout ⟨result, he⟩
      by_cases hseed : (isr.seed sample).isSome
      · exact .inl ((known_resting hs hrest).mpr hseed)
      · have hnone : isr.seed sample = none := Option.not_isSome_iff_eq_none.mp hseed
        refine .inr ?_
        show Blind ((isr.advanced phaseCurrents).arbitrated sample
          ((isr.advanced phaseCurrents).estimated sample (isr.outcome phaseCurrents) _ _
            ).saliencyFeedback
          ((isr.advanced phaseCurrents).estimated sample (isr.outcome phaseCurrents) _ _
            ).fluxFeedback)
        cases houtcome : isr.outcome phaseCurrents with
        | normal result => exact absurd houtcome (hrest result)
        | _ =>
            have hblind : Blind ((isr.advanced phaseCurrents).arbitrated sample
                (.error .unobservable) (.error .unobservable)) :=
              blind_arbitrated h.wired hnone _ _
            exact hblind

theorem step_interlocked {isr : Isr K C F A} (h : Interlocked isr) (e : Event K F)
    (he : e ≠ .command .enableTorqueControl) : Interlocked (step isr e) := by
  cases e with
  | sharedAdcIsr sample =>
      show Interlocked (isr.sharedAdcIsr sample)
      rw [sharedAdcIsr]
      cases hs : sample.phaseCurrents with
      | some phaseCurrents =>
          have hloop := currentLoop_interlocked h hs
          cases sample.boardInfo with
          | none => exact hloop
          | some info => exact boardMeasured_interlocked hloop _ _
      | none =>
          cases sample.boardInfo with
          | none => exact h
          | some info => exact boardMeasured_interlocked h _ _
  | pwmBreakIsr bk1Cleared bk2Cleared =>
      refine ⟨h.wired, ?_⟩
      intro hmode
      refine h.torque ?_
      exact (assertIf_passed (assertIf_passed hmode id).2 id).2
  | command command =>
      refine ⟨h.wired, ?_⟩
      intro hmode
      exact h.torque (after_torqueControl (fun hc => he (hc ▸ rfl)) hmode)
  | setHallCalibration calibrations =>
      exact ⟨fun hnone => h.wired (Option.map_eq_none_iff.mp hnone), h.torque⟩
  | invalidateHall =>
      exact ⟨fun hnone => h.wired (Option.map_eq_none_iff.mp hnone), h.torque⟩
  | setThresholds low high =>
      refine ⟨h.wired, ?_⟩
      intro hmode
      refine (h.torque hmode).imp id fun hblind => ?_
      exact ⟨hblind.hall, hblind.sensorless⟩
  | _ => exact ⟨h.wired, h.torque⟩

/-! ## From the start -/

variable {start : Start K C F A}

omit [Calibrator C K] [CurrentController F K] [DoesFocMath A K]
  [HasNormal K] in
theorem init_unknown : ¬ Known (Isr.init start) := fun h => nomatch h

/-- **THE POLARITY IS KNOWN** exactly as long as the bridge has modulated on every tick
    since it was found. -/
theorem known_iff (events : List (Event K F)) :
    Known (run step (Isr.init start) events) ↔
      Since step Modulates Finds (Isr.init start) events :=
  flag_iff_since Known known_step init_unknown events

/-- **NO TORQUE ON AN UNKNOWN POLARITY**: a tick that commands a torque ends the polarity
    test itself, by a fast feedback, or the polarity has been found and the bridge has
    modulated on every tick since. -/
theorem torque_known (hcal : CommandsNoTorque K C) (hstart : start.mode ≠ .torqueControl)
    (events : List (Event K F)) (hcommands : .command .enableTorqueControl ∉ events)
    (isr : Isr K C F A) (hisr : reached (Isr.init start) events = some isr)
    (phaseCurrents : PhaseValues K) (c : ComputeCall K C) (torque : K)
    (hcall : (isr.tick phaseCurrents).call isr.mode = some c)
    (hc : c.input.command = .targetTorque torque) (htorque : torque ≠ 0) :
    SeedsTest (isr.tick phaseCurrents) isr.mode ∨
      Since step Modulates Finds (Isr.init start) events := by
  obtain rfl := run_eq_of_reach hisr
  have hinit : Interlocked (Isr.init start) := ⟨fun _ => rfl, fun h => absurd h hstart⟩
  have hinterlocked : Interlocked (run step (Isr.init start) events) :=
    run_keeps (I := Interlocked) (A := fun e => e ≠ .command .enableTorqueControl)
      (fun _ e he h => step_interlocked h e he) events (Isr.init start)
      (fun e he hne => hcommands (hne ▸ he)) hinit
  rw [← known_iff]
  obtain ⟨dcBusVoltageV, -, -, -, -, -, -, hcases⟩ :=
    TickProofs.torqueCall_cases hcal hcall hc
  cases hcases with
  | safety hs hzero => exact absurd hzero htorque
  | polarityTest hm ht => cases ht
  | torqueControl hm _ _ => exact torqueControl_known hinterlocked (diagnosed_of_supervised hm)

/-- A board with calibrated hall sensors. -/
def startHallQ : Start ℚ RunnerQ (MockController ℚ) (MockAccelerator ℚ) :=
  { startQ with
    hallFeedback :=
      some ((HallFeedback.new 40000 500).setCalibration #v[0, 1, 2, 3, 4, 5]) }

/-- A tick at rest, with the board's measurements. -/
def restingSampleQ : Sample ℚ where
  phaseCurrents := some ⟨0, 0, 0⟩
  hallTimer := ⟨5, 5, 0, 0, 1000000⟩
  hallPattern := 5
  boardInfo := some (24, 25)

/-- The hall sensors find the polarity at rest, and torque control is requested then. -/
theorem torque_known_hall :
    let events : List (Event ℚ (MockController ℚ)) :=
      [.sharedAdcIsr restingSampleQ, .command .requestTorqueControl, .setTarget 1]
    ∃ isr, reached (Isr.init startHallQ) events = some isr ∧
      (SeedsTest (isr.tick ⟨0, 0, 0⟩) isr.mode ∨
        Since step Modulates Finds (Isr.init startHallQ) events) := by
  intro events
  obtain ⟨isr, hisr⟩ := NumberRuns.reached_of_apart startHallQ
    (by decide +kernel) events (by simp [events, NumberRuns.SetsApart])
  have hcommand : ((isr.tick ⟨0, 0, 0⟩).call isr.mode).map (·.input.command)
      = some (.targetTorque 1) := by
    rw [← run_eq_of_reach hisr]
    decide +kernel
  obtain ⟨c, hcall, hc⟩ := Option.map_eq_some_iff.mp hcommand
  have hidle : startHallQ.mode ≠ .torqueControl := by
    show OperatingMode.idle .freshSto ≠ _
    exact fun h => nomatch h
  refine ⟨isr, hisr, torque_known TickProofs.runner_commandsNoTorque hidle events ?_ isr hisr
    ⟨0, 0, 0⟩ c 1 hcall hc one_ne_zero⟩
  intro hmem
  rcases List.mem_cons.mp hmem with h | hmem
  · cases h
  rcases List.mem_cons.mp hmem with h | hmem
  · cases h
  · cases List.mem_singleton.mp hmem

end TorquePolarityProofs
