import Stm32Foc.AdcFeedback
import Stm32Foc.ExponentialAverage
import Stm32Foc.GateProofs
import Stm32Foc.NumberRuns

/-! # The software overcurrent protection

    The filters are updated behind a tick and their verdict is read by the next one, so
    an excess reaches the mode one tick late.  Each watched quantity is an exponential
    average of its samples, whatever else happens between the ticks; a lasting excess is
    therefore found after a number of ticks that the filter tells, and what stays within
    its limit never trips. -/

namespace ProtectionProofs

open EventRun FieldOriented Faults SafeStrategy Calibration Modes Control Saliency
open TickProofs (Tick boardFault safetyCommand_none)
open FeedbackProofs (diagnosed_boardFault safetyCommand_some_iff)
open GateProofs (fault_inactive supervised_boardFault call_of_normal focStep_inner)
open Filtering Bsp AdcIsr AdcIsr.Isr ExponentialAverage Sensing

/-! ## Modes that stay a fault -/

section Modes

variable {K : Type} [Field K] {C : Type} [Calibrator C K] {mode : OperatingMode K C}

theorem assertFaults_isFault (causes : List FaultCause)
    (h : mode.IsFault) :
    (causes.foldl (fun mode cause => mode.after (.assertFault cause)) mode).IsFault := by
  induction causes generalizing mode with
  | nil => exact h
  | cons cause causes ih => exact ih (TickProofs.assertFault_isFault mode cause)

theorem unstored_isFault (h : mode.IsFault) (hasHall : Bool)
    (stageResult : Option (StageResult K)) : (unstored hasHall stageResult mode).IsFault := by
  cases mode with
  | fault safeStrategy writeIndex trace =>
      rw [unstored.eq_def]
      split
      · split <;> exact trivial
      · exact trivial
  | _ => exact h.elim

omit [Field K] in
theorem afterFocStep_isFault (params : ConstantMotorParameters K)
    (outcome : FocStepOutcome K) (stageResult : Option (StageResult K))
    {mode : OperatingMode K C} (h : mode.IsFault) :
    (afterFocStep params outcome stageResult mode).2.2.IsFault := by
  cases mode with
  | fault safeStrategy writeIndex trace => exact trivial
  | _ => exact h.elim

end Modes

/-! ## Ticks that are told of a fault -/

section Ticks

variable {K : Type} [Field K] [LinearOrder K] {C : Type} [Calibrator C K]
  {F A E : Type} [CurrentController F K] [DoesFocMath A K] [SaliencyBasedEstimator E K]
  {t : Tick K F A E} {mode : OperatingMode K C}

theorem call_boardFault (h : boardFault t.inputs = true) : t.call mode = none := by
  rw [Option.eq_none_iff_forall_not_mem]
  intro c hcall
  obtain ⟨dcBusVoltageV, command, -, hsafety, -⟩ := Tick.call_eq_some_iff.mp hcall
  obtain ⟨hfault, hramp⟩ : (t.supervised mode dcBusVoltageV).mode.IsFault ∧ _ :=
    supervised_boardFault h dcBusVoltageV
  cases command with
  | none =>
      obtain ⟨-, hactive, -⟩ := safetyCommand_none hsafety
      rw [fault_inactive hfault] at hactive
      exact absurd hactive Bool.false_ne_true
  | some command =>
      obtain ⟨waitedMs, hwaits, -⟩ := safetyCommand_some_iff.mp ⟨command, hsafety⟩
      rw [hramp] at hwaits
      cases hwaits

/-- It does not modulate. -/
theorem outcome_boardFault (h : boardFault t.inputs = true) (result : FocResult K) :
    (focStep t.params t.inputs (t.drive mode)).1.1 ≠ .normal result := by
  intro hnormal
  obtain ⟨c, hcall, -⟩ := call_of_normal hnormal
  rw [call_boardFault h] at hcall
  cases hcall

omit [Calibrator C K] in
theorem safetyCommand_isFault [Calibrator C K] {input : SafeControlStrategyInput K}
    (h : mode.IsFault) : (safetyCommand input mode).2.IsFault := by
  cases mode with
  | fault safeStrategy writeIndex trace => exact trivial
  | _ => exact h.elim

/-- ... and leaves the mode `Fault`. -/
theorem mode_boardFault (h : boardFault t.inputs = true) :
    (focStep t.params t.inputs (t.drive mode)).2.mode.IsFault := by
  rw [(focStep_inner t.params t.inputs (t.drive mode)).2, focStepInner]
  have hcall : t.call mode = none := call_boardFault h
  cases hp : (prepare t.params t.inputs (t.drive mode)).call with
  | ok call =>
      simp only [Tick.call, hp] at hcall
      cases hcall
  | error outcome =>
      simp only
      rw [prepare]
      cases hdc : t.inputs.dcBusReadingV with
      | none => exact (diagnosed_boardFault h).1
      | some dcBusVoltageV =>
          exact safetyCommand_isFault (supervised_boardFault h dcBusVoltageV).1

end Ticks

variable {K : Type} [Field K] [LinearOrder K] [FloorRing K]
variable {C F A : Type} [Calibrator C K] [CurrentController F K] [DoesFocMath A K]
  [Libm K] [HasNormal K]

/-! ## What is watched -/

/-- The quantities with a limit: each phase current in both directions, and the current
    fed back to the bus. -/
inductive Watch where
  | phase (phase : Phase) (reversed : Bool)
  | braking
  deriving DecidableEq, Repr

/-- A current in the direction it is watched in. -/
def directed (reversed : Bool) (current : K) : K := if reversed then -current else current

/-- The channel of a phase. -/
def phaseChannel (filters : PhaseCurrentFilter K) : Phase → CurrentFilter K
  | .u => filters.u
  | .v => filters.v
  | .w => filters.w

namespace Watch

/-- The filter of what is watched. -/
def channel (isr : Isr K C F A) : Watch → CurrentFilter K
  | .phase p _ => phaseChannel isr.phaseCurrentFilter p
  | .braking => isr.brakingCurrentFilter

/-- The filtered value, in the direction it is watched in. -/
def filtered (isr : Isr K C F A) : Watch → K
  | .phase p reversed =>
      directed reversed (phaseChannel isr.phaseCurrentFilter p).filtered
  | .braking => isr.brakingCurrentFilter.filtered

/-- The limit that the configuration sets. -/
def limit (isr : Isr K C F A) : Watch → K
  | .phase _ _ => isr.config.overcurrentLimitA
  | .braking => isr.config.brakingCurrentFaultA

/-- What a tick takes of it. -/
def taken (isr : Isr K C F A) (phaseCurrents : PhaseValues K) : Watch → K
  | .phase p reversed => directed reversed (phaseValue phaseCurrents p)
  | .braking => brakingCurrent isr.dcBusV isr.config.dcBusMinVoltageV
      isr.prevFocResult.uDq (resultOf (isr.outcome phaseCurrents)).measuredIDq

/-- What an event takes of it: a run of the interrupt with phase currents. -/
def sample (watch : Watch) (isr : Isr K C F A) : Event K F → Option K
  | .sharedAdcIsr sample => sample.phaseCurrents.map (taken isr · watch)
  | _ => none

end Watch

/-! ## The filters along a run -/

/-- A step takes a sample into the filter of what is watched, with the limit of that
    time; or it leaves the filter as it is. -/
theorem step_channel (watch : Watch) (isr : Isr K C F A) (e : Event K F) :
    match watch.sample isr e with
    | some x =>
        (watch.channel (step isr e)).filter.alpha = (watch.channel isr).filter.alpha ∧
          watch.filtered (step isr e)
            = next (watch.channel isr).filter.alpha (watch.filtered isr) x ∧
          (watch.channel (step isr e)).limitA = watch.limit isr
    | none =>
        watch.channel (step isr e) = watch.channel isr ∧
          watch.filtered (step isr e) = watch.filtered isr := by
  cases e with
  | sharedAdcIsr sample =>
      obtain ⟨phaseCurrents, hallTimer, hallPattern, boardInfo⟩ := sample
      cases phaseCurrents with
      | none =>
          cases boardInfo <;> cases watch <;> exact ⟨rfl, rfl⟩
      | some phaseCurrents =>
          have hdirected : ∀ (reversed : Bool) (alpha average x : K),
              directed reversed (next alpha average x)
                = next alpha (directed reversed average) (directed reversed x) := by
            intro reversed alpha average x
            cases reversed with
            | false => rfl
            | true => exact (next_neg alpha average x).symm
          cases boardInfo <;> cases watch with
          | braking => exact ⟨rfl, rfl, rfl⟩
          | phase p reversed =>
              cases p <;> exact ⟨rfl, hdirected reversed _ _ _, rfl⟩
  | _ => cases watch <;> exact ⟨rfl, rfl⟩

/-- **AVERAGES**: along every run the filter of what is watched averages its samples. -/
theorem run_filtered (watch : Watch) (isr : Isr K C F A) (events : List (Event K F)) :
    (watch.channel (run step isr events)).filter.alpha
        = (watch.channel isr).filter.alpha ∧
      watch.filtered (run step isr events)
        = settle (watch.channel isr).filter.alpha (watch.filtered isr)
            (outputs step watch.sample isr events) := by
  let cell := fun isr : Isr K C F A =>
    ((watch.channel isr).filter.alpha, watch.filtered isr)
  have htake : ∀ isr (e : Event K F) x, watch.sample isr e = some x →
      cell (step isr e) = ((cell isr).1, next (cell isr).1 (cell isr).2 x) := by
    intro isr e x hx
    have h := step_channel watch isr e
    rw [hx] at h
    exact Prod.ext h.1 h.2.1
  have hkeep : ∀ isr (e : Event K F), watch.sample isr e = none →
      cell (step isr e) = cell isr := by
    intro isr e hnone
    have h := step_channel watch isr e
    rw [hnone] at h
    exact Prod.ext (congrArg (·.filter.alpha) h.1) h.2
  have hcell := cell_eq_foldl cell (fun p x => (p.1, next p.1 p.2 x)) htake hkeep events isr
  rw [foldl_pair] at hcell
  exact Prod.mk.inj hcell

/-- A limit that is never above a level in force is not above it where it was last
    taken. -/
theorem run_limit (watch : Watch) {level : K} (events : List (Event K F)) :
    ∀ isr : Isr K C F A,
      Always step (fun isr _ => watch.limit isr ≤ level) isr events →
      (watch.channel isr).limitA ≤ level ∨ outputs step watch.sample isr events ≠ [] →
      (watch.channel (run step isr events)).limitA ≤ level := by
  induction events with
  | nil =>
      rintro isr - (h | h)
      · exact h
      · exact absurd rfl h
  | cons e events ih =>
      intro isr hlimits h
      refine ih (step isr e) hlimits.2 ?_
      have hstep := step_channel watch isr e
      cases hx : watch.sample isr e with
      | some x =>
          rw [hx] at hstep
          exact .inl (hstep.2.2.le.trans hlimits.1)
      | none =>
          rw [hx] at hstep
          refine h.imp (fun h => ?_) (fun h => ?_)
          · rw [hstep.1]
            exact h
          · rw [outputs, hx] at h
            exact h

/-! ## The flags -/

/-- The next tick is told of an excess. -/
def Told (isr : Isr K C F A) : Prop :=
  isr.overcurrent = true ∨ isr.brakingLimitExceeded = true

/-- The flags are what the filters say. -/
structure Flagged (isr : Isr K C F A) : Prop where
  overcurrent : isr.overcurrent = isr.phaseCurrentFilter.checkOvercurrent
  braking : isr.brakingLimitExceeded = isr.brakingCurrentFilter.exceedsLimit

theorem step_flagged {isr : Isr K C F A} (h : Flagged isr) (e : Event K F) :
    Flagged (step isr e) := by
  cases e with
  | sharedAdcIsr sample =>
      obtain ⟨phaseCurrents, hallTimer, hallPattern, boardInfo⟩ := sample
      cases phaseCurrents with
      | none => cases boardInfo <;> exact ⟨h.overcurrent, h.braking⟩
      | some phaseCurrents => cases boardInfo <;> exact ⟨rfl, rfl⟩
  | _ => exact ⟨h.overcurrent, h.braking⟩

theorem run_flagged {isr : Isr K C F A} (h : Flagged isr) (events : List (Event K F)) :
    Flagged (run step isr events) :=
  run_keeps (I := Flagged) (A := fun _ => True) (fun _ e _ h => step_flagged h e) events isr
    (fun _ _ => trivial) h

omit [FloorRing K] [Libm K] [HasNormal K] in
theorem magnitudeExceedsLimit_iff (filter : CurrentFilter K) :
    filter.magnitudeExceedsLimit = true ↔
      ∃ reversed, filter.limitA < directed reversed filter.filtered := by
  rw [CurrentFilter.magnitudeExceedsLimit, decide_eq_true_iff, gt_iff_lt, lt_abs]
  constructor
  · rintro (h | h)
    · exact ⟨false, h⟩
    · exact ⟨true, h⟩
  · rintro ⟨reversed, h⟩
    cases reversed with
    | false => exact .inl h
    | true => exact .inr h

omit [FloorRing K] [Calibrator C K] [CurrentController F K]
  [DoesFocMath A K] [Libm K] [HasNormal K] in
/-- A tick is told of an excess exactly if something that is watched is filtered to above
    the limit. -/
theorem told_iff {isr : Isr K C F A} (h : Flagged isr) :
    Told isr ↔ ∃ watch : Watch, (watch.channel isr).limitA < watch.filtered isr := by
  rw [Told, h.overcurrent, h.braking, PhaseCurrentFilter.checkOvercurrent, Bool.or_eq_true,
    Bool.or_eq_true, magnitudeExceedsLimit_iff, magnitudeExceedsLimit_iff,
    magnitudeExceedsLimit_iff, CurrentFilter.exceedsLimit, decide_eq_true_iff]
  constructor
  · rintro (((⟨reversed, h⟩ | ⟨reversed, h⟩) | ⟨reversed, h⟩) | h)
    · exact ⟨.phase .u reversed, h⟩
    · exact ⟨.phase .v reversed, h⟩
    · exact ⟨.phase .w reversed, h⟩
    · exact ⟨.braking, h⟩
  · rintro ⟨⟨phase, reversed⟩ | _, h⟩
    · cases phase with
      | u => exact .inl (.inl (.inl ⟨reversed, h⟩))
      | v => exact .inl (.inl (.inr ⟨reversed, h⟩))
      | w => exact .inl (.inr ⟨reversed, h⟩)
    · exact .inr h

/-! ## The reaction -/

variable [IsStrictOrderedRing K]

omit [Libm K] [HasNormal K] in
theorem applied_resting {outcome : FocStepOutcome K} (pwmOutput : PwmOutput K)
    (h : ∀ result, outcome ≠ .normal result) : (applied pwmOutput outcome).Resting := by
  cases outcome with
  | normal result => exact absurd rfl (h result)
  | activeShort => exact pwmOutput.resting_activeShort
  | nonConducting => exact pwmOutput.resting_freewheel

/-- **THE REACTION**: a tick that is told of a fault leaves the mode `Fault`, and the
    bridge without voltage. -/
theorem sharedAdcIsr_boardFault {isr : Isr K C F A} {sample : Sample K}
    {phaseCurrents : PhaseValues K} (hs : sample.phaseCurrents = some phaseCurrents)
    (hboard : boardFault (isr.tick phaseCurrents).inputs = true) :
    (isr.sharedAdcIsr sample).mode.IsFault ∧
      (isr.sharedAdcIsr sample).pwmOutput.Resting := by
  have hmode : (isr.currentLoop sample phaseCurrents).mode.IsFault :=
    unstored_isFault (afterFocStep_isFault _ _ _ (mode_boardFault hboard)) _ _
  have hrest : (isr.currentLoop sample phaseCurrents).pwmOutput.Resting :=
    applied_resting _ (outcome_boardFault hboard)
  rw [sharedAdcIsr, hs]
  cases sample.boardInfo with
  | none => exact ⟨hmode, hrest⟩
  | some info =>
      refine ⟨?_, hrest⟩
      show (BoardChecks.boardStatus _ _ _).2.IsFault
      rw [BoardChecks.boardStatus_eq]
      exact assertFaults_isFault _ hmode

omit [IsStrictOrderedRing K] [FloorRing K] [Calibrator C K] [CurrentController F K]
  [DoesFocMath A K] [Libm K] [HasNormal K] in
theorem boardFault_of_told {isr : Isr K C F A} (h : Told isr)
    (phaseCurrents : PhaseValues K) :
    boardFault (isr.tick phaseCurrents).inputs = true := by
  show (_ || isr.overcurrent || isr.brakingLimitExceeded) = true
  rcases h with h | h
  · rw [h, Bool.or_true, Bool.true_or]
  · rw [h, Bool.or_true]

/-! ## From the start -/

/-- The share that a filter keeps of its value. -/
def Watch.alpha : Watch → K
  | .phase _ _ => iirCutoffToAlpha 40000.0 2500.0
  | .braking => iirCutoffToAlpha 40000.0 100.0

variable {start : Start K C F A}

omit [IsStrictOrderedRing K] [Calibrator C K] [CurrentController F K] [DoesFocMath A K]
  [HasNormal K] in
theorem init_channel (watch : Watch) :
    (watch.channel (Isr.init start)).filter.alpha = watch.alpha ∧
      watch.filtered (Isr.init start) = 0 := by
  cases watch with
  | braking => exact ⟨rfl, rfl⟩
  | phase p reversed =>
      have hzero : directed reversed (0 : K) = 0 := by
        cases reversed with
        | false => rfl
        | true => exact neg_zero
      cases p <;> exact ⟨rfl, hzero⟩

omit [Calibrator C K] [CurrentController F K] [DoesFocMath A K] [HasNormal K] in
theorem init_flagged (h : ∀ watch : Watch, 0 ≤ watch.limit (Isr.init start)) :
    Flagged (Isr.init start) := by
  have hzero : ∀ limitA : K, 0 ≤ limitA → decide (|(0 : K)| > limitA) = false := by
    intro limitA hlimit
    rw [abs_zero, decide_eq_false_iff_not, gt_iff_lt, not_lt]
    exact hlimit
  have hovercurrent := hzero _ (h (.phase .u false))
  have hbraking : decide ((0 : K) > start.config.brakingCurrentFaultA) = false :=
    decide_eq_false (not_lt.mpr (h .braking))
  refine ⟨?_, hbraking.symm⟩
  show false = (decide (|(0 : K)| > start.config.overcurrentLimitA) ||
    decide (|(0 : K)| > start.config.overcurrentLimitA) ||
    decide (|(0 : K)| > start.config.overcurrentLimitA))
  rw [show decide (|(0 : K)| > start.config.overcurrentLimitA) = false from hovercurrent]
  rfl

/-- **PROTECTION**: once something watched has been above a level beyond its limit for the
    ticks that its filter needs, whatever was between them, the next tick leaves the mode
    `Fault` and the bridge without voltage. -/
theorem lasting_excess_stops (watch : Watch)
    (hnonneg : ∀ watch : Watch, 0 ≤ watch.limit (Isr.init start))
    (h0 : 0 ≤ (watch.alpha : K)) (h1 : (watch.alpha : K) ≤ 1)
    (past lasting : List (Event K F)) (low level bound : K) (n : Nat)
    (hlow : low ≤ 0) (hbound : low ≤ bound)
    (hpast : ∀ x ∈ outputs step watch.sample (Isr.init start) past, low ≤ x)
    (hlasting : ∀ x ∈ outputs step watch.sample (run step (Isr.init start) past) lasting,
      bound ≤ x)
    (hlimits : Always step (fun isr _ => watch.limit isr ≤ level)
      (run step (Isr.init start) past) lasting)
    (hn : n < (outputs step watch.sample (run step (Isr.init start) past) lasting).length)
    (hclose : watch.alpha ^ (n + 1) * (bound - low) < bound - level)
    (sample : Sample K) (hsample : sample.phaseCurrents.isSome) (after : Isr K C F A)
    (hafter : reached (Isr.init start) (past ++ lasting ++ [.sharedAdcIsr sample])
      = some after) :
    after.mode.IsFault ∧ after.pwmOutput.Resting := by
  obtain ⟨phaseCurrents, hs⟩ := Option.isSome_iff_exists.mp hsample
  obtain ⟨halpha, hzero⟩ : _ ∧ watch.filtered (Isr.init start) = 0 := init_channel watch
  rw [← hzero] at hlow
  rw [← halpha] at h0 h1 hclose
  obtain ⟨hkept, hbefore⟩ := run_filtered watch (Isr.init start) past
  have habove : low ≤ watch.filtered (run step (Isr.init start) past) :=
    hbefore ▸ le_settle h0 h1 hlow hpast
  have hcrossed : level < watch.filtered (run step (Isr.init start) (past ++ lasting)) := by
    rw [run_append, (run_filtered watch (run step (Isr.init start) past) lasting).2, hkept]
    exact lt_settle h0 h1 hn habove hbound hlasting hclose
  have hlimit : (watch.channel (run step (Isr.init start) (past ++ lasting))).limitA
      ≤ level := by
    rw [run_append]
    refine run_limit watch lasting _ hlimits (.inr ?_)
    exact List.ne_nil_of_length_pos (Nat.zero_lt_of_lt hn)
  have hflagged := run_flagged (init_flagged hnonneg) (past ++ lasting)
  have htold : Told (run step (Isr.init start) (past ++ lasting)) :=
    (told_iff hflagged).mpr ⟨watch, hlimit.trans_lt hcrossed⟩
  rw [← run_eq_of_reach hafter, run_snoc]
  exact sharedAdcIsr_boardFault hs (boardFault_of_told htold phaseCurrents)

theorem startQ_limits (watch : Watch) : 0 ≤ watch.limit (Isr.init startQ) := by
  rcases watch with ⟨p, reversed⟩ | _
  · cases p <;> cases reversed <;> decide +kernel
  · decide +kernel

/-- Three samples beyond the limit, with an attempt to clear a fault on the way. -/
theorem lasting_excess_stops_clearedFault :
    let lasting : List (Event ℚ (MockController ℚ)) :=
      [.sharedAdcIsr (sampleQ 8), .sharedAdcIsr (sampleQ 8), .command .clearFault,
        .sharedAdcIsr (sampleQ 8)]
    ∃ after, reached (Isr.init startQ)
        ([.sharedAdcIsr (sampleQ 1)] ++ lasting ++ [.sharedAdcIsr (sampleQ 0)]) = some after ∧
      after.mode.IsFault ∧ after.pwmOutput.Resting := by
  intro lasting
  obtain ⟨after, hafter⟩ := NumberRuns.reached_of_apart startQ
    (by decide +kernel) ([.sharedAdcIsr (sampleQ 1)] ++ lasting ++ [.sharedAdcIsr (sampleQ 0)])
    (by simp [lasting, NumberRuns.SetsApart])
  refine ⟨after, hafter, lasting_excess_stops (.phase .u false) startQ_limits ?_ ?_
    [.sharedAdcIsr (sampleQ 1)] lasting 0 5 8 2 (le_refl 0) ?_ ?_ ?_ ?_ ?_ ?_ (sampleQ 0)
    rfl after hafter⟩
  · decide +kernel
  · decide +kernel
  · decide +kernel
  · decide +kernel
  · decide +kernel
  · have hlimit : (FirmwareTypes.boardCurrentLimitA : ℚ) ≤ 5 := by decide +kernel
    exact ⟨hlimit, hlimit, hlimit, hlimit, trivial⟩
  · decide +kernel
  · decide +kernel

/-! ## The cause of a trip -/

/-- An event is a tick. -/
def IsTick : Event K F → Prop
  | .sharedAdcIsr sample => sample.phaseCurrents.isSome
  | _ => False

omit [IsStrictOrderedRing K] in
/-- Nothing but a tick changes what the next one is told. -/
theorem told_step {isr : Isr K C F A} {e : Event K F} (he : ¬ IsTick e) :
    Told (step isr e) ↔ Told isr := by
  cases e with
  | sharedAdcIsr sample =>
      obtain ⟨phaseCurrents, hallTimer, hallPattern, boardInfo⟩ := sample
      cases phaseCurrents with
      | none => cases boardInfo <;> exact Iff.rfl
      | some phaseCurrents => exact absurd rfl he
  | _ => exact Iff.rfl

/-- What a tick finds beyond a limit, something that is watched has been beyond. -/
theorem excess_of_told
    (halpha : ∀ watch : Watch, 0 ≤ (watch.alpha : K) ∧ (watch.alpha : K) ≤ 1)
    (hnonneg : ∀ watch : Watch, 0 ≤ watch.limit (Isr.init start))
    (events : List (Event K F)) {sample : Sample K} (hsample : sample.phaseCurrents.isSome)
    (hlimits : ∀ watch : Watch, 0 ≤ watch.limit (run step (Isr.init start) events))
    (htold : Told (run step (Isr.init start) (events ++ [.sharedAdcIsr sample]))) :
    ∃ watch : Watch,
      ∃ x ∈ outputs step watch.sample (Isr.init start) (events ++ [.sharedAdcIsr sample]),
        watch.limit (run step (Isr.init start) events) < x := by
  obtain ⟨watch, habove⟩ := (told_iff (run_flagged (init_flagged hnonneg) _)).mp htold
  obtain ⟨phaseCurrents, hs⟩ := Option.isSome_iff_exists.mp hsample
  obtain ⟨hsame, hzero⟩ : _ ∧ watch.filtered (Isr.init start) = 0 := init_channel watch
  obtain ⟨h0, h1⟩ := halpha watch
  have hlimit : (watch.channel
        (run step (Isr.init start) (events ++ [.sharedAdcIsr sample]))).limitA
      = watch.limit (run step (Isr.init start) events) := by
    have hstep := step_channel watch (run step (Isr.init start) events)
      (.sharedAdcIsr sample)
    rw [Watch.sample, hs] at hstep
    rw [run_snoc]
    exact hstep.2.2
  refine ⟨watch, by_contra fun hnone => ?_⟩
  -- an average of samples within the limit is within it
  have hwithin : watch.filtered
      (run step (Isr.init start) (events ++ [.sharedAdcIsr sample]))
        ≤ watch.limit (run step (Isr.init start) events) := by
    rw [(run_filtered watch (Isr.init start) _).2, hzero, hsame]
    refine settle_le h0 h1 (hlimits watch) ?_
    intro x hx
    exact not_lt.mp fun hlt => hnone ⟨x, hx, hlt⟩
  rw [hlimit] at habove
  exact absurd habove (not_lt.mpr hwithin)

/-- **NO FALSE TRIP**: a tick is told of an excess only if something that is watched has
    been beyond the limit that was in force on the last tick before it, whatever happened
    between the two. -/
theorem told_of_excess
    (halpha : ∀ watch : Watch, 0 ≤ (watch.alpha : K) ∧ (watch.alpha : K) ≤ 1)
    (hnonneg : ∀ watch : Watch, 0 ≤ watch.limit (Isr.init start))
    (events : List (Event K F))
    (hlimits : Always step (fun isr _ => ∀ watch : Watch, 0 ≤ watch.limit isr)
      (Isr.init start) events)
    (isr : Isr K C F A) (hisr : reached (Isr.init start) events = some isr)
    (htold : Told isr) :
    ∃ before sample later, events = before ++ .sharedAdcIsr sample :: later ∧
      sample.phaseCurrents.isSome ∧ (∀ e ∈ later, ¬ IsTick e) ∧
      ∃ watch : Watch,
        ∃ x ∈ outputs step watch.sample (Isr.init start) (before ++ [.sharedAdcIsr sample]),
          watch.limit (run step (Isr.init start) before) < x := by
  rw [← run_eq_of_reach hisr] at htold
  clear hisr
  induction events using List.reverseRecOn with
  | nil =>
      rcases htold with h | h
      · exact absurd h Bool.false_ne_true
      · exact absurd h Bool.false_ne_true
  | append_singleton events e ih =>
      obtain ⟨hearlier, hlast⟩ := (always_snoc _ _ _).mp hlimits
      by_cases he : IsTick e
      · cases e with
        | sharedAdcIsr sample =>
            exact ⟨events, sample, [], rfl, he, by simp,
              excess_of_told halpha hnonneg events he hlast htold⟩
        | _ => exact he.elim
      · rw [run_snoc, told_step he] at htold
        obtain ⟨before, sample, later, rfl, hsample, hlater, hexcess⟩ := ih hearlier htold
        refine ⟨before, sample, later ++ [e], List.append_assoc .., hsample, ?_, hexcess⟩
        intro e' he'
        rcases List.mem_append.mp he' with he' | he'
        · exact hlater e' he'
        · rw [List.mem_singleton.mp he']
          exact he

/-- One sample far beyond the limit, and a target that is set before the next tick. -/
theorem told_of_excess_peak :
    let events : List (Event ℚ (MockController ℚ)) :=
      [.sharedAdcIsr (sampleQ 20), .setTarget 1]
    ∃ before sample later, events = before ++ .sharedAdcIsr sample :: later ∧
      sample.phaseCurrents.isSome ∧ (∀ e ∈ later, ¬ IsTick e) ∧
      ∃ watch : Watch,
        ∃ x ∈ outputs step watch.sample (Isr.init startQ) (before ++ [.sharedAdcIsr sample]),
          watch.limit (run step (Isr.init startQ) before) < x := by
  intro events
  have htold : ((reached (Isr.init startQ) events).map Isr.overcurrent) = some true := by
    decide +kernel
  obtain ⟨isr, hisr, hflag⟩ := Option.map_eq_some_iff.mp htold
  refine told_of_excess ?_ startQ_limits events ?_ isr hisr (.inl hflag)
  · intro watch
    rcases watch with ⟨p, reversed⟩ | _
    · cases p <;> cases reversed <;> decide +kernel
    · decide +kernel
  · exact ⟨startQ_limits, startQ_limits, trivial⟩

end ProtectionProofs
