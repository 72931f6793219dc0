import Stm32Foc.ProtectionProofs

/-! # The watchdog of the current loop

    A timer that the interrupt of the current loop restarts on every run; where it runs
    out, the next run is told.  A fault is told once, and while it is told the timer stands
    still until the run after that. -/

namespace WatchdogProofs

open EventRun FieldOriented Faults SafeStrategy Calibration Modes Control Saliency
open AdcIsr AdcIsr.Isr Bsp ProtectionProofs

variable {K : Type} [Field K] [LinearOrder K] [FloorRing K]
variable {C F A : Type} [Calibrator C K] [CurrentController F K] [DoesFocMath A K]
  [Libm K] [HasNormal K]

/-- The next tick is told that the watchdog ran out. -/
def Pending (isr : Isr K C F A) : Prop := isr.softwareWatchdog.poll.1 = true

/-- The watchdog runs out. -/
def RunsOut : Event K F → Prop
  | .watchdogIsr => True
  | _ => False

theorem poll_once (watchdog : SoftwareWatchdog) : watchdog.poll.2.poll.1 = false := by
  obtain ⟨started, faulted, acknowledged⟩ := watchdog
  cases faulted <;> cases acknowledged <;> rfl

/-- The watchdog after a run of the interrupt. -/
theorem sharedAdcIsr_watchdog (isr : Isr K C F A) (sample : Sample K) :
    (isr.sharedAdcIsr sample).softwareWatchdog
      = if sample.phaseCurrents.isSome then isr.softwareWatchdog.poll.2
        else isr.softwareWatchdog := by
  rw [sharedAdcIsr]
  cases sample.phaseCurrents <;> cases sample.boardInfo <;> rfl

/-- **ONE EVENT**: a fault is pending after it if the watchdog ran out, or if one was
    pending that no tick has been told of. -/
theorem pending_step (isr : Isr K C F A) (e : Event K F) :
    Pending (step isr e) ↔ RunsOut e ∨ Pending isr ∧ ¬ IsTick e := by
  cases e with
  | sharedAdcIsr sample =>
      have hstep : Pending (step isr (.sharedAdcIsr sample)) ↔
          (if sample.phaseCurrents.isSome then isr.softwareWatchdog.poll.2
            else isr.softwareWatchdog).poll.1 = true := by
        rw [← sharedAdcIsr_watchdog]
        exact Iff.rfl
      rw [hstep]
      by_cases htick : sample.phaseCurrents.isSome
      · rw [if_pos htick, poll_once]
        refine iff_of_false Bool.false_ne_true ?_
        rintro (h | ⟨-, h⟩)
        · exact h
        · exact h htick
      · rw [if_neg htick]
        refine ⟨fun h => .inr ⟨h, htick⟩, ?_⟩
        rintro (h | ⟨h, -⟩)
        · exact h.elim
        · exact h
  | watchdogIsr => exact iff_of_true rfl (.inl trivial)
  | _ =>
      refine ⟨fun h => .inr ⟨h, id⟩, ?_⟩
      rintro (h | ⟨h, -⟩)
      · exact h.elim
      · exact h

/-- The timer of the watchdog runs. -/
def Watching (isr : Isr K C F A) : Prop := isr.softwareWatchdog.started = true

/-- A tick that is told of nothing starts it. -/
def Feeds (isr : Isr K C F A) (e : Event K F) : Prop := IsTick e ∧ ¬ Pending isr

omit [FloorRing K] [Calibrator C K] [CurrentController F K]
  [DoesFocMath A K] [Libm K] [HasNormal K] in
theorem started_poll (watchdog : SoftwareWatchdog) :
    watchdog.poll.2.started = true ↔
      ¬ watchdog.poll.1 = true ∨ watchdog.started = true := by
  obtain ⟨started, faulted, acknowledged⟩ := watchdog
  cases started <;> cases faulted <;> cases acknowledged <;> decide

/-- **ONE EVENT**: the timer runs after it if it is fed, or if it ran and has not run
    out. -/
theorem watching_step (isr : Isr K C F A) (e : Event K F) :
    Watching (step isr e) ↔ Feeds isr e ∨ Watching isr ∧ ¬ RunsOut e := by
  cases e with
  | sharedAdcIsr sample =>
      have hstep : Watching (step isr (.sharedAdcIsr sample)) ↔
          (if sample.phaseCurrents.isSome then isr.softwareWatchdog.poll.2
            else isr.softwareWatchdog).started = true := by
        rw [← sharedAdcIsr_watchdog]
        exact Iff.rfl
      rw [hstep]
      by_cases htick : sample.phaseCurrents.isSome
      · rw [if_pos htick, started_poll]
        exact or_congr (and_iff_right htick).symm (and_iff_left id).symm
      · rw [if_neg htick]
        refine ⟨fun h => .inr ⟨h, id⟩, ?_⟩
        rintro (⟨h, -⟩ | ⟨h, -⟩)
        · exact absurd h htick
        · exact h
  | watchdogIsr =>
      refine iff_of_false Bool.false_ne_true ?_
      rintro (⟨h, -⟩ | ⟨-, h⟩)
      · exact h
      · exact h trivial
  | _ =>
      refine ⟨fun h => .inr ⟨h, id⟩, ?_⟩
      rintro (⟨h, -⟩ | ⟨h, -⟩)
      · exact h.elim
      · exact h

variable {start : Start K C F A}

omit [Calibrator C K] [CurrentController F K] [DoesFocMath A K]
  [HasNormal K] in
/-- At the start nothing is pending, and the timer stands still. -/
theorem init_watchdog : ¬ Pending (Isr.init start) ∧ ¬ Watching (Isr.init start) :=
  ⟨Bool.false_ne_true, Bool.false_ne_true⟩

/-- **A STALL IS TOLD ONCE**: a tick is told that the watchdog ran out exactly if it did
    since the last tick, and it then leaves the mode `Fault` and the bridge without
    voltage.  The timer runs exactly if it has not run out since the last tick that was
    told of nothing. -/
theorem stall_told [IsStrictOrderedRing K] (events : List (Event K F)) (sample : Sample K)
    (hsample : sample.phaseCurrents.isSome) :
    let isr := run step (Isr.init start) events
    let stalled :=
      Since step (fun _ e => ¬ IsTick e) (fun _ e => RunsOut e) (Isr.init start) events
    (∀ phaseCurrents, (isr.tick phaseCurrents).inputs.watchdogFault = true ↔ stalled) ∧
      (stalled → (step isr (.sharedAdcIsr sample)).mode.IsFault ∧
        (step isr (.sharedAdcIsr sample)).pwmOutput.Resting) ∧
      (isr.softwareWatchdog.started = true ↔
        Since step (fun _ e => ¬ RunsOut e) Feeds (Isr.init start) events) := by
  intro isr stalled
  have hpending : Pending isr ↔ stalled :=
    flag_iff_since Pending pending_step init_watchdog.1 events
  have hwatching : Watching isr ↔
      Since step (fun _ e => ¬ RunsOut e) Feeds (Isr.init start) events :=
    flag_iff_since Watching watching_step init_watchdog.2 events
  refine ⟨fun _ => hpending, ?_, hwatching⟩
  intro hstalled
  obtain ⟨phaseCurrents, hs⟩ := Option.isSome_iff_exists.mp hsample
  refine sharedAdcIsr_boardFault hs ?_
  show (isr.softwareWatchdog.poll.1 || _ || _) = true
  rw [show isr.softwareWatchdog.poll.1 = true from hpending.mpr hstalled, Bool.true_or,
    Bool.true_or]

/-- A stall before a target is set, and the tick after both. -/
theorem stall_told_setTarget :
    let isr := run step (Isr.init startQ) [.watchdogIsr, .setTarget 1]
    (step isr (.sharedAdcIsr (sampleQ 0))).mode.IsFault ∧
      (step isr (.sharedAdcIsr (sampleQ 0))).pwmOutput.Resting := by
  intro isr
  refine (stall_told [.watchdogIsr, .setTarget 1] (sampleQ 0) rfl).2.1 ?_
  exact ⟨[], .watchdogIsr, [.setTarget 1], rfl, trivial, id, trivial⟩

end WatchdogProofs
