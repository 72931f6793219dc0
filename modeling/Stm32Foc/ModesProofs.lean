import Stm32Foc.EventRun
import Stm32Foc.FirstDistinct
import Stm32Foc.Modes
import Stm32Foc.Reactions

/-! # The fault latch and the priority of its reactions

    From the first fault on the mode is `Fault` until a clear is accepted.  What it
    records of a stream of faults is an invariant of one step (`Recorded.step`):
    the first eight distinct causes, and the highest of their reactions.  The same
    priority is not kept where a fault is entered from `Idle`, which has a reaction
    of its own (`never_downgraded_iff`). -/

namespace ModesProofs

open EventRun FirstDistinct
open Debounce FieldOriented Faults SafeStrategy Calibration Modes Reactions

variable {K C : Type}

/-! ## Records -/

/-- The causes that a stream of commands asserts. -/
def asserted : List (Command K) → List FaultCause
  | [] => []
  | .assertFault cause :: commands => cause :: asserted commands
  | _ :: commands => asserted commands

theorem asserted_append (first second : List (Command K)) :
    asserted (first ++ second) = asserted first ++ asserted second := by
  induction first with
  | nil => rfl
  | cons command first ih =>
      cases command with
      | assertFault cause => exact congrArg (cause :: ·) ih
      | _ => exact ih

/-- The reaction in force: that of the strategy of `Idle` or `Fault`. -/
def inForce : OperatingMode K C → Option Reaction
  | .idle safeStrategy => some (reaction safeStrategy)
  | .fault safeStrategy _ _ => some (reaction safeStrategy)
  | _ => none

/-- The trace takes a cause that is new while it has room. -/
theorem recordCause_spec (causes : List FaultCause) (cause : FaultCause)
    {trace : Vector FaultCause 8}
    (ht : trace.toList = padded 8 .empty (firstDistinct 8 causes)) :
    let recorded := OperatingMode.recordCause (firstDistinct 8 causes).length trace
      cause
    recorded.1 = (firstDistinct 8 (causes ++ [cause])).length ∧
      recorded.2.toList
        = padded 8 .empty (firstDistinct 8 (causes ++ [cause])) := by
  intro recorded
  have hseen : ((trace.toList.take (firstDistinct 8 causes).length).contains cause
      = true) ↔ cause ∈ firstDistinct 8 causes := by
    rw [ht, take_padded]
    exact List.contains_iff_mem
  rw [firstDistinct_snoc]
  by_cases hroom : (firstDistinct 8 causes).length < 8
  · by_cases hnew : cause ∈ firstDistinct 8 causes
    · rw [if_neg (fun h => h.2 hnew)]
      have hrec : recorded = ((firstDistinct 8 causes).length, trace) := by
        show OperatingMode.recordCause _ _ _ = _
        rw [OperatingMode.recordCause, dif_pos hroom, if_pos (hseen.mpr hnew)]
      rw [hrec]
      exact ⟨rfl, ht⟩
    · rw [if_pos ⟨hroom, hnew⟩]
      have hrec : recorded = ((firstDistinct 8 causes).length + 1,
          trace.set (firstDistinct 8 causes).length cause hroom) := by
        show OperatingMode.recordCause _ _ _ = _
        rw [OperatingMode.recordCause, dif_pos hroom,
          if_neg (fun h => hnew (hseen.mp h))]
      rw [hrec]
      constructor
      · rw [List.length_append, List.length_singleton]
      · rw [Vector.toList_set, ht]
        exact set_padded hroom
  · rw [if_neg (fun h => hroom h.1)]
    have hrec : recorded = ((firstDistinct 8 causes).length, trace) := by
      show OperatingMode.recordCause _ _ _ = _
      rw [OperatingMode.recordCause, dif_neg hroom]
    rw [hrec]
    exact ⟨rfl, ht⟩

variable [Field K]

/-- The reactions that a list of causes asks for. -/
def reactions (K : Type) [Field K] (causes : List FaultCause) : Set Reaction :=
  {r | ∃ cause ∈ causes, ownReaction K cause = r}

/-- **THE RECORD**: the mode is `Fault`, and its trace and its reaction are those
    of the causes, in the order they were first asserted. -/
def Recorded (causes : List FaultCause) (mode : OperatingMode K C) : Prop :=
  ∃ safeStrategy writeIndex trace,
    mode = .fault safeStrategy writeIndex trace ∧
      writeIndex = (firstDistinct 8 causes).length ∧
      trace.toList = padded 8 .empty (firstDistinct 8 causes) ∧
      IsGreatest (reactions K causes) (reaction safeStrategy) ∧
      Settled safeStrategy

theorem reactions_snoc (causes : List FaultCause) (cause : FaultCause) :
    reactions K (causes ++ [cause])
      = insert (ownReaction K cause) (reactions K causes) := by
  ext r
  constructor
  · rintro ⟨c, hc, rfl⟩
    rcases List.mem_append.mp hc with h | h
    · exact Or.inr ⟨c, h, rfl⟩
    · obtain rfl := List.mem_singleton.mp h
      exact Or.inl rfl
  · rintro (rfl | ⟨c, hc, rfl⟩)
    · exact ⟨cause, List.mem_append_right _ List.mem_cons_self, rfl⟩
    · exact ⟨c, List.mem_append_left _ hc, rfl⟩

/-- Two records of permuted causes have the same reaction. -/
theorem reaction_of_perm {causes causes' : List FaultCause}
    (hperm : causes.Perm causes') {r r' : Reaction}
    (h : IsGreatest (reactions K causes) r)
    (h' : IsGreatest (reactions K causes') r') : r = r' := by
  have hset : reactions K causes = reactions K causes' := by
    ext x
    constructor
    · rintro ⟨c, hc, rfl⟩
      exact ⟨c, hperm.mem_iff.mp hc, rfl⟩
    · rintro ⟨c, hc, rfl⟩
      exact ⟨c, hperm.mem_iff.mpr hc, rfl⟩
  rw [hset] at h
  exact h.unique h'

/-- The first fault starts a record. -/
theorem enterFault_recorded (cause : FaultCause) :
    Recorded [cause] (.enterFault cause : OperatingMode K C) := by
  refine ⟨_, _, _, rfl, ?_, ?_, ?_, settled_ofFaultCause cause⟩
  · rfl
  · rw [Vector.toList_set]
    rfl
  · refine ⟨⟨cause, List.mem_cons_self, rfl⟩, ?_⟩
    rintro r ⟨c, hc, rfl⟩
    obtain rfl := List.mem_singleton.mp hc
    exact le_refl _

theorem Recorded.isFault {causes : List FaultCause} {mode : OperatingMode K C}
    (h : Recorded causes mode) : mode.IsFault := by
  obtain ⟨safeStrategy, writeIndex, trace, rfl, -⟩ := h
  exact trivial

/-! ## The latch -/

variable [Calibrator C K]

/-- A fault in the mode `Fault` extends the record. -/
theorem Recorded.extend {causes : List FaultCause} {mode : OperatingMode K C}
    (h : Recorded causes mode) (cause : FaultCause) :
    Recorded (causes ++ [cause]) (mode.after (.assertFault cause)) := by
  obtain ⟨safeStrategy, writeIndex, trace, rfl, rfl, ht, hr, hs⟩ := h
  obtain ⟨hindex, htrace⟩ := recordCause_spec causes cause ht
  refine ⟨_, _, _, rfl, hindex, htrace, ?_,
    settled_faultEvolve hs (settled_ofFaultCause cause)⟩
  rw [reactions_snoc, reaction_faultEvolve hs, max_comm]
  exact hr.insert (ownReaction K cause)

/-- In the mode `Fault` nothing but a fault or a clear takes effect. -/
theorem onCommand_inert {mode : OperatingMode K C} (hmode : mode.IsFault)
    {command : Command K} (hclear : command ≠ .clearFault)
    (hassert : ∀ cause, command ≠ .assertFault cause) :
    mode.onCommand command = (mode, false) := by
  cases mode with
  | fault safeStrategy writeIndex trace =>
      cases command with
      | clearFault => exact absurd rfl hclear
      | assertFault cause => exact absurd rfl (hassert cause)
      | _ => rfl
  | _ => exact hmode.elim

/-- **STEP LEMMA**: every command but a clear keeps the record, and extends it by
    what it asserts. -/
theorem Recorded.step {causes : List FaultCause} {mode : OperatingMode K C}
    (h : Recorded causes mode) {command : Command K}
    (hclear : command ≠ .clearFault) :
    Recorded (causes ++ asserted [command]) (mode.after command) := by
  by_cases hassert : ∃ cause, command = .assertFault cause
  · obtain ⟨cause, rfl⟩ := hassert
    exact h.extend cause
  · have hnone : asserted [command] = [] := by
      cases command with
      | assertFault cause => exact absurd ⟨cause, rfl⟩ hassert
      | _ => rfl
    have hinert := onCommand_inert h.isFault hclear
      (fun cause hc => hassert ⟨cause, hc⟩)
    rw [hnone, List.append_nil, OperatingMode.after, hinert]
    exact h

/-- **RUN LEMMA**: so does every run without a clear. -/
theorem Recorded.run {mode : OperatingMode K C} {causes : List FaultCause}
    (h : Recorded causes mode) (commands : List (Command K))
    (hclear : .clearFault ∉ commands) :
    Recorded (causes ++ asserted commands)
      (EventRun.run OperatingMode.after mode commands) := by
  induction commands generalizing mode causes with
  | nil =>
      rw [asserted, List.append_nil]
      exact h
  | cons command commands ih =>
      obtain ⟨hne, hrest⟩ := not_or.mp (fun h => hclear (List.mem_cons.mpr h))
      have hnext := ih (h.step (fun he => hne he.symm)) hrest
      rw [List.append_assoc, ← asserted_append] at hnext
      exact hnext

/-- **LEAVING A FAULT**: only a clear does, once the reaction is applied, and the
    reaction stays but for STOf. -/
theorem fault_left_iff (safeStrategy : SafeControlStrategy K) (writeIndex : Nat)
    (trace : Vector FaultCause 8) (command : Command K) :
    let mode : OperatingMode K C := .fault safeStrategy writeIndex trace
    (¬ (mode.after command).IsFault ↔
        command = .clearFault ∧ reaction safeStrategy ≠ .rampDown) ∧
      (¬ (mode.after command).IsFault → mode.after command
        = .idle (if reaction safeStrategy = .stof then .freshSto
          else safeStrategy)) := by
  intro mode
  by_cases hclear : command = .clearFault
  · subst hclear
    cases safeStrategy with
    | rampDown waitedMs =>
        exact ⟨iff_of_false (fun h => h trivial) (fun h => h.2 rfl),
          fun h => absurd trivial h⟩
    | stof => exact ⟨iff_of_true id ⟨rfl, fun h => nomatch h⟩, fun _ => rfl⟩
    | sto shouldSwitch =>
        exact ⟨iff_of_true id ⟨rfl, fun h => nomatch h⟩, fun _ => rfl⟩
    | asc shouldSwitch =>
        exact ⟨iff_of_true id ⟨rfl, fun h => nomatch h⟩, fun _ => rfl⟩
  · have hstays : (mode.after command).IsFault := by
      by_cases hassert : ∃ cause, command = .assertFault cause
      · obtain ⟨cause, rfl⟩ := hassert
        exact trivial
      · have hinert : mode.onCommand command = (mode, false) :=
          onCommand_inert (show mode.IsFault from trivial) hclear
            (fun cause hc => hassert ⟨cause, hc⟩)
        rw [OperatingMode.after, hinert]
        exact trivial
    exact ⟨iff_of_false (fun h => h hstays) (fun h => hclear h.1),
      fun h => absurd hstays h⟩

/-- The record of a whole stream, from the mode that its first fault finds. -/
theorem run_recorded {mode : OperatingMode K C} (hmode : ¬ mode.IsFault)
    (cause : FaultCause) {commands : List (Command K)}
    (hclear : .clearFault ∉ commands) :
    Recorded (cause :: asserted commands)
      (run OperatingMode.after mode (.assertFault cause :: commands)) := by
  have henter : mode.after (.assertFault cause) = .enterFault cause := by
    cases mode with
    | fault safeStrategy writeIndex trace => exact absurd trivial hmode
    | _ => rfl
  have hrun := (enterFault_recorded (K := K) (C := C) cause).run commands hclear
  rw [← henter] at hrun
  exact hrun

variable [LinearOrder K]

/-- **THE FAULT LATCH**: from any other mode, a stream of commands that starts with
    a fault and has no clear leaves a record of its causes at every moment; the
    reaction does not depend on their order; and only a clear leaves the mode. -/
theorem fault_latch :
    (∀ (mode : OperatingMode K C) (cause : FaultCause)
      (earlier later : List (Command K)), ¬ mode.IsFault →
      .clearFault ∉ earlier ++ later →
      Recorded (cause :: asserted earlier)
        (run OperatingMode.after mode (.assertFault cause :: earlier))) ∧
    (∀ (mode mode' : OperatingMode K C) (cause cause' : FaultCause)
      (commands commands' : List (Command K)), ¬ mode.IsFault → ¬ mode'.IsFault →
      .clearFault ∉ commands → .clearFault ∉ commands' →
      (cause :: asserted commands).Perm (cause' :: asserted commands') →
      inForce (run OperatingMode.after mode (.assertFault cause :: commands))
        = inForce (run OperatingMode.after mode'
          (.assertFault cause' :: commands'))) ∧
    ∀ (safeStrategy : SafeControlStrategy K) (writeIndex : Nat)
      (trace : Vector FaultCause 8),
      let mode : OperatingMode K C := .fault safeStrategy writeIndex trace
      (∀ input, (mode.tickStrategy input).IsFault) ∧
      ∀ command, (¬ (mode.after command).IsFault ↔
          command = .clearFault ∧ reaction safeStrategy ≠ .rampDown) ∧
        (¬ (mode.after command).IsFault → mode.after command
          = .idle (if reaction safeStrategy = .stof then .freshSto
            else safeStrategy)) := by
  refine ⟨?_, ?_, ?_⟩
  · intro mode cause earlier later hmode hclear
    exact run_recorded hmode cause (fun h => hclear (List.mem_append_left _ h))
  · intro mode mode' cause cause' commands commands' hmode hmode' hclear hclear'
      hperm
    obtain ⟨s, w, t, hrun, -, -, hr, -⟩ := run_recorded hmode cause hclear
    obtain ⟨s', w', t', hrun', -, -, hr', -⟩ := run_recorded hmode' cause' hclear'
    rw [hrun, hrun', inForce, inForce, reaction_of_perm hperm hr hr']
  · intro safeStrategy writeIndex trace mode
    exact ⟨fun _ => trivial, fault_left_iff safeStrategy writeIndex trace⟩

/-- Two faults in torque control, with another command between them. -/
theorem fault_latch_torqueControl :
    Recorded [.setpointTimeout, .dcOverVoltage]
        (run OperatingMode.after (.torqueControl : OperatingMode ℚ RunnerQ)
          [.assertFault .setpointTimeout, .noOp, .assertFault .dcOverVoltage]) ∧
      inForce (run OperatingMode.after (.torqueControl : OperatingMode ℚ RunnerQ)
          [.assertFault .setpointTimeout, .assertFault .dcOverVoltage])
        = inForce (run OperatingMode.after
            (.saliencyPolarityTest : OperatingMode ℚ RunnerQ)
            [.assertFault .dcOverVoltage, .assertFault .setpointTimeout]) := by
  constructor
  · exact fault_latch.1 .torqueControl .setpointTimeout
      [.noOp, .assertFault .dcOverVoltage] [] id (by simp)
  · exact fault_latch.2.1 .torqueControl .saliencyPolarityTest .setpointTimeout
      .dcOverVoltage [.assertFault .dcOverVoltage] [.assertFault .setpointTimeout]
      id id (by simp) (by simp) (List.Perm.swap _ _ [])

/-! ## The priority over runs -/

/-- What happens to a mode: a tick of its strategy, or a command. -/
inductive Event (K : Type) where
  | tick (input : SafeControlStrategyInput K)
  | command (command : Command K)

def step (mode : OperatingMode K C) : Event K → OperatingMode K C
  | .tick input => mode.tickStrategy input
  | .command command => mode.after command

/-- The strategy of the mode is settled. -/
def SettledMode : OperatingMode K C → Prop
  | .idle safeStrategy => Settled safeStrategy
  | .fault safeStrategy _ _ => Settled safeStrategy
  | _ => True

/-- The strategy that a command hands over is settled. -/
def SettledEvent : Event K → Prop
  | .command (.idle safeStrategy) => Settled safeStrategy
  | _ => True

/-- **THE RULE**: a fault keeps a reaction that does not modulate, or raises it, and
    a tick leaves ASC only on its debounced exit condition. -/
def KeepsReaction (mode : OperatingMode K C) : Event K → Prop
  | .command (.assertFault cause) =>
      ∀ r, inForce mode = some r → r ≠ .rampDown →
        ∃ r', inForce (mode.after (.assertFault cause)) = some r' ∧ r ≤ r'
  | .tick input => ∀ shouldSwitch,
      (mode = .idle (.asc shouldSwitch) ∨
        ∃ writeIndex trace, mode = .fault (.asc shouldSwitch) writeIndex trace) →
      inForce (mode.tickStrategy input) ≠ some .asc →
        SafeControlStrategy.ascExit input = true ∧
          stoAscDebounceTicks ≤ shouldSwitch.count + 1
  | _ => True

/-- The condition under which a fault keeps to the rule: it comes in the mode
    `Fault`, or its own reaction is no lower than the one it finds. -/
def Covered (mode : OperatingMode K C) : Event K → Prop
  | .command (.assertFault cause) => mode.IsFault ∨
      ∀ r, inForce mode = some r → r ≠ .rampDown → r ≤ ownReaction K cause
  | _ => True

/-- A step of a settled mode leaves a settled mode. -/
theorem step_settled (mode : OperatingMode K C) (event : Event K)
    (hevent : SettledEvent event) (hmode : SettledMode mode) :
    SettledMode (step mode event) := by
  cases event with
  | tick input =>
      cases mode with
      | idle safeStrategy => exact settled_evolved safeStrategy input
      | fault safeStrategy writeIndex trace =>
          exact settled_evolved safeStrategy input
      | _ => exact trivial
  | command command =>
      cases command with
      | assertFault cause =>
          cases mode with
          | fault safeStrategy writeIndex trace =>
              exact settled_faultEvolve hmode (settled_ofFaultCause cause)
          | _ => exact settled_ofFaultCause cause
      | clearFault =>
          cases mode with
          | fault safeStrategy writeIndex trace =>
              cases safeStrategy with
              | stof => rfl
              | _ => exact hmode
          | _ => exact hmode
      | idle safeStrategy =>
          cases mode with
          | saliencyPolarityTest => exact hevent
          | torqueControl => exact hevent
          | _ => exact hmode
      | startCalibration numPolePairs targets hasHall dtS =>
          cases mode with
          | idle safeStrategy =>
              cases safeStrategy with
              | rampDown waitedMs => exact hmode
              | _ => exact trivial
          | _ => exact hmode
      | finishCalibration =>
          cases mode with
          | calibration calibrator => rfl
          | _ => exact hmode
      | cancelCalibration =>
          cases mode with
          | calibration calibrator => rfl
          | _ => exact hmode
      | requestTorqueControl =>
          cases mode with
          | idle safeStrategy => exact trivial
          | _ => exact hmode
      | enableTorqueControl =>
          cases mode with
          | saliencyPolarityTest => exact trivial
          | _ => exact hmode
      | resumeCalibration =>
          cases mode with
          | calibration calibrator => exact trivial
          | _ => exact hmode
      | noOp => exact hmode

/-- A tick keeps to the rule. -/
theorem tick_keepsReaction {mode : OperatingMode K C} (hmode : SettledMode mode)
    (input : SafeControlStrategyInput K) : KeepsReaction mode (.tick input) := by
  intro shouldSwitch hasc hleft
  -- in both modes the strategy is the one that evolves
  rcases hasc with rfl | ⟨writeIndex, trace, rfl⟩
  · exact (evolved_asc_ne_iff hmode input).mp
      (fun he => hleft (congrArg some he))
  · exact (evolved_asc_ne_iff hmode input).mp
      (fun he => hleft (congrArg some he))

/-- A fault keeps to the rule exactly when it is covered. -/
theorem assertFault_keepsReaction_iff {mode : OperatingMode K C}
    (hmode : SettledMode mode) (cause : FaultCause) :
    KeepsReaction mode (.command (.assertFault cause)) ↔
      Covered mode (.command (.assertFault cause)) := by
  cases mode with
  | fault safeStrategy writeIndex trace =>
      -- in `Fault` the reaction is the stronger of the two
      refine iff_of_true ?_ (Or.inl trivial)
      rintro r hr -
      obtain rfl := Option.some.inj hr
      refine ⟨_, rfl, ?_⟩
      rw [reaction_faultEvolve hmode]
      exact le_max_left _ _
  | idle safeStrategy =>
      -- the reaction in force is dropped for the cause's own
      constructor
      · intro hkeeps
        refine Or.inr (fun r hr hne => ?_)
        obtain ⟨r', hr', hle⟩ := hkeeps r hr hne
        obtain rfl := Option.some.inj hr'
        exact hle
      · rintro (hfault | hcovered) r hr hne
        · exact hfault.elim
        · exact ⟨_, rfl, hcovered r hr hne⟩
  | _ => exact iff_of_true (fun r hr => nomatch hr) (Or.inr (fun r hr => nomatch hr))

/-- **STEP LEMMA**: a step keeps to the rule exactly when it is covered. -/
theorem keepsReaction_iff (mode : OperatingMode K C) (event : Event K)
    (hmode : SettledMode mode) : KeepsReaction mode event ↔ Covered mode event := by
  cases event with
  | tick input => exact iff_of_true (tick_keepsReaction hmode input) trivial
  | command command =>
      cases command with
      | assertFault cause => exact assertFault_keepsReaction_iff hmode cause
      | _ => exact Iff.rfl

/-- **NEVER DOWNGRADED, AND ITS LIMIT**: along a run of ticks and commands every
    fault keeps the reaction in force exactly when every fault that comes outside
    the mode `Fault` asks for no lower a reaction itself. -/
theorem never_downgraded_iff (start : OperatingMode K C)
    (hstart : SettledMode start) (events : List (Event K))
    (hevents : ∀ event ∈ events, SettledEvent event) :
    Always step KeepsReaction start events ↔ Always step Covered start events :=
  always_congr step_settled (fun mode event _ hmode => keepsReaction_iff mode event
    hmode) events start hevents hstart

/-- A tick with nothing known of the motor. -/
def tickInputQ : SafeControlStrategyInput ℚ where
  omega := 0
  rotorFeedbackValid := true
  backEmfConstant := none
  dcBusV := 24
  dcBusMaxV := 48
  tickDtMs := 1 / 20

/-- A tick in `Idle`, and a fault that asks for more than its STO. -/
theorem never_downgraded_iff_overVoltage :
    Always step KeepsReaction (.idle .freshSto : OperatingMode ℚ RunnerQ)
      [.tick tickInputQ, .command (.assertFault .dcOverVoltage)] := by
  refine (never_downgraded_iff (.idle .freshSto) rfl _ ?_).mpr ?_
  · intro event hevent
    rcases List.mem_pair.mp hevent with rfl | rfl
    · exact trivial
    · exact trivial
  · refine ⟨trivial, Or.inr ?_, trivial⟩
    intro r hr _
    have hsto : inForce (step (.idle .freshSto : OperatingMode ℚ RunnerQ)
        (.tick tickInputQ)) = some .sto := by decide +kernel
    obtain rfl := Option.some.inj (hsto.symm.trans hr)
    decide

/-- Ten ticks into `Idle` the phases are shorted, and an overcurrent opens them:
    the fault has lowered the reaction.  An overspeed makes a drive that does not
    modulate ramp down. -/
theorem fault_downgrades :
    let start : OperatingMode ℚ RunnerQ := .idle .freshSto
    let ticks := List.replicate 10 (.tick tickInputQ)
    let mode := run step start ticks
    inForce mode = some .asc ∧
      (inForce (mode.after (.assertFault .overcurrent)) = some .sto ∧
        ¬ Always step KeepsReaction start
          (ticks ++ [.command (.assertFault .overcurrent)])) ∧
      inForce (mode.after (.assertFault .overspeed)) = some .rampDown ∧
        ¬ Always step KeepsReaction start
          (ticks ++ [.command (.assertFault .overspeed)]) := by
  intro start ticks mode
  have hasc : inForce mode = some .asc := by decide +kernel
  -- any reaction lower than the ASC in force breaks the rule
  have hbreaks : ∀ cause r, inForce (mode.after (.assertFault cause)) = some r →
      r < .asc → ¬ Always step KeepsReaction start
        (ticks ++ [.command (.assertFault cause)]) := by
    intro cause r hr hlt halways
    have hkeeps := (always_iff _ start).mp halways ticks
      (.command (.assertFault cause)) [] rfl
    obtain ⟨r', hr', hle⟩ := hkeeps .asc hasc (fun h => nomatch h)
    obtain rfl := Option.some.inj (hr.symm.trans hr')
    exact absurd hle (not_le.mpr hlt)
  have hsto : inForce (mode.after (.assertFault .overcurrent)) = some .sto := by
    decide +kernel
  have hramp : inForce (mode.after (.assertFault .overspeed)) = some .rampDown := by
    decide +kernel
  exact ⟨hasc, ⟨hsto, hbreaks _ _ hsto (by decide)⟩,
    hramp, hbreaks _ _ hramp (by decide)⟩

end ModesProofs
