import Stm32Foc.SessionProofs
import Stm32Foc.Tasks

/-! # Whose completion it is

    The command of a completing task carries no session, so the board is observed:
    `Traced` notes beside it in which session each instance was requested and each
    active value computed.  While every start finds no instance pending, a task
    completes what its own session asked for. -/

namespace TaskProofs

open EventRun FieldOriented Faults SafeStrategy Calibration Modes Control Saliency
open FirmwareTypes CanConfig Tuning TickProofs SessionProofs Tasks

variable {K : Type}

/-! ## Phases -/

/-- The phase that waits for a task. -/
def awaited : Task → CalibrationPhase K
  | .storeHallTable => .waitingHallCompletion
  | .tunePi => .waitingTuning
  | .storeMotorParams => .done

/-- The task that a result requests. -/
def requestOf : StageResult K → Option Task
  | .hallCalibration _ => some .storeHallTable
  | .tuningRequest _ => some .tunePi
  | .motorParameters _ => some .storeMotorParams
  | _ => none

theorem awaited_injective : Function.Injective (awaited (K := K)) := by
  intro first second h
  cases first with
  | storeHallTable => cases second <;> first | rfl | cases h
  | tunePi => cases second <;> first | rfl | cases h
  | storeMotorParams => cases second <;> first | rfl | cases h

theorem awaited_ne_clearing (task : Task) :
    awaited task ≠ (.clearingExistingParameters : CalibrationPhase K) := by
  intro h
  cases task <;> cases h

/-- A phase in which a calibration stays where it is. -/
def Waits (phase : CalibrationPhase K) : Prop :=
  phase = .clearingExistingParameters ∨ ∃ task, phase = awaited task

/-- What a tick does to the phase of a session, by what it returns. -/
structure PhaseMoves (before : CalibrationPhase K) (result : Option (StageResult K))
    (after : CalibrationPhase K) : Prop where
  waits : Waits before → result = none ∧ after = before
  request : ∀ stage task, result = some stage → requestOf stage = some task →
    after = awaited task
  clearing : after = .clearingExistingParameters → before = .clearingExistingParameters

theorem PhaseMoves.stays (phase : CalibrationPhase K) : PhaseMoves phase none phase where
  waits _ := ⟨rfl, rfl⟩
  request _ _ h := by cases h
  clearing := id

variable {before after : CalibrationPhase K} {result : Option (StageResult K)}

theorem PhaseMoves.requests (h : ¬ Waits before) {stage : StageResult K} {task : Task}
    (hstage : requestOf stage = some task) (hafter : after = awaited task) :
    PhaseMoves before (some stage) after where
  waits hwaits := absurd hwaits h
  request stage' task' hstage' htask' := by
    -- a stage requests one task at most
    obtain rfl := Option.some.inj hstage'
    rw [hafter, Option.some.inj (hstage.symm.trans htask')]
  clearing hclearing := absurd (hafter.symm.trans hclearing) (awaited_ne_clearing task)

theorem PhaseMoves.silent (h : ¬ Waits before) (hresult : result.bind requestOf = none)
    (hafter : after ≠ .clearingExistingParameters) : PhaseMoves before result after where
  waits hwaits := absurd hwaits h
  request stage task hstage htask := by
    rw [hstage, Option.bind_some, htask] at hresult
    cases hresult
  clearing hclearing := absurd hclearing hafter

variable [Field K] [LinearOrder K]

section Steps

variable {H P : Type} [HallCalibrates H K] [EstimatesMotorParams P K]
  (runner : CalibrationRunner K H P) (inputs : CalibrationInputs K)

omit [EstimatesMotorParams P K] in
theorem hallCalibrationStep_moves (timePassedS : K) :
    PhaseMoves (.hallCalibration timePassedS)
      (runner.hallCalibrationStep timePassedS inputs).1.2
      (runner.hallCalibrationStep timePassedS inputs).2.phase := by
  have hactive : ¬ Waits (.hallCalibration timePassedS : CalibrationPhase K) := by
    rintro (h | ⟨task, h⟩)
    · cases h
    · cases task <;> cases h
  -- the phase goes on, fails, or hands out the table and waits
  rw [CalibrationRunner.hallCalibrationStep]
  dsimp only
  split
  · exact .silent hactive rfl (fun h => by cases h)
  · split
    · exact .requests hactive rfl rfl
    · split
      · exact .silent hactive rfl (fun h => by cases h)
      · exact .silent hactive rfl (fun h => by cases h)

omit [LinearOrder K] in
theorem motorEstimationStep_moves (hphase : runner.phase = .motorEstimation) :
    PhaseMoves .motorEstimation (runner.motorEstimationStep inputs).1.2
      (runner.motorEstimationStep inputs).2.phase := by
  have hactive : ¬ Waits (.motorEstimation : CalibrationPhase K) := by
    rintro (h | ⟨task, h⟩)
    · cases h
    · cases task <;> cases h
  have hkept : runner.phase ≠ .clearingExistingParameters := by
    rw [hphase]
    exact fun h => by cases h
  rw [CalibrationRunner.motorEstimationStep]
  split
  · exact .silent hactive rfl (fun h => by cases h)
  · split
    · exact .requests hactive rfl rfl
    · split
      · exact .silent hactive rfl hkept
      · split
        · exact .requests hactive rfl rfl
        · split
          · split
            · exact .silent hactive rfl (fun h => by cases h)
            · exact .silent hactive rfl hkept
          · exact .silent hactive rfl hkept

/-- A step requests a task as it enters the phase that waits for it. -/
theorem step_moves :
    PhaseMoves runner.phase (runner.step inputs).1.2 (runner.step inputs).2.phase := by
  rw [CalibrationRunner.step]
  cases hphase : runner.phase with
  | hallCalibration timePassedS => exact hallCalibrationStep_moves runner inputs timePassedS
  | motorEstimation => exact motorEstimationStep_moves runner inputs hphase
  | _ =>
      show PhaseMoves _ none runner.phase
      rw [hphase]
      exact .stays _

end Steps

/-! ## The mode -/

section Modes

variable {H P : Type} [HallCalibrates H K] [EstimatesMotorParams P K]
  {mode mode' : OperatingMode K (CalibrationRunner K H P)}

/-- What a tick can do to a session: end it, or move its phase. -/
theorem SessionTick.moves {result : Option (StageResult K)}
    (h : SessionTick mode result mode') {runner' : CalibrationRunner K H P}
    (hsession : session mode' = some runner') :
    ∃ runner, session mode = some runner ∧
      PhaseMoves runner.phase result runner'.phase := by
  -- the calibrator is stepped once at most; all else keeps the session or ends it
  cases h with
  | unstepped hafter =>
      rcases hafter with rfl | hnone
      · exact ⟨runner', hsession, .stays _⟩
      · exact nomatch hnone.symm.trans hsession
  | stepped runner inputs hbefore hafter hfailure =>
      rcases hafter with rfl | hnone
      · obtain rfl := Option.some.inj hsession
        exact ⟨runner, by rw [hbefore]; rfl, step_moves runner inputs⟩
      · exact nomatch hnone.symm.trans hsession

/-- What follows a tick keeps the phase. -/
theorem session_afterFocStep {Q : Type} [MotorParamEstimator Q K] (params : Q)
    (outcome : FocStepOutcome K) (result : Option (StageResult K))
    {runner' : CalibrationRunner K H P}
    (h : session (afterFocStep params outcome result mode).2.2 = some runner') :
    ∃ runner, session mode = some runner ∧ runner'.phase = runner.phase := by
  cases mode with
  | calibration runner =>
      obtain rfl := Option.some.inj h
      exact ⟨runner, rfl, rfl⟩
  | _ => exact nomatch h

/-- A command that neither resumes nor starts a session keeps it or ends it. -/
theorem after_keeps (mode : OperatingMode K (CalibrationRunner K H P))
    {command : Command K} (hresume : command ≠ .resumeCalibration)
    (hstart : ((mode.onCommand command).2 && isStart command) = false) :
    Keeps mode (mode.after command) := by
  cases command with
  | resumeCalibration => exact absurd rfl hresume
  | startCalibration numPolePairs targets hasHall dtS =>
      cases mode with
      | idle safeStrategy =>
          cases safeStrategy with
          | rampDown waitedMs => exact .inl rfl
          | _ => exact nomatch hstart
      | _ => exact .inl rfl
  | assertFault cause => exact .inr (session_of_isFault (assertFault_isFault mode cause))
  | clearFault =>
      cases mode with
      | fault safeStrategy writeIndex trace =>
          cases safeStrategy <;> exact .inr rfl
      | _ => exact .inl rfl
  | _ =>
      cases mode with
      | _ => first | exact .inl rfl | exact .inr rfl

/-- A start that is taken begins in the phase that waits for its clearing. -/
theorem after_start {command : Command K}
    (h : ((mode.onCommand command).2 && isStart command) = true) :
    session mode = none ∧ ∃ runner, session (mode.after command) = some runner ∧
      runner.phase = .clearingExistingParameters := by
  cases command with
  | startCalibration numPolePairs targets hasHall dtS =>
      cases mode with
      | idle safeStrategy =>
          cases safeStrategy with
          | rampDown waitedMs => exact nomatch h
          | _ => exact ⟨rfl, _, rfl, rfl⟩
      | _ => exact nomatch h
  | _ =>
      have hstart := (Bool.and_eq_true_iff.mp h).2
      cases hstart

end Modes

/-! ## Steps of the board -/

variable {H P : Type} [HallCalibrates H K] [EstimatesMotorParams P K]
  {F A E : Type} [CurrentController F K] [DoesFocMath A K] [SaliencyBasedEstimator E K]

omit [Field K] [LinearOrder K] [HallCalibrates H K] [EstimatesMotorParams P K] in
theorem ifIdle_cases (board next : Board K H P) :
    ifIdle board next = board ∨ board.running = none ∧ ifIdle board next = next := by
  rw [ifIdle]
  cases hrunning : board.running with
  | none => exact .inr ⟨rfl, rfl⟩
  | some running => exact .inl rfl

theorem setGainsMode_keeps (gains : ControllerParameters K)
    (mode : OperatingMode K (CalibrationRunner K H P)) :
    Keeps mode (setGainsMode gains mode) := by
  rw [setGainsMode]
  split
  · exact .inl rfl
  · exact .inr (session_of_isFault (assertFault_isFault _ _))

/-- The command goes on with a session, or ends it well. -/
def Continues (command : Command K) : Prop :=
  command = .resumeCalibration ∨ command = .finishCalibration

omit [Field K] [LinearOrder K] in
/-- The command of a task that stores: it goes on, or reports the store's fault. -/
theorem command_cases {R : Type} {done : Command K} (hdone : Continues done)
    (store : Stored R) :
    Continues (store.command done) ∨ ∃ cause, store.command done = .assertFault cause := by
  cases store with
  | ok => exact .inl hdone
  | failed fault left => exact .inr ⟨_, rfl⟩

omit [Field K] [LinearOrder K] [HallCalibrates H K] [EstimatesMotorParams P K] in
/-- Where no session goes on there is nothing to hold of one. -/
theorem no_session {board : Board K H P} (h : session board.mode = none)
    {Q : CalibrationRunner K H P → Prop} :
    ∀ runner, session board.mode = some runner → Q runner :=
  fun _ hsome => nomatch h.symm.trans hsome

omit [Field K] [LinearOrder K] [HallCalibrates H K] [EstimatesMotorParams P K] in
/-- A spawn changes nothing but the instance it is for. -/
theorem spawnFor_frame (board : Board K H P) (result : Option (StageResult K)) :
    (spawnFor board result).mode = board.mode ∧
      (spawnFor board result).ram = board.ram ∧
      (spawnFor board result).flash = board.flash ∧
      (spawnFor board result).persistConfig = board.persistConfig ∧
      (spawnFor board result).running = board.running := by
  cases result with
  | none => exact ⟨rfl, rfl, rfl, rfl, rfl⟩
  | some stage => cases stage <;> exact ⟨rfl, rfl, rfl, rfl, rfl⟩

/-- What a tick returns. -/
def resultOf (board : Board K H P) (t : Tick K F A E) : Option (StageResult K) :=
  (focStep t.params t.inputs (t.drive board.mode)).1.2

/-- The mode after a tick. -/
def modeOf (board : Board K H P) (t : Tick K F A E) :
    OperatingMode K (CalibrationRunner K H P) :=
  (afterFocStep (ConstantMotorParameters.mk t.params)
    (focStep t.params t.inputs (t.drive board.mode)).1.1 (resultOf board t)
    (focStep t.params t.inputs (t.drive board.mode)).2.mode).2.2

theorem sharedAdcIsr_eq (board : Board K H P) (t : Tick K F A E) :
    sharedAdcIsr board t
      = spawnFor { board with mode := modeOf board t } (resultOf board t) := rfl

/-- What a tick can do to a session. -/
theorem sharedAdcIsr_session {board : Board K H P} {t : Tick K F A E}
    {runner' : CalibrationRunner K H P}
    (h : session (sharedAdcIsr board t).mode = some runner') :
    ∃ runner, session board.mode = some runner ∧
      PhaseMoves runner.phase (resultOf board t) runner'.phase := by
  rw [sharedAdcIsr_eq, (spawnFor_frame _ _).1] at h
  obtain ⟨stepped, hstepped, hphase⟩ := session_afterFocStep _ _ _ h
  obtain ⟨runner, hrunner, hmoves⟩ :=
    SessionTick.moves (focStep_sessionTick t board.mode) hstepped
  exact ⟨runner, hrunner, hphase ▸ hmoves⟩

/-- The values of the RAM that a session computes. -/
def SameValues (ram ram' : Ram K) : Prop :=
  ram'.motorParameters = ram.motorParameters ∧ ram'.piGains = ram.piGains ∧
    ram'.hallCalibration = ram.hallCalibration

/-- The records of the flash are the values of the RAM that a session computes. -/
structure HoldsValues (flash : Flash K) (ram : Ram K) : Prop where
  motorParameters : flash.motorParameters = some ram.motorParameters.params
  piGains : flash.piGains = some ram.piGains
  hallCalibration : flash.hallCalibration = some ram.hallCalibration

omit [Field K] [LinearOrder K] in
theorem HoldsValues.congr {flash flash' : Flash K} {ram ram' : Ram K}
    (h : HoldsValues flash ram) (hflash : flash' = flash) (hram : SameValues ram ram') :
    HoldsValues flash' ram' := by
  obtain ⟨hparams, hgains, hhall⟩ := hram
  subst hflash
  refine ⟨?_, ?_, ?_⟩
  · rw [hparams]
    exact h.motorParameters
  · rw [hgains]
    exact h.piGains
  · rw [hhall]
    exact h.hallCalibration

omit [Field K] [LinearOrder K] in
/-- The snapshot of `persist_config` is what it stores, unless it fails. -/
theorem records_hold {stores : Persisted K} (h : stores.result = .ok ()) (ram : Ram K) :
    HoldsValues (stores.records ram) ram := by
  obtain ⟨config, motorParameters, piGains, hallCalibration⟩ := stores
  cases config with
  | failed fault left => cases h
  | ok =>
      cases motorParameters with
      | failed fault left => cases h
      | ok =>
          cases piGains with
          | failed fault left => cases h
          | ok =>
              cases hallCalibration with
              | failed fault left => cases h
              | ok => exact ⟨rfl, rfl, rfl⟩

/-- A message changes what a session computes only in `Idle`. -/
theorem configFrame_values (board : Board K H P) (message : ConfigMessage K)
    {runner : CalibrationRunner K H P} (hsession : session board.mode = some runner) :
    SameValues board.ram (configFrame board message).ram := by
  have hmode := eq_of_session hsession
  rw [configFrame]
  split
  · exact ⟨rfl, rfl, rfl⟩
  · rename_i hpasses
    rw [handle]
    cases hcandidate : candidate board.ram.config message with
    | error fault => exact ⟨rfl, rfl, rfl⟩
    | ok config =>
        cases message with
        | motorConfig numPolePairs overcurrentLimit rotorOverspeedLimitMech =>
            rw [hmode] at hpasses
            exact absurd rfl hpasses
        | _ => exact ⟨rfl, rfl, rfl⟩

omit [Field K] [LinearOrder K] [HallCalibrates H K] [EstimatesMotorParams P K] in
theorem isClearing_iff {mode : OperatingMode K (CalibrationRunner K H P)} :
    isClearing mode = true ↔
      ∃ runner, mode = .calibration runner ∧
        runner.phase = .clearingExistingParameters := by
  cases mode with
  | calibration runner =>
      rw [isClearing]
      cases hphase : runner.phase with
      | clearingExistingParameters => exact iff_of_true rfl ⟨runner, rfl, hphase⟩
      | _ =>
          refine iff_of_false Bool.false_ne_true ?_
          rintro ⟨runner', hmode, hclearing⟩
          cases hmode
          cases hphase.symm.trans hclearing
  | _ =>
      refine iff_of_false Bool.false_ne_true ?_
      rintro ⟨runner', hmode, -⟩
      cases hmode

omit [Field K] [LinearOrder K] [HallCalibrates H K] in
/-- A session that is resumed does not wait for its start any more. -/
theorem resume_phase (runner : CalibrationRunner K H P) :
    runner.resume.phase ≠ .clearingExistingParameters := by
  rw [CalibrationRunner.resume]
  split
  · exact fun h => by cases h
  · exact fun h => by cases h
  · exact fun h => by cases h
  · rename_i hclearing _ _
    exact hclearing

/-- `persist_config` resumes a session that waits for its start to be stored, and no
    other. -/
theorem persistedMode_cases (result : Except MemoryFault Unit)
    (mode : OperatingMode K (CalibrationRunner K H P)) :
    Keeps mode (persistedMode result mode) ∨
      result = .ok () ∧ ∃ runner, mode = .calibration runner ∧
        runner.phase = .clearingExistingParameters ∧
        persistedMode result mode = .calibration runner.resume := by
  cases result with
  | error fault => exact .inl (.inr (session_of_isFault (assertFault_isFault _ _)))
  | ok done =>
      -- the guard of `persist_config`: only a session that is clearing is resumed
      cases hclearing : isClearing mode with
      | true =>
          obtain ⟨runner, rfl, hphase⟩ := isClearing_iff.mp hclearing
          exact .inr ⟨rfl, runner, rfl, hphase, if_pos hclearing⟩
      | false =>
          refine .inl (.inl (if_neg ?_))
          rw [hclearing]
          exact Bool.false_ne_true

/-- What `proceed` does with the instances and the values. -/
theorem proceed_frame (board : Board K H P) :
    (proceed board).ram = board.ram ∧ (proceed board).flash = board.flash := by
  rw [proceed]
  split
  · exact ⟨rfl, rfl⟩
  · exact ⟨rfl, rfl⟩
  · exact ⟨rfl, rfl⟩
  · rename_i task hrunning
    cases task <;> exact ⟨rfl, rfl⟩

/-! ## Observing the board -/

variable [TunesPi K]

/-- Where an instance is, and whether there is a value to come of what it is pending
    with. -/
inductive Occupancy where
  | free
  | pending
  | failing
  | running
  deriving DecidableEq, Repr

/-- The occupancy of an instance, by which payloads give a value. -/
def occupancyOf {A : Type} (gives : A → Bool) : Instance A → Occupancy
  | .free => .free
  | .pending payload => if gives payload then .pending else .failing
  | .running => .running

/-- The occupancy of the instances of a board: only a tuning can fail. -/
def occupancy (board : Board K H P) : Task → Occupancy
  | .storeHallTable => occupancyOf (fun _ => true) board.storeHallTable
  | .tunePi => occupancyOf (fun estimate => (tunedGains estimate).isOk) board.tunePi
  | .storeMotorParams => occupancyOf (fun _ => true) board.storeMotorParams

/-- A board, and what is noted of it. -/
structure Traced (K H P : Type) where
  board : Board K H P
  /-- How many sessions have started. -/
  sessions : Nat
  /-- The session in which the last instance of a task was requested. -/
  requestedIn : Task → Nat
  /-- The session in which the value that a task computes was requested. -/
  computedIn : Task → Nat
  /-- The motor parameters that the last start has left. -/
  cleared : ConstantMotorParameters K


def Traced.init (flash : Flash K) (causes : List FaultCause) : Traced K H P where
  board := .init flash causes
  sessions := 0
  requestedIn := fun _ => 0
  computedIn := fun _ => 0
  cleared := flash.load.motorParameters

/-- The event starts a session. -/
def starts (board : Board K H P) : BoardEvent K F A E → Bool
  | .operatingModeRequest requested => board.running.isNone && accepts board requested
  | _ => false

/-- The board takes the event.  An instance is requested where it ceases to be free,
    and gives its value where it ceases to be pending. -/
def Traced.step (s : Traced K H P) (event : BoardEvent K F A E) :
    Traced K H P :=
  let board := Tasks.step s.board event
  { board := board
    sessions := if starts s.board event then s.sessions + 1 else s.sessions
    requestedIn := fun task =>
      if occupancy s.board task = .free ∧ occupancy board task ≠ .free then s.sessions
      else s.requestedIn task
    computedIn := fun task =>
      if occupancy s.board task = .pending ∧ occupancy board task ≠ .pending then
        s.requestedIn task
      else s.computedIn task
    cleared := if starts s.board event then board.ram.motorParameters else s.cleared }

/-! ## What is kept to a session -/

/-- The RAM holds what a start leaves. -/
def HoldsCleared (s : Traced K H P) : Prop :=
  s.board.ram.motorParameters = s.cleared ∧ s.board.ram.piGains = none ∧
    s.board.ram.hallCalibration = none

/-- The flash holds what the start of the session has left. -/
def StoredCleared (s : Traced K H P) : Prop :=
  s.board.flash.motorParameters = some s.cleared.params ∧
    s.board.flash.piGains = some none ∧ s.board.flash.hallCalibration = some none

/-- Every active value is the one that the start of the session has left, or was
    requested in the session. -/
structure OwnValues (s : Traced K H P) : Prop where
  motorParameters : s.board.ram.motorParameters = s.cleared ∨
    s.computedIn .storeMotorParams = s.sessions
  piGains : s.board.ram.piGains = none ∨ s.computedIn .tunePi = s.sessions
  hallCalibration : s.board.ram.hallCalibration = none ∨
    s.computedIn .storeHallTable = s.sessions

/-- What an event keeps to the session. -/
structure KeepsToSession (s : Traced K H P) (event : BoardEvent K F A E) :
    Prop where
  /-- A completing task goes on with the session and the phase that requested it. -/
  completion : ∀ task command runner, event = .proceed →
    s.board.running = some (.completing task command) → Continues command →
    s.board.mode = .calibration runner → s.board.mode.after command ≠ s.board.mode →
    s.requestedIn task = s.sessions ∧ runner.phase = awaited task
  /-- `persist_config` goes on with a session that waits for its clearing. -/
  persisted : event = .proceed → s.board.running = some (.persistConfig (.ok ())) →
    (s.step event).board.mode ≠ s.board.mode → isClearing s.board.mode = true
  /-- A session is left to go on only with what its start has left in the flash. -/
  cleared : isClearing s.board.mode = true →
    (∃ runner, (s.step event).board.mode = .calibration runner) →
    isClearing (s.step event).board.mode = false → StoredCleared (s.step event)
  /-- Nothing computed in another session is active in this one. -/
  active : (∃ runner, (s.step event).board.mode = .calibration runner) →
    OwnValues (s.step event)

/-- A start finds no instance pending that has a value to give. -/
def StartsClean (s : Traced K H P) (event : BoardEvent K F A E) : Prop :=
  starts s.board event = true → ∀ task, occupancy s.board task ≠ .pending

/-! ## The invariant -/

/-- The task that an instance runs for. -/
def taskOf : Running K → Option Task
  | .persistConfig _ => none
  | .completing task _ => some task
  | .returning task => some task

/-- The session is still owed what the task gives it. -/
def Owed (board : Board K H P) (task : Task) : Prop :=
  occupancy board task = .pending ∨
    ∃ command, board.running = some (.completing task command) ∧ Continues command

/-- What holds while a session goes on. -/
structure InSession (s : Traced K H P) (runner : CalibrationRunner K H P) : Prop where
  owed : ∀ task, Owed s.board task →
    s.requestedIn task = s.sessions ∧ runner.phase = awaited task
  clearing : runner.phase = .clearingExistingParameters → HoldsCleared s
  active : OwnValues s

structure Attributed (s : Traced K H P) : Prop where
  busy : ∀ running task, s.board.running = some running → taskOf running = some task →
    occupancy s.board task = .running
  commands : ∀ task command, s.board.running = some (.completing task command) →
    Continues command ∨ ∃ cause, command = .assertFault cause
  stored : s.board.running = some (.persistConfig (.ok ())) →
    HoldsValues s.board.flash s.board.ram
  inSession : ∀ runner, session s.board.mode = some runner → InSession s runner

/-! ## Instances -/

/-- A spawn occupies a free instance, and leaves one that is occupied. -/
theorem occupancyOf_spawn {A : Type} (gives : A → Bool) (payload : A) (task : Instance A) :
    (occupancyOf gives task = .free → occupancyOf gives (task.spawn payload) ≠ .free) ∧
      (occupancyOf gives task ≠ .free →
        occupancyOf gives (task.spawn payload) = occupancyOf gives task) := by
  cases task with
  | free =>
      refine ⟨fun _ => ?_, fun h => absurd rfl h⟩
      rw [Instance.spawn, occupancyOf]
      split <;> exact nofun
  | pending held =>
      refine ⟨fun h => ?_, fun _ => rfl⟩
      rw [occupancyOf] at h
      split at h <;> cases h
  | running => exact ⟨fun h => (nomatch h), fun _ => rfl⟩

omit [HallCalibrates H K] [EstimatesMotorParams P K] in
/-- The instances are all that the occupancy is of. -/
theorem occupancy_of_eq {board next : Board K H P}
    {mode : OperatingMode K (CalibrationRunner K H P)} {ram : Ram K} {flash : Flash K}
    {persistConfig : Bool} {running : Option (Running K)}
    (h : next = { board with
      mode := mode
      ram := ram
      flash := flash
      persistConfig := persistConfig
      running := running }) (task : Task) : occupancy next task = occupancy board task := by
  rw [h]
  cases task <;> rfl

omit [HallCalibrates H K] [EstimatesMotorParams P K] in
/-- A tick occupies the instances that it requests and that are free. -/
theorem occupancy_spawnFor (board : Board K H P) (result : Option (StageResult K))
    (task : Task) :
    (occupancy board task = .free ∧ result.bind requestOf = some task →
      occupancy (spawnFor board result) task ≠ .free) ∧
    (¬ (occupancy board task = .free ∧ result.bind requestOf = some task) →
      occupancy (spawnFor board result) task = occupancy board task) := by
  have hother : ∀ {stage : StageResult K}, requestOf stage ≠ some task →
      occupancy (spawnFor board (some stage)) task = occupancy board task := by
    intro stage hstage
    cases stage <;> cases task <;> first | rfl | exact absurd rfl hstage
  -- a stage spawns into its own instance and into no other
  cases result with
  | none => exact ⟨fun h => (nomatch h.2), fun _ => rfl⟩
  | some stage =>
      by_cases hstage : requestOf stage = some task
      · have hspawn : (occupancy board task = .free →
            occupancy (spawnFor board (some stage)) task ≠ .free) ∧
            (occupancy board task ≠ .free →
              occupancy (spawnFor board (some stage)) task = occupancy board task) := by
          cases stage with
          | hallCalibration angleTable =>
              obtain rfl := Option.some.inj hstage
              exact occupancyOf_spawn _ _ _
          | tuningRequest paramsEstimate =>
              obtain rfl := Option.some.inj hstage
              exact occupancyOf_spawn _ _ _
          | motorParameters motorParams =>
              obtain rfl := Option.some.inj hstage
              exact occupancyOf_spawn _ _ _
          | _ => cases hstage
        exact ⟨fun h => hspawn.1 h.1, fun h => hspawn.2 fun hfree => h ⟨hfree, hstage⟩⟩
      · exact ⟨fun h => absurd h.2 hstage, fun _ => hother hstage⟩

/-- What a tick changes besides the mode. -/
theorem sharedAdcIsr_frame (board : Board K H P) (t : Tick K F A E) :
    (sharedAdcIsr board t).ram = board.ram ∧ (sharedAdcIsr board t).flash = board.flash ∧
      (sharedAdcIsr board t).persistConfig = board.persistConfig ∧
      (sharedAdcIsr board t).running = board.running ∧
      ∀ task,
        (occupancy board task = .free ∧ (resultOf board t).bind requestOf = some task →
          occupancy (sharedAdcIsr board t) task ≠ .free) ∧
        (¬ (occupancy board task = .free ∧
            (resultOf board t).bind requestOf = some task) →
          occupancy (sharedAdcIsr board t) task = occupancy board task) := by
  obtain ⟨-, hram, hflash, hpersist, hrunning⟩ :=
    spawnFor_frame { board with mode := modeOf board t } (resultOf board t)
  rw [sharedAdcIsr_eq]
  refine ⟨hram, hflash, hpersist, hrunning, fun task => ?_⟩
  have hmode : occupancy { board with mode := modeOf board t } task
      = occupancy board task := occupancy_of_eq rfl task
  rw [← hmode]
  exact occupancy_spawnFor _ _ task

/-- Only a tick, a task that goes on and a start do more to a session than end it. -/
theorem mode_keeps (board : Board K H P) (event : BoardEvent K F A E)
    (htick : ∀ t, event ≠ .tick t) (hproceed : event ≠ .proceed)
    (hstarts : starts board event = false) :
    Keeps board.mode (Tasks.step board event).mode := by
  have hidle : ∀ next : Board K H P,
      (board.running = none → Keeps board.mode next.mode) →
      Keeps board.mode (ifIdle board next).mode := by
    intro next hnext
    rcases ifIdle_cases board next with hsame | ⟨hrunning, hsame⟩
    · rw [hsame]
      exact .inl rfl
    · rw [hsame]
      exact hnext hrunning
  cases event with
  | tick t => exact absurd rfl (htick t)
  | proceed => exact absurd rfl hproceed
  | assertFault cause => exact .inr (session_of_isFault (assertFault_isFault _ _))
  | operatingModeRequest requested =>
      -- a request that starts nothing is a command that starts nothing
      refine hidle _ (fun hrunning => ?_)
      have haccepts : accepts board requested = false := by
        rw [starts, hrunning] at hstarts
        exact hstarts
      rw [operatingModeRequest, haccepts]
      refine after_keeps _ ?_ haccepts
      cases requested with
      | calibration =>
          intro h
          rw [requestCommand] at h
          split at h <;> cases h
      | _ => exact nofun
  | config message =>
      refine hidle _ (fun _ => ?_)
      rw [configFrame]
      split <;> exact .inl rfl
  | persistConfig stores =>
      refine hidle _ (fun _ => ?_)
      rw [Tasks.persistConfig]
      split <;> exact .inl rfl
  | storeHallTable store =>
      refine hidle _ (fun _ => ?_)
      rw [Tasks.storeHallTable]
      split <;> exact .inl rfl
  | tunePi store =>
      refine hidle _ (fun _ => ?_)
      rw [Tasks.tunePi]
      split
      · split
        · exact setGainsMode_keeps _ _
        · exact .inl rfl
      · exact .inl rfl
  | storeMotorParams store =>
      refine hidle _ (fun _ => ?_)
      rw [Tasks.storeMotorParams]
      split <;> exact .inl rfl

/-- The gains are dropped, and the other values kept. -/
def DropsGains (ram ram' : Ram K) : Prop :=
  ram'.motorParameters = ram.motorParameters ∧ ram'.piGains = none ∧
    ram'.hallCalibration = ram.hallCalibration

/-- A task has taken its payload, and sets no other value than its own. -/
structure Runs (board board' : Board K H P) (task : Task) : Prop where
  taken : occupancy board task = .pending ∨
    occupancy board task = .failing ∧ DropsGains board.ram board'.ram
  occupied : ∀ other, occupancy board' other
    = if other = task then .running else occupancy board other
  running : ∃ command, board'.running = some (.completing task command) ∧
    (Continues command ∧ occupancy board task = .pending ∨
      ∃ cause, command = .assertFault cause)
  motorParameters : task ≠ .storeMotorParams →
    board'.ram.motorParameters = board.ram.motorParameters
  piGains : task ≠ .tunePi → board'.ram.piGains = board.ram.piGains
  hallCalibration : task ≠ .storeHallTable →
    board'.ram.hallCalibration = board.ram.hallCalibration

omit [HallCalibrates H K] [EstimatesMotorParams P K] in
theorem storeHallTable_runs (board : Board K H P)
    (store : Stored (Option (HallCalibration K))) :
    storeHallTable board store = board ∨
      Runs board (storeHallTable board store) .storeHallTable := by
  rw [storeHallTable]
  cases hslot : board.storeHallTable with
  | pending angleTable =>
      right
      have hpending : occupancy board .storeHallTable = .pending := by
        rw [occupancy, hslot]
        rfl
      refine ⟨.inl hpending, ?_, ⟨_, rfl, ?_⟩, fun _ => rfl, fun _ => rfl,
        fun h => absurd rfl h⟩
      · intro other
        cases other <;> rfl
      · exact (command_cases (.inl rfl) store).imp_left (fun h => ⟨h, hpending⟩)
  | _ => exact .inl rfl

omit [HallCalibrates H K] [EstimatesMotorParams P K] in
theorem storeMotorParams_runs (board : Board K H P)
    (store : Stored (MotorParamsEstimate K)) :
    storeMotorParams board store = board ∨
      Runs board (storeMotorParams board store) .storeMotorParams := by
  rw [storeMotorParams]
  cases hslot : board.storeMotorParams with
  | pending parameters =>
      right
      have hpending : occupancy board .storeMotorParams = .pending := by
        rw [occupancy, hslot]
        rfl
      refine ⟨.inl hpending, ?_, ⟨_, rfl, ?_⟩, fun h => absurd rfl h, fun _ => rfl,
        fun _ => rfl⟩
      · intro other
        cases other <;> rfl
      · exact (command_cases (.inr rfl) store).imp_left (fun h => ⟨h, hpending⟩)
  | _ => exact .inl rfl

theorem tunePi_runs (board : Board K H P)
    (store : Stored (Option (ControllerParameters K))) :
    tunePi board store = board ∨ Runs board (tunePi board store) .tunePi := by
  rw [tunePi]
  cases hslot : board.tunePi with
  | pending estimate =>
      right
      dsimp only
      cases hgains : tunedGains estimate with
      | ok gains =>
          have hpending : occupancy board .tunePi = .pending := by
            rw [occupancy, hslot, occupancyOf, hgains]
            rfl
          refine ⟨.inl hpending, ?_, ⟨_, rfl, ?_⟩, fun _ => rfl, fun h => absurd rfl h,
            fun _ => rfl⟩
          · intro other
            cases other <;> rfl
          · exact (command_cases (.inl rfl) store).imp_left (fun h => ⟨h, hpending⟩)
      | error fault =>
          have hfailing : occupancy board .tunePi = .failing := by
            rw [occupancy, hslot, occupancyOf, hgains]
            rfl
          refine ⟨.inr ⟨hfailing, rfl, rfl, rfl⟩, ?_, ⟨_, rfl, .inr ⟨_, rfl⟩⟩, fun _ => rfl,
            fun h => absurd rfl h, fun _ => rfl⟩
          intro other
          cases other <;> rfl
  | _ => exact .inl rfl

omit [HallCalibrates H K] [EstimatesMotorParams P K] in
/-- What is owed on a board is owed by its instances and by what runs on it. -/
theorem owed_congr {board board' : Board K H P}
    (hoccupancy : ∀ task, occupancy board' task = occupancy board task)
    (hrunning : board'.running = board.running) (task : Task) :
    Owed board' task ↔ Owed board task := by
  rw [Owed, Owed, hoccupancy task, hrunning]

omit [HallCalibrates H K] [EstimatesMotorParams P K] in
/-- Where nothing runs there is only the session to speak of. -/
theorem attributed_of_none {s : Traced K H P} (hnone : s.board.running = none)
    (hin : ∀ runner, session s.board.mode = some runner → InSession s runner) :
    Attributed s where
  busy _ _ hr := nomatch hnone.symm.trans hr
  commands _ _ hr := nomatch hnone.symm.trans hr
  stored hr := nomatch hnone.symm.trans hr
  inSession := hin

theorem configFrame_frame (board : Board K H P) (message : ConfigMessage K) :
    (configFrame board message).mode = board.mode ∧
      (configFrame board message).flash = board.flash ∧
      (configFrame board message).running = board.running ∧
      ∀ task, occupancy (configFrame board message) task = occupancy board task := by
  rw [configFrame]
  split
  · exact ⟨rfl, rfl, rfl, fun _ => rfl⟩
  · exact ⟨rfl, rfl, rfl, occupancy_of_eq rfl⟩

omit [HallCalibrates H K] [EstimatesMotorParams P K] in
theorem returned_frame (board : Board K H P) (task : Task) :
    (returned board task).mode = board.mode ∧ (returned board task).ram = board.ram ∧
      (returned board task).running = none ∧
      ∀ other, occupancy (returned board task) other
        = if other = task then .free else occupancy board other := by
  cases task with
  | storeHallTable => exact ⟨rfl, rfl, rfl, fun other => by cases other <;> rfl⟩
  | tunePi => exact ⟨rfl, rfl, rfl, fun other => by cases other <;> rfl⟩
  | storeMotorParams => exact ⟨rfl, rfl, rfl, fun other => by cases other <;> rfl⟩

/-! ## Steps keep the invariant -/

variable {s : Traced K H P} {event : BoardEvent K F A E}

/-- Notes are kept where every occupancy is. -/
theorem requestedIn_of_same {task : Task}
    (h : occupancy (Tasks.step s.board event) task = occupancy s.board task) :
    (s.step event).requestedIn task = s.requestedIn task := by
  show (if _ then _ else _) = _
  rw [h, if_neg (fun hc => hc.2 hc.1)]

theorem computedIn_of_same {task : Task}
    (h : occupancy (Tasks.step s.board event) task = occupancy s.board task) :
    (s.step event).computedIn task = s.computedIn task := by
  show (if _ then _ else _) = _
  rw [h, if_neg (fun hc => hc.2 hc.1)]

/-- An instance that is not free is not requested again. -/
theorem requestedIn_of_occupied {task : Task} (h : occupancy s.board task ≠ .free) :
    (s.step event).requestedIn task = s.requestedIn task :=
  if_neg (fun hc => h hc.1)

theorem computedIn_of_not_pending {task : Task} (h : occupancy s.board task ≠ .pending) :
    (s.step event).computedIn task = s.computedIn task :=
  if_neg (fun hc => h hc.1)

theorem sessions_of_not_starts (h : starts s.board event = false) :
    (s.step event).sessions = s.sessions ∧ (s.step event).cleared = s.cleared := by
  refine ⟨?_, ?_⟩
  · show (if _ then _ else _) = _
    rw [h]
    rfl
  · show (if _ then _ else _) = _
    rw [h]
    rfl

theorem HoldsCleared.step (h : HoldsCleared s) (hstarts : starts s.board event = false)
    (hram : SameValues s.board.ram (Tasks.step s.board event).ram) :
    HoldsCleared (s.step event) := by
  obtain ⟨hparams, hgains, hhall⟩ := h
  refine ⟨?_, hram.2.1.trans hgains, hram.2.2.trans hhall⟩
  rw [(sessions_of_not_starts hstarts).2]
  exact hram.1.trans hparams

theorem OwnValues.step (h : OwnValues s) (hstarts : starts s.board event = false)
    (hram : SameValues s.board.ram (Tasks.step s.board event).ram)
    (hcomputed : ∀ task, (s.step event).computedIn task = s.computedIn task) :
    OwnValues (s.step event) := by
  obtain ⟨hsessions, hcleared⟩ := sessions_of_not_starts hstarts
  refine ⟨?_, ?_, ?_⟩
  · rw [hsessions, hcleared, hcomputed]
    exact h.motorParameters.imp_left hram.1.trans
  · rw [hsessions, hcomputed]
    exact h.piGains.imp_left hram.2.1.trans
  · rw [hsessions, hcomputed]
    exact h.hallCalibration.imp_left hram.2.2.trans

/-- A session is kept by what leaves the instances and the values alone. -/
theorem InSession.keeps {runner : CalibrationRunner K H P} (h : InSession s runner)
    (hstarts : starts s.board event = false)
    (hoccupancy : ∀ task, occupancy (Tasks.step s.board event) task
      = occupancy s.board task)
    (howed : ∀ task, Owed (Tasks.step s.board event) task → Owed s.board task)
    (hram : SameValues s.board.ram (Tasks.step s.board event).ram) :
    InSession (s.step event) runner := by
  obtain ⟨hsessions, -⟩ := sessions_of_not_starts hstarts
  refine ⟨?_, ?_, ?_⟩
  · intro task htask
    rw [requestedIn_of_same (hoccupancy task), hsessions]
    exact h.owed task (howed task htask)
  · exact fun hphase => (h.clearing hphase).step hstarts hram
  · exact h.active.step hstarts hram (fun task => computedIn_of_same (hoccupancy task))

/-- An event that changes no more than the mode, and keeps the session or ends it. -/
theorem Attributed.moves (h : Attributed s) (hstarts : starts s.board event = false)
    {mode : OperatingMode K (CalibrationRunner K H P)} (hkeeps : Keeps s.board.mode mode)
    (hstep : Tasks.step s.board event = { s.board with mode := mode }) :
    Attributed (s.step event) := by
  have hoccupancy : ∀ task, occupancy (Tasks.step s.board event) task
      = occupancy s.board task := occupancy_of_eq hstep
  have hrunning : (Tasks.step s.board event).running = s.board.running :=
    (congrArg Board.running hstep).trans rfl
  have hflash : (Tasks.step s.board event).flash = s.board.flash :=
    (congrArg Board.flash hstep).trans rfl
  have hram : SameValues s.board.ram (Tasks.step s.board event).ram := by
    rw [hstep]
    exact ⟨rfl, rfl, rfl⟩
  refine ⟨?_, ?_, ?_, ?_⟩
  · intro running task hr htask
    exact (hoccupancy task).trans (h.busy running task (hrunning.symm.trans hr) htask)
  · exact fun task command hr => h.commands task command (hrunning.symm.trans hr)
  · exact fun hr => (h.stored (hrunning.symm.trans hr)).congr hflash hram
  · have hmode : (Tasks.step s.board event).mode = mode := congrArg Board.mode hstep
    rw [← hmode] at hkeeps
    rcases hkeeps with hsame | hnone
    · intro runner hrunner
      have hrunner : session s.board.mode = some runner := hsame ▸ hrunner
      refine (h.inSession runner hrunner).keeps hstarts hoccupancy ?_ hram
      exact fun task => (owed_congr hoccupancy hrunning task).mp
    · exact no_session hnone

theorem Attributed.same (h : Attributed s) (hstarts : starts s.board event = false)
    (hboard : Tasks.step s.board event = s.board) : Attributed (s.step event) :=
  h.moves hstarts (.inl rfl) hboard

/-- **TICK**: what a tick requests it requests for the session it leaves. -/
theorem Attributed.tick (h : Attributed s) (t : Tick K F A E) :
    Attributed (s.step (.tick t)) := by
  obtain ⟨hram, hflash, -, hrunning, hoccupancy⟩ := sharedAdcIsr_frame s.board t
  -- a tick fills free instances and takes none that is pending
  have hcomputed : ∀ task, (s.step (.tick t)).computedIn task = s.computedIn task := by
    intro task
    by_cases hpending : occupancy s.board task = .pending
    · refine computedIn_of_same ((hoccupancy task).2 (fun hc => ?_))
      cases hpending.symm.trans hc.1
    · exact computedIn_of_not_pending hpending
  have hsame : SameValues s.board.ram (Tasks.step s.board (.tick t)).ram :=
    ⟨congrArg Ram.motorParameters hram, congrArg Ram.piGains hram,
      congrArg Ram.hallCalibration hram⟩
  refine ⟨?_, ?_, ?_, ?_⟩
  · intro running task hr htask
    have hbusy := h.busy running task (hrunning.symm.trans hr) htask
    exact ((hoccupancy task).2 (fun hc => by cases hbusy.symm.trans hc.1)).trans hbusy
  · exact fun task command hr => h.commands task command (hrunning.symm.trans hr)
  · exact fun hr => (h.stored (hrunning.symm.trans hr)).congr hflash hsame
  · intro runner' hrunner'
    obtain ⟨runner, hrunner, hmoves⟩ := sharedAdcIsr_session hrunner'
    have hin := h.inSession runner hrunner
    have hwaits : ∀ task, Owed s.board task → runner'.phase = awaited task := by
      intro task howed
      obtain ⟨-, hphase⟩ := hin.owed task howed
      exact (hmoves.waits (.inr ⟨task, hphase⟩)).2.trans hphase
    refine ⟨?_, ?_, hin.active.step rfl hsame hcomputed⟩
    · intro task howed
      -- owed since this tick, or owed before it
      by_cases hrequest : occupancy s.board task = .free ∧
          (resultOf s.board t).bind requestOf = some task
      · have hrequested : (s.step (.tick t)).requestedIn task = s.sessions :=
          if_pos ⟨hrequest.1, (hoccupancy task).1 hrequest⟩
        obtain ⟨stage, hstage, htask⟩ := Option.bind_eq_some_iff.mp hrequest.2
        exact ⟨hrequested, hmoves.request stage task hstage htask⟩
      · have hkept : occupancy (Tasks.step s.board (.tick t)) task
            = occupancy s.board task := (hoccupancy task).2 hrequest
        have howed' : Owed s.board task := by
          rw [Owed, ← hkept, ← hrunning]
          exact howed
        rw [requestedIn_of_same hkept]
        exact ⟨(hin.owed task howed').1, hwaits task howed'⟩
    · intro hphase
      exact (hin.clearing (hmoves.clearing hphase)).step rfl hsame

/-- A start begins a session that waits for its clearing, where none goes on and
    nothing runs. -/
theorem start_frame (hstarts : starts s.board event = true) :
    s.board.running = none ∧ session s.board.mode = none ∧
      ∃ runner : CalibrationRunner K H P, runner.phase = .clearingExistingParameters ∧
        Tasks.step s.board event = { s.board with
          mode := .calibration runner
          ram := s.board.ram.invalidate
          persistConfig := true } := by
  cases event with
  | operatingModeRequest requested =>
      obtain ⟨hrunning, haccepts⟩ := Bool.and_eq_true_iff.mp hstarts
      have hnone := Option.isNone_iff_eq_none.mp hrunning
      obtain ⟨hbefore, runner, hrunner, hphase⟩ := after_start haccepts
      refine ⟨hnone, hbefore, runner, hphase, ?_⟩
      rw [Tasks.step, ifIdle, hnone, ← eq_of_session hrunner]
      dsimp only
      rw [operatingModeRequest, haccepts, if_pos rfl]
  | _ => cases hstarts

/-- **START**: where no instance is pending a start owes nothing to anyone. -/
theorem attributed_start (hstarts : starts s.board event = true)
    (hclean : ∀ task, occupancy s.board task ≠ .pending) : Attributed (s.step event) := by
  obtain ⟨hnone, -, runner, -, hboard⟩ := start_frame hstarts
  have hcleared : HoldsCleared (s.step event) := by
    refine ⟨(if_pos hstarts).symm, ?_, ?_⟩
    · exact congrArg (fun b : Board K H P => b.ram.piGains) hboard
    · exact congrArg (fun b : Board K H P => b.ram.hallCalibration) hboard
  have hrest : (s.step event).board.running = none :=
    (congrArg Board.running hboard).trans hnone
  refine attributed_of_none hrest ?_
  intro runner' hrunner'
  refine ⟨?_, fun _ => hcleared, .inl hcleared.1, .inl hcleared.2.1, .inl hcleared.2.2⟩
  -- an instance that is pending now was pending before the start
  rintro task (hpending | ⟨command, hr, -⟩)
  · have hkept : occupancy (Tasks.step s.board event) task = occupancy s.board task :=
      occupancy_of_eq hboard task
    exact absurd (hkept.symm.trans hpending) (hclean task)
  · exact nomatch hrest.symm.trans hr

/-- A request that starts nothing. -/
theorem Attributed.request (h : Attributed s) {requested : RequestedMode}
    (hstarts : starts s.board (.operatingModeRequest requested : BoardEvent K F A E) = false)
    (hkeeps : Keeps s.board.mode
      (Tasks.step s.board (.operatingModeRequest requested : BoardEvent K F A E)).mode) :
    Attributed (s.step (.operatingModeRequest requested : BoardEvent K F A E)) := by
  rcases ifIdle_cases s.board (operatingModeRequest s.board requested) with
    hsame | ⟨hnone, hnext⟩
  · exact h.same hstarts hsame
  · have haccepts : accepts s.board requested = false := by
      rw [starts, hnone] at hstarts
      exact hstarts
    have hboard : Tasks.step s.board (.operatingModeRequest requested : BoardEvent K F A E)
        = { s.board with
            mode := s.board.mode.after (requestCommand s.board.ram requested) } := by
      refine hnext.trans ?_
      rw [operatingModeRequest, haccepts]
      rfl
    rw [hboard] at hkeeps
    exact h.moves hstarts hkeeps hboard

theorem Attributed.config (h : Attributed s) (hstarts : starts s.board event = false)
    {message : ConfigMessage K}
    (hstep : Tasks.step s.board event = ifIdle s.board (configFrame s.board message)) :
    Attributed (s.step event) := by
  rcases ifIdle_cases s.board (configFrame s.board message) with hsame | ⟨hnone, hnext⟩
  · exact h.same hstarts (hstep.trans hsame)
  · obtain ⟨hmode, -, hrunning, hoccupancy⟩ := configFrame_frame s.board message
    have hboard := hstep.trans hnext
    rw [← hboard] at hmode hrunning hoccupancy
    refine attributed_of_none (hrunning.trans hnone) ?_
    intro runner hrunner
    have hsession : session s.board.mode = some runner :=
      (congrArg session hmode).symm.trans hrunner
    refine (h.inSession runner hsession).keeps hstarts hoccupancy ?_ ?_
    · exact fun task => (owed_congr hoccupancy hrunning task).mp
    · rw [hboard]
      exact configFrame_values s.board message hsession

theorem Attributed.persist (h : Attributed s) (hstarts : starts s.board event = false)
    {stores : Persisted K}
    (hstep : Tasks.step s.board event = { s.board with
      flash := stores.records s.board.ram
      running := some (.persistConfig stores.result) }) : Attributed (s.step event) := by
  have hrunning : (Tasks.step s.board event).running = some (.persistConfig stores.result) :=
    congrArg Board.running hstep
  have hoccupancy : ∀ task, occupancy (Tasks.step s.board event) task
      = occupancy s.board task := occupancy_of_eq hstep
  have hram : SameValues s.board.ram (Tasks.step s.board event).ram := by
    rw [hstep]
    exact ⟨rfl, rfl, rfl⟩
  refine ⟨?_, ?_, ?_, ?_⟩
  · intro running task hr htask
    obtain rfl := Option.some.inj (hrunning.symm.trans hr)
    cases htask
  · intro task command hr
    cases Option.some.inj (hrunning.symm.trans hr)
  · intro hr
    have hresult := Option.some.inj (hrunning.symm.trans hr)
    exact (records_hold (Running.persistConfig.inj hresult) _).congr
      (congrArg Board.flash hstep) hram
  · intro runner hrunner
    have hmode : (Tasks.step s.board event).mode = s.board.mode :=
      (congrArg Board.mode hstep).trans rfl
    have hsession := (congrArg session hmode).symm.trans hrunner
    refine (h.inSession runner hsession).keeps hstarts hoccupancy ?_ hram
    rintro task (hpending | ⟨command, hr, -⟩)
    · exact .inl ((hoccupancy task).symm.trans hpending)
    · cases Option.some.inj (hrunning.symm.trans hr)

/-- **COMPLETION**: a task gives its value to the session that has requested it. -/
theorem InSession.given {runner : CalibrationRunner K H P} (h : InSession s runner)
    {task : Task} (hstarts : starts s.board event = false)
    (hruns : Runs s.board (Tasks.step s.board event) task)
    (hpending : occupancy s.board task = .pending)
    (hcomputed : ∀ other, other ≠ task →
      (s.step event).computedIn other = s.computedIn other) : OwnValues (s.step event) := by
  obtain ⟨hsessions, hcleared⟩ := sessions_of_not_starts hstarts
  obtain ⟨hown, -⟩ := h.owed task (.inl hpending)
  -- the value of the task itself is noted as requested in this session
  have hmine : ∀ other, other = task →
      (s.step event).computedIn other = (s.step event).sessions := by
    rintro other rfl
    rw [hsessions, ← hown]
    refine if_pos ⟨hpending, ?_⟩
    rw [hruns.occupied, if_pos rfl]
    exact nofun
  have hkept : ∀ other, other ≠ task → s.computedIn other = s.sessions →
      (s.step event).computedIn other = (s.step event).sessions := by
    intro other hne hbefore
    rw [hcomputed other hne, hsessions, hbefore]
  refine ⟨?_, ?_, ?_⟩
  · by_cases hself : Task.storeMotorParams = task
    · exact .inr (hmine _ hself)
    · rw [hcleared]
      exact h.active.motorParameters.imp
        (hruns.motorParameters (Ne.symm hself)).trans (hkept _ hself)
  · by_cases hself : Task.tunePi = task
    · exact .inr (hmine _ hself)
    · exact h.active.piGains.imp (hruns.piGains (Ne.symm hself)).trans (hkept _ hself)
  · by_cases hself : Task.storeHallTable = task
    · exact .inr (hmine _ hself)
    · exact h.active.hallCalibration.imp
        (hruns.hallCalibration (Ne.symm hself)).trans (hkept _ hself)

/-- Dropped gains are nobody's. -/
theorem InSession.dropped {runner : CalibrationRunner K H P} (h : InSession s runner)
    (hstarts : starts s.board event = false)
    (hdrops : DropsGains s.board.ram (Tasks.step s.board event).ram)
    (hcomputed : ∀ task, (s.step event).computedIn task = s.computedIn task) :
    OwnValues (s.step event) ∧
      (runner.phase = .clearingExistingParameters → HoldsCleared (s.step event)) := by
  obtain ⟨hparams, hgains, hhall⟩ := hdrops
  obtain ⟨hsessions, hcleared⟩ := sessions_of_not_starts hstarts
  refine ⟨⟨?_, .inl hgains, ?_⟩, fun hphase => ⟨?_, hgains, ?_⟩⟩
  · rw [hsessions, hcleared, hcomputed]
    exact h.active.motorParameters.imp_left hparams.trans
  · rw [hsessions, hcomputed]
    exact h.active.hallCalibration.imp_left hhall.trans
  · rw [hcleared]
    exact hparams.trans (h.clearing hphase).1
  · exact hhall.trans (h.clearing hphase).2.2

omit [HallCalibrates H K] [EstimatesMotorParams P K] in
theorem Runs.other {board board' : Board K H P} {task other : Task}
    (h : Runs board board' task) (hne : other ≠ task) :
    occupancy board' other = occupancy board other :=
  (h.occupied other).trans (if_neg hne)

omit [HallCalibrates H K] [EstimatesMotorParams P K] in
/-- What is owed while a task runs was owed before it took its payload. -/
theorem Runs.owed {board board' : Board K H P} {task other : Task}
    (h : Runs board board' task) (howed : Owed board' other) : Owed board other := by
  obtain ⟨command, hrunning, hcommand⟩ := h.running
  rcases howed with hpending | ⟨command', hr, hcontinues⟩
  · have hne : other ≠ task := by
      rintro rfl
      cases ((h.occupied other).trans (if_pos rfl)).symm.trans hpending
    exact .inl ((h.other hne).symm.trans hpending)
  · obtain ⟨rfl, rfl⟩ := Running.completing.inj (Option.some.inj (hrunning.symm.trans hr))
    -- a task that reports a fault owes nothing
    rcases hcommand with ⟨-, hpending⟩ | ⟨cause, rfl⟩
    · exact .inl hpending
    · rcases hcontinues with hc | hc <;> cases hc

/-- A session goes on while a task runs, for itself or for nobody. -/
theorem InSession.runs {runner : CalibrationRunner K H P} (h : InSession s runner)
    {task : Task} (hstarts : starts s.board event = false)
    (hruns : Runs s.board (Tasks.step s.board event) task) :
    InSession (s.step event) runner := by
  obtain ⟨hsessions, -⟩ := sessions_of_not_starts hstarts
  have hoccupied : occupancy s.board task ≠ .free := by
    rcases hruns.taken with htaken | ⟨htaken, -⟩
    · rw [htaken]
      exact nofun
    · rw [htaken]
      exact nofun
  have hcomputed : ∀ other, other ≠ task →
      (s.step event).computedIn other = s.computedIn other :=
    fun other hne => computedIn_of_same (hruns.other hne)
  have hpaid : ∀ other, Owed (Tasks.step s.board event) other →
      (s.step event).requestedIn other = (s.step event).sessions ∧
        runner.phase = awaited other := by
    intro other howed
    have hrequested : (s.step event).requestedIn other = s.requestedIn other := by
      by_cases hsame : other = task
      · exact requestedIn_of_occupied (hsame ▸ hoccupied)
      · exact requestedIn_of_same (hruns.other hsame)
    rw [hrequested, hsessions]
    exact h.owed other (hruns.owed howed)
  -- the value is the session's own, or the gains are dropped
  rcases hruns.taken with hpending | ⟨hfailing, hdrops⟩
  · obtain ⟨-, hphase⟩ := h.owed task (.inl hpending)
    refine ⟨hpaid, ?_, h.given hstarts hruns hpending hcomputed⟩
    exact fun hclearing => absurd (hphase.symm.trans hclearing) (awaited_ne_clearing task)
  · have hall : ∀ other, (s.step event).computedIn other = s.computedIn other := by
      intro other
      by_cases hself : other = task
      · refine computedIn_of_not_pending ?_
        rw [hself, hfailing]
        exact fun h => by cases h
      · exact hcomputed other hself
    obtain ⟨hvalues, hcleared⟩ := h.dropped hstarts hdrops hall
    exact ⟨hpaid, hcleared, hvalues⟩

theorem Attributed.runs (h : Attributed s) {task : Task}
    (hstarts : starts s.board event = false)
    (hmode : Keeps s.board.mode (Tasks.step s.board event).mode)
    (hruns : Runs s.board (Tasks.step s.board event) task) :
    Attributed (s.step event) := by
  obtain ⟨command, hrunning, hcommand⟩ := hruns.running
  refine ⟨?_, ?_, ?_, ?_⟩
  · intro running task' hr htask'
    obtain rfl := Option.some.inj (hrunning.symm.trans hr)
    obtain rfl := Option.some.inj htask'
    exact (hruns.occupied task).trans (if_pos rfl)
  · intro task' command' hr
    obtain ⟨rfl, rfl⟩ := Running.completing.inj (Option.some.inj (hrunning.symm.trans hr))
    exact hcommand.imp_left And.left
  · intro hr
    cases Option.some.inj (hrunning.symm.trans hr)
  · rcases hmode with hsame | hended
    · intro runner hrunner
      have hsession : session s.board.mode = some runner := hsame ▸ hrunner
      exact (h.inSession runner hsession).runs hstarts hruns
    · exact no_session hended

/-! ## Tasks that go on -/

/-- A session that is resumed where nothing is owed to it. -/
theorem InSession.resume {runner : CalibrationRunner K H P} (h : InSession s runner)
    (hstarts : starts s.board event = false)
    (hcomputed : ∀ task, (s.step event).computedIn task = s.computedIn task)
    (hpaid : ∀ task, ¬ Owed (Tasks.step s.board event) task)
    (hram : (Tasks.step s.board event).ram = s.board.ram) :
    InSession (s.step event) runner.resume := by
  refine ⟨fun task howed => absurd howed (hpaid task),
    fun hphase => absurd hphase (resume_phase runner), h.active.step hstarts ?_ hcomputed⟩
  rw [hram]
  exact ⟨rfl, rfl, rfl⟩

theorem Attributed.proceedPersisted (h : Attributed s)
    (hstarts : starts s.board event = false) {result : Except MemoryFault Unit}
    (hstep : Tasks.step s.board event = { s.board with
      mode := persistedMode result s.board.mode
      persistConfig := false
      running := none }) : Attributed (s.step event) := by
  have hoccupancy : ∀ task, occupancy (Tasks.step s.board event) task
      = occupancy s.board task := occupancy_of_eq hstep
  have hrest : (Tasks.step s.board event).running = none := congrArg Board.running hstep
  have hmode : (Tasks.step s.board event).mode = persistedMode result s.board.mode :=
    congrArg Board.mode hstep
  have hram : (Tasks.step s.board event).ram = s.board.ram :=
    (congrArg Board.ram hstep).trans rfl
  have howed : ∀ task, Owed (Tasks.step s.board event) task → Owed s.board task := by
    rintro task (hpending | ⟨command, hr, -⟩)
    · exact .inl ((hoccupancy task).symm.trans hpending)
    · exact nomatch hrest.symm.trans hr
  refine attributed_of_none hrest ?_
  -- a session that is clearing is owed nothing, so it can be resumed
  rcases persistedMode_cases result s.board.mode with
    hkept | ⟨-, runner, hbefore, hphase, hafter⟩
  · rw [← hmode] at hkept
    rcases hkept with hsame | hnone
    · intro runner hrunner
      have hsession : session s.board.mode = some runner := hsame ▸ hrunner
      refine (h.inSession runner hsession).keeps hstarts hoccupancy howed ?_
      rw [hram]
      exact ⟨rfl, rfl, rfl⟩
    · exact no_session hnone
  · intro runner' hrunner'
    have hresumed := (congrArg session (hmode.trans hafter)).symm.trans hrunner'
    obtain rfl := Option.some.inj hresumed
    have hin := h.inSession runner (by rw [hbefore]; rfl)
    refine hin.resume hstarts (fun task => computedIn_of_same (hoccupancy task)) ?_ hram
    intro task hpending
    obtain ⟨-, hawaited⟩ := hin.owed task (howed task hpending)
    exact absurd (hawaited.symm.trans hphase) (awaited_ne_clearing task)

/-- **COMPLETED**: the session that goes on is the one that has asked. -/
theorem Attributed.proceedCompleting (h : Attributed s)
    (hstarts : starts s.board event = false) {task : Task} {command : Command K}
    (hrunning : s.board.running = some (.completing task command))
    (hstep : Tasks.step s.board event = { s.board with
      mode := s.board.mode.after command
      running := some (.returning task) }) : Attributed (s.step event) := by
  have hoccupancy : ∀ task, occupancy (Tasks.step s.board event) task
      = occupancy s.board task := occupancy_of_eq hstep
  have hreturning : (Tasks.step s.board event).running = some (.returning task) :=
    congrArg Board.running hstep
  have hbusy : occupancy s.board task = .running := h.busy _ task hrunning rfl
  refine ⟨?_, ?_, ?_, ?_⟩
  · intro running task' hr htask'
    obtain rfl := Option.some.inj (hreturning.symm.trans hr)
    obtain rfl := Option.some.inj htask'
    exact (hoccupancy _).trans hbusy
  · intro task' command' hr
    cases Option.some.inj (hreturning.symm.trans hr)
  · intro hr
    cases Option.some.inj (hreturning.symm.trans hr)
  · have hmode : (Tasks.step s.board event).mode = s.board.mode.after command :=
      congrArg Board.mode hstep
    have hended : session (s.board.mode.after command) = none → ∀ runner,
        session (s.step event).board.mode = some runner → InSession (s.step event) runner :=
      fun hnone => no_session ((congrArg session hmode).trans hnone)
    -- the command resumes, finishes or faults; only the first leaves a session
    rcases h.commands task command hrunning with (rfl | rfl) | ⟨cause, rfl⟩
    · cases hbefore : s.board.mode with
      | calibration runner =>
          intro runner' hrunner'
          have hresumed := (congrArg session hmode).symm.trans hrunner'
          rw [hbefore] at hresumed
          obtain rfl := Option.some.inj hresumed
          have hin := h.inSession runner (by rw [hbefore]; rfl)
          obtain ⟨-, hphase⟩ := hin.owed task (.inr ⟨_, hrunning, .inl rfl⟩)
          refine hin.resume hstarts (fun task => computedIn_of_same (hoccupancy task)) ?_
            ((congrArg Board.ram hstep).trans rfl)
          rintro other (hpending | ⟨command', hr, -⟩)
          · have hpending := (hoccupancy other).symm.trans hpending
            -- another instance would wait for the same phase
            obtain ⟨-, hother⟩ := hin.owed other (.inl hpending)
            obtain rfl := awaited_injective (hother.symm.trans hphase)
            cases hbusy.symm.trans hpending
          · cases Option.some.inj (hreturning.symm.trans hr)
      | _ =>
          refine hended ?_
          rw [hbefore]
          rfl
    · refine hended ?_
      cases s.board.mode <;> rfl
    · exact hended (session_of_isFault (assertFault_isFault _ _))

theorem Attributed.proceedReturning (h : Attributed s)
    (hstarts : starts s.board event = false) {task : Task}
    (hrunning : s.board.running = some (.returning task))
    (hstep : Tasks.step s.board event = returned s.board task) :
    Attributed (s.step event) := by
  obtain ⟨hsessions, -⟩ := sessions_of_not_starts hstarts
  have hbusy : occupancy s.board task = .running := h.busy _ task hrunning rfl
  obtain ⟨hmode, hram, hrest, hoccupancy⟩ := returned_frame s.board task
  rw [← hstep] at hmode hram hrest hoccupancy
  -- the instance that returns becomes free, which gives no value
  have hother : ∀ other, other ≠ task →
      occupancy (Tasks.step s.board event) other = occupancy s.board other :=
    fun other hne => (hoccupancy other).trans (if_neg hne)
  have hcomputed : ∀ other, (s.step event).computedIn other = s.computedIn other := by
    intro other
    by_cases hsame : other = task
    · refine computedIn_of_not_pending ?_
      rw [hsame, hbusy]
      exact fun h => by cases h
    · exact computedIn_of_same (hother other hsame)
  have hvalues : SameValues s.board.ram (Tasks.step s.board event).ram := by
    rw [hram]
    exact ⟨rfl, rfl, rfl⟩
  refine attributed_of_none hrest ?_
  intro runner hrunner
  have hin := h.inSession runner ((congrArg session hmode).symm.trans hrunner)
  refine ⟨?_, fun hphase => (hin.clearing hphase).step hstarts hvalues,
    hin.active.step hstarts hvalues hcomputed⟩
  rintro other (hpending | ⟨command, hr, -⟩)
  · have hne : other ≠ task := by
      rintro rfl
      cases ((hoccupancy other).symm.trans hpending).symm.trans (if_pos rfl)
    rw [requestedIn_of_same (hother other hne), hsessions]
    exact hin.owed other (.inl ((hother other hne).symm.trans hpending))
  · exact nomatch hrest.symm.trans hr

/-- **STEP**: every event keeps the invariant, a start if no instance is pending. -/
theorem Attributed.step (h : Attributed s) (hclean : StartsClean s event) :
    Attributed (s.step event) := by
  have hruns : ∀ {next : Board K H P} {task : Task},
      Tasks.step s.board event = ifIdle s.board next → starts s.board event = false →
      Keeps s.board.mode (Tasks.step s.board event).mode →
      (next = s.board ∨ Runs s.board next task) → Attributed (s.step event) := by
    intro next task hstep hstarts hmode hnext
    rcases ifIdle_cases s.board next with hsame | ⟨-, hidle⟩
    · exact h.same hstarts (hstep.trans hsame)
    · have hboard := hstep.trans hidle
      rcases hnext with hsame | hruns
      · exact h.same hstarts (hboard.trans hsame)
      · exact h.runs hstarts hmode (hboard ▸ hruns)
  have hmode := mode_keeps s.board event
  cases event with
  | tick t => exact h.tick t
  | assertFault cause =>
      exact h.moves rfl (.inr (session_of_isFault (assertFault_isFault _ cause))) rfl
  | operatingModeRequest requested =>
      cases hstarts : starts s.board
          (.operatingModeRequest requested : BoardEvent K F A E) with
      | true => exact attributed_start hstarts (hclean hstarts)
      | false =>
          exact h.request hstarts
            (hmode (fun t ht => by cases ht) (fun he => by cases he) hstarts)
  | config message => exact h.config rfl rfl
  | persistConfig stores =>
      rcases ifIdle_cases s.board (persistConfig s.board stores) with hsame | ⟨-, hnext⟩
      · exact h.same rfl hsame
      · have hboard : Tasks.step s.board (.persistConfig stores : BoardEvent K F A E)
            = persistConfig s.board stores := hnext
        rw [persistConfig] at hboard
        split at hboard
        · exact h.same rfl hboard
        · exact h.persist rfl hboard
  | storeHallTable store =>
      have hkeeps := hmode (fun t ht => by cases ht) (fun he => by cases he) rfl
      exact hruns rfl rfl hkeeps (storeHallTable_runs s.board store)
  | tunePi store =>
      have hkeeps := hmode (fun t ht => by cases ht) (fun he => by cases he) rfl
      exact hruns rfl rfl hkeeps (tunePi_runs s.board store)
  | storeMotorParams store =>
      have hkeeps := hmode (fun t ht => by cases ht) (fun he => by cases he) rfl
      exact hruns rfl rfl hkeeps (storeMotorParams_runs s.board store)
  | proceed =>
      cases hrunning : s.board.running with
      | none =>
          refine h.same rfl ?_
          rw [Tasks.step, Tasks.proceed, hrunning]
      | some running =>
          cases running with
          | persistConfig result =>
              refine h.proceedPersisted rfl (?_ : _ = { s.board with
                mode := persistedMode result s.board.mode
                persistConfig := false
                running := none })
              rw [Tasks.step, Tasks.proceed, hrunning]
          | completing task command =>
              refine h.proceedCompleting rfl hrunning ?_
              rw [Tasks.step, Tasks.proceed, hrunning]
          | returning task =>
              refine h.proceedReturning rfl hrunning ?_
              rw [Tasks.step, Tasks.proceed, hrunning]

/-! ## Runs -/

/-- Only `persist_config` takes a session on from where it waits for its clearing. -/
theorem leaves_clearing (h : Attributed s) {runner runner' : CalibrationRunner K H P}
    (hbefore : s.board.mode = .calibration runner)
    (hphase : runner.phase = .clearingExistingParameters)
    (hafter : (s.step event).board.mode = .calibration runner')
    (hleft : runner'.phase ≠ .clearingExistingParameters) :
    event = .proceed ∧ s.board.running = some (.persistConfig (.ok ())) := by
  have hsession : session s.board.mode = some runner := by rw [hbefore]; rfl
  have hsession' : session (Tasks.step s.board event).mode = some runner' :=
    (congrArg session hafter).trans rfl
  have hin := h.inSession runner hsession
  -- an event that keeps the session or ends it does not take it on
  have hstays : ¬ Keeps s.board.mode (Tasks.step s.board event).mode := by
    rintro (hsame | hnone)
    · rw [hsame, hsession] at hsession'
      obtain rfl := Option.some.inj hsession'
      exact hleft hphase
    · exact nomatch hnone.symm.trans hsession'
  by_cases htick : ∃ t, event = .tick t
  · obtain ⟨t, rfl⟩ := htick
    obtain ⟨stepped, hstepped, hmoves⟩ := sharedAdcIsr_session hsession'
    obtain rfl := Option.some.inj (hsession.symm.trans hstepped)
    exact absurd ((hmoves.waits (.inl hphase)).2.trans hphase) hleft
  · by_cases hproceed : event = .proceed
    · subst hproceed
      refine ⟨rfl, ?_⟩
      cases hrunning : s.board.running with
      | none =>
          refine absurd (.inl ?_) hstays
          rw [Tasks.step, proceed, hrunning]
      | some running =>
          cases running with
          | persistConfig result =>
              cases result with
              | ok done => rfl
              | error fault =>
                  refine absurd (.inr ?_) hstays
                  rw [Tasks.step, proceed, hrunning]
                  exact session_of_isFault (assertFault_isFault _ _)
          | returning task =>
              refine absurd (.inl ?_) hstays
              rw [Tasks.step, proceed, hrunning]
              exact (returned_frame s.board task).1
          | completing task command =>
              rcases h.commands task command hrunning with hcontinues | ⟨cause, rfl⟩
              · obtain ⟨-, hawaited⟩ := hin.owed task (.inr ⟨command, hrunning, hcontinues⟩)
                exact absurd (hawaited.symm.trans hphase) (awaited_ne_clearing task)
              · refine absurd (.inr ?_) hstays
                rw [Tasks.step, proceed, hrunning]
                exact session_of_isFault (assertFault_isFault _ _)
    · cases hstarts : starts s.board event with
      | true =>
          -- a session that goes on is not started again
          exact nomatch (start_frame hstarts).2.1.symm.trans hsession
      | false =>
          exact absurd (mode_keeps s.board event (fun t ht => htick ⟨t, ht⟩) hproceed hstarts)
            hstays

theorem Attributed.keepsToSession (h : Attributed s) (hclean : StartsClean s event) :
    KeepsToSession s event where
  completion task command runner hevent hrunning hcontinues hmode _ :=
    (h.inSession runner (by rw [hmode]; rfl)).owed task (.inr ⟨command, hrunning, hcontinues⟩)
  persisted hevent hrunning hne := by
    subst hevent
    cases hclearing : isClearing s.board.mode with
    | true => rfl
    | false =>
        refine absurd ?_ hne
        show (proceed s.board).mode = _
        rw [proceed, hrunning]
        exact if_neg (by rw [hclearing]; exact Bool.false_ne_true)
  cleared hclearing hafter hleft := by
    obtain ⟨runner, hbefore, hphase⟩ := isClearing_iff.mp hclearing
    obtain ⟨runner', hafter⟩ := hafter
    have hphase' : runner'.phase ≠ .clearingExistingParameters := by
      intro hstill
      have htrue := isClearing_iff.mpr ⟨runner', hafter, hstill⟩
      rw [hleft] at htrue
      cases htrue
    obtain ⟨rfl, hrunning⟩ := leaves_clearing h hbefore hphase hafter hphase'
    obtain ⟨hparams, hgains, hhall⟩ := (h.inSession runner (by rw [hbefore]; rfl)).clearing
      hphase
    have hstored := h.stored hrunning
    have hflash : (s.step (.proceed : BoardEvent K F A E)).board.flash = s.board.flash :=
      (proceed_frame s.board).2
    refine ⟨?_, ?_, ?_⟩
    · rw [hflash, hstored.motorParameters, hparams]
      rfl
    · rw [hflash, hstored.piGains, hgains]
    · rw [hflash, hstored.hallCalibration, hhall]
  active hafter := by
    obtain ⟨runner, hrunner⟩ := hafter
    exact ((h.step hclean).inSession runner (by rw [hrunner]; rfl)).active

theorem attributed_init (flash : Flash K) (causes : List FaultCause) :
    Attributed (Traced.init flash causes : Traced K H P) := by
  refine attributed_of_none rfl ?_
  have hnone : session (Board.init flash causes : Board K H P).mode = none := by
    show session (causes.foldl (fun mode cause => mode.after (.assertFault cause)) _) = none
    induction causes using List.reverseRecOn with
    | nil => rfl
    | append_singleton causes cause ih =>
        rw [List.foldl_append]
        exact session_of_isFault (assertFault_isFault _ cause)
  exact no_session hnone

/-- **SESSIONS ARE KEPT APART**: along a run in which every start finds no instance
    pending, a completing task goes on only with the session and the phase that
    requested it; a session goes on from its clearing only with what its start has
    left in the flash; and no value of another session is active in it. -/
theorem completions_keep_session (flash : Flash K) (causes : List FaultCause)
    (events : List (BoardEvent K F A E))
    (hclean : Always Traced.step StartsClean (.init flash causes : Traced K H P) events) :
    Always Traced.step KeepsToSession (.init flash causes : Traced K H P) events :=
  always_of_while (fun _ _ h hstart => h.step hstart) (fun _ _ h hstart => h.keepsToSession hstart)
    events _ (attributed_init flash causes) hclean

/-! ## Starts that are not clean -/

/-- What was requested was requested in a session that has started. -/
theorem requestedIn_le (h : ∀ task, s.requestedIn task ≤ s.sessions)
    (event : BoardEvent K F A E) (task : Task) :
    (s.step event).requestedIn task ≤ (s.step event).sessions := by
  have hgrows : s.sessions ≤ (s.step event).sessions := by
    show _ ≤ (if _ then _ else _)
    split
    · exact Nat.le_succ _
    · exact Nat.le_refl _
  refine Nat.le_trans ?_ hgrows
  show (if _ then _ else _) ≤ _
  split
  · exact Nat.le_refl _
  · exact h task

/-- A pending instance can come to its command. -/
theorem pending_goes {board : Board K H P} {task : Task} (hnone : board.running = none)
    (hpending : occupancy board task = .pending)
    (hset : ∀ estimate gains, board.tunePi = .pending estimate →
      tunedGains estimate = .ok gains →
      setPiGains fieldWeakeningBandwidthHz (some gains) = .ok ()) :
    ∃ (event : BoardEvent K F A E) (command : Command K),
      starts board event = false ∧ (Tasks.step board event).mode = board.mode ∧
        (Tasks.step board event).running = some (.completing task command) ∧
        Continues command := by
  cases task with
  | storeHallTable =>
      refine ⟨.storeHallTable .ok, .resumeCalibration, rfl, ?_⟩
      rw [Tasks.step, ifIdle, hnone]
      cases hslot : board.storeHallTable with
      | pending angleTable =>
          dsimp only
          rw [storeHallTable, hslot]
          exact ⟨rfl, rfl, .inl rfl⟩
      | _ =>
          rw [occupancy, hslot] at hpending
          cases hpending
  | storeMotorParams =>
      refine ⟨.storeMotorParams .ok, .finishCalibration, rfl, ?_⟩
      rw [Tasks.step, ifIdle, hnone]
      cases hslot : board.storeMotorParams with
      | pending parameters =>
          dsimp only
          rw [storeMotorParams, hslot]
          exact ⟨rfl, rfl, .inr rfl⟩
      | _ =>
          rw [occupancy, hslot] at hpending
          cases hpending
  | tunePi =>
      refine ⟨.tunePi .ok, .resumeCalibration, rfl, ?_⟩
      rw [Tasks.step, ifIdle, hnone]
      cases hslot : board.tunePi with
      | pending estimate =>
          rw [occupancy, hslot, occupancyOf] at hpending
          cases hgains : tunedGains estimate with
          | ok gains =>
              dsimp only
              rw [tunePi, hslot]
              dsimp only
              rw [hgains]
              refine ⟨?_, rfl, .inl rfl⟩
              dsimp only
              rw [setGainsMode, hset estimate gains hslot hgains]
          | error fault =>
              rw [hgains] at hpending
              cases hpending
      | _ =>
          rw [occupancy, hslot] at hpending
          cases hpending

/-- A stale completion that a start finds pending is taken for one of the session that
    it starts. -/
theorem stale_breaks {task : Task} (hle : s.requestedIn task ≤ s.sessions)
    (hstarts : starts s.board event = true) (hpending : occupancy s.board task = .pending)
    (hset : ∀ estimate gains, s.board.tunePi = .pending estimate →
      tunedGains estimate = .ok gains →
      setPiGains fieldWeakeningBandwidthHz (some gains) = .ok ()) :
    ∃ first : BoardEvent K F A E, ¬ KeepsToSession ((s.step event).step first)
      (.proceed : BoardEvent K F A E) := by
  obtain ⟨hrunning, -, runner, hphase, hboard⟩ := start_frame hstarts
  generalize hs' : s.step event = s'
  have hboard' : s'.board = _ := (congrArg Traced.board hs').symm.trans hboard
  have hpending' : occupancy s'.board task = .pending :=
    (occupancy_of_eq hboard' task).trans hpending
  have hsessions : s'.sessions = s.sessions + 1 := by
    rw [← hs']
    exact if_pos hstarts
  -- the instance was requested before the start, and still is
  have hrequested : s'.requestedIn task = s.requestedIn task := by
    rw [← hs']
    refine requestedIn_of_occupied ?_
    rw [hpending]
    exact fun h => by cases h
  have hnone : s'.board.running = none := (congrArg Board.running hboard').trans hrunning
  have hmode : s'.board.mode = .calibration runner := congrArg Board.mode hboard'
  obtain ⟨first, command, hfirst, hkept, hcompleting, hcontinues⟩ :=
    pending_goes (F := F) (A := A) (E := E) hnone hpending'
      (by rw [hboard']; exact hset)
  refine ⟨first, fun hkeeps => ?_⟩
  have hmode' : (s'.step first).board.mode = .calibration runner := hkept.trans hmode
  -- its command takes the session on, from the phase that only a store may end
  have hmoves : (s'.step first).board.mode.after command ≠ (s'.step first).board.mode := by
    rw [hmode']
    intro hsame
    rcases hcontinues with rfl | rfl
    · have hresumed := congrArg session hsame
      have hsame : runner.resume = runner := Option.some.inj hresumed
      exact resume_phase runner (by rw [hsame]; exact hphase)
    · cases hsame
  obtain ⟨hown, -⟩ := hkeeps.completion task command runner rfl hcompleting hcontinues hmode'
    hmoves
  have hstill : (s'.step first).requestedIn task = s'.requestedIn task := by
    refine requestedIn_of_occupied ?_
    rw [hpending']
    exact fun h => by cases h
  rw [hstill, (sessions_of_not_starts hfirst).1, hrequested, hsessions] at hown
  omega

/-- **THE CONDITION IS NEEDED**: in any run, a start that finds an instance pending with
    a value to give can be followed by its completion, and that goes on with the wrong
    session. -/
theorem unclean_start_breaks (flash : Flash K) (causes : List FaultCause)
    (events : List (BoardEvent K F A E)) (event : BoardEvent K F A E)
    (hunclean :
      ¬ StartsClean (run Traced.step (.init flash causes : Traced K H P) events) event)
    (hset : ∀ gains : ControllerParameters K, ∀ estimate, tunedGains estimate = .ok gains →
      setPiGains fieldWeakeningBandwidthHz (some gains) = .ok ()) :
    ∃ later : List (BoardEvent K F A E),
      ¬ Always Traced.step KeepsToSession (.init flash causes : Traced K H P)
        (events ++ event :: later) := by
  -- requests are noted with sessions that have started
  have hle : ∀ task, (run Traced.step (.init flash causes : Traced K H P) events).requestedIn
      task ≤ (run Traced.step (.init flash causes : Traced K H P) events).sessions := by
    refine run_keeps (A := fun _ => True)
      (I := fun s : Traced K H P => ∀ task, s.requestedIn task ≤ s.sessions) ?_ events _
      (fun _ _ => trivial) (fun _ => Nat.le_refl _)
    exact fun s event _ h => requestedIn_le h event
  rw [StartsClean, not_forall] at hunclean
  obtain ⟨hstarts, hpending⟩ := hunclean
  obtain ⟨task, hpending⟩ := not_forall.mp hpending
  obtain ⟨first, hbreaks⟩ := stale_breaks (hle task) hstarts (not_not.mp hpending)
    (fun estimate gains _ h => hset gains estimate h)
  refine ⟨[first, .proceed], fun hall => hbreaks ?_⟩
  have hlast := (always_iff _ _).mp hall (events ++ [event, first]) .proceed [] (by simp)
  rwa [run_append] at hlast

/-! ## A stale completion -/

abbrev TracedQ : Type := Traced ℚ (MockHall ℚ) (OhmEstimator ℚ)

abbrev EventQ : Type :=
  BoardEvent ℚ (MockController ℚ) (MockAccelerator ℚ) (SinusoidalPulsingEstimator ℚ)

/-- A flash that holds the pole pairs of the motor. -/
def flashQ : Flash ℚ where
  config := none
  motorParameters := some ⟨some 7, none, none, none, none, none⟩
  piGains := none
  hallCalibration := none

/-- Stores that succeed. -/
def storesQ : Persisted ℚ := ⟨.ok, .ok, .ok, .ok⟩

/-- A tick with the parameters of a motor that is being calibrated. -/
def calibrationTickQ : EventQ :=
  .tick
    { tickQ (.ok ⟨.electrical, 1, 0⟩) none with
      params := ⟨some 7, none, none, none, none, none⟩ }

/-- A session up to the tuning that it requests. -/
def tuningQ : List EventQ :=
  [.operatingModeRequest .calibration, .persistConfig storesQ, .proceed, calibrationTickQ]

/-- A session that is tuned, cancelled and started again. -/
theorem tuned_session_kept :
    Always Traced.step KeepsToSession (.init flashQ [] : TracedQ)
      (tuningQ ++ [.tunePi .ok, .proceed, .proceed,
        .operatingModeRequest .cancelCalibration, .operatingModeRequest .calibration]) := by
  refine completions_keep_session flashQ [] _ ?_
  refine ⟨fun _ task => ?_, fun h => ?_, fun h => ?_, fun h => ?_, fun h => ?_, fun h => ?_,
    fun h => ?_, fun h => ?_, fun _ task => ?_, trivial⟩
  · cases task <;> decide +kernel
  · cases h
  · cases h
  · cases h
  · cases h
  · cases h
  · cases h
  · exact absurd h (by decide +kernel)
  · cases task <;> decide +kernel

/-- A configuration that is to be stored while a session goes on waits, and the session
    is tuned; one batch of frames cancels the session and starts another. -/
def restartedQ : TracedQ :=
  run Traced.step (.init flashQ [])
    ([.operatingModeRequest .calibration, .persistConfig storesQ, .proceed,
      .config (.protectionLimits2 60 80), calibrationTickQ,
      .operatingModeRequest .cancelCalibration, .operatingModeRequest .calibration,
      .tunePi .ok] : List EventQ)

/-- The tuning that the first session has asked for takes the second from its clearing,
    before anything of its start is stored, with the first's gains. -/
theorem stale_tuning_resumes :
    (restartedQ.sessions = 2 ∧ restartedQ.requestedIn .tunePi = 1 ∧
      isClearing restartedQ.board.mode = true ∧
      isClearing (restartedQ.step (.proceed : EventQ)).board.mode = false) ∧
      ¬ KeepsToSession restartedQ (.proceed : EventQ) ∧
      ¬ ∀ events : List EventQ,
        Always Traced.step KeepsToSession (.init flashQ [] : TracedQ) events := by
  have hnot : ¬ KeepsToSession restartedQ (.proceed : EventQ) := by
    intro h
    have hsession : (session (restartedQ.step (.proceed : EventQ)).board.mode).isSome = true := by
      decide +kernel
    obtain ⟨runner, hrunner⟩ := Option.isSome_iff_exists.mp hsession
    have hstored := h.cleared (by decide +kernel) ⟨runner, eq_of_session hrunner⟩
      (by decide +kernel)
    exact absurd hstored.2.1 (by decide +kernel)
  refine ⟨?_, hnot, ?_⟩
  · decide +kernel
  · intro hall
    exact hnot ((always_snoc _ _ _).mp (hall _)).2

end TaskProofs
