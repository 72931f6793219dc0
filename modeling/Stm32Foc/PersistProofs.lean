import Stm32Foc.TaskProofs

/-! # What a reboot would load

    A change of the values in RAM is stored by the task that makes it, or has
    `persist_config` spawned; a spawn that is dropped is made up for by the instance
    that is pending, whose snapshot comes later.  A tuning that fails does neither. -/

namespace PersistProofs

open EventRun FieldOriented Faults SafeStrategy Calibration Modes Control Saliency
open FirmwareTypes CanConfig Tuning TickProofs SessionProofs Tasks TaskProofs

variable {K : Type} [Field K] [LinearOrder K] {H P : Type} [HallCalibrates H K]
  [EstimatesMotorParams P K] {F A E : Type} [CurrentController F K] [DoesFocMath A K]
  [SaliencyBasedEstimator E K]

/-! ## The invariant -/

/-- The flash holds what the RAM holds, or `persist_config` is still to see to it. -/
structure Covered (board : Board K H P) : Prop where
  held : board.persistConfig = true ∨ board.flash.load = board.ram
  stored : ∀ result, board.running = some (.persistConfig result) →
    board.flash.load = board.ram

variable {board : Board K H P}

omit [HallCalibrates H K] [EstimatesMotorParams P K] in
/-- What keeps the values and their records keeps the invariant. -/
theorem Covered.congr {board' : Board K H P} (h : Covered board)
    (hram : board'.ram = board.ram) (hflash : board'.flash = board.flash)
    (hpersist : board'.persistConfig = board.persistConfig)
    (hrunning : ∀ result, board'.running = some (.persistConfig result) →
      board.running = some (.persistConfig result)) : Covered board' := by
  refine ⟨?_, ?_⟩
  · rw [hram, hflash, hpersist]
    exact h.held
  · intro result hr
    rw [hram, hflash]
    exact h.stored result (hrunning result hr)

omit [HallCalibrates H K] [EstimatesMotorParams P K] in
/-- A task that sets a value and stores it, in the same way. -/
theorem Covered.stores {board' : Board K H P} (h : Covered board)
    (hload : board.flash.load = board.ram → board'.flash.load = board'.ram)
    (hpersist : board'.persistConfig = board.persistConfig)
    (hrunning : ∀ result, board'.running ≠ some (.persistConfig result)) :
    Covered board' := by
  refine ⟨?_, fun result hr => absurd hr (hrunning result)⟩
  rw [hpersist]
  exact h.held.imp_right hload

omit [HallCalibrates H K] [EstimatesMotorParams P K] in
theorem Covered.ifIdle {next : Board K H P} (h : Covered board)
    (hnext : board.running = none → Covered next) : Covered (ifIdle board next) := by
  rcases ifIdle_cases board next with hsame | ⟨hnone, hsame⟩
  · rw [hsame]
    exact h
  · rw [hsame]
    exact hnext hnone

/-- A store that succeeds leaves its value. -/
theorem record_of_ok {R : Type} {store : Stored R} (h : store.result = .ok ()) (value : R) :
    store.record value = some value := by
  cases store with
  | ok => rfl
  | failed fault left => cases h

/-! ## Messages -/

/-- A message that spawns nothing changes nothing. -/
theorem handle_unspawned (ram : Ram K) (message : ConfigMessage K)
    (h : (handle ram message).2 = false) : (handle ram message).1 = ram := by
  rw [handle] at h ⊢
  cases hcandidate : candidate ram.config message with
  | error fault => rfl
  | ok config =>
      rw [hcandidate] at h
      -- every handler that accepts its message spawns `persist_config`
      cases message <;> cases h

theorem Covered.config (h : Covered board) (hnone : board.running = none)
    (message : ConfigMessage K) : Covered (configFrame board message) := by
  rw [configFrame]
  split
  · exact h
  · refine ⟨?_, fun result hr => by cases hnone.symm.trans hr⟩
    dsimp only
    -- a spawn that finds an instance pending is covered by that instance
    cases hspawns : (handle board.ram message).2 with
    | true => exact .inl (Bool.or_true _)
    | false =>
        rw [handle_unspawned board.ram message hspawns, Bool.or_false]
        exact h.held

theorem Covered.request (h : Covered board) (hnone : board.running = none)
    (requested : RequestedMode) : Covered (operatingModeRequest board requested) := by
  rw [operatingModeRequest]
  split
  · exact ⟨.inl rfl, fun result hr => by cases hnone.symm.trans hr⟩
  · exact h.congr rfl rfl rfl (fun _ hr => hr)

/-! ## Tasks -/

/-- The snapshot of `persist_config` is what a reboot would load. -/
theorem records_load {stores : Persisted K} (h : stores.result = .ok ()) (ram : Ram K) :
    (stores.records ram).load = ram := by
  obtain ⟨config, motorParameters, piGains, hallCalibration⟩ := stores
  cases config with
  | failed fault left => cases h
  | ok =>
      obtain ⟨hparams, hgains, hhall⟩ := records_hold h ram
      rw [Flash.load, hparams, hgains, hhall]
      rfl

theorem Covered.persist (h : Covered board) {stores : Persisted K}
    (hstores : stores.result = .ok ()) : Covered (persistConfig board stores) := by
  rw [persistConfig]
  split
  · exact h
  · exact ⟨.inr (records_load hstores _), fun _ _ => records_load hstores _⟩

omit [HallCalibrates H K] [EstimatesMotorParams P K] in
theorem Covered.storeHallTable (h : Covered board)
    {store : Stored (Option (HallCalibration K))} (hstore : store.result = .ok ()) :
    Covered (storeHallTable board store) := by
  rw [Tasks.storeHallTable]
  split
  · refine h.stores ?_ rfl (fun result hr => by cases hr)
    intro hload
    rw [record_of_ok hstore, ← hload]
    rfl
  · exact h

omit [HallCalibrates H K] [EstimatesMotorParams P K] in
theorem Covered.storeMotorParams (h : Covered board)
    {store : Stored (MotorParamsEstimate K)} (hstore : store.result = .ok ()) :
    Covered (storeMotorParams board store) := by
  rw [Tasks.storeMotorParams]
  split
  · refine h.stores ?_ rfl (fun result hr => by cases hr)
    intro hload
    rw [record_of_ok hstore, ← hload]
    rfl
  · exact h

theorem Covered.proceed (h : Covered board) : Covered (proceed board) := by
  rw [Tasks.proceed]
  split
  · exact h
  · rename_i result hrunning
    exact ⟨.inr (h.stored result hrunning), fun result hr => by cases hr⟩
  · exact h.congr rfl rfl rfl (fun result hr => by cases hr)
  · rename_i task hrunning
    cases task <;> exact h.congr rfl rfl rfl (fun result hr => by cases hr)

/-! ## What is asked of a run -/

variable [TunesPi K]

/-- No task is pending or runs, and no message is half-handled. -/
structure Quiet (board : Board K H P) : Prop where
  running : board.running = none
  persistConfig : board.persistConfig = false
  tasks : ∀ task, occupancy board task = .free

/-- The stores of the event succeed. -/
def StoresSucceed : BoardEvent K F A E → Prop
  | .persistConfig stores => stores.result = .ok ()
  | .storeHallTable store => store.result = .ok ()
  | .tunePi store => store.result = .ok ()
  | .storeMotorParams store => store.result = .ok ()
  | _ => True

/-- A pending tuning cannot be computed. -/
def tuningFails (board : Board K H P) : Bool :=
  match board.running, board.tunePi with
  | none, .pending estimate => !(tunedGains estimate).isOk
  | _, _ => false

/-- A tuning that fails finds `persist_config` pending, or no gains in the flash. -/
def FailsCovered (board : Board K H P) : BoardEvent K F A E → Prop
  | .tunePi _ => tuningFails board = true →
      board.persistConfig = true ∨ board.flash.load.piGains = none
  | _ => True

/-! ## Runs -/

/-- **TUNING**: gains that are computed are stored; where they cannot be, none were
    stored before, or `persist_config` is still to see to it. -/
theorem Covered.tunePi (h : Covered board) (hnone : board.running = none)
    {store : Stored (Option (ControllerParameters K))} (hstore : store.result = .ok ())
    (hfails : tuningFails board = true →
      board.persistConfig = true ∨ board.flash.load.piGains = none) :
    Covered (tunePi board store) := by
  rw [Tasks.tunePi]
  cases hslot : board.tunePi with
  | pending estimate =>
      dsimp only
      cases hgains : tunedGains estimate with
      | ok gains =>
          refine h.stores ?_ rfl (fun result hr => by cases hr)
          intro hload
          dsimp only
          rw [record_of_ok hstore, ← hload]
          rfl
      | error fault =>
          -- the gains are dropped from the RAM and stay in the flash
          have hfail : tuningFails board = true := by
            rw [tuningFails, hnone, hslot]
            dsimp only
            rw [hgains]
            rfl
          rcases hfails hfail with hpersist | hnothing
          · exact ⟨.inl hpersist, fun result hr => by cases hr⟩
          · refine h.stores ?_ rfl (fun result hr => by cases hr)
            intro hload
            rw [← hload, ← hnothing]
  | _ => exact h

/-- **STEP**: every event keeps the invariant. -/
theorem Covered.step (h : Covered board) {event : BoardEvent K F A E}
    (hstores : StoresSucceed event) (hfails : FailsCovered board event) :
    Covered (Tasks.step board event) := by
  cases event with
  | tick t =>
      obtain ⟨hram, hflash, hpersist, hrunning, -⟩ := sharedAdcIsr_frame board t
      exact h.congr hram hflash hpersist (fun result hr => hrunning.symm.trans hr)
  | assertFault cause => exact h.congr rfl rfl rfl (fun _ hr => hr)
  | operatingModeRequest requested => exact h.ifIdle (fun hnone => h.request hnone requested)
  | config message => exact h.ifIdle (fun hnone => h.config hnone message)
  | persistConfig stores => exact h.ifIdle (fun _ => h.persist hstores)
  | storeHallTable store => exact h.ifIdle (fun _ => h.storeHallTable hstores)
  | tunePi store => exact h.ifIdle (fun hnone => h.tunePi hnone hstores hfails)
  | storeMotorParams store => exact h.ifIdle (fun _ => h.storeMotorParams hstores)
  | proceed => exact h.proceed

/-- **NO UPDATE IS LOST**: in a run whose stores succeed and in which a tuning that
    fails finds `persist_config` pending, or no gains in the flash, a reboot of a board
    that is quiet would load exactly what is in RAM. -/
theorem quiet_board_loads (flash : Flash K) (causes : List FaultCause)
    (events : List (BoardEvent K F A E)) (hstores : ∀ event ∈ events, StoresSucceed event)
    (hfails : Always Tasks.step FailsCovered (.init flash causes : Board K H P) events)
    (hquiet : Quiet (run Tasks.step (.init flash causes : Board K H P) events)) :
    (run Tasks.step (.init flash causes : Board K H P) events).flash.load
      = (run Tasks.step (.init flash causes : Board K H P) events).ram := by
  have hcovered : Covered (run Tasks.step (.init flash causes : Board K H P) events) := by
    refine run_keeps_while (A := StoresSucceed) (P := FailsCovered) ?_ events _ hstores
      ⟨.inr rfl, fun _ hr => by cases hr⟩ hfails
    exact fun board event hstore h hfail => h.step hstore hfail
  -- where the board is quiet no `persist_config` is pending
  rcases hcovered.held with hpersist | hload
  · rw [hquiet.persistConfig] at hpersist
    cases hpersist
  · exact hload

/-- **THE CONDITION IS NEEDED**: a tuning that fails otherwise, with nothing else pending,
    leaves a quiet board that a reboot would not load. -/
theorem uncovered_not_loaded (store : Stored (Option (ControllerParameters K)))
    (hfails : ¬ FailsCovered board (.tunePi store : BoardEvent K F A E))
    (hhall : occupancy board .storeHallTable = .free)
    (hparams : occupancy board .storeMotorParams = .free) :
    let after := run Tasks.step board
      ([.tunePi store, .proceed, .proceed] : List (BoardEvent K F A E))
    Quiet after ∧ after.flash.load ≠ after.ram := by
  intro after
  rw [FailsCovered, Classical.not_imp, not_or] at hfails
  obtain ⟨hfail, hpersist, hstored⟩ := hfails
  rw [tuningFails] at hfail
  cases hnone : board.running with
  | some running =>
      rw [hnone] at hfail
      cases hfail
  | none =>
      cases hslot : board.tunePi with
      | pending estimate =>
          rw [hnone, hslot] at hfail
          dsimp only at hfail
          cases hgains : tunedGains estimate with
          | ok gains =>
              rw [hgains] at hfail
              cases hfail
          | error fault =>
              have hrun : after = { board with
                  mode := board.mode.after (.assertFault fault.toFaultCause)
                  ram := { board.ram with piGains := none }
                  tunePi := .free
                  running := none } := by
                show proceed (proceed (ifIdle board (tunePi board store))) = _
                rw [ifIdle, hnone]
                dsimp only
                rw [tunePi, hslot]
                dsimp only
                rw [hgains]
                rfl
              rw [hrun]
              refine ⟨⟨rfl, eq_false_of_ne_true hpersist, ?_⟩, ?_⟩
              · intro task
                cases task with
                | storeHallTable => exact hhall
                | tunePi => rfl
                | storeMotorParams => exact hparams
              · exact fun hload => hstored (congrArg Ram.piGains hload)
      | _ =>
          rw [hnone, hslot] at hfail
          cases hfail

/-! ## A tuning that fails -/

abbrev BoardQ : Type := Board ℚ (MockHall ℚ) (OhmEstimator ℚ)

/-- A session that is tuned. -/
theorem tuned_board_loads :
    (run Tasks.step (.init flashQ [] : BoardQ)
        (tuningQ ++ [.tunePi .ok, .proceed, .proceed])).flash.load
      = (run Tasks.step (.init flashQ [] : BoardQ)
        (tuningQ ++ [.tunePi .ok, .proceed, .proceed])).ram := by
  refine quiet_board_loads flashQ [] _ ?_ ?_ ?_
  · simp only [tuningQ, List.forall_mem_append, List.forall_mem_cons]
    exact ⟨⟨trivial, rfl, trivial, trivial, List.forall_mem_nil _⟩, rfl, trivial, trivial,
      List.forall_mem_nil _⟩
  · refine ⟨trivial, trivial, trivial, trivial, fun h => ?_, trivial, trivial, trivial⟩
    exact absurd h (by decide +kernel)
  · refine ⟨Option.isNone_iff_eq_none.mp (by decide +kernel), by decide +kernel, ?_⟩
    intro task
    cases task <;> decide +kernel

/-- One batch of frames cancels the session whose tuning is pending and starts another,
    for a motor of 240 Ω, which cannot be tuned. -/
def untunableQ : List EventQ :=
  tuningQ ++ [.operatingModeRequest .cancelCalibration,
    .config (.calibrationTargets 24 0.1 1 1), .operatingModeRequest .calibration,
    .persistConfig storesQ, .proceed, .tunePi .ok, .proceed, .proceed, calibrationTickQ,
    .tunePi .ok, .proceed, .proceed]

/-- The second tuning drops the gains that the first has stored meanwhile: a reboot
    would load them. -/
theorem untunable_not_loaded :
    ¬ ∀ events : List EventQ, (∀ event ∈ events, StoresSucceed event) →
      Quiet (run Tasks.step (.init flashQ [] : BoardQ) events) →
      (run Tasks.step (.init flashQ [] : BoardQ) events).flash.load
        = (run Tasks.step (.init flashQ [] : BoardQ) events).ram := by
  intro hall
  have hload := hall untunableQ ?_ ?_
  · have hgains := congrArg Ram.piGains hload
    exact absurd hgains (by decide +kernel)
  · simp only [untunableQ, tuningQ, List.forall_mem_append, List.forall_mem_cons]
    exact ⟨⟨trivial, rfl, trivial, trivial, List.forall_mem_nil _⟩, trivial, trivial,
      trivial, rfl, trivial, rfl, trivial, trivial, trivial, rfl, trivial, trivial,
      List.forall_mem_nil _⟩
  · refine ⟨Option.isNone_iff_eq_none.mp (by decide +kernel), by decide +kernel, ?_⟩
    intro task
    cases task <;> decide +kernel

end PersistProofs
