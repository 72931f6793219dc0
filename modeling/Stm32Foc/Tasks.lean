import Stm32Foc.CanConfig
import Stm32Foc.TickProofs
import Stm32Foc.Tuning

/-! # The tasks beside the current loop

    `can_process`, `persist_config`, `tune_pi`, `store_hall_table` and
    `store_motor_params` run at one priority, one at a time; the interrupts that tick
    the current loop and check the board come in between their accesses to the mode.
    What a task does from one such access to the next touches nothing of an
    interrupt's, so it is one step.  The board has hall feedback. -/

namespace Tasks

open FieldOriented Faults SafeStrategy Calibration Modes Control Saliency
open FirmwareTypes CanConfig Tuning TickProofs

/-! ## Constants -/

variable {K : Type} [Field K] [LinearOrder K]

/-- `PWM_FREQUENCY_HZ` -/
def pwmFrequencyHz : K := 40000.0

/-- `CURRENT_LOOP_BANDWIDTH_HZ` -/
def currentLoopBandwidthHz : K := 1000.0

/-- `FIELD_WEAKENING_BANDWIDTH_HZ` -/
def fieldWeakeningBandwidthHz : K := 100.0

/-! ## The flash -/

/-- The records of the configuration store that `init` loads; `none` if nothing has
    been written. -/
structure Flash (K : Type) where
  config : Option (FirmwareConfig K)
  motorParameters : Option (MotorParamsEstimate K)
  piGains : Option (Option (ControllerParameters K))
  hallCalibration : Option (Option (HallCalibration K))

/-- The loads of `init`. -/
def Flash.load (flash : Flash K) : Ram K where
  config := flash.config.getD .default
  motorParameters := ⟨flash.motorParameters.getD ⟨none, none, none, none, none, none⟩⟩
  piGains := flash.piGains.join
  hallCalibration := flash.hallCalibration.join

/-- What comes of a `memory.store`: the record, or a fault and whatever record it
    leaves. -/
inductive Stored (R : Type) where
  | ok
  | failed (fault : MemoryFault) (left : Option R)

/-- The record after the store of a value. -/
def Stored.record {R : Type} (value : R) : Stored R → Option R
  | .ok => some value
  | .failed _ left => left

def Stored.result {R : Type} : Stored R → Except MemoryFault Unit
  | .ok => .ok ()
  | .failed fault _ => .error fault

/-- The command of a task that has stored its record. -/
def Stored.command {R : Type} (done : Command K) : Stored R → Command K
  | .ok => done
  | .failed fault _ => .assertFault (.ofMemoryFault fault)

/-- What comes of the stores of `persist_config`. -/
structure Persisted (K : Type) where
  config : Stored (FirmwareConfig K)
  motorParameters : Stored (MotorParamsEstimate K)
  piGains : Stored (Option (ControllerParameters K))
  hallCalibration : Stored (Option (HallCalibration K))

/-- `Result::and` -/
def both (first second : Except MemoryFault Unit) : Except MemoryFault Unit :=
  match first with
  | .ok () => second
  | .error fault => .error fault

def Persisted.result (stores : Persisted K) : Except MemoryFault Unit :=
  let r1 := stores.config.result
  let r2 := both stores.motorParameters.result stores.piGains.result
  let r2 := both r2 stores.hallCalibration.result
  both r1 r2

/-- The records after the stores of `persist_config`. -/
def Persisted.records (stores : Persisted K) (ram : Ram K) : Flash K where
  config := stores.config.record ram.config
  motorParameters := stores.motorParameters.record ram.motorParameters.params
  piGains := stores.piGains.record ram.piGains
  hallCalibration := stores.hallCalibration.record ram.hallCalibration

/-! ## The tasks -/

/-- The one instance of a task: spawned with what it is to work on, and occupied until
    it returns. -/
inductive Instance (A : Type) where
  | free
  | pending (payload : A)
  | running

/-- `spawn`, which fails if the instance is occupied. -/
def Instance.spawn {A : Type} (payload : A) : Instance A → Instance A
  | .free => .pending payload
  | occupied => occupied

/-- The tasks that complete a stage of a calibration. -/
inductive Task where
  | storeHallTable
  | tunePi
  | storeMotorParams
  deriving DecidableEq, Repr

/-- Where the task that runs is, at one of its accesses to the mode. -/
inductive Running (K : Type) where
  /-- `persist_config` has stored everything. -/
  | persistConfig (result : Except MemoryFault Unit)
  /-- A task is about to command the mode. -/
  | completing (task : Task) (command : Command K)
  | returning (task : Task)

structure Board (K H P : Type) where
  mode : OperatingMode K (CalibrationRunner K H P)
  ram : Ram K
  flash : Flash K
  /-- An instance of `persist_config` is occupied. -/
  persistConfig : Bool
  storeHallTable : Instance (HallCalibration K)
  tunePi : Instance (MotorParamsEstimate K)
  storeMotorParams : Instance (MotorParamsEstimate K)
  running : Option (Running K)

variable {H P : Type} [HallCalibrates H K] [EstimatesMotorParams P K]

/-- `init`, with the causes of fault that it finds. -/
def Board.init (flash : Flash K) (causes : List FaultCause) : Board K H P where
  mode := causes.foldl (fun mode cause => mode.after (.assertFault cause)) (.idle .freshSto)
  ram := flash.load
  flash := flash
  persistConfig := false
  storeHallTable := .free
  tunePi := .free
  storeMotorParams := .free
  running := none

/-! ## Frames -/

inductive RequestedMode where
  | idle
  | calibration
  | torqueControl
  | cancelCalibration
  | faultClear
  | other (raw : UInt8)
  deriving DecidableEq, Repr

/-- The targets of a calibration, from the configuration. -/
def calibrationTargets (config : FirmwareConfig K) : Calibration.CalibrationTargets K where
  spinOmega := config.calibrationSpinOmega
  sweepOmega := config.calibrationSweepOmega
  voltageV := config.calibrationVoltageV
  currentA := config.calibrationCurrentA

/-- The command of an `OperatingModeRequest`. -/
def requestCommand (ram : Ram K) : RequestedMode → Command K
  | .idle => .idle (.rampDown 0)
  | .calibration =>
      match ram.motorParameters.params.numPolePairs with
      | some numPolePairs =>
          .startCalibration numPolePairs (calibrationTargets ram.config) true
            (1 / pwmFrequencyHz)
      | none => .assertFault .missingMotorParams
  | .torqueControl => .requestTorqueControl
  | .cancelCalibration => .cancelCalibration
  | .faultClear => .clearFault
  | .other _ => .noOp

def isStart : Command K → Bool
  | .startCalibration _ _ _ _ => true
  | _ => false

/-- The request starts a calibration, and the mode takes it. -/
def accepts (board : Board K H P) (requested : RequestedMode) : Bool :=
  let command := requestCommand board.ram requested
  (board.mode.onCommand command).2 && isStart command

/-- The handler of `OperatingModeRequest`: a start drops what is known of the motor,
    and has that stored. -/
def operatingModeRequest (board : Board K H P) (requested : RequestedMode) :
    Board K H P :=
  let mode := board.mode.after (requestCommand board.ram requested)
  if accepts board requested then
    { board with mode := mode, ram := board.ram.invalidate, persistConfig := true }
  else { board with mode := mode }

/-- `is_idle_only`, of the messages that change the configuration. -/
def isIdleOnly : ConfigMessage K → Bool
  | .motorConfig _ _ _ => true
  | .calibrationTargets _ _ _ _ => true
  | _ => false

/-- The check of `can_process` before an idle-only frame. -/
def isIdle (mode : OperatingMode K (CalibrationRunner K H P)) : Bool :=
  match mode with
  | .idle _ => !mode.focGate.active
  | _ => false

/-- The handlers of the messages that change the configuration. -/
def configFrame (board : Board K H P) (message : ConfigMessage K) : Board K H P :=
  if isIdleOnly message && !isIdle board.mode then board
  else
    let (ram, spawns) := handle board.ram message
    { board with ram := ram, persistConfig := board.persistConfig || spawns }

/-! ## Steps of the tasks -/

/-- `persist_config` up to its last access to the mode; it waits while the current
    loop is active. -/
def persistConfig (board : Board K H P) (stores : Persisted K) : Board K H P :=
  if !board.persistConfig || board.mode.focGate.active then board
  else
    { board with
      flash := stores.records board.ram
      running := some (.persistConfig stores.result) }

/-- `store_hall_table` up to its command. -/
def storeHallTable (board : Board K H P) (store : Stored (Option (HallCalibration K))) :
    Board K H P :=
  match board.storeHallTable with
  | .pending angleTable =>
      { board with
        ram := { board.ram with hallCalibration := some angleTable }
        flash := { board.flash with hallCalibration := store.record (some angleTable) }
        storeHallTable := .running
        running := some (.completing .storeHallTable (store.command .resumeCalibration)) }
  | _ => board

/-- The mode after the gains have been given to the controller. -/
def setGainsMode (gains : ControllerParameters K)
    (mode : OperatingMode K (CalibrationRunner K H P)) :
    OperatingMode K (CalibrationRunner K H P) :=
  match setPiGains fieldWeakeningBandwidthHz (some gains) with
  | .ok () => mode
  | .error fault => mode.after (.assertFault (.ofFocFault fault))

/-- What `tune_pi` computes from its estimate. -/
def tunedGains [TunesPi K] (estimate : MotorParamsEstimate K) :
    Except PITuningFault (ControllerParameters K) :=
  computeCurrentPiControllerGains estimate pwmFrequencyHz currentLoopBandwidthHz

/-- `tune_pi` up to its last command.  If the tuning fails it drops the gains, and
    stores nothing. -/
def tunePi [TunesPi K] (board : Board K H P)
    (store : Stored (Option (ControllerParameters K))) : Board K H P :=
  match board.tunePi with
  | .pending estimate =>
      match tunedGains estimate with
      | .ok gains =>
          { board with
            mode := setGainsMode gains board.mode
            ram := { board.ram with piGains := some gains }
            flash := { board.flash with piGains := store.record (some gains) }
            tunePi := .running
            running := some (.completing .tunePi (store.command .resumeCalibration)) }
      | .error fault =>
          { board with
            ram := { board.ram with piGains := none }
            tunePi := .running
            running := some (.completing .tunePi (.assertFault fault.toFaultCause)) }
  | _ => board

/-- `store_motor_params` up to its command. -/
def storeMotorParams (board : Board K H P) (store : Stored (MotorParamsEstimate K)) :
    Board K H P :=
  match board.storeMotorParams with
  | .pending parameters =>
      { board with
        ram := { board.ram with motorParameters := ⟨parameters⟩ }
        flash := { board.flash with motorParameters := store.record parameters }
        storeMotorParams := .running
        running := some (.completing .storeMotorParams (store.command .finishCalibration)) }
  | _ => board

/-- The mode is a calibration that waits for its start to be stored. -/
def isClearing : OperatingMode K (CalibrationRunner K H P) → Bool
  | .calibration calibrator =>
      match calibrator.phase with
      | .clearingExistingParameters => true
      | _ => false
  | _ => false

/-- The last access of `persist_config` to the mode. -/
def persistedMode (result : Except MemoryFault Unit)
    (mode : OperatingMode K (CalibrationRunner K H P)) :
    OperatingMode K (CalibrationRunner K H P) :=
  match result with
  | .error fault => mode.after (.assertFault (.ofMemoryFault fault))
  | .ok () => if isClearing mode then mode.after .resumeCalibration else mode

/-- A task has returned, so it can be spawned again. -/
def returned (board : Board K H P) : Task → Board K H P
  | .storeHallTable => { board with storeHallTable := .free, running := none }
  | .tunePi => { board with tunePi := .free, running := none }
  | .storeMotorParams => { board with storeMotorParams := .free, running := none }

/-- The task that runs goes on. -/
def proceed (board : Board K H P) : Board K H P :=
  match board.running with
  | none => board
  | some (.persistConfig result) =>
      { board with
        mode := persistedMode result board.mode
        persistConfig := false
        running := none }
  | some (.completing task command) =>
      { board with
        mode := board.mode.after command
        running := some (.returning task) }
  | some (.returning task) => returned board task

/-! ## The interrupt -/

/-- The spawns at the end of the current loop's interrupt. -/
def spawnFor (board : Board K H P) : Option (StageResult K) → Board K H P
  | some (.hallCalibration angleTable) =>
      { board with storeHallTable := board.storeHallTable.spawn angleTable }
  | some (.tuningRequest paramsEstimate) =>
      { board with tunePi := board.tunePi.spawn paramsEstimate }
  | some (.motorParameters motorParams) =>
      { board with storeMotorParams := board.storeMotorParams.spawn motorParams }
  | _ => board

variable {F A E : Type} [CurrentController F K] [DoesFocMath A K]
  [SaliencyBasedEstimator E K]

/-- The interrupt of the current loop.  What it reads beside the mode comes with the
    tick, the motor parameters among it, since a task may be about to change them. -/
def sharedAdcIsr (board : Board K H P) (t : Tick K F A E) : Board K H P :=
  let ((outcome, result), drive) := focStep t.params t.inputs (t.drive board.mode)
  let constant : ConstantMotorParameters K := ⟨t.params⟩
  let (_, _, mode) := afterFocStep constant outcome result drive.mode
  spawnFor { board with mode := mode } result

/-- What happens on the board.  Frames are handled and tasks go on only where nothing
    of their priority runs; a fault may be found by an interrupt or a frame. -/
inductive BoardEvent (K F A E : Type) where
  | tick (t : Tick K F A E)
  | assertFault (cause : FaultCause)
  | operatingModeRequest (requested : RequestedMode)
  | config (message : ConfigMessage K)
  | persistConfig (stores : Persisted K)
  | storeHallTable (store : Stored (Option (HallCalibration K)))
  | tunePi (store : Stored (Option (ControllerParameters K)))
  | storeMotorParams (store : Stored (MotorParamsEstimate K))
  | proceed

/-- A step of a task, if none runs. -/
def ifIdle (board next : Board K H P) : Board K H P :=
  match board.running with
  | none => next
  | some _ => board

/-- What an event does to the board. -/
def step [TunesPi K] (board : Board K H P) : BoardEvent K F A E → Board K H P
  | .tick t => sharedAdcIsr board t
  | .assertFault cause => { board with mode := board.mode.after (.assertFault cause) }
  | .operatingModeRequest requested =>
      ifIdle board (operatingModeRequest board requested)
  | .config message => ifIdle board (configFrame board message)
  | .persistConfig stores => ifIdle board (persistConfig board stores)
  | .storeHallTable store => ifIdle board (storeHallTable board store)
  | .tunePi store => ifIdle board (tunePi board store)
  | .storeMotorParams store => ifIdle board (storeMotorParams board store)
  | .proceed => proceed board

/-! ## Mocks -/

/-- An estimator that takes its resistance from its targets, by Ohm's law, and asks to
    be tuned as soon as it is started. -/
structure OhmEstimator (K : Type) where
  statorResistance : K
  tune : Bool

instance : EstimatesMotorParams (OhmEstimator K) K where
  afterFocIteration estimator _ := estimator
  getEstimate estimator :=
    { numPolePairs := none
      statorResistance := some estimator.statorResistance
      dInductance := some 0.001
      qInductance := some 0.001
      pmFluxLinkage := none
      deadtimeRatio := none }
  invalidate estimator := estimator
  new config _ := ⟨config.calibrationVoltageV / config.calibrationCurrentA, false⟩
  start estimator _ := { estimator with tune := true }
  getFault _ := none
  estimationDone _ := false
  shouldUnwindController _ := false
  acknowledgeUnwindRequest estimator := estimator
  shouldTuneController estimator := estimator.tune
  acknowledgeTuningRequest estimator := { estimator with tune := false }
  shouldCalibrateHall _ := false
  acknowledgeHallCalibration estimator := estimator
  getCommand _ := ⟨.calibrationVoltage ⟨0, 0⟩, 0⟩

/-- The check that the placed poles lie inside the unit circle, and the gains for
    12 Ω and 1 mH. -/
instance : TunesPi ℚ where
  tune r l t _ bandwidthHz :=
    let omegaN := max (tau * bandwidthHz) (r / l)
    if omegaN * 0.70710678 * t < pi then
      .ok { kr := 0.5934, kp := 4.5752, ki := 125400, kt := 0.21857, bandwidthHz := 1909.9 }
    else .error .unstable
  perturbedStabilityCheck _ _ _ _ _ _ _ := true

end Tasks
