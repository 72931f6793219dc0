import Stm32Foc.Control
import Stm32Foc.DebounceProofs

/-! # The checks of the board's measurements

    `shared_adc_isr` compares each conversion of the bus voltage and of the board's
    temperature with the limits of the configuration, and asserts the fault of every
    debounced condition that holds.  So a fault is asserted exactly when its condition
    has held for as many conversions in a row as the debounce asks for, and has not since
    failed for as many (`conversion_asserts`). -/

namespace BoardChecks

open EventRun ConstantRuns Debounce DebounceProofs Faults Modes Control

/-- `BOARD_MEASUREMENT_DEBOUNCE_TICKS` -/
def boardMeasurementDebounceTicks : UInt32 := 5

variable {K : Type} [LinearOrder K]

/-- A conversion, with the limits of the configuration at that time. -/
structure BoardInfo (K : Type) where
  vbus : K
  tboard : K
  minDc : K
  maxDc : K
  maxTemp : K

namespace BoardInfo

def underVoltage (info : BoardInfo K) : Bool := decide (info.vbus < info.minDc)

def overVoltage (info : BoardInfo K) : Bool := decide (info.vbus > info.maxDc)

def tooHot (info : BoardInfo K) : Bool := decide (info.tboard > info.maxTemp)

end BoardInfo

/-- The locals of the interrupt. -/
structure Checks where
  dcUndervolt : DebouncedU32
  dcOvervolt : DebouncedU32
  boardOvertemp : DebouncedU32

/-- The conditions as `init` leaves them. -/
def Checks.init : Checks := ⟨.new false, .new false, .new false⟩

/-- An update whose result is not used. -/
def updated (d : DebouncedU32) (raw : Bool) : DebouncedU32 :=
  (d.update raw boardMeasurementDebounceTicks).2

/-- What a conversion makes of the conditions. -/
def Checks.next (checks : Checks) (info : BoardInfo K) : Checks where
  dcUndervolt := updated checks.dcUndervolt info.underVoltage
  dcOvervolt := updated checks.dcOvervolt info.overVoltage
  boardOvertemp := updated checks.boardOvertemp info.tooHot

/-- The faults that the conditions call for, in the order they are asserted. -/
def Checks.causes (checks : Checks) : List FaultCause :=
  (if checks.dcUndervolt.state then [.dcUnderVoltage]
    else if checks.dcOvervolt.state then [.dcOverVoltage]
    else []) ++
  if checks.boardOvertemp.state then [.overtemperature] else []

theorem Checks.mem_causes (checks : Checks) (cause : FaultCause) :
    cause ∈ checks.causes ↔
      cause = .dcUnderVoltage ∧ checks.dcUndervolt.state = true ∨
      cause = .dcOverVoltage ∧ checks.dcOvervolt.state = true ∧
        ¬ checks.dcUndervolt.state = true ∨
      cause = .overtemperature ∧ checks.boardOvertemp.state = true := by
  rw [Checks.causes]
  cases checks.dcUndervolt.state <;> cases checks.dcOvervolt.state <;>
    cases checks.boardOvertemp.state <;> simp

section Modes

variable [Field K] {C : Type} [Calibration.Calibrator C K]

/-- `shared_adc_isr`, on a conversion of the board's measurements. -/
def boardStatus (checks : Checks) (mode : OperatingMode K C) (info : BoardInfo K) :
    Checks × OperatingMode K C :=
  let dcUndervolt := updated checks.dcUndervolt info.underVoltage
  let dcOvervolt := updated checks.dcOvervolt info.overVoltage
  let mode :=
    if dcUndervolt.state then mode.after (.assertFault .dcUnderVoltage)
    else if dcOvervolt.state then mode.after (.assertFault .dcOverVoltage)
    else mode
  let boardOvertemp := updated checks.boardOvertemp info.tooHot
  let mode := assertIf boardOvertemp.state .overtemperature mode
  (⟨dcUndervolt, dcOvervolt, boardOvertemp⟩, mode)

/-- The interrupt updates the conditions, and asserts what they then call for. -/
theorem boardStatus_eq (checks : Checks) (mode : OperatingMode K C)
    (info : BoardInfo K) :
    boardStatus checks mode info = (checks.next info,
      (checks.next info).causes.foldl (fun mode cause => mode.after (.assertFault cause))
        mode) := by
  rw [boardStatus, Checks.causes, List.foldl_append]
  refine Prod.ext rfl ?_
  show assertIf (checks.next info).boardOvertemp.state .overtemperature
      (if (checks.next info).dcUndervolt.state then _ else
        if (checks.next info).dcOvervolt.state then _ else _) = _
  rw [assertIf]
  split_ifs <;> rfl

end Modes

/-! ## Which faults are asserted -/

/-- The conditions after a number of conversions. -/
def checked (infos : List (BoardInfo K)) : Checks :=
  run Checks.next Checks.init infos

omit [LinearOrder K] in
theorem updated_feed (condition : BoardInfo K → Bool) (infos : List (BoardInfo K))
    (info : BoardInfo K) :
    updated (feed boardMeasurementDebounceTicks false (infos.map condition)) (condition info)
      = feed boardMeasurementDebounceTicks false ((infos ++ [info]).map condition) := by
  rw [List.map_append, List.map_singleton, feed_snoc]
  rfl

/-- Each condition has been fed what the conversions say of it. -/
theorem checked_eq (infos : List (BoardInfo K)) :
    checked infos =
      ⟨feed boardMeasurementDebounceTicks false (infos.map BoardInfo.underVoltage),
        feed boardMeasurementDebounceTicks false (infos.map BoardInfo.overVoltage),
        feed boardMeasurementDebounceTicks false (infos.map BoardInfo.tooHot)⟩ := by
  induction infos using List.reverseRecOn with
  | nil => rfl
  | append_singleton infos info ih =>
      rw [checked, run_snoc, ← updated_feed, ← updated_feed, ← updated_feed]
      exact congrArg (fun checks : Checks => checks.next info) ih

/-- A condition of the conversions holds, debounced. -/
def Lasted (condition : BoardInfo K → Bool) (infos : List (BoardInfo K)) : Prop :=
  LastLong boardMeasurementDebounceTicks.toNat (infos.map condition) true

omit [LinearOrder K] in
theorem feed_state_iff (condition : BoardInfo K → Bool) (infos : List (BoardInfo K)) :
    (feed boardMeasurementDebounceTicks false (infos.map condition)).state = true ↔
      Lasted condition infos := by
  have hperiod : 1 ≤ boardMeasurementDebounceTicks := by decide
  have hsettled := settled_feed_iff hperiod false (infos.map condition) true
  rw [settled_iff_of_ne (by decide)] at hsettled
  exact eq_comm.trans hsettled.symm

/-- **BOARD FAULTS**: a conversion asserts an under voltage just if the conversions up to
    it have settled on one, an over voltage if they have settled on that and not on an
    under voltage, and an over temperature if they have settled on it; and nothing
    else. -/
theorem conversion_asserts (earlier : List (BoardInfo K)) (info : BoardInfo K)
    (cause : FaultCause) :
    cause ∈ ((checked earlier).next info).causes ↔
      cause = .dcUnderVoltage ∧ Lasted BoardInfo.underVoltage (earlier ++ [info]) ∨
      cause = .dcOverVoltage ∧ Lasted BoardInfo.overVoltage (earlier ++ [info]) ∧
        ¬ Lasted BoardInfo.underVoltage (earlier ++ [info]) ∨
      cause = .overtemperature ∧ Lasted BoardInfo.tooHot (earlier ++ [info]) := by
  have hnext : (checked earlier).next info = checked (earlier ++ [info]) :=
    (run_snoc _ earlier info).symm
  rw [hnext, Checks.mem_causes, checked_eq]
  simp only [feed_state_iff]

end BoardChecks
