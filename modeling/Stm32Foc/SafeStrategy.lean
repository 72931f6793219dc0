import Stm32Foc.Debounce
import Stm32Foc.Faults
import Mathlib.Algebra.Order.Group.Unbundled.Abs

/-! # Safe control strategies

    What the drive does when it is not to deliver torque: ramp down, leave all
    switches off (STO, or STOf for good), or short the phases (ASC).  A strategy
    evolves on every tick with the bus voltage and the back-EMF, and on every
    fault with the reaction the fault's cause asks for. -/

namespace SafeStrategy

open Debounce FieldOriented Faults

variable {K : Type} [Field K] [LinearOrder K]

/-- Number of consecutive ticks where the STO <-> ASC condition needs to hold. -/
def stoAscDebounceTicks : Nat := 10

/-- `STO_DC_BUS_RATIO` -/
def stoDcBusRatio : K := 99 / 100

/-- `ASC_DC_BUS_RATIO` -/
def ascDcBusRatio : K := 101 / 100

/-- `RAMPDOWN_DURATION_MS` -/
def rampdownDurationMs : K := 10

/-- `SQRT3` -/
def sqrt3 : K := 173205080757 / 100000000000

inductive SafeCommand (K : Type) where
  | nonConducting
  | activeShort
  | foc (command : FocInputType K)
  deriving DecidableEq

structure SafeControlStrategyInput (K : Type) where
  omega : K
  rotorFeedbackValid : Bool
  backEmfConstant : Option K
  dcBusV : K
  dcBusMaxV : K
  tickDtMs : K
  deriving DecidableEq

inductive SafeControlStrategy (K : Type) where
  /-- Controlled rampdown to zero torque demand. -/
  | rampDown (waitedMs : K)
  /-- Terminal STO, which does not allow a switch to ASC. -/
  | stof
  /-- STO, which can switch to ASC. -/
  | sto (shouldSwitch : Debounced)
  | asc (shouldSwitch : Debounced)
  deriving DecidableEq

namespace SafeControlStrategy

/-- `SafeControlStrategy::sto()` -/
def freshSto : SafeControlStrategy K := .sto (Debounced.new false)

/-- `SafeControlStrategy::asc()` -/
def freshAsc : SafeControlStrategy K := .asc (Debounced.new false)

/-- `SafeControlStrategy::asc_needed` -/
def ascNeeded (input : SafeControlStrategyInput K) : Bool :=
  let ascEntryGate := decide (input.dcBusV > ascDcBusRatio * input.dcBusMaxV)
  let stoUnsafe := match input.backEmfConstant with
    | none => true
    | some k => !input.rotorFeedbackValid ||
        decide (sqrt3 * k * |input.omega| > ascDcBusRatio * input.dcBusV)
  ascEntryGate || stoUnsafe

/-- Both gates of the way from ASC back to STO. -/
def ascExit (input : SafeControlStrategyInput K) : Bool :=
  let stoEntryGate := decide (input.dcBusV < stoDcBusRatio * input.dcBusMaxV)
  let ascExitGate := match input.backEmfConstant with
    | none => false
    | some k => input.rotorFeedbackValid &&
        decide (sqrt3 * k * |input.omega| < stoDcBusRatio * input.dcBusV)
  stoEntryGate && ascExitGate

/-- The strategy after a tick: the first half of `foc_tick`. -/
def evolved (strategy : SafeControlStrategy K)
    (input : SafeControlStrategyInput K) : SafeControlStrategy K :=
  match strategy with
  | .rampDown waitedMs =>
      let waitedMs := waitedMs + input.tickDtMs
      if waitedMs ≥ rampdownDurationMs then
        if ascNeeded input then freshAsc else freshSto
      else .rampDown waitedMs
  | .sto shouldSwitch =>
      let shouldSwitch := shouldSwitch.update (ascNeeded input) stoAscDebounceTicks
      if shouldSwitch.state then freshAsc else .sto shouldSwitch
  | .asc shouldSwitch =>
      let shouldSwitch := shouldSwitch.update (ascExit input) stoAscDebounceTicks
      if shouldSwitch.state then freshSto else .asc shouldSwitch
  | .stof => .stof

/-- The command of a strategy: the second half of `foc_tick`. -/
def command : SafeControlStrategy K → SafeCommand K
  | .rampDown _ => .foc (.targetTorque 0)
  | .sto _ => .nonConducting
  | .stof => .nonConducting
  | .asc _ => .activeShort

/-- `SafeControlStrategy::foc_tick` -/
def focTick (strategy : SafeControlStrategy K)
    (input : SafeControlStrategyInput K) :
    SafeCommand K × SafeControlStrategy K :=
  let strategy := evolved strategy input
  (command strategy, strategy)

/-- `SafeControlStrategy::fault_evolve` -/
def faultEvolve (strategy new : SafeControlStrategy K) : SafeControlStrategy K :=
  match strategy, new with
  | _, .stof => .stof
  | .sto _, .asc _ => freshAsc
  | .asc shouldSwitch, .sto _ =>
      if shouldSwitch.state then freshSto else strategy
  | .asc _, .asc _ => freshAsc
  | .rampDown _, .rampDown _ => strategy
  | .rampDown _, _ => new
  | _, _ => strategy

/-- `impl From<FaultCause> for SafeControlStrategy` -/
def ofFaultCause : FaultCause → SafeControlStrategy K
  | .break2 => .stof
  | .break1 | .overcurrent | .invalidRotorFeedback => freshSto
  | .dcOverVoltage => freshAsc
  | .setpointTimeout | .canMessageIntegrity | .calibrationTimeout
  | .overtemperature | .overspeed => .rampDown 0
  | _ => freshSto

end SafeControlStrategy

end SafeStrategy
