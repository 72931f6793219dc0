import Stm32Foc.Modes

/-! # Periodic reports

    `can_tx_task` sends six messages, each at its own cycle time.  It sleeps until the
    earliest is due, then sends one of each that is due and moves its due time on by
    one period.  The interrupts run between any two of the task's locks, so what each
    lock shows is given with the pass.  The generated messages (`try_from`,
    `into_frame`) are the parameter `encode`. -/

namespace CanTx

open FieldOriented Faults Modes

/-- `Periodic`, in the order of the message file. -/
inductive Periodic where
  | captureDump
  | encoderReading
  | fault
  | heartbeat
  | motorCurrents
  | rotorEstimates
  deriving DecidableEq, Repr

namespace Periodic

/-- `Periodic::all` -/
def all : List Periodic :=
  [.captureDump, .encoderReading, .fault, .heartbeat, .motorCurrents, .rotorEstimates]

/-- `Periodic::period_us`: the `GenMsgCycleTimeUs` of the message file -/
def periodUs : Periodic → Nat
  | .captureDump => 1000
  | .encoderReading => 1000
  | .fault => 100000
  | .heartbeat => 100000
  | .motorCurrents => 400
  | .rotorEstimates => 1000

/-- `matches!(s.kind, Periodic::RotorEstimates | Periodic::EncoderReading)` -/
def needsRotorFeedback : Periodic → Bool
  | .rotorEstimates | .encoderReading => true
  | _ => false

end Periodic

/-- Instants and durations in microseconds. -/
structure Slot where
  kind : Periodic
  nextDue : Nat
  period : Nat
  deriving DecidableEq, Repr

namespace Slot

/-- `Slot::new` -/
def new (kind : Periodic) (now : Nat) : Slot where
  kind := kind
  nextDue := now + kind.periodUs
  period := kind.periodUs

/-- `s.next_due <= now` -/
def isDue (self : Slot) (now : Nat) : Bool := decide (self.nextDue ≤ now)

/-- `slot.next_due += slot.period` -/
def moveOn (self : Slot) : Slot := { self with nextDue := self.nextDue + self.period }

end Slot

/-- `FaultCause::encode` -/
def encodeCause (cause : FaultCause) : UInt8 := UInt8.ofNat cause.ctorIdx

section Messages

variable {K C F : Type}

/-- `OperatingMode::fault_trace` -/
def faultTrace : OperatingMode K C → Option (Vector FaultCause 8)
  | .fault _ _ trace => some trace
  | _ => none

/-- `OperatingMode::encode` -/
def encodeMode : OperatingMode K C → UInt8
  | .idle _ => 0
  | .calibration _ => 1
  | .saliencyPolarityTest => 2
  | .torqueControl => 3
  | .fault _ _ _ => 4

structure CurrentLoopSnapshot (K : Type) where
  measuredIDq : ClarkParkValue K
  targetIDq : ClarkParkValue K

structure BoardStatus (K : Type) where
  dcBusVoltageV : Option K
  temperatureC : Option K

/-- What the arbitrator has of one kind of sensor. -/
abbrev Reading (K : Type) : Type := Option (Except RotorFeedbackFault (RotorFeedback K))

/-- `read_encoder`, `read_hall` and `read_sensorless`, under one lock -/
structure RotorReadings (K : Type) where
  encoder : Reading K
  hall : Reading K
  sensorless : Reading K

/-- What the locks taken for one slot show. -/
structure View (K C : Type) where
  currentLoopSnapshot : CurrentLoopSnapshot K
  mode : OperatingMode K C
  boardStatus : BoardStatus K
  nextDumpFrame : Option (UInt16 × Vector Int16 3)

/-- The contents of a message (`MotorCurrentsInit` and so on). -/
inductive Message (K : Type) where
  | motorCurrents (iQMeas iDMeas iQTarget iDTarget : K)
  | rotorEstimates (hallPos hallVel : K) (hallValid : Bool) (senslPos senslVel : K)
      (senslValid : Bool)
  | encoderReading (encPos encVel : K) (encValid : Bool)
  | fault (causes : Vector UInt8 8)
  | captureDump (seq : UInt16) (data : Vector Int16 3)
  | heartbeat (mode : UInt8) (dcBusVoltage temperature : K)
      (dcBusVoltageValid temperatureValid : Bool)

variable [Zero K]

/-- Position, velocity and whether they are valid. -/
def estimate : Reading K → K × K × Bool
  | some (.ok f) => (f.theta, f.omega, true)
  | _ => (0, 0, false)

/-- The message of one slot, `None` where there is nothing to send. -/
def message (kind : Periodic) (rotor : RotorReadings K) (view : View K C) :
    Option (Message K) :=
  match kind with
  | .motorCurrents =>
      let snapshot := view.currentLoopSnapshot
      some (.motorCurrents snapshot.measuredIDq.q snapshot.measuredIDq.d
        snapshot.targetIDq.q snapshot.targetIDq.d)
  | .rotorEstimates =>
      let (hallPos, hallVel, hallValid) := estimate rotor.hall
      let (senslPos, senslVel, senslValid) := estimate rotor.sensorless
      some (.rotorEstimates hallPos hallVel hallValid senslPos senslVel senslValid)
  | .encoderReading =>
      let (encPos, encVel, encValid) := estimate rotor.encoder
      some (.encoderReading encPos encVel encValid)
  | .fault => (faultTrace view.mode).map fun t => .fault (t.map encodeCause)
  | .captureDump => view.nextDumpFrame.map fun (seq, words) => .captureDump seq words
  | .heartbeat =>
      let status := view.boardStatus
      some (.heartbeat (encodeMode view.mode)
        (status.dcBusVoltageV.getD 0) (status.temperatureC.getD 0)
        status.dcBusVoltageV.isSome status.temperatureC.isSome)

/-- One slot of a pass served: which message, when, and the frame sent, if any. -/
structure Attempt (F : Type) where
  kind : Periodic
  now : Nat
  frame : Option F

/-- One turn of the loop: the time read after the sleep, what the arbitrator would
    show, and what the locks of each slot show. -/
structure Pass (K C : Type) where
  now : Nat
  arbitrator : RotorReadings K
  view : Periodic → View K C

/-- The readings of the pass: taken only where a message that is due needs them. -/
def Pass.rotorReadings (p : Pass K C) (slots : List Slot) : RotorReadings K :=
  let needRotorFeedback := slots.any fun s => s.isDue p.now && s.kind.needsRotorFeedback
  if needRotorFeedback then p.arbitrator else ⟨none, none, none⟩

variable (encode : Message K → Option F)

/-- The frame of one slot. -/
def frame (kind : Periodic) (rotor : RotorReadings K) (view : View K C) : Option F :=
  (message kind rotor view).bind encode

/-- The loop over the slots that are due. -/
def serve (p : Pass K C) (rotor : RotorReadings K) : List Slot → List Slot × List (Attempt F)
  | [] => ([], [])
  | slot :: slots =>
      let (slots, attempts) := serve p rotor slots
      if slot.isDue p.now then
        (slot.moveOn :: slots,
          ⟨slot.kind, p.now, frame encode slot.kind rotor (p.view slot.kind)⟩ :: attempts)
      else (slot :: slots, attempts)

/-- The body of the loop of `can_tx_task`, from the wake-up on. -/
def turn (slots : List Slot) (p : Pass K C) : List Slot × List (Attempt F) :=
  serve encode p (p.rotorReadings slots) slots

end Messages

/-- The instant `can_tx_task` sleeps until. -/
def wakeUp (slots : List Slot) : Option Nat := (slots.map (·.nextDue)).min?

/-- The slots of the task, made one after the other, each from its own reading of the
    clock. -/
def slotsFrom (start : Periodic → Nat) : List Slot :=
  Periodic.all.map fun kind => Slot.new kind (start kind)

end CanTx
