import Stm32Foc.Calibration
import Stm32Foc.SafeStrategy

/-! # Operating modes

    What the drive is doing, the commands that move it from one mode to another,
    and what the current loop may do in each. -/

namespace Modes

open FieldOriented Faults SafeStrategy Calibration

variable {K : Type} [Field K] [LinearOrder K] {C : Type}

structure FocGate where
  active : Bool
  useSafetyCommand : Bool
  feedbackOptional : Bool
  deriving DecidableEq, Repr

inductive Command (K : Type) where
  | idle (safeStrategy : SafeControlStrategy K)
  | startCalibration (numPolePairs : UInt8) (targets : CalibrationTargets K)
      (hasHall : Bool) (dtS : K)
  | resumeCalibration
  | finishCalibration
  | cancelCalibration
  | requestTorqueControl
  | enableTorqueControl
  | assertFault (cause : FaultCause)
  | clearFault
  | noOp
  deriving DecidableEq

inductive OperatingMode (K C : Type) where
  | idle (safeStrategy : SafeControlStrategy K)
  | calibration (calibrator : C)
  | saliencyPolarityTest
  | torqueControl
  | fault (safeStrategy : SafeControlStrategy K) (writeIndex : Nat)
      (trace : Vector FaultCause 8)

namespace OperatingMode

/-- The mode is `Fault`. -/
def IsFault : OperatingMode K C → Prop
  | .fault _ _ _ => True
  | _ => False

/-- A cause goes to the next entry of the trace, if there is one and it is not in
    the trace already. -/
def recordCause (writeIndex : Nat) (trace : Vector FaultCause 8)
    (cause : FaultCause) : Nat × Vector FaultCause 8 :=
  if h : writeIndex < 8 then
    if (trace.toList.take writeIndex).contains cause then (writeIndex, trace)
    else (writeIndex + 1, trace.set writeIndex cause h)
  else (writeIndex, trace)

/-- A fault in a mode that is not `Fault`. -/
def enterFault (cause : FaultCause) : OperatingMode K C :=
  .fault (.ofFaultCause cause) 1
    ((Vector.replicate 8 FaultCause.empty).set 0 cause)

/-- A fault in the mode `Fault`. -/
def evolveFault (safeStrategy : SafeControlStrategy K) (writeIndex : Nat)
    (trace : Vector FaultCause 8) (cause : FaultCause) : OperatingMode K C :=
  let (writeIndex, trace) := recordCause writeIndex trace cause
  .fault (safeStrategy.faultEvolve (.ofFaultCause cause)) writeIndex trace

/-- The way out of the mode `Fault`, open once the reaction is applied. -/
def clearFault (mode : OperatingMode K C) (safeStrategy : SafeControlStrategy K) :
    OperatingMode K C × Bool :=
  match safeStrategy with
  | .rampDown _ => (mode, false)
  | .stof => (.idle .freshSto, true)
  | .sto _ => (.idle safeStrategy, true)
  | .asc _ => (.idle safeStrategy, true)

/-- `OperatingMode::on_command`: the new mode, and whether the command took
    effect. -/
def onCommand [Calibrator C K] (mode : OperatingMode K C) (command : Command K) :
    OperatingMode K C × Bool :=
  match command with
  | .clearFault =>
      match mode with
      | .fault safeStrategy _ _ => clearFault mode safeStrategy
      | _ => (mode, false)
  | .assertFault cause =>
      match mode with
      | .fault safeStrategy writeIndex trace =>
          (evolveFault safeStrategy writeIndex trace cause, true)
      | _ => (enterFault cause, true)
  | .startCalibration numPolePairs targets hasHall dtS =>
      match mode with
      | .idle (.rampDown _) => (mode, false)
      | .idle _ =>
          (.calibration (Calibrator.new numPolePairs targets hasHall dtS), true)
      | _ => (mode, false)
  | .requestTorqueControl =>
      match mode with
      | .idle _ => (.saliencyPolarityTest, true)
      | _ => (mode, false)
  | .resumeCalibration =>
      match mode with
      | .calibration calibrator => (.calibration (Calibrator.resume calibrator), true)
      | _ => (mode, false)
  | .finishCalibration | .cancelCalibration =>
      match mode with
      | .calibration _ => (.idle .freshSto, true)
      | _ => (mode, false)
  | .idle safeStrategy =>
      match mode with
      | .saliencyPolarityTest => (.idle safeStrategy, true)
      | .torqueControl => (.idle safeStrategy, true)
      | _ => (mode, false)
  | .enableTorqueControl =>
      match mode with
      | .saliencyPolarityTest => (.torqueControl, true)
      | _ => (mode, false)
  | .noOp => (mode, false)

/-- The mode after a command. -/
def after [Calibrator C K] (mode : OperatingMode K C) (command : Command K) :
    OperatingMode K C := (mode.onCommand command).1

/-- `OperatingMode::foc_gate` -/
def focGate [Calibrator C K] : OperatingMode K C → FocGate
  | .idle safeStrategy =>
      { active := match safeStrategy with
          | .rampDown _ => true
          | _ => false
        useSafetyCommand := true
        feedbackOptional := true }
  | .calibration calibrator =>
      -- wait phases must not step the calibration state machine
      { active := match Calibrator.phase calibrator with
          | .clearingExistingParameters => false
          | .waitingHallCompletion => false
          | .waitingTuning => false
          | _ => true
        useSafetyCommand := false
        feedbackOptional := true }
  | .saliencyPolarityTest =>
      { active := true, useSafetyCommand := false, feedbackOptional := false }
  | .torqueControl =>
      { active := true, useSafetyCommand := false, feedbackOptional := false }
  | .fault _ _ _ =>
      { active := false, useSafetyCommand := true, feedbackOptional := true }

/-- What a tick of the current loop does to the strategy of a mode that has
    one. -/
def tickStrategy (mode : OperatingMode K C) (input : SafeControlStrategyInput K) :
    OperatingMode K C :=
  match mode with
  | .idle safeStrategy => .idle (safeStrategy.focTick input).2
  | .fault safeStrategy writeIndex trace =>
      .fault (safeStrategy.focTick input).2 writeIndex trace
  | _ => mode

end OperatingMode

end Modes
