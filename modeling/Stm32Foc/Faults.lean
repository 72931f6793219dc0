import Stm32Foc.FocTypes
import Stm32Foc.Update

/-! # Fault causes

    The causes a fault is reported with, and how the faults of the memory, of the
    firmware update and of the field-oriented control map to them. -/

namespace Faults

open FieldOriented Update

inductive FaultCause where
  | empty
  -- board faults
  | overcurrent
  | overtemperature
  | dcUnderVoltage
  | dcOverVoltage
  | regenLimitExceeded
  | overspeed
  | break1
  | break2
  | watchdogReboot
  | memoryFlashFault
  | memoryCorruptedData
  | memoryTooLarge
  | configOutOfRange
  -- firmware update faults
  | firmwareUpdateTooLarge
  | firmwareUpdateLengthMismatch
  | firmwareUpdateCrcMismatch
  | firmwareUpdateReverted
  -- calibration and estimation faults
  | calibrationTimeout
  | hallEdgeDisagreement
  | estimationOverflow
  | estimationInsufficientSamples
  | estimationDegenSolution
  | estimationParameterOutOfBounds
  | estimationTargetCurrentUnreachable
  | tuningInfeasibleParameters
  | tuningInvalidTuningGoals
  | tuningUnstable
  -- runtime faults
  | missingMotorParams
  | missingControllerGains
  | sensorlessPolarityTestFault
  | invalidRotorFeedback
  | controllerNumericalError
  | realtimeViolated
  | canMessageIntegrity
  | setpointTimeout
  deriving DecidableEq, Repr

inductive MemoryFault where
  | flashInternalFault
  | corruptedData
  | tooLarge
  deriving DecidableEq, Repr

/-- `impl From<MemoryFault> for FaultCause` -/
def FaultCause.ofMemoryFault : MemoryFault → FaultCause
  | .flashInternalFault => .memoryFlashFault
  | .corruptedData => .memoryCorruptedData
  | .tooLarge => .memoryTooLarge

/-- `impl From<FirmwareUpdateFault> for FaultCause` -/
def FaultCause.ofFirmwareUpdateFault : FirmwareUpdateFault → FaultCause
  | .imageTooLarge => .firmwareUpdateTooLarge
  | .lengthMismatch => .firmwareUpdateLengthMismatch
  | .crcMismatch => .firmwareUpdateCrcMismatch

/-- `impl From<FocFault> for FaultCause` -/
def FaultCause.ofFocFault : FocFault → FaultCause
  | .missingMotorParams => .missingMotorParams
  | .missingControllerGains => .missingControllerGains
  | .numericalError => .controllerNumericalError
  | .invalidParameter => .missingControllerGains

/-- `impl From<EstimationStepFault> for FaultCause` -/
def FaultCause.ofEstimationStepFault : EstimationStepFault → FaultCause
  | .missingParameter => .missingMotorParams
  | .overflow => .estimationOverflow
  | .insufficientSamples => .estimationInsufficientSamples
  | .degenSolution => .estimationDegenSolution
  | .parameterOutOfBounds => .estimationParameterOutOfBounds
  | .targetCurrentUnreachable => .estimationTargetCurrentUnreachable

/-- `impl From<HallCalibrationFault> for FaultCause` -/
def FaultCause.ofHallCalibrationFault : HallCalibrationFault → FaultCause
  | .edgeDisagreement => .hallEdgeDisagreement

/-- `impl From<PolarityTestFault> for FaultCause` -/
def FaultCause.ofPolarityTestFault : PolarityTestFault → FaultCause
  | _ => .sensorlessPolarityTestFault

end Faults
