import Stm32Foc.FirmwareConfig

/-! # Configuration messages

    What a host can change over CAN.  A message is checked on a copy of the
    configuration, which replaces it only if every setter accepts: a message takes
    effect as a whole or not at all. -/

namespace CanConfig

open FieldOriented FirmwareTypes

variable {K : Type} [Field K] [LinearOrder K]

/-- The messages that change the configuration, with their signals. -/
inductive ConfigMessage (K : Type) where
  | protectionLimits1 (dcBusVMin dcBusVMax brakingCurrentLimit brakingCurrentFault : K)
  | protectionLimits2 (setpointTimeout : UInt16) (tempMax : K)
  | motorConfig (numPolePairs : UInt8) (overcurrentLimit : K)
      (rotorOverspeedLimitMech : UInt16)
  | motorLimits (rotorSpeedLimitMech : UInt16)
      (momentaryCurrentLimit ratedCurrentLimit : K)
  | calibrationTargets (targetVoltage targetCurrent sweepVelocity spinVelocity : K)
  | sensorlessConfig1 (hfiAmplitude hfiStartupAmplitude sensorlessLowSpeedThreshold
      sensorlessHighSpeedThreshold : K)
      (sensorlessLowSpeedPllFrequency sensorlessHighSpeedPllFrequency : UInt8)
  | sensorlessConfig2 (ortegaGamma ortegaAlpha : K)
  deriving DecidableEq

/-- The copy of the configuration that the setters of a message leave. -/
def candidate (config : FirmwareConfig K) :
    ConfigMessage K → Except ConfigError (FirmwareConfig K)
  | .protectionLimits1 dcBusVMin dcBusVMax brakingCurrentLimit brakingCurrentFault => do
      let config ← config.setDcBusLimits dcBusVMin dcBusVMax
      config.setBrakingCurrentLimits brakingCurrentLimit brakingCurrentFault
  | .protectionLimits2 setpointTimeout tempMax => do
      let config ← config.setSetpointTimeoutMs setpointTimeout
      config.setTempMaxC tempMax
  | .motorConfig _ overcurrentLimit rotorOverspeedLimitMech => do
      let config ← config.setOvercurrentLimitA overcurrentLimit
      config.setRotorOverspeedLimitMechRpm rotorOverspeedLimitMech
  | .motorLimits rotorSpeedLimitMech momentaryCurrentLimit ratedCurrentLimit => do
      let config ← config.setCurrentLimits ratedCurrentLimit momentaryCurrentLimit
      config.setRotorSpeedLimitMechRpm rotorSpeedLimitMech
  | .calibrationTargets targetVoltage targetCurrent sweepVelocity spinVelocity => do
      let config ← config.setCalibrationVoltageV targetVoltage
      let config ← config.setCalibrationCurrentA targetCurrent
      let config ← config.setCalibrationSweepOmega sweepVelocity
      config.setCalibrationSpinOmega spinVelocity
  | .sensorlessConfig1 hfiAmplitude hfiStartupAmplitude low high lowPll highPll =>
      config.setSensorless1 hfiAmplitude hfiStartupAmplitude low high
        (lowPll.toNat : K) (highPll.toNat : K)
  | .sensorlessConfig2 ortegaGamma ortegaAlpha =>
      config.setSensorless2 ortegaGamma ortegaAlpha

/-- The values that are kept in RAM and stored in flash. -/
structure Ram (K : Type) where
  config : FirmwareConfig K
  motorParameters : ConstantMotorParameters K
  piGains : Option (ControllerParameters K)
  hallCalibration : Option (HallCalibration K)
  deriving DecidableEq

/-- The motor is taken to have changed: its parameters, the gains and the hall
    calibration are dropped. -/
def Ram.invalidate (ram : Ram K) : Ram K :=
  { ram with
    motorParameters := MotorParamEstimator.invalidate ram.motorParameters
    piGains := none
    hallCalibration := none }

/-- The number of pole pairs of a `MotorConfig` message; a change invalidates. -/
def setNumPolePairs (ram : Ram K) (numPolePairs : UInt8) : Ram K :=
  if ram.motorParameters.params.numPolePairs ≠ some numPolePairs then
    let ram := ram.invalidate
    { ram with
      motorParameters :=
        ⟨{ ram.motorParameters.params with numPolePairs := some numPolePairs }⟩ }
  else ram

/-- The handler of a configuration message in `can_process`: the values it leaves, and
    whether it has `persist_config` spawned. -/
def handle (ram : Ram K) (message : ConfigMessage K) : Ram K × Bool :=
  match candidate ram.config message with
  | .error _ => (ram, false)
  | .ok config =>
      let ram := { ram with config := config }
      match message with
      | .motorConfig numPolePairs _ _ => (setNumPolePairs ram numPolePairs, true)
      | _ => (ram, true)

end CanConfig
