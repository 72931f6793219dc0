import Stm32Foc.FocTypes
import Mathlib.Data.Rat.Cast.OfScientific

/-! # The configuration of the firmware

    The limits and the tuning that a host can change, with the setters that check
    them.  The fields are private in the source, so that every change goes through
    a setter.  The board is Zest1. -/

namespace FirmwareTypes

variable {K : Type} [Field K] [LinearOrder K]

/-! ## Constants -/

/-- `BOARD.current_limit_a` -/
def boardCurrentLimitA : K := 5.0

/-- `BOARD.dc_voltage_limit_v` -/
def boardDcVoltageLimitV : K := 25.5

/-- `SQRT3` -/
def sqrt3 : K := 1.73205080757

/-- `DC_BUS_VOLTAGE_RANGE` -/
def dcBusVoltageRange : K × K := (0, boardDcVoltageLimitV)

/-- `CALIBRATION_VOLTAGE_RANGE` -/
def calibrationVoltageRange : K × K := (0, boardDcVoltageLimitV)

/-- `CURRENT_LIMIT_RANGE` -/
def currentLimitRange : K × K := (0, boardCurrentLimitA)

/-- `TEMP_MAX_RANGE` -/
def tempMaxRange : K × K := (-40.0, 150.0)

/-- `HFI_AMPLITUDE_RANGE` -/
def hfiAmplitudeRange : K × K := (0, boardDcVoltageLimitV / sqrt3)

/-- `SETPOINT_TIMEOUT_MAX_MS` -/
def setpointTimeoutMaxMs : UInt16 := 60000

/-! ## Checks -/

inductive ConfigError where
  | outOfRange
  | rangeInverted
  deriving DecidableEq, Repr

/-- `in_range` -/
def inRange (value : K) (range : K × K) : Except ConfigError K :=
  if value < range.1 ∨ value > range.2 then .error .outOfRange else .ok value

/-- `nonnegative` -/
def nonnegative (value : K) : Except ConfigError K :=
  if value < 0 then .error .outOfRange else .ok value

/-- `positive` -/
def positive (value : K) : Except ConfigError K :=
  if value ≤ 0 then .error .outOfRange else .ok value

/-! ## The record -/

structure FirmwareConfig (K : Type) where
  dcBusMinVoltageV : K
  dcBusMaxVoltageV : K
  calibrationVoltageV : K
  calibrationCurrentA : K
  calibrationSweepOmega : K
  calibrationSpinOmega : K
  ratedCurrentLimitA : K
  momentaryCurrentLimitA : K
  overcurrentLimitA : K
  rotorSpeedLimitMechRpm : UInt16
  rotorOverspeedLimitMechRpm : UInt16
  setpointTimeoutMs : UInt16
  tempMaxC : K
  brakingCurrentLimitA : K
  brakingCurrentFaultA : K
  hfiAmplitudeV : K
  hfiStartupAmplitudeV : K
  ortegaGamma : K
  ortegaAlpha : K
  sensorlessLowSpeedThreshold : K
  sensorlessHighSpeedThreshold : K
  sensorlessLowSpeedPllFrequencyHz : K
  sensorlessHighSpeedPllFrequencyHz : K
  deriving DecidableEq

namespace FirmwareConfig

/-- `FirmwareConfig::default` -/
def default : FirmwareConfig K where
  dcBusMinVoltageV := 0
  dcBusMaxVoltageV := 25.0
  calibrationVoltageV := 12.0
  calibrationCurrentA := min 1 1
  calibrationSweepOmega := 1
  calibrationSpinOmega := 1
  ratedCurrentLimitA := 1
  momentaryCurrentLimitA := 1
  overcurrentLimitA := boardCurrentLimitA
  rotorSpeedLimitMechRpm := min 1000 1000
  rotorOverspeedLimitMechRpm := 1000
  setpointTimeoutMs := 50
  tempMaxC := 80.0
  brakingCurrentLimitA := 0
  brakingCurrentFaultA := 0.1
  hfiAmplitudeV := 0
  hfiStartupAmplitudeV := 0
  ortegaGamma := 100.0
  ortegaAlpha := 20.0
  sensorlessLowSpeedThreshold := 15.0
  sensorlessHighSpeedThreshold := 30.0
  sensorlessLowSpeedPllFrequencyHz := 10.0
  sensorlessHighSpeedPllFrequencyHz := 50.0

/-! ## Setters -/

/-- `set_dc_bus_limits`, as a pair so that neither is checked against the other's
    stale value. -/
def setDcBusLimits (config : FirmwareConfig K) (minV maxV : K) :
    Except ConfigError (FirmwareConfig K) := do
  let minV ← inRange minV dcBusVoltageRange
  let maxV ← inRange maxV dcBusVoltageRange
  if minV ≥ maxV then .error .rangeInverted
  else .ok { config with dcBusMinVoltageV := minV, dcBusMaxVoltageV := maxV }

/-- `set_calibration_voltage_v` -/
def setCalibrationVoltageV (config : FirmwareConfig K) (v : K) :
    Except ConfigError (FirmwareConfig K) := do
  let v ← inRange v calibrationVoltageRange
  .ok { config with calibrationVoltageV := v }

/-- `set_calibration_current_a` -/
def setCalibrationCurrentA (config : FirmwareConfig K) (v : K) :
    Except ConfigError (FirmwareConfig K) := do
  let v ← inRange v currentLimitRange
  .ok { config with calibrationCurrentA := min v config.ratedCurrentLimitA }

/-- `set_calibration_sweep_omega` -/
def setCalibrationSweepOmega (config : FirmwareConfig K) (v : K) :
    Except ConfigError (FirmwareConfig K) := do
  let v ← positive v
  .ok { config with calibrationSweepOmega := v }

/-- `set_calibration_spin_omega` -/
def setCalibrationSpinOmega (config : FirmwareConfig K) (v : K) :
    Except ConfigError (FirmwareConfig K) := do
  let v ← positive v
  .ok { config with calibrationSpinOmega := v }

/-- `set_current_limits`, as a pair. -/
def setCurrentLimits (config : FirmwareConfig K) (ratedA momentaryA : K) :
    Except ConfigError (FirmwareConfig K) := do
  let ratedA ← inRange ratedA currentLimitRange
  let momentaryA ← inRange momentaryA currentLimitRange
  if ratedA > momentaryA then .error .rangeInverted
  else
    let ratedCurrentLimitA := min ratedA config.overcurrentLimitA
    .ok
      { config with
        ratedCurrentLimitA := ratedCurrentLimitA
        momentaryCurrentLimitA := min momentaryA config.overcurrentLimitA
        calibrationCurrentA := min config.calibrationCurrentA ratedCurrentLimitA }

/-- `set_overcurrent_limit_a`, which pulls the limits under it down. -/
def setOvercurrentLimitA (config : FirmwareConfig K) (v : K) :
    Except ConfigError (FirmwareConfig K) := do
  let v ← inRange v currentLimitRange
  let ratedCurrentLimitA := min config.ratedCurrentLimitA v
  .ok
    { config with
      overcurrentLimitA := v
      ratedCurrentLimitA := ratedCurrentLimitA
      momentaryCurrentLimitA := min config.momentaryCurrentLimitA v
      calibrationCurrentA := min config.calibrationCurrentA ratedCurrentLimitA }

/-- `set_rotor_speed_limit_mech_rpm` -/
def setRotorSpeedLimitMechRpm (config : FirmwareConfig K) (v : UInt16) :
    Except ConfigError (FirmwareConfig K) :=
  if v = 0 then .error .outOfRange
  else .ok
    { config with rotorSpeedLimitMechRpm := min v config.rotorOverspeedLimitMechRpm }

/-- `set_rotor_overspeed_limit_mech_rpm` -/
def setRotorOverspeedLimitMechRpm (config : FirmwareConfig K) (v : UInt16) :
    Except ConfigError (FirmwareConfig K) :=
  if v = 0 then .error .outOfRange
  else .ok
    { config with
      rotorOverspeedLimitMechRpm := v
      rotorSpeedLimitMechRpm := min config.rotorSpeedLimitMechRpm v }

/-- `set_setpoint_timeout_ms` -/
def setSetpointTimeoutMs (config : FirmwareConfig K) (v : UInt16) :
    Except ConfigError (FirmwareConfig K) :=
  if v > setpointTimeoutMaxMs then .error .outOfRange
  else .ok { config with setpointTimeoutMs := v }

/-- `set_temp_max_c` -/
def setTempMaxC (config : FirmwareConfig K) (v : K) :
    Except ConfigError (FirmwareConfig K) := do
  let v ← inRange v tempMaxRange
  .ok { config with tempMaxC := v }

/-- `set_sensorless_1` -/
def setSensorless1 (config : FirmwareConfig K)
    (hfiAmplitudeV hfiStartupAmplitudeV lowSpeedThreshold highSpeedThreshold
      lowSpeedPllFrequencyHz highSpeedPllFrequencyHz : K) :
    Except ConfigError (FirmwareConfig K) := do
  let hfiAmplitudeV ← inRange hfiAmplitudeV hfiAmplitudeRange
  let hfiStartupAmplitudeV ← inRange hfiStartupAmplitudeV hfiAmplitudeRange
  let lowSpeedThreshold ← nonnegative lowSpeedThreshold
  let highSpeedThreshold ← nonnegative highSpeedThreshold
  if highSpeedThreshold < lowSpeedThreshold then .error .rangeInverted
  else
    let lowSpeedPllFrequencyHz ← positive lowSpeedPllFrequencyHz
    let highSpeedPllFrequencyHz ← positive highSpeedPllFrequencyHz
    .ok
      { config with
        hfiAmplitudeV := hfiAmplitudeV
        hfiStartupAmplitudeV := hfiStartupAmplitudeV
        sensorlessLowSpeedThreshold := lowSpeedThreshold
        sensorlessHighSpeedThreshold := highSpeedThreshold
        sensorlessLowSpeedPllFrequencyHz := lowSpeedPllFrequencyHz
        sensorlessHighSpeedPllFrequencyHz := highSpeedPllFrequencyHz }

/-- `set_sensorless_2` -/
def setSensorless2 (config : FirmwareConfig K) (gamma alpha : K) :
    Except ConfigError (FirmwareConfig K) := do
  let gamma ← positive gamma
  let alpha ← positive alpha
  .ok { config with ortegaGamma := gamma, ortegaAlpha := alpha }

/-- `set_braking_current_limits`, as a pair. -/
def setBrakingCurrentLimits (config : FirmwareConfig K) (limitA faultA : K) :
    Except ConfigError (FirmwareConfig K) := do
  let limitA ← inRange limitA currentLimitRange
  let faultA ← inRange faultA currentLimitRange
  if faultA < limitA then .error .rangeInverted
  else .ok { config with brakingCurrentLimitA := limitA, brakingCurrentFaultA := faultA }

end FirmwareConfig

end FirmwareTypes
