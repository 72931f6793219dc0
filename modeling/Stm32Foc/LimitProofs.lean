import Stm32Foc.CanConfig
import Stm32Foc.EventRun
import Mathlib.Tactic.NormNum
import Mathlib.Algebra.Order.Ring.Rat

/-! # The limits stay ordered

    What a message may carry (`Valid`) and what it changes (`effect`) in one step
    each; the setters, one after the other on a copy, come to exactly that
    (`candidate_eq_ok_iff`).  The clamping of the coupled limits then keeps them in
    their order whatever is sent. -/

namespace LimitProofs

open EventRun FieldOriented FirmwareTypes CanConfig

/-! ## Fallible setters -/

theorem bind_eq_ok {ε α β : Type} {x : Except ε α} {f : α → Except ε β} {b : β} :
    (x >>= f) = .ok b ↔ ∃ a, x = .ok a ∧ f a = .ok b := by
  cases x with
  | error e => exact iff_of_false (fun h => nomatch h) (fun ⟨_, h, _⟩ => nomatch h)
  | ok a =>
      constructor
      · exact fun h => ⟨a, rfl, h⟩
      · rintro ⟨a', ha, hf⟩
        obtain rfl := Except.ok.inj ha
        exact hf

theorem ite_error_eq_ok {ε α : Type} {c : Prop} [Decidable c] {e : ε}
    {x : Except ε α} {a : α} :
    (if c then .error e else x) = .ok a ↔ ¬ c ∧ x = .ok a := by
  by_cases h : c
  · rw [if_pos h]
    exact iff_of_false (fun he => nomatch he) (fun he => he.1 h)
  · rw [if_neg h]
    exact (and_iff_right h).symm

variable {α : Type}

theorem inRange_bind_eq_ok {K : Type} [LinearOrder K] {v : K} {range : K × K}
    {f : K → Except ConfigError α} {a : α} :
    (inRange v range >>= f) = .ok a ↔ (range.1 ≤ v ∧ v ≤ range.2) ∧ f v = .ok a := by
  rw [bind_eq_ok, inRange]
  constructor
  · rintro ⟨w, hw, hf⟩
    obtain ⟨hv, hw⟩ := ite_error_eq_ok.mp hw
    obtain rfl := Except.ok.inj hw
    rw [not_or, not_lt, not_lt] at hv
    exact ⟨hv, hf⟩
  · rintro ⟨hv, hf⟩
    refine ⟨v, ite_error_eq_ok.mpr ⟨?_, rfl⟩, hf⟩
    rw [not_or, not_lt, not_lt]
    exact hv

variable {K : Type} [Field K] [LinearOrder K] {config config' : FirmwareConfig K}

theorem nonnegative_bind_eq_ok {v : K} {f : K → Except ConfigError α} {a : α} :
    (nonnegative v >>= f) = .ok a ↔ 0 ≤ v ∧ f v = .ok a := by
  rw [bind_eq_ok, nonnegative]
  constructor
  · rintro ⟨w, hw, hf⟩
    obtain ⟨hv, hw⟩ := ite_error_eq_ok.mp hw
    obtain rfl := Except.ok.inj hw
    exact ⟨not_lt.mp hv, hf⟩
  · rintro ⟨hv, hf⟩
    exact ⟨v, ite_error_eq_ok.mpr ⟨not_lt.mpr hv, rfl⟩, hf⟩

theorem positive_bind_eq_ok {v : K} {f : K → Except ConfigError α} {a : α} :
    (positive v >>= f) = .ok a ↔ 0 < v ∧ f v = .ok a := by
  rw [bind_eq_ok, positive]
  constructor
  · rintro ⟨w, hw, hf⟩
    obtain ⟨hv, hw⟩ := ite_error_eq_ok.mp hw
    obtain rfl := Except.ok.inj hw
    exact ⟨not_le.mp hv, hf⟩
  · rintro ⟨hv, hf⟩
    exact ⟨v, ite_error_eq_ok.mpr ⟨not_le.mpr hv, rfl⟩, hf⟩

/-- The end of a setter. -/
theorem ok_eq_ok {ε : Type} {a b : α} : (.ok a : Except ε α) = .ok b ↔ b = a :=
  ⟨fun h => (Except.ok.inj h).symm, fun h => congrArg _ h.symm⟩

/-! ## Setters -/

theorem setDcBusLimits_eq_ok {minV maxV : K} :
    config.setDcBusLimits minV maxV = .ok config' ↔
      (0 ≤ minV ∧ minV < maxV ∧ maxV ≤ boardDcVoltageLimitV) ∧
        config' = { config with dcBusMinVoltageV := minV, dcBusMaxVoltageV := maxV } := by
  rw [FirmwareConfig.setDcBusLimits, inRange_bind_eq_ok, inRange_bind_eq_ok,
    ite_error_eq_ok, not_le, ok_eq_ok]
  constructor
  · rintro ⟨⟨hmin, -⟩, ⟨-, hmax⟩, hlt, heq⟩
    exact ⟨⟨hmin, hlt, hmax⟩, heq⟩
  · rintro ⟨⟨hmin, hlt, hmax⟩, heq⟩
    exact ⟨⟨hmin, hlt.le.trans hmax⟩, ⟨hmin.trans hlt.le, hmax⟩, hlt, heq⟩

/-- A pair of currents in order passes when the lower is nonnegative and the upper is
    within the board's limit. -/
theorem currents_inRange_iff {low high : K} {P : Prop} :
    ((currentLimitRange.1 ≤ low ∧ low ≤ currentLimitRange.2) ∧
      (currentLimitRange.1 ≤ high ∧ high ≤ currentLimitRange.2) ∧ low ≤ high ∧ P) ↔
    (0 ≤ low ∧ low ≤ high ∧ high ≤ boardCurrentLimitA) ∧ P := by
  constructor
  · rintro ⟨⟨hlow, -⟩, ⟨-, hhigh⟩, hle, hP⟩
    exact ⟨⟨hlow, hle, hhigh⟩, hP⟩
  · rintro ⟨⟨hlow, hle, hhigh⟩, hP⟩
    exact ⟨⟨hlow, hle.trans hhigh⟩, ⟨hlow.trans hle, hhigh⟩, hle, hP⟩

theorem setBrakingCurrentLimits_eq_ok {limitA faultA : K} :
    config.setBrakingCurrentLimits limitA faultA = .ok config' ↔
      (0 ≤ limitA ∧ limitA ≤ faultA ∧ faultA ≤ boardCurrentLimitA) ∧
        config' = { config with
          brakingCurrentLimitA := limitA, brakingCurrentFaultA := faultA } := by
  rw [FirmwareConfig.setBrakingCurrentLimits, inRange_bind_eq_ok, inRange_bind_eq_ok,
    ite_error_eq_ok, not_lt, ok_eq_ok]
  exact currents_inRange_iff

theorem setCurrentLimits_eq_ok {ratedA momentaryA : K} :
    config.setCurrentLimits ratedA momentaryA = .ok config' ↔
      (0 ≤ ratedA ∧ ratedA ≤ momentaryA ∧ momentaryA ≤ boardCurrentLimitA) ∧
        config' = { config with
          ratedCurrentLimitA := min ratedA config.overcurrentLimitA
          momentaryCurrentLimitA := min momentaryA config.overcurrentLimitA
          calibrationCurrentA :=
            min config.calibrationCurrentA (min ratedA config.overcurrentLimitA) } := by
  rw [FirmwareConfig.setCurrentLimits, inRange_bind_eq_ok, inRange_bind_eq_ok,
    ite_error_eq_ok, gt_iff_lt, not_lt, ok_eq_ok]
  exact currents_inRange_iff

theorem setOvercurrentLimitA_eq_ok {v : K} :
    config.setOvercurrentLimitA v = .ok config' ↔
      (0 ≤ v ∧ v ≤ boardCurrentLimitA) ∧
        config' = { config with
          overcurrentLimitA := v
          ratedCurrentLimitA := min config.ratedCurrentLimitA v
          momentaryCurrentLimitA := min config.momentaryCurrentLimitA v
          calibrationCurrentA :=
            min config.calibrationCurrentA (min config.ratedCurrentLimitA v) } := by
  rw [FirmwareConfig.setOvercurrentLimitA, inRange_bind_eq_ok, ok_eq_ok]
  exact Iff.rfl

omit [Field K] [LinearOrder K] in
theorem setSetpointTimeoutMs_eq_ok {v : UInt16} :
    config.setSetpointTimeoutMs v = .ok config' ↔
      v ≤ setpointTimeoutMaxMs ∧ config' = { config with setpointTimeoutMs := v } := by
  rw [FirmwareConfig.setSetpointTimeoutMs, ite_error_eq_ok, gt_iff_lt, UInt16.not_lt,
    ok_eq_ok]

theorem setTempMaxC_eq_ok {v : K} :
    config.setTempMaxC v = .ok config' ↔
      (-40.0 ≤ v ∧ v ≤ 150.0) ∧ config' = { config with tempMaxC := v } := by
  rw [FirmwareConfig.setTempMaxC, inRange_bind_eq_ok, ok_eq_ok]
  exact Iff.rfl

omit [Field K] [LinearOrder K] in
theorem setRotorSpeedLimitMechRpm_eq_ok {v : UInt16} :
    config.setRotorSpeedLimitMechRpm v = .ok config' ↔
      v ≠ 0 ∧ config' = { config with
        rotorSpeedLimitMechRpm := min v config.rotorOverspeedLimitMechRpm } := by
  rw [FirmwareConfig.setRotorSpeedLimitMechRpm, ite_error_eq_ok, ok_eq_ok]

omit [Field K] [LinearOrder K] in
theorem setRotorOverspeedLimitMechRpm_eq_ok {v : UInt16} :
    config.setRotorOverspeedLimitMechRpm v = .ok config' ↔
      v ≠ 0 ∧ config' = { config with
        rotorOverspeedLimitMechRpm := v
        rotorSpeedLimitMechRpm := min config.rotorSpeedLimitMechRpm v } := by
  rw [FirmwareConfig.setRotorOverspeedLimitMechRpm, ite_error_eq_ok, ok_eq_ok]

theorem setCalibrationVoltageV_eq_ok {v : K} :
    config.setCalibrationVoltageV v = .ok config' ↔
      (0 ≤ v ∧ v ≤ boardDcVoltageLimitV) ∧
        config' = { config with calibrationVoltageV := v } := by
  rw [FirmwareConfig.setCalibrationVoltageV, inRange_bind_eq_ok, ok_eq_ok]
  exact Iff.rfl

theorem setCalibrationCurrentA_eq_ok {v : K} :
    config.setCalibrationCurrentA v = .ok config' ↔
      (0 ≤ v ∧ v ≤ boardCurrentLimitA) ∧
        config' = { config with
          calibrationCurrentA := min v config.ratedCurrentLimitA } := by
  rw [FirmwareConfig.setCalibrationCurrentA, inRange_bind_eq_ok, ok_eq_ok]
  exact Iff.rfl

theorem setCalibrationSweepOmega_eq_ok {v : K} :
    config.setCalibrationSweepOmega v = .ok config' ↔
      0 < v ∧ config' = { config with calibrationSweepOmega := v } := by
  rw [FirmwareConfig.setCalibrationSweepOmega, positive_bind_eq_ok, ok_eq_ok]

theorem setCalibrationSpinOmega_eq_ok {v : K} :
    config.setCalibrationSpinOmega v = .ok config' ↔
      0 < v ∧ config' = { config with calibrationSpinOmega := v } := by
  rw [FirmwareConfig.setCalibrationSpinOmega, positive_bind_eq_ok, ok_eq_ok]

theorem setSensorless1_eq_ok {hfi startup low high lowPll highPll : K} :
    config.setSensorless1 hfi startup low high lowPll highPll = .ok config' ↔
      ((0 ≤ hfi ∧ hfi ≤ boardDcVoltageLimitV / FirmwareTypes.sqrt3) ∧
        (0 ≤ startup ∧ startup ≤ boardDcVoltageLimitV / FirmwareTypes.sqrt3) ∧
        (0 ≤ low ∧ low ≤ high) ∧ 0 < lowPll ∧ 0 < highPll) ∧
      config' = { config with
        hfiAmplitudeV := hfi
        hfiStartupAmplitudeV := startup
        sensorlessLowSpeedThreshold := low
        sensorlessHighSpeedThreshold := high
        sensorlessLowSpeedPllFrequencyHz := lowPll
        sensorlessHighSpeedPllFrequencyHz := highPll } := by
  rw [FirmwareConfig.setSensorless1, inRange_bind_eq_ok, inRange_bind_eq_ok,
    nonnegative_bind_eq_ok, nonnegative_bind_eq_ok, ite_error_eq_ok, not_lt,
    positive_bind_eq_ok, positive_bind_eq_ok, ok_eq_ok]
  constructor
  · rintro ⟨hhfi, hstartup, hlow, -, hle, hlowPll, hhighPll, heq⟩
    exact ⟨⟨hhfi, hstartup, ⟨hlow, hle⟩, hlowPll, hhighPll⟩, heq⟩
  · rintro ⟨⟨hhfi, hstartup, ⟨hlow, hle⟩, hlowPll, hhighPll⟩, heq⟩
    exact ⟨hhfi, hstartup, hlow, hlow.trans hle, hle, hlowPll, hhighPll, heq⟩

theorem setSensorless2_eq_ok {gamma alpha : K} :
    config.setSensorless2 gamma alpha = .ok config' ↔
      (0 < gamma ∧ 0 < alpha) ∧
        config' = { config with ortegaGamma := gamma, ortegaAlpha := alpha } := by
  rw [FirmwareConfig.setSensorless2, positive_bind_eq_ok, positive_bind_eq_ok, ok_eq_ok,
    and_assoc]

/-! ## Messages -/

/-- What the fields of a message are checked for.  The pole pairs of a `MotorConfig` are
    not checked. -/
def Valid : ConfigMessage K → Prop
  | .protectionLimits1 dcBusVMin dcBusVMax brakingCurrentLimit brakingCurrentFault =>
      (0 ≤ dcBusVMin ∧ dcBusVMin < dcBusVMax ∧ dcBusVMax ≤ boardDcVoltageLimitV) ∧
        0 ≤ brakingCurrentLimit ∧ brakingCurrentLimit ≤ brakingCurrentFault ∧
        brakingCurrentFault ≤ boardCurrentLimitA
  | .protectionLimits2 setpointTimeout tempMax =>
      setpointTimeout ≤ setpointTimeoutMaxMs ∧ -40.0 ≤ tempMax ∧ tempMax ≤ 150.0
  | .motorConfig _ overcurrentLimit rotorOverspeedLimitMech =>
      (0 ≤ overcurrentLimit ∧ overcurrentLimit ≤ boardCurrentLimitA) ∧
        rotorOverspeedLimitMech ≠ 0
  | .motorLimits rotorSpeedLimitMech momentaryCurrentLimit ratedCurrentLimit =>
      (0 ≤ ratedCurrentLimit ∧ ratedCurrentLimit ≤ momentaryCurrentLimit ∧
        momentaryCurrentLimit ≤ boardCurrentLimitA) ∧ rotorSpeedLimitMech ≠ 0
  | .calibrationTargets targetVoltage targetCurrent sweepVelocity spinVelocity =>
      (0 ≤ targetVoltage ∧ targetVoltage ≤ boardDcVoltageLimitV) ∧
        (0 ≤ targetCurrent ∧ targetCurrent ≤ boardCurrentLimitA) ∧
        0 < sweepVelocity ∧ 0 < spinVelocity
  | .sensorlessConfig1 hfiAmplitude hfiStartupAmplitude low high lowPll highPll =>
      (0 ≤ hfiAmplitude ∧ hfiAmplitude ≤ boardDcVoltageLimitV / FirmwareTypes.sqrt3) ∧
        (0 ≤ hfiStartupAmplitude ∧
          hfiStartupAmplitude ≤ boardDcVoltageLimitV / FirmwareTypes.sqrt3) ∧
        (0 ≤ low ∧ low ≤ high) ∧ (0 : K) < lowPll.toNat ∧ (0 : K) < highPll.toNat
  | .sensorlessConfig2 ortegaGamma ortegaAlpha => 0 < ortegaGamma ∧ 0 < ortegaAlpha

/-- What a whole message changes of the configuration. -/
def effect (config : FirmwareConfig K) : ConfigMessage K → FirmwareConfig K
  | .protectionLimits1 dcBusVMin dcBusVMax brakingCurrentLimit brakingCurrentFault =>
      { config with
        dcBusMinVoltageV := dcBusVMin
        dcBusMaxVoltageV := dcBusVMax
        brakingCurrentLimitA := brakingCurrentLimit
        brakingCurrentFaultA := brakingCurrentFault }
  | .protectionLimits2 setpointTimeout tempMax =>
      { config with setpointTimeoutMs := setpointTimeout, tempMaxC := tempMax }
  | .motorConfig _ overcurrentLimit rotorOverspeedLimitMech =>
      { config with
        overcurrentLimitA := overcurrentLimit
        ratedCurrentLimitA := min config.ratedCurrentLimitA overcurrentLimit
        momentaryCurrentLimitA := min config.momentaryCurrentLimitA overcurrentLimit
        calibrationCurrentA := min config.calibrationCurrentA
          (min config.ratedCurrentLimitA overcurrentLimit)
        rotorOverspeedLimitMechRpm := rotorOverspeedLimitMech
        rotorSpeedLimitMechRpm :=
          min config.rotorSpeedLimitMechRpm rotorOverspeedLimitMech }
  | .motorLimits rotorSpeedLimitMech momentaryCurrentLimit ratedCurrentLimit =>
      { config with
        ratedCurrentLimitA := min ratedCurrentLimit config.overcurrentLimitA
        momentaryCurrentLimitA := min momentaryCurrentLimit config.overcurrentLimitA
        calibrationCurrentA := min config.calibrationCurrentA
          (min ratedCurrentLimit config.overcurrentLimitA)
        rotorSpeedLimitMechRpm :=
          min rotorSpeedLimitMech config.rotorOverspeedLimitMechRpm }
  | .calibrationTargets targetVoltage targetCurrent sweepVelocity spinVelocity =>
      { config with
        calibrationVoltageV := targetVoltage
        calibrationCurrentA := min targetCurrent config.ratedCurrentLimitA
        calibrationSweepOmega := sweepVelocity
        calibrationSpinOmega := spinVelocity }
  | .sensorlessConfig1 hfiAmplitude hfiStartupAmplitude low high lowPll highPll =>
      { config with
        hfiAmplitudeV := hfiAmplitude
        hfiStartupAmplitudeV := hfiStartupAmplitude
        sensorlessLowSpeedThreshold := low
        sensorlessHighSpeedThreshold := high
        sensorlessLowSpeedPllFrequencyHz := lowPll.toNat
        sensorlessHighSpeedPllFrequencyHz := highPll.toNat }
  | .sensorlessConfig2 ortegaGamma ortegaAlpha =>
      { config with ortegaGamma := ortegaGamma, ortegaAlpha := ortegaAlpha }

/-- What a whole message leaves.  Other pole pairs are another motor: what was known of
    the motor goes, with the gains and the hall calibration. -/
def whole (ram : Ram K) : ConfigMessage K → Ram K
  | message@(.motorConfig numPolePairs _ _) =>
      if ram.motorParameters.params.numPolePairs = some numPolePairs then
        { ram with config := effect ram.config message }
      else
        { config := effect ram.config message
          motorParameters := ⟨⟨some numPolePairs, none, none, none, none, none⟩⟩
          piGains := none
          hallCalibration := none }
  | message => { ram with config := effect ram.config message }

/-- The pole pairs that a message carries are checked: others would be refused in their
    place. -/
def PolePairsChecked (config : FirmwareConfig K) : ConfigMessage K → Prop
  | .motorConfig _ overcurrentLimit rotorOverspeedLimitMech =>
      ∃ numPolePairs e,
        candidate config (.motorConfig numPolePairs overcurrentLimit rotorOverspeedLimitMech)
          = .error e
  | _ => True

/-- **ALL OR NOTHING**: a message is taken exactly when every field of it that is checked
    is valid, and then as a whole. -/
theorem candidate_eq_ok_iff (message : ConfigMessage K) :
    candidate config message = .ok config' ↔
      Valid message ∧ config' = effect config message := by
  cases message with
  | protectionLimits1 dcBusVMin dcBusVMax brakingCurrentLimit brakingCurrentFault =>
      -- the second setter is run on what the first leaves, and reads none of it
      rw [candidate, bind_eq_ok]
      constructor
      · rintro ⟨between, hfirst, hsecond⟩
        obtain ⟨hbus, rfl⟩ := setDcBusLimits_eq_ok.mp hfirst
        obtain ⟨hbraking, rfl⟩ := setBrakingCurrentLimits_eq_ok.mp hsecond
        exact ⟨⟨hbus, hbraking⟩, rfl⟩
      · rintro ⟨⟨hbus, hbraking⟩, rfl⟩
        exact ⟨_, setDcBusLimits_eq_ok.mpr ⟨hbus, rfl⟩,
          setBrakingCurrentLimits_eq_ok.mpr ⟨hbraking, rfl⟩⟩
  | protectionLimits2 setpointTimeout tempMax =>
      rw [candidate, bind_eq_ok]
      constructor
      · rintro ⟨between, hfirst, hsecond⟩
        obtain ⟨htimeout, rfl⟩ := setSetpointTimeoutMs_eq_ok.mp hfirst
        obtain ⟨htemp, rfl⟩ := setTempMaxC_eq_ok.mp hsecond
        exact ⟨⟨htimeout, htemp⟩, rfl⟩
      · rintro ⟨⟨htimeout, htemp⟩, rfl⟩
        exact ⟨_, setSetpointTimeoutMs_eq_ok.mpr ⟨htimeout, rfl⟩,
          setTempMaxC_eq_ok.mpr ⟨htemp, rfl⟩⟩
  | motorConfig numPolePairs overcurrentLimit rotorOverspeedLimitMech =>
      rw [candidate, bind_eq_ok]
      constructor
      · rintro ⟨between, hfirst, hsecond⟩
        obtain ⟨hcurrent, rfl⟩ := setOvercurrentLimitA_eq_ok.mp hfirst
        obtain ⟨hspeed, rfl⟩ := setRotorOverspeedLimitMechRpm_eq_ok.mp hsecond
        exact ⟨⟨hcurrent, hspeed⟩, rfl⟩
      · rintro ⟨⟨hcurrent, hspeed⟩, rfl⟩
        exact ⟨_, setOvercurrentLimitA_eq_ok.mpr ⟨hcurrent, rfl⟩,
          setRotorOverspeedLimitMechRpm_eq_ok.mpr ⟨hspeed, rfl⟩⟩
  | motorLimits rotorSpeedLimitMech momentaryCurrentLimit ratedCurrentLimit =>
      rw [candidate, bind_eq_ok]
      constructor
      · rintro ⟨between, hfirst, hsecond⟩
        obtain ⟨hcurrents, rfl⟩ := setCurrentLimits_eq_ok.mp hfirst
        obtain ⟨hspeed, rfl⟩ := setRotorSpeedLimitMechRpm_eq_ok.mp hsecond
        exact ⟨⟨hcurrents, hspeed⟩, rfl⟩
      · rintro ⟨⟨hcurrents, hspeed⟩, rfl⟩
        exact ⟨_, setCurrentLimits_eq_ok.mpr ⟨hcurrents, rfl⟩,
          setRotorSpeedLimitMechRpm_eq_ok.mpr ⟨hspeed, rfl⟩⟩
  | calibrationTargets targetVoltage targetCurrent sweepVelocity spinVelocity =>
      rw [candidate, bind_eq_ok]
      constructor
      · rintro ⟨voltageSet, hfirst, hrest⟩
        obtain ⟨hvoltage, rfl⟩ := setCalibrationVoltageV_eq_ok.mp hfirst
        obtain ⟨currentSet, hsecond, hrest⟩ := bind_eq_ok.mp hrest
        obtain ⟨hcurrent, rfl⟩ := setCalibrationCurrentA_eq_ok.mp hsecond
        obtain ⟨sweepSet, hthird, hfourth⟩ := bind_eq_ok.mp hrest
        obtain ⟨hsweep, rfl⟩ := setCalibrationSweepOmega_eq_ok.mp hthird
        obtain ⟨hspin, rfl⟩ := setCalibrationSpinOmega_eq_ok.mp hfourth
        exact ⟨⟨hvoltage, hcurrent, hsweep, hspin⟩, rfl⟩
      · rintro ⟨⟨hvoltage, hcurrent, hsweep, hspin⟩, rfl⟩
        refine ⟨_, setCalibrationVoltageV_eq_ok.mpr ⟨hvoltage, rfl⟩, ?_⟩
        refine bind_eq_ok.mpr ⟨_, setCalibrationCurrentA_eq_ok.mpr ⟨hcurrent, rfl⟩, ?_⟩
        refine bind_eq_ok.mpr ⟨_, setCalibrationSweepOmega_eq_ok.mpr ⟨hsweep, rfl⟩, ?_⟩
        exact setCalibrationSpinOmega_eq_ok.mpr ⟨hspin, rfl⟩
  | sensorlessConfig1 hfiAmplitude hfiStartupAmplitude low high lowPll highPll =>
      exact setSensorless1_eq_ok
  | sensorlessConfig2 ortegaGamma ortegaAlpha => exact setSensorless2_eq_ok

/-! ## The order of the limits -/

/-- The order in which the limits of a configuration stand, up to the board's. -/
structure WellFormed (config : FirmwareConfig K) : Prop where
  dcBusMin : 0 ≤ config.dcBusMinVoltageV
  dcBus : config.dcBusMinVoltageV < config.dcBusMaxVoltageV
  dcBusMax : config.dcBusMaxVoltageV ≤ boardDcVoltageLimitV
  calibrationCurrent : 0 ≤ config.calibrationCurrentA
  calibration_rated : config.calibrationCurrentA ≤ config.ratedCurrentLimitA
  rated_momentary : config.ratedCurrentLimitA ≤ config.momentaryCurrentLimitA
  momentary_overcurrent : config.momentaryCurrentLimitA ≤ config.overcurrentLimitA
  overcurrent : config.overcurrentLimitA ≤ boardCurrentLimitA
  brakingLimit : 0 ≤ config.brakingCurrentLimitA
  braking : config.brakingCurrentLimitA ≤ config.brakingCurrentFaultA
  brakingFault : config.brakingCurrentFaultA ≤ boardCurrentLimitA
  speedLimit : 0 < config.rotorSpeedLimitMechRpm
  overspeed : config.rotorSpeedLimitMechRpm ≤ config.rotorOverspeedLimitMechRpm
  lowThreshold : 0 ≤ config.sensorlessLowSpeedThreshold
  thresholds : config.sensorlessLowSpeedThreshold ≤ config.sensorlessHighSpeedThreshold
  hfiAmplitude : 0 ≤ config.hfiAmplitudeV ∧
    config.hfiAmplitudeV ≤ boardDcVoltageLimitV / FirmwareTypes.sqrt3
  hfiStartupAmplitude : 0 ≤ config.hfiStartupAmplitudeV ∧
    config.hfiStartupAmplitudeV ≤ boardDcVoltageLimitV / FirmwareTypes.sqrt3
  sweepOmega : 0 < config.calibrationSweepOmega
  spinOmega : 0 < config.calibrationSpinOmega
  lowPll : 0 < config.sensorlessLowSpeedPllFrequencyHz
  highPll : 0 < config.sensorlessHighSpeedPllFrequencyHz
  ortegaGamma : 0 < config.ortegaGamma
  ortegaAlpha : 0 < config.ortegaAlpha

/-- The smaller of two speeds that are not zero. -/
theorem min_speed {v w : UInt16} (hv : v ≠ 0) (hw : w ≠ 0) :
    0 < min v w ∧ min v w ≤ w := by
  have hmin : min v w = if v ≤ w then v else w := rfl
  rw [hmin]
  split
  · rename_i hle
    exact ⟨UInt16.pos_iff_ne_zero.mpr hv, hle⟩
  · exact ⟨UInt16.pos_iff_ne_zero.mpr hw, UInt16.le_refl w⟩

/-- The limits of a new board are in order. -/
theorem wellFormed_default [IsStrictOrderedRing K] :
    WellFormed (FirmwareConfig.default : FirmwareConfig K) := by
  have hspeed : (0 : UInt16) < min 1000 1000 ∧ min 1000 1000 ≤ (1000 : UInt16) :=
    min_speed (by decide) (by decide)
  exact
    { dcBusMin := le_refl _
      dcBus := by norm_num [FirmwareConfig.default]
      dcBusMax := by norm_num [FirmwareConfig.default, boardDcVoltageLimitV]
      calibrationCurrent := le_min zero_le_one zero_le_one
      calibration_rated := min_le_right _ _
      rated_momentary := le_refl _
      momentary_overcurrent := by norm_num [FirmwareConfig.default, boardCurrentLimitA]
      overcurrent := le_refl _
      brakingLimit := le_refl _
      braking := by norm_num [FirmwareConfig.default]
      brakingFault := by norm_num [FirmwareConfig.default, boardCurrentLimitA]
      speedLimit := hspeed.1
      overspeed := hspeed.2
      lowThreshold := by norm_num [FirmwareConfig.default]
      thresholds := by norm_num [FirmwareConfig.default]
      hfiAmplitude := ⟨le_refl _, by
        norm_num [FirmwareConfig.default, boardDcVoltageLimitV, FirmwareTypes.sqrt3]⟩
      hfiStartupAmplitude := ⟨le_refl _, by
        norm_num [FirmwareConfig.default, boardDcVoltageLimitV, FirmwareTypes.sqrt3]⟩
      sweepOmega := zero_lt_one
      spinOmega := zero_lt_one
      lowPll := by norm_num [FirmwareConfig.default]
      highPll := by norm_num [FirmwareConfig.default]
      ortegaGamma := by norm_num [FirmwareConfig.default]
      ortegaAlpha := by norm_num [FirmwareConfig.default] }

/-- **CLAMPING KEEPS THE ORDER**: a limit that comes down pulls down those under it. -/
theorem wellFormed_effect {message : ConfigMessage K} (hvalid : Valid message)
    (h : WellFormed config) : WellFormed (effect config message) := by
  cases message with
  | protectionLimits1 dcBusVMin dcBusVMax brakingCurrentLimit brakingCurrentFault =>
      obtain ⟨⟨hmin, hbus, hmax⟩, hlimit, hbraking, hfault⟩ := hvalid
      exact { h with
        dcBusMin := hmin
        dcBus := hbus
        dcBusMax := hmax
        brakingLimit := hlimit
        braking := hbraking
        brakingFault := hfault }
  | protectionLimits2 setpointTimeout tempMax => exact { h with }
  | motorConfig numPolePairs overcurrentLimit rotorOverspeedLimitMech =>
      -- the overcurrent limit is the top of the chain: all three below it come down
      obtain ⟨⟨hnonneg, hboard⟩, hspeed⟩ := hvalid
      obtain ⟨hpos, hle⟩ :=
        min_speed (UInt16.pos_iff_ne_zero.mp h.speedLimit) hspeed
      have hrated : 0 ≤ config.ratedCurrentLimitA :=
        h.calibrationCurrent.trans h.calibration_rated
      exact { h with
        calibrationCurrent := le_min h.calibrationCurrent (le_min hrated hnonneg)
        calibration_rated := min_le_right _ _
        rated_momentary := min_le_min_right overcurrentLimit h.rated_momentary
        momentary_overcurrent := min_le_right _ _
        overcurrent := hboard
        speedLimit := hpos
        overspeed := hle }
  | motorLimits rotorSpeedLimitMech momentaryCurrentLimit ratedCurrentLimit =>
      obtain ⟨⟨hrated, hcurrents, -⟩, hspeed⟩ := hvalid
      -- the overspeed limit is above a speed limit that is not zero
      have hoverspeed : config.rotorOverspeedLimitMechRpm ≠ 0 :=
        UInt16.pos_iff_ne_zero.mp (UInt16.lt_of_lt_of_le h.speedLimit h.overspeed)
      obtain ⟨hpos, hle⟩ := min_speed hspeed hoverspeed
      have hovercurrent : 0 ≤ config.overcurrentLimitA :=
        (h.calibrationCurrent.trans h.calibration_rated).trans
          (h.rated_momentary.trans h.momentary_overcurrent)
      exact { h with
        calibrationCurrent :=
          le_min h.calibrationCurrent (le_min hrated hovercurrent)
        calibration_rated := min_le_right _ _
        rated_momentary := min_le_min_right config.overcurrentLimitA hcurrents
        momentary_overcurrent := min_le_right _ _
        speedLimit := hpos
        overspeed := hle }
  | calibrationTargets targetVoltage targetCurrent sweepVelocity spinVelocity =>
      obtain ⟨-, ⟨hcurrent, -⟩, hsweep, hspin⟩ := hvalid
      exact { h with
        calibrationCurrent :=
          le_min hcurrent (h.calibrationCurrent.trans h.calibration_rated)
        calibration_rated := min_le_right _ _
        sweepOmega := hsweep
        spinOmega := hspin }
  | sensorlessConfig1 hfiAmplitude hfiStartupAmplitude low high lowPll highPll =>
      obtain ⟨hhfi, hstartup, ⟨hlow, hle⟩, hlowPll, hhighPll⟩ := hvalid
      exact { h with
        lowThreshold := hlow
        thresholds := hle
        hfiAmplitude := hhfi
        hfiStartupAmplitude := hstartup
        lowPll := hlowPll
        highPll := hhighPll }
  | sensorlessConfig2 ortegaGamma ortegaAlpha =>
      obtain ⟨hgamma, halpha⟩ := hvalid
      exact { h with ortegaGamma := hgamma, ortegaAlpha := halpha }

/-! ## Runs -/

/-- The values a message leaves. -/
def step (ram : Ram K) (message : ConfigMessage K) : Ram K := (handle ram message).1

/-- A message either had its checked fields valid and took effect as a whole, the pole
    pairs included, or left everything as it was. -/
def AllOrNothing (ram : Ram K) (message : ConfigMessage K) : Prop :=
  (Valid message ∧ step ram message = whole ram message) ∨
    (¬ Valid message ∧ step ram message = ram)

omit [Field K] [LinearOrder K] in
/-- New pole pairs are all that is known of the motor then. -/
theorem setNumPolePairs_eq (ram : Ram K) (numPolePairs : UInt8) :
    setNumPolePairs ram numPolePairs =
      if ram.motorParameters.params.numPolePairs = some numPolePairs then ram
      else
        { ram with
          motorParameters := ⟨⟨some numPolePairs, none, none, none, none, none⟩⟩
          piGains := none
          hallCalibration := none } := by
  rw [setNumPolePairs]
  by_cases h : ram.motorParameters.params.numPolePairs = some numPolePairs
  · rw [if_pos h, if_neg (not_not.mpr h)]
  · rw [if_neg h, if_pos h]
    rfl

theorem whole_config (ram : Ram K) (message : ConfigMessage K) :
    (whole ram message).config = effect ram.config message := by
  cases message with
  | motorConfig numPolePairs _ _ =>
      rw [whole]
      split <;> rfl
  | _ => rfl

theorem allOrNothing (ram : Ram K) (message : ConfigMessage K) :
    AllOrNothing ram message := by
  cases hcandidate : candidate ram.config message with
  | error e =>
      -- a message that is refused has a field that is not valid
      have hnot : ¬ Valid message := by
        intro hvalid
        have hok : candidate ram.config message = .ok (effect ram.config message) :=
          (candidate_eq_ok_iff message).mpr ⟨hvalid, rfl⟩
        rw [hcandidate] at hok
        cases hok
      refine Or.inr ⟨hnot, ?_⟩
      rw [step, handle, hcandidate]
  | ok config =>
      obtain ⟨hvalid, rfl⟩ := (candidate_eq_ok_iff message).mp hcandidate
      refine Or.inl ⟨hvalid, ?_⟩
      rw [step, handle, hcandidate]
      -- the pole pairs of `MotorConfig` are no part of the configuration
      cases message with
      | motorConfig numPolePairs _ _ => exact setNumPolePairs_eq _ numPolePairs
      | _ => rfl

theorem wellFormed_step (ram : Ram K) (message : ConfigMessage K)
    (h : WellFormed ram.config) : WellFormed (step ram message).config := by
  rcases allOrNothing ram message with ⟨hvalid, heq⟩ | ⟨-, heq⟩
  · rw [heq, whole_config]
    exact wellFormed_effect hvalid h
  · rw [heq]
    exact h

/-- **CONFIGURATION**: from the configuration of a new board, whatever messages are
    handled, each takes effect as a whole or not at all and the limits stay in
    order. -/
theorem limits_ordered [IsStrictOrderedRing K]
    (motorParameters : ConstantMotorParameters K)
    (piGains : Option (ControllerParameters K))
    (hallCalibration : Option (HallCalibration K)) (messages : List (ConfigMessage K)) :
    let start : Ram K := ⟨.default, motorParameters, piGains, hallCalibration⟩
    Always step AllOrNothing start messages ∧
      WellFormed (run step start messages).config := by
  intro start
  constructor
  · exact always_of_forall (A := fun _ => True)
      (fun ram message _ => allOrNothing ram message) messages start (fun _ _ => trivial)
  · exact run_keeps (A := fun _ => True) (I := fun ram => WellFormed ram.config)
      (fun ram message _ => wellFormed_step ram message) messages start
      (fun _ _ => trivial) wellFormed_default

/-- A board whose overcurrent limit comes down under the rated current. -/
theorem limits_ordered_lowered :
    let start : Ram ℚ := ⟨.default, ⟨⟨none, none, none, none, none, none⟩⟩, none, none⟩
    let messages : List (ConfigMessage ℚ) :=
      [.motorConfig 7 0.5 500, .motorLimits 0 1 1, .calibrationTargets 12 1 1 1]
    ((run step start messages).config.calibrationCurrentA = 0.5 ∧
      (run step start messages).motorParameters.params.numPolePairs = some 7) ∧
      Always step AllOrNothing start messages ∧
      WellFormed (run step start messages).config :=
  ⟨by decide +kernel, limits_ordered _ _ _ _⟩

/-- A motor without poles: nothing of the message is refused for it, and it is kept. -/
theorem polePairs_unchecked :
    let start : Ram ℚ := ⟨.default, ⟨⟨none, none, none, none, none, none⟩⟩, none, none⟩
    let message : ConfigMessage ℚ := .motorConfig 0 0.5 500
    ¬ (((Valid message ∧ PolePairsChecked start.config message) ∧
          step start message = whole start message) ∨
        (step start message).config = start.config) ∧
      (step start message).motorParameters.params.numPolePairs = some 0 := by
  intro start message
  refine ⟨?_, by decide +kernel⟩
  rintro (⟨⟨hvalid, numPolePairs, e, hrefused⟩, -⟩ | hkept)
  · -- the setters read none of the pole pairs
    have htaken : candidate start.config message = .ok (effect start.config message) :=
      (candidate_eq_ok_iff message).mpr ⟨hvalid, rfl⟩
    cases hrefused.symm.trans htaken
  · have hcurrent : (step start message).config.overcurrentLimitA = 0.5 := by
      decide +kernel
    rw [hkept] at hcurrent
    exact absurd hcurrent (by decide +kernel)

end LimitProofs
