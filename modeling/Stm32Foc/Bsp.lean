import Stm32Foc.Filtering
import Stm32Foc.HallEstimator

/-! # Board support

    What the interrupt of the current loop drives directly: the hall sensors, the bridge
    and the watchdog that watches the interrupt itself. -/

namespace Bsp

open FieldOriented Saliency Filtering

variable {K : Type} [Field K]

/-! ## Hall sensors -/

/-- The hall sensors' estimator, and the filter of its speed. -/
structure HallFeedback (K : Type) where
  estimator : HallEstimator K
  filter : LowPassFilter K

namespace HallFeedback

section Calibration

variable [LinearOrder K]

/-- `HallFeedback::new` -/
def new [Libm K] (sampleRateHz cutoffHz : K) : HallFeedback K where
  estimator := .new
  filter := lowPass sampleRateHz cutoffHz

/-- `HallFeedback::set_calibration` -/
def setCalibration (self : HallFeedback K) (calibrations : HallCalibration K) :
    HallFeedback K :=
  { self with estimator := self.estimator.setCalibration calibrations }

/-- `HallFeedback::invalidate` -/
def invalidate (self : HallFeedback K) : HallFeedback K :=
  { self with estimator := self.estimator.invalidate }

/-- `HasRotorFeedback::read`, of the state that the timer is read in. -/
def read [FloorRing K] (self : HallFeedback K) (rawState : HallEstimatorInput K) :
    Except RotorFeedbackFault (RotorFeedback K) × HallFeedback K :=
  let (estimate, estimator) := self.estimator.getEstimate rawState
  match estimate with
  | .error fault => (.error fault, { self with estimator := estimator })
  | .ok estimate =>
      let (filteredOmega, filter) := self.filter.update estimate.omega
      (.ok { angleType := .electrical, theta := estimate.theta, omega := filteredOmega },
        { self with estimator := estimator, filter := filter })

end Calibration

end HallFeedback

/-! ## The bridge -/

/-- The PWM timer: whether its outputs are on, its autoreload value, its compare values,
    and the limit that the comparators are set to. -/
structure PwmOutput (K : Type) where
  enabled : Bool
  autoreload : UInt16
  compare : PhaseValues UInt16
  comparatorCurrentLimitA : K

namespace PwmOutput

section Duties

variable [LinearOrder K] [FloorRing K]

/-- `(duty * arv) as u32 as u16` -/
def compareValue (self : PwmOutput K) (duty : K) : UInt16 :=
  UInt16.ofNat (truncToU32 (duty * (self.autoreload.toNat : K)))

/-- `PwmOutput::write_preload_values` -/
def writePreloadValues (self : PwmOutput K) (dutyCycles : PhaseValues K) : PwmOutput K :=
  { self with
    compare :=
      ⟨self.compareValue dutyCycles.u, self.compareValue dutyCycles.v,
        self.compareValue dutyCycles.w⟩ }

/-- `PwmOutput::set_duty_cycles` -/
def setDutyCycles (self : PwmOutput K) (dutyCycles : PhaseValues K) : PwmOutput K :=
  { self with enabled := true }.writePreloadValues dutyCycles

/-- `PwmOutput::active_short` -/
def activeShort (self : PwmOutput K) : PwmOutput K :=
  { self with enabled := true }.writePreloadValues ⟨0, 0, 0⟩

end Duties

/-- `PwmOutput::freewheel` -/
def freewheel (self : PwmOutput K) : PwmOutput K := { self with enabled := false }

/-- `PwmOutput::set_comparator_current_limit` -/
def setComparatorCurrentLimit (self : PwmOutput K) (limitA : K) : PwmOutput K :=
  { self with comparatorCurrentLimitA := limitA }

/-- The bridge applies no voltage: its outputs are off, or all phases are low. -/
def Resting (self : PwmOutput K) : Prop :=
  self.enabled = false ∨ self.compare = ⟨0, 0, 0⟩

omit [Field K] in
theorem resting_freewheel (self : PwmOutput K) : self.freewheel.Resting := .inl rfl

theorem resting_activeShort [LinearOrder K] [IsStrictOrderedRing K] [FloorRing K]
    (self : PwmOutput K) : self.activeShort.Resting := by
  have hzero : ∀ bridge : PwmOutput K, bridge.compareValue 0 = 0 := by
    intro bridge
    rw [compareValue, zero_mul, truncToU32, Int.floor_zero]
    rfl
  refine .inr ?_
  show PhaseValues.mk (compareValue _ 0) (compareValue _ 0) (compareValue _ 0) = _
  rw [hzero]

end PwmOutput

/-! ## The software watchdog -/

/-- The watchdog of the interrupt; `started` is the running of its timer. -/
structure SoftwareWatchdog where
  started : Bool
  faulted : Bool
  acknowledged : Bool
  deriving DecidableEq, Repr

namespace SoftwareWatchdog

/-- `SoftwareWatchdog::new` -/
def new : SoftwareWatchdog := ⟨false, false, false⟩

/-- `SoftwareWatchdog::register_fault` -/
def registerFault (_ : SoftwareWatchdog) : SoftwareWatchdog := ⟨false, true, false⟩

/-- `SoftwareWatchdog::acknowledge_fault` -/
def acknowledgeFault (self : SoftwareWatchdog) : SoftwareWatchdog :=
  { self with acknowledged := true }

/-- `SoftwareWatchdog::feed`, which also restarts the count of the timer. -/
def feed (self : SoftwareWatchdog) : SoftwareWatchdog := { self with started := true }

/-- What `shared_adc_isr` does with it: a fault is reported once. -/
def poll (self : SoftwareWatchdog) : Bool × SoftwareWatchdog :=
  if self.faulted && !self.acknowledged then (true, self.acknowledgeFault)
  else (false, self.feed)

end SoftwareWatchdog

end Bsp
