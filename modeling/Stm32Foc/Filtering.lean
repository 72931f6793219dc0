import Stm32Foc.Saliency
import Stm32Foc.Transforms

/-! # The filters of the protection

    A current that is low-pass filtered and compared with a limit, and the three phase
    currents together. -/

namespace Filtering

open FieldOriented Saliency

variable {K : Type} [Field K]

/-- `iir_cutoff_to_alpha` -/
def iirCutoffToAlpha [Libm K] (sampleRateHz cutoffHz : K) : K :=
  Libm.expf (-tau * cutoffHz / sampleRateHz)

/-- `LowPassFilter::new` -/
def lowPass [Libm K] (sampleRateHz cutoffHz : K) : LowPassFilter K where
  alpha := iirCutoffToAlpha sampleRateHz cutoffHz
  prevFilteredValue := 0

/-- `PLL::new` -/
def phaseLockedLoop (frequencyHz : K) : PLL K :=
  let omegaN := tau * frequencyHz
  { kp := 2.0 * omegaN, ki := omegaN * omegaN, state := ⟨0, 0⟩ }

/-- `PLL::set_frequency` -/
def setFrequency (pll : PLL K) (frequencyHz : K) : PLL K :=
  let omegaN := tau * frequencyHz
  { pll with kp := 2.0 * omegaN, ki := omegaN * omegaN }

/-- A single current channel. -/
structure CurrentFilter (K : Type) where
  filter : LowPassFilter K
  limitA : K

namespace CurrentFilter

/-- `CurrentFilter::new` -/
def new [Libm K] (sampleRateHz lowpassCutoffHz limitA : K) : CurrentFilter K where
  filter := lowPass sampleRateHz lowpassCutoffHz
  limitA := limitA

/-- `CurrentFilter::update` -/
def update (self : CurrentFilter K) (measurement : K) : K × CurrentFilter K :=
  let (filtered, filter) := self.filter.update measurement
  (filtered, { self with filter := filter })

/-- `CurrentFilter::filtered` -/
def filtered (self : CurrentFilter K) : K := self.filter.prevFilteredValue

/-- `CurrentFilter::exceeds_limit`: excursions below the negative limit do not trip. -/
def exceedsLimit [LinearOrder K] (self : CurrentFilter K) : Bool :=
  decide (self.filtered > self.limitA)

/-- `CurrentFilter::magnitude_exceeds_limit` -/
def magnitudeExceedsLimit [LinearOrder K] (self : CurrentFilter K) : Bool :=
  decide (|self.filtered| > self.limitA)

/-- `CurrentFilter::set_limit` -/
def setLimit (self : CurrentFilter K) (limitA : K) : CurrentFilter K :=
  { self with limitA := limitA }

/-- `CurrentFilter::reset` -/
def reset (self : CurrentFilter K) : CurrentFilter K :=
  { self with filter := self.filter.reset }

end CurrentFilter

/-- `PhaseCurrentFilter`, with its `FilteredPhases`. -/
structure PhaseCurrentFilter (K : Type) where
  u : CurrentFilter K
  v : CurrentFilter K
  w : CurrentFilter K

namespace PhaseCurrentFilter

/-- `PhaseCurrentFilter::new` -/
def new [Libm K] (sampleRateHz lowpassCutoffHz overcurrentLimitA : K) :
    PhaseCurrentFilter K where
  u := .new sampleRateHz lowpassCutoffHz overcurrentLimitA
  v := .new sampleRateHz lowpassCutoffHz overcurrentLimitA
  w := .new sampleRateHz lowpassCutoffHz overcurrentLimitA

/-- `PhaseCurrentFilter::update` -/
def update (self : PhaseCurrentFilter K) (measurement : PhaseValues K) :
    PhaseCurrentFilter K where
  u := (self.u.update measurement.u).2
  v := (self.v.update measurement.v).2
  w := (self.w.update measurement.w).2

/-- `PhaseCurrentFilter::check_overcurrent` -/
def checkOvercurrent [LinearOrder K] (self : PhaseCurrentFilter K) : Bool :=
  self.u.magnitudeExceedsLimit || self.v.magnitudeExceedsLimit ||
    self.w.magnitudeExceedsLimit

/-- `PhaseCurrentFilter::set_limits` -/
def setLimits (self : PhaseCurrentFilter K) (overcurrentLimitA : K) :
    PhaseCurrentFilter K where
  u := self.u.setLimit overcurrentLimitA
  v := self.v.setLimit overcurrentLimitA
  w := self.w.setLimit overcurrentLimitA

/-- `PhaseCurrentFilter::filtered` -/
def filtered (self : PhaseCurrentFilter K) : PhaseValues K :=
  ⟨self.u.filtered, self.v.filtered, self.w.filtered⟩

end PhaseCurrentFilter

end Filtering
