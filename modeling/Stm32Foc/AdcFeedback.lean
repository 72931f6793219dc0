import Stm32Foc.FocTypes

/-! # The current sensors

    Two converters sample two of the three shunts in a PWM period.  Which two is chosen
    by the sector of the voltage vector one period earlier; the third current is the one
    that closes the sum. -/

namespace Sensing

open FieldOriented

/-- The phases of the motor. -/
inductive Phase where
  | u
  | v
  | w
  deriving DecidableEq, Repr

/-- The value of a phase. -/
def phaseValue {K : Type} (values : PhaseValues K) : Phase → K
  | .u => values.u
  | .v => values.v
  | .w => values.w

/-- The converters with the channels they convert at the next trigger. -/
structure AdcFeedback where
  uChannel : UInt8
  vChannel : UInt8
  wChannel : UInt8
  adcA : UInt8
  adcB : UInt8
  sampledSector : UInt8
  deriving DecidableEq, Repr

namespace AdcFeedback

/-- `get_hw_channel` -/
def channel (feedback : AdcFeedback) : Phase → UInt8
  | .u => feedback.uChannel
  | .v => feedback.vChannel
  | .w => feedback.wChannel

variable {K : Type} [Field K]

end AdcFeedback

end Sensing
