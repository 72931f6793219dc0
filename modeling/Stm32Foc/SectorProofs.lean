import Stm32Foc.AdcFeedback
import Stm32Foc.RealArithmetic

/-! # The sampled phases

    The sector of the voltage vector leaves one phase unsampled.  It is the phase of the
    highest voltage (`highest_of_sector`), so the one whose low side conducts shortest, but
    for what the digits of the constants miss of the boundaries between the sectors. -/

namespace SectorProofs

open FieldOriented Sensing ModulationProofs

variable {K : Type} [Field K] [LinearOrder K] [IsStrictOrderedRing K] [Sqrt3 K]

/-! ## The comparisons -/

/-- What the constants miss of the lines where two phases are equal. -/
def slack (ab : AlphaBeta K) : K := |1.5 - Sqrt3.sqrt3Half * Sqrt3.sqrt3| * |ab.alpha|

end SectorProofs
