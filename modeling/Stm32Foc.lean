import Stm32Foc.ActionLogic
import Stm32Foc.ByteMemory
import Stm32Foc.PageRotation
import Stm32Foc.Boot
import Stm32Foc.InterruptedSwapProofs
import Stm32Foc.LoaderProofs
import Stm32Foc.UpdateProofs
import Stm32Foc.ConfigProofs
import Stm32Foc.ModesProofs
import Stm32Foc.TorqueProofs
import Stm32Foc.FeedbackProofs
import Stm32Foc.StrategyProofs
import Stm32Foc.GateProofs
import Stm32Foc.LimitProofs
import Stm32Foc.DfuProofs
import Stm32Foc.ArbitrationProofs
import Stm32Foc.HallSweepProofs
import Stm32Foc.SetpointProofs
import Stm32Foc.SessionProofs
import Stm32Foc.PersistProofs
import Stm32Foc.StatusProofs
import Stm32Foc.PolarityProofs
import Stm32Foc.SectorProofs
import Stm32Foc.FocProofs
import Stm32Foc.PiTuningProofs
import Stm32Foc.ResistanceProofs
import Stm32Foc.DurationProofs
import Stm32Foc.HallEstimatorProofs
import Stm32Foc.HallCycleProofs
import Stm32Foc.BoardChecks
import Stm32Foc.InstallProofs
import Stm32Foc.DeliveryProofs
import Stm32Foc.CanTxProofs
import Stm32Foc.CaptureProofs
import Stm32Foc.FluxProofs
import Stm32Foc.ProtectionProofs
import Stm32Foc.TorquePolarityProofs
import Stm32Foc.WatchdogProofs
import Stm32Foc.NotchProofs
import Stm32Foc.PllProofs
