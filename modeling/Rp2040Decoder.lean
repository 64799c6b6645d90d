import Rp2040Decoder.AccelReversal
import Rp2040Decoder.BemfDirection
import Rp2040Decoder.BitWrite
import Rp2040Decoder.BuildScript
import Rp2040Decoder.Core0Power
import Rp2040Decoder.CoresSafety
import Rp2040Decoder.FilteredMean
import Rp2040Decoder.FirmwareProgramming
import Rp2040Decoder.FirmwareSignal
import Rp2040Decoder.FlashArray
import Rp2040Decoder.FlashSync
import Rp2040Decoder.Measure
import Rp2040Decoder.MotorProgress
import Rp2040Decoder.PowerLoss
import Rp2040Decoder.Ramp
import Rp2040Decoder.ReadBounds
import Rp2040Decoder.SpeedDrive
import Rp2040Decoder.StartupRecord
import Rp2040Decoder.TwoStdDev
import Rp2040Decoder.WriteFailure
