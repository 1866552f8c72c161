import PowerProfiler.Lib.Interrupt
import PowerProfiler.Lib.Circular
import PowerProfiler.Lib.Framing
import PowerProfiler.Firmware.RingBuffer
import PowerProfiler.Firmware.RingQueue
import PowerProfiler.Firmware.InterruptedCalls
import PowerProfiler.Firmware.SampleInvariant
import PowerProfiler.Firmware.FrameAtomicity
import PowerProfiler.Firmware.OutputLossless
import PowerProfiler.Firmware.BusyFlag
import PowerProfiler.Firmware.UsbDelivery
import PowerProfiler.Firmware.Requests
import PowerProfiler.Firmware.DriverInvariant
import PowerProfiler.Firmware.ReadBack
import PowerProfiler.Firmware.ChannelAlignment
import PowerProfiler.Firmware.SampleLoss
import PowerProfiler.Firmware.TornCalls
import PowerProfiler.Firmware.AudioPll
import PowerProfiler.Firmware.StartTwice
import PowerProfiler.Firmware.DebugWords
import PowerProfiler.Host.ParserSafety
import PowerProfiler.Host.WaitIndependence
import PowerProfiler.Host.Overflow
import PowerProfiler.Host.Chunking
import PowerProfiler.Host.SampleAppend
import PowerProfiler.Host.Commands
import PowerProfiler.Host.Correlation
import PowerProfiler.Host.Trigger
import PowerProfiler.Host.ShownMean
import PowerProfiler.Host.WavFile
import PowerProfiler.Host.WavRoundTrip
import PowerProfiler.Host.ZeroCalibration
import PowerProfiler.Host.EndToEnd
import PowerProfiler.Host.SessionSampling
import PowerProfiler.Lib.Chain
import PowerProfiler.Lib.Records
import PowerProfiler.Firmware.I2sDma
import PowerProfiler.Firmware.DescriptorWalks
