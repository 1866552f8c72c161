-- SUMMARY: The firmware as a machine of atomic steps: its events, its steps, and what each step lets be observed.
import PowerProfiler.Firmware.Cdc
import PowerProfiler.Lib.Runs

/-!
# The firmware as a machine

An event is one call of `task_data_out`, one drain, or one interrupt. A run is a list
of events, taken in any order. `acceptedOf`, `builtOf`, `writeOf` and `handedOf` say
what a step lets be observed: the samples the interrupt stored, the block built, the
write to the output FIFO, and the bytes handed to the IN endpoint.
-/

open Framing

/-- The interrupts: a DMA block, a request of the host, the completion of an IN transfer,
a change of the DTR line, a bus reset, a configuration. -/
inductive Irq where
  | dma (rx : RxBuffer)
  | bulkOut (readBuffer : List UInt8)
  | bulkIn
  | setDtr (dtr : Bool)
  | busReset
  | configure

inductive Event where
  | task
  | drain
  | irq (i : Irq)

/-- The main loop takes its next step, or an interrupt runs. -/
inductive LoopEvent where
  | main
  | irq (i : Irq)

/-! ## Steps -/

def irqStep : Irq → Device → Device
  | .dma rx, d => dmaI2sIsr rx d
  | .bulkOut readBuffer, d => usbdCdcAcmBulkOut readBuffer d
  | .bulkIn, d => inComplete d
  | .setDtr dtr, d => usbdCdcAcmSetDtr dtr d
  | .busReset, d => usbBusReset d
  | .configure, d => usbConfigure d

def step : Event → Device → Device
  | .task, d => (taskDataOut d).1
  | .drain, d => (usbDcSendFromRingbuffer d).1
  | .irq i, d => irqStep i d

/-- The byte string that the step passes to `Ring_Buffer_Write`. -/
def writeOf : Event → Device → Option (List UInt8)
  | .task, d => (taskDataOut d).2.map dataBlkOut
  | .irq (.bulkOut readBuffer), d => (decodePacket readBuffer d).2.map Frame.bytes
  | _, _ => none

/-- The samples that the step stores in the sample ring. -/
def acceptedOf : Event → Device → List UInt32
  | .irq (.dma rx), d => if d.Accepting then rx.1 else []
  | _, _ => []

/-- The samples of the block that the step builds. -/
def builtOf : Event → Device → List UInt32
  | .task, d => (taskDataOut d).2.getD []
  | _, _ => []

/-- The bytes that the step passes to `usbd_ep_start_write`. -/
def handedOf : Event → Device → List UInt8
  | .drain, d => (usbDcSendFromRingbuffer d).2.getD []
  | _, _ => []
