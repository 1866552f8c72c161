-- SUMMARY: The firmware's global variables, its fixed sizes, byte layouts of its words, and the state after start-up.
import PowerProfiler.Firmware.RingBuffer

/-!
# The device

One record holds the global variables of the firmware that its tasks, interrupts
and USB callbacks share, together with the state of the IN endpoint that the USB
driver keeps. The registers that only clock and pin set-up write are left out.
-/

/-! ## Sizes -/

/-- `DATA_BUF_CNT` -/
def dataBufCnt : Nat := 1024

/-- `DATA8_BLK_CNT` -/
def data8BlkCnt : Nat := 120

/-- `DATA24_BLK_CNT` -/
def data24BlkCnt : Nat := data8BlkCnt / 3

/-- `I2S_RX_BUF_LEN` -/
def i2sRxBufLen : Nat := 32

/-- `USB_TX_RINGBUFFER_SIZE` -/
def usbTxRingBufferSize : Nat := 4 * 1024

/-- `USBD_TXBUFSIZE` -/
def usbdTxBufSize : Nat := 2048

/-- `CDC_MAX_MPS` -/
def cdcMaxMps : Nat := 64

/-- `CMD_DEV_EADC` -/
def cmdDevEadc : UInt8 := 0x3A

/-! ## Words as bytes, little end first -/

/-- The three bytes that a sample contributes to a data block. -/
def sampleBytes (w : UInt32) : List UInt8 := [w.toUInt8, (w >>> 8).toUInt8, (w >>> 16).toUInt8]

def u32Bytes (w : UInt32) : List UInt8 :=
  [w.toUInt8, (w >>> 8).toUInt8, (w >>> 16).toUInt8, (w >>> 24).toUInt8]

def u16Bytes (w : UInt16) : List UInt8 := [w.toUInt8, (w >>> 8).toUInt8]

def u32OfBytes (b0 b1 b2 b3 : UInt8) : UInt32 :=
  b0.toUInt32 + (b1.toUInt32 <<< 8) + (b2.toUInt32 <<< 16) + (b3.toUInt32 <<< 24)

@[simp] theorem length_sampleBytes (w : UInt32) : (sampleBytes w).length = 3 := rfl
@[simp] theorem length_u32Bytes (w : UInt32) : (u32Bytes w).length = 4 := rfl
@[simp] theorem length_u16Bytes (w : UInt16) : (u16Bytes w).length = 2 := rfl

/-! ## Records -/

/-- `i2s_cfg_t` with its initial values. -/
structure I2sCfg where
  freq : UInt32 := 24576000
  wakeupcnt : UInt32 := 512
  channels : UInt8 := 3
  start : UInt8 := 0

/-- `dev_adc_cfg_t` -/
structure DevAdcCfg where
  enable : UInt8 := 0
  chnl : UInt8 := 0
  freq : UInt32 := 0

namespace DevAdcCfg

/-- The packed bytes of the record. -/
def bytes (cfg : DevAdcCfg) : List UInt8 := cfg.enable :: cfg.chnl :: u32Bytes cfg.freq

/-- `memcpy` onto the record: the given bytes over its own, as many as it has. -/
def memcpy (cfg : DevAdcCfg) (data : List UInt8) : DevAdcCfg :=
  match data.take 6 ++ cfg.bytes.drop data.length with
  | [enable, chnl, f0, f1, f2, f3] => { enable, chnl, freq := u32OfBytes f0 f1 f2 f3 }
  | _ => cfg

@[simp] theorem length_bytes (cfg : DevAdcCfg) : cfg.bytes.length = 6 := rfl

end DevAdcCfg

/-- What the driver keeps of the IN endpoint: whether it is enabled, and the lengths of
the transfers started and not yet completed, oldest first. -/
structure InEp where
  epEnable : Bool := false
  inflight : List Nat := []

/-- The shared state of the firmware. `fault` records an access to `data_buffer` outside
its bounds; `audioPll` is the argument of the last `Set_Audio_PLL_Freq`; `memory` is the
word memory that the debug command reaches, apart from the variables of this
record. -/
structure Device where
  dataBuffer : Nat → UInt32
  dataBufferWrPtr : Nat
  dataBufferRdPtr : Nat
  blkReadCount : UInt32
  blkOverflowCnt : UInt32
  usbTxRb : RingBuffer
  i2s0 : Bool
  i2sCfg : I2sCfg
  audioPll : Option UInt32
  cfgAdc : DevAdcCfg
  writeBuffer : Nat → UInt8
  epTxBusyFlag : Bool
  dtrEnable : Bool
  inEp : InEp
  memory : UInt32 → UInt32
  fault : Bool

namespace Device

/-- The contents `cdc_acm_init` gives `write_buffer`: the digits, then the letter a. -/
def initialWriteBuffer (i : Nat) : UInt8 :=
  [0x31, 0x32, 0x33, 0x34, 0x35, 0x36, 0x37, 0x38, 0x39, 0x30].getD i 0x61

/-- The state in which `main` enters its loop. -/
def boot (memory : UInt32 → UInt32) : Device where
  dataBuffer _ := 0
  dataBufferWrPtr := 0
  dataBufferRdPtr := 0
  blkReadCount := 0
  blkOverflowCnt := 0
  usbTxRb := ringBufferInit (fun _ => 0) usbTxRingBufferSize
  i2s0 := false
  i2sCfg := {}
  audioPll := none
  cfgAdc := {}
  writeBuffer := initialWriteBuffer
  epTxBusyFlag := false
  dtrEnable := false
  inEp := {}
  memory := memory
  fault := false

end Device
