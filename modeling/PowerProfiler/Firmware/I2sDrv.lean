-- SUMMARY: The I2S driver of i2s_drv.c: initialisation, start, stop, sleep and wake-up.
import PowerProfiler.Firmware.SampleRing

/-!
# The I2S driver

Every function that stops or restarts sampling puts both pointers of the sample ring
back to zero. The device table of the SDK has an entry for the I2S unit and its DMA
channel, so the lookups in `I2S_init` succeed.
-/

/-- The limits that `I2S_init` puts on the clock of the converter. -/
def clampFreq (freq : UInt32) : UInt32 :=
  if freq < 512000 then 512000 else if 96000000 < freq then 96000000 else freq

/-- Both pointers of the sample ring at its start. -/
def resetPtrs (d : Device) : Device := { d with dataBufferWrPtr := 0, dataBufferRdPtr := 0 }

/-- `I2S_init` -/
def i2sInit (channels : UInt8) (freq : UInt32) (d : Device) : Device :=
  { resetPtrs d with
    i2s0 := true
    audioPll := if d.i2sCfg.freq ≠ freq then some (clampFreq freq) else d.audioPll
    i2sCfg :=
      { start := 0
        channels := if channels &&& 3 = 0 then 1 else channels &&& 3
        freq := if d.i2sCfg.freq ≠ freq then clampFreq freq else d.i2sCfg.freq
        wakeupcnt := 512 } }

/-- `I2S_Start` initialises the unit again. -/
def Device.Reinit (channels : UInt8) (freq : UInt32) (d : Device) : Prop :=
  d.i2sCfg.start = 0 ∨ d.i2sCfg.channels ≠ channels ∨ d.i2sCfg.freq ≠ freq

instance (channels : UInt8) (freq : UInt32) (d : Device) : Decidable (d.Reinit channels freq) :=
  inferInstanceAs (Decidable (_ ∨ _ ∨ _))

/-- `I2S_Start` -/
def i2sStart (channels : UInt8) (freq : UInt32) (d : Device) : Device :=
  if d.i2s0 then
    let d := if d.Reinit channels freq then i2sInit channels freq d else d
    { d with blkReadCount := 0, blkOverflowCnt := 0, i2sCfg := { d.i2sCfg with start := 1 } }
  else d

/-- `I2S_Stop` -/
def i2sStop (d : Device) : Device :=
  if d.i2s0 then { resetPtrs d with i2sCfg := { d.i2sCfg with start := 0 } } else d

/-- `I2S_Sleep` -/
def i2sSleep (d : Device) : Device :=
  if d.i2s0 then { resetPtrs d with i2s0 := false, i2sCfg := { d.i2sCfg with start := 0 } } else d

/-- `I2S_WakeUp` -/
def i2sWakeUp (d : Device) : Device :=
  if d.i2s0 then d
  else
    let d := i2sInit d.i2sCfg.channels d.i2sCfg.freq
      { d with i2sCfg := { d.i2sCfg with freq := 0 } }
    { d with i2sCfg := { d.i2sCfg with wakeupcnt := 512 } }
