-- SUMMARY: The command decoder of cmd_decode.c from request frame to reply frame.
import PowerProfiler.Firmware.I2sDrv

/-!
# The command decoder

A request and a reply are a size byte, a command byte and the data that the size
counts, so both are frames. `cmdDecode` reads the request's data only as far as its
size byte reaches.
-/

open Framing

/-- `CMD_DEV_VER` -/
def cmdDevVer : UInt8 := 0x00

/-- `CMD_DEV_STA` -/
def cmdDevSta : UInt8 := 0x03

/-- `CMD_DEV_CAD` -/
def cmdDevCad : UInt8 := 0x38

/-- `CMD_DEV_DBG` -/
def cmdDevDbg : UInt8 := 0x0D

/-- `CMD_ERR_FLG` -/
def cmdErrFlg : UInt8 := 0x80

/-- `INT_DEV_ID` -/
def intDevId : UInt16 := 0x1023

/-- `INT_DEV_VER` -/
def intDevVer : UInt16 := 0x0002

/-- The most words the data of a packet has room for, `sizeof(pbufi->data)/4`. -/
def maxReadWords : Nat := 58

/-- The reply to a command that is not known or too short. -/
def errorReply (cmd : UInt8) : Frame where
  cmd := cmd ||| cmdErrFlg
  payload := []
  fits := by decide

/-- The reply that carries the given bytes. -/
def dataReply (cmd : UInt8) (data : List UInt8) (h : data.length < 256) : Frame :=
  { cmd, payload := data, fits := h }

/-- `CMD_DEV_CAD`: new configuration bytes, if there are any, start or stop sampling. -/
def cmdCad (data : List UInt8) (d : Device) : Device :=
  match data with
  | [] => d
  | enable :: _ =>
      let d := { d with cfgAdc := d.cfgAdc.memcpy data }
      if enable ≠ 0 then i2sStart d.cfgAdc.chnl d.cfgAdc.freq d else i2sStop d

/-- The words written at `addr` by `CMD_DEV_DBG`, four bytes each. -/
def writeWords (memory : UInt32 → UInt32) (addr : UInt32) : List UInt8 → UInt32 → UInt32
  | b0 :: b1 :: b2 :: b3 :: rest =>
      writeWords (Function.update memory addr (u32OfBytes b0 b1 b2 b3)) (addr + 4) rest
  | _ => memory

/-- The bytes of `cnt` words read from `addr` by `CMD_DEV_DBG`. -/
def readWords (memory : UInt32 → UInt32) : UInt32 → Nat → List UInt8
  | _, 0 => []
  | addr, cnt + 1 => u32Bytes (memory addr) ++ readWords memory (addr + 4) cnt

@[simp] theorem length_readWords (memory : UInt32 → UInt32) (addr : UInt32) (cnt : Nat) :
    (readWords memory addr cnt).length = 4 * cnt := by
  induction cnt generalizing addr with
  | zero => rfl
  | succ cnt ih =>
      rw [readWords, List.length_append, length_u32Bytes, ih]
      omega

/-- `CMD_DEV_DBG`: write the words that follow the address, then read back. -/
def cmdDbg (cmd : UInt8) (data : List UInt8) (d : Device) : Device × Frame :=
  match data with
  | c0 :: c1 :: a0 :: a1 :: a2 :: a3 :: words =>
      let addr := u32OfBytes a0 a1 a2 a3 &&& 0xfffffffc
      let d := { d with memory := writeWords d.memory addr words }
      let cnt := min (c0.toNat + 256 * c1.toNat) maxReadWords
      (d, dataReply cmd (readWords d.memory addr cnt) (by
        have : cnt ≤ 58 := min_le_right _ _
        rw [length_readWords]
        omega))
  | _ => (d, errorReply cmd)

/-- `cmd_decode` -/
def cmdDecode (request : Frame) (d : Device) : Device × Frame :=
  if request.cmd = cmdDevVer then
    (d, dataReply request.cmd (u16Bytes intDevId ++ u16Bytes intDevVer) (by decide))
  else if request.cmd = cmdDevCad then
    let d := cmdCad request.payload d
    (d, dataReply request.cmd d.cfgAdc.bytes (by rw [DevAdcCfg.length_bytes]; decide))
  else if request.cmd = cmdDevSta then
    (d, dataReply request.cmd (u32Bytes d.blkReadCount ++ u32Bytes d.blkOverflowCnt) (by
      rw [List.length_append, length_u32Bytes, length_u32Bytes]
      decide))
  else if request.cmd = cmdDevDbg then cmdDbg request.cmd request.payload d
  else (d, errorReply request.cmd)
