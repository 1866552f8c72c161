-- SUMMARY: The communication thread of MainFrm.pas: its globals, the stream parser QueryPort, and what one call dispatches.
import PowerProfiler.Firmware.Device
import PowerProfiler.Lib.Framing
import PowerProfiler.Lib.Window

/-!
# The host's stream parser

`QueryPort` sends a waiting command, reads what the port has, appends it to the bytes of
an unfinished frame in `bufcom`, and works through the complete frames. Frames of samples
go to the ring `bufsmp`, any other frame may be the reply that the user interface waits
for.
-/

open Framing Circular

/-! ## Sizes -/

/-- `MAX_BLK_CNT` -/
def maxBlkCnt : Nat := 116 * 2

/-- `COM_BUF_CNT` -/
def comBufCnt : Nat := maxBlkCnt * 2 + 2

/-- `SMP_BUF_CNT` -/
def smpBufCnt : Nat := 0x3fffff

/-- `SizeOf(Buff)` of the array that `ReadFile` fills. -/
def buffSize : Nat := maxBlkCnt + 3

/-- `sizeof(bufcom)` -/
def bufcomSize : Nat := comBufCnt + 1

/-- `sizeof(bufrx)` -/
def bufrxSize : Nat := 64

/-- `CMD_DEV_ADC` -/
def cmdDevAdc : UInt8 := 0x3A

/-! ## State -/

/-- The globals of the communication thread. `fault` records an access outside an array or a
count below zero. -/
structure Host where
  samplesEna : Bool := false
  workAdc : Bool := false
  bufsmp : Nat → UInt32 := fun _ => 0
  ismprx : Nat := 0
  ismptx : Nat := 0
  purgeCom : Bool := false
  buftx : Nat → UInt8 := fun _ => 0
  lentx : Nat := 0
  errtx : UInt8 := 0
  bufrx : Nat → UInt8 := fun _ => 0
  lenrx : Nat := 0
  waitId : UInt8 := 0
  waitCnt : UInt32 := 0
  bufcom : Nat → UInt8 := fun _ => 0
  idxBufcom : Nat := 0
  devNotSendCount : UInt32 := 0
  devAllSendCount : UInt32 := 0
  devSendErr : UInt8 := 0
  fault : Bool := false

/-- What `ReadFile` delivers: at most as many bytes as `Buff` holds. -/
abbrev Chunk := { bs : List UInt8 // bs.length ≤ buffSize }

namespace Host

/-! ## Frames -/

/-- The sample `i` of a block, counted from 1. -/
def sampleAt (bufcom : Nat → UInt8) (i : Nat) : UInt32 :=
  (bufcom (i * 3 - 1)).toUInt32 ||| ((bufcom (i * 3)).toUInt32 <<< 8) |||
    ((bufcom (i * 3 + 1)).toUInt32 <<< 16)

/-- The double word at `i`, little end first. -/
def dwordAt (mem : Nat → UInt8) (i : Nat) : UInt32 :=
  (mem i).toUInt32 ||| ((mem (i + 1)).toUInt32 <<< 8) ||| ((mem (i + 2)).toUInt32 <<< 16) |||
    ((mem (i + 3)).toUInt32 <<< 24)

/-- One round of the copy loop, with its index `itx`. -/
def storeSample (s : Host × Nat) (i : Nat) : Host × Nat :=
  ({ s.1 with
      bufsmp := Function.update s.1.bufsmp s.2 (sampleAt s.1.bufcom i)
      fault := s.1.fault || decide (comBufCnt < i * 3 + 1 ∨ smpBufCnt < s.2) },
    (s.2 + 1) &&& smpBufCnt)

/-- The samples of a block go to `bufsmp`. -/
def storeSamples (h : Host) : Host :=
  let cnt := (h.bufcom 0).toNat / 3
  let s := (List.range' 1 cnt).foldl storeSample (h, h.ismptx &&& (smpBufCnt - 1))
  { s.1 with ismptx := s.2 }

/-- The counters of an error block. -/
def takeCounts (h : Host) : Host :=
  if h.bufcom 0 = 9 then
    { h with
      devAllSendCount := dwordAt h.bufcom 2
      devNotSendCount := dwordAt h.bufcom 6
      devSendErr := h.bufcom 10 }
  else { h with devAllSendCount := 0, devNotSendCount := 0, devSendErr := 255 }

/-- The payload of a matching reply goes to `bufrx`. -/
def takeReply (h : Host) : Host :=
  let size := (h.bufcom 0).toNat
  { h with
    waitId := if h.bufcom 1 &&& 0x80 ≠ 0 then h.waitId ||| 0x80 else h.waitId
    bufrx := if 0 < size then copyTo h.bufrx 0 (Window.read h.bufcom 2 size) else h.bufrx
    lenrx := size
    waitCnt := 0
    fault := h.fault || decide (bufrxSize < size ∨ bufcomSize < 2 + size) }

/-- The wait ends without a reply. -/
def giveUp (h : Host) : Host :=
  { h with lenrx := 0, waitCnt := 0, waitId := h.waitId ||| 0x80 }

/-- The frame at the front of `bufcom`, and whether the procedure is left because of it. -/
def dispatch (h : Host) : Host × Bool :=
  if h.workAdc ∧ h.bufcom 1 &&& 0x7F = cmdDevAdc then
    if h.bufcom 1 &&& 0x80 = 0 then
      (if h.samplesEna ∧ 1 < h.bufcom 0 then h.storeSamples else h, false)
    else (h.takeCounts, false)
  else if 0 < h.waitCnt then
    if h.bufcom 1 &&& 0x7F = h.waitId then (h.takeReply, false)
    else if 3 < h.waitCnt + 1 then (giveUp { h with waitCnt := h.waitCnt + 1 }, true)
    else ({ h with waitCnt := h.waitCnt + 1 }, false)
  else (h, false)

/-- The frame that `dispatch` works on. -/
def frontFrame (h : Host) : Frame :=
  Frame.ofHead (h.bufcom 0) (h.bufcom 1) (Window.read h.bufcom 2 (h.bufcom 0).toNat)

/-! ## The loop -/

/-- The rest of `bufcom` behind its first frame moves to the front. -/
def shift (rest : Nat) (h : Host) : Host :=
  let src := 2 + (h.bufcom 0).toNat
  { h with
    bufcom := copyTo h.bufcom 0 (Window.read h.bufcom src rest)
    fault := h.fault || decide (bufcomSize < src + rest) }

/-- Start again with an empty `bufcom`. -/
def drop (h : Host) : Host :=
  { h with idxBufcom := 0, bufcom := Function.update h.bufcom 0 0 }

/-- The loop over the complete frames in `bufcom`, with the frames it dispatched. -/
def queryLoop (byteReaded : Nat) (h : Host) : Host × List Frame :=
  if _hsize : (h.bufcom 0).toNat + 2 ≤ byteReaded then
    let f := h.frontFrame
    let size := (h.bufcom 0).toNat
    match h.dispatch with
    | (h, true) => (h, [f])
    | (h, false) =>
        let rest := byteReaded - 2 - size
        let h := { h with fault := h.fault || decide (byteReaded < 2 + size) }
        let h := if 0 < rest then h.shift rest else h
        if 0 < rest ∧ maxBlkCnt < (h.bufcom 0).toNat then (h.drop, [f])
        else
          let out := queryLoop rest { h with idxBufcom := rest }
          (out.1, f :: out.2)
  else (h, [])
termination_by byteReaded

/-! ## One call -/

/-- `purge_com` -/
def purge (h : Host) : Host :=
  if h.purgeCom then { h with purgeCom := false, idxBufcom := 0, ismptx := 0, ismprx := 0 } else h

/-- A waiting command is written; `written` is the number of bytes `WriteFile` reports, or
nothing when it fails. -/
def writeCommand (written : Option Nat) (h : Host) : Host :=
  if h.lentx ≠ 0 then
    { h with
      errtx :=
        match written with
        | none => 1
        | some n => if h.lentx ≠ n then 2 else 0
      lentx := 0 }
  else h

theorem purge_of_off {h : Host} (hoff : h.purgeCom = false) : h.purge = h := by
  rw [purge, hoff]
  rfl

theorem writeCommand_none {h : Host} (hwait : h.lentx ≠ 0) :
    h.writeCommand none = { h with errtx := 1, lentx := 0 } := if_pos hwait

theorem writeCommand_some {h : Host} (hwait : h.lentx ≠ 0) (n : Nat) :
    h.writeCommand (some n) =
      { h with errtx := if h.lentx ≠ n then 2 else 0, lentx := 0 } := if_pos hwait

/-- The test that the chunk does not fit behind the unfinished frame. -/
def Overflows (chunk : Chunk) (h : Host) : Prop := bufcomSize < chunk.1.length + h.idxBufcom

instance (chunk : Chunk) (h : Host) : Decidable (h.Overflows chunk) :=
  inferInstanceAs (Decidable (_ < _))

/-- The chunk goes behind the unfinished frame, or to the front when it does not fit. -/
def append (chunk : Chunk) (h : Host) : Host :=
  let h := if h.Overflows chunk then { h with idxBufcom := 0 } else h
  { h with
    bufcom := copyTo h.bufcom h.idxBufcom chunk.1
    fault := h.fault || decide (bufcomSize < h.idxBufcom + chunk.1.length) }

/-- What the call does with the bytes that `ReadFile` delivered. -/
def receive (chunk : Chunk) (h : Host) : Host × List Frame :=
  if 0 < chunk.1.length then
    let h := h.append chunk
    if (h.bufcom 0).toNat ≤ maxBlkCnt then h.queryLoop (chunk.1.length + h.idxBufcom)
    else (h.drop, [])
  else (h, [])

/-- `TCommThread.QueryPort`, with the frames it dispatched; `readed` is nothing when
`ReadFile` fails. -/
def queryPort (written : Option Nat) (readed : Option Chunk) (h : Host) : Host × List Frame :=
  let h := h.purge.writeCommand written
  match readed with
  | none => ({ h with idxBufcom := 0 }, [])
  | some chunk => h.receive chunk

end Host
