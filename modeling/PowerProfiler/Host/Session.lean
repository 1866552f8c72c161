-- SUMMARY: The procedures of MainFrm.pas behind its buttons and its timer, over the communication thread and the device.
import PowerProfiler.Firmware.System
import PowerProfiler.Host.Chart
import PowerProfiler.Host.Commands
import PowerProfiler.Host.WavFile

/-!
# The session

The buttons open the port, start, stop and clear a capture, the timer charts what arrived.
Each of them sends commands and waits for the replies. What becomes of a command is open:
`WriteFile` may fail or stop short, `SendBlk` may give up before the thread has taken the
packet, and any frames may arrive while `ReadBlk` waits. The device works on every packet
that reaches it.
-/

open Framing Circular

/-- What becomes of a command: what `WriteFile` reports, whether `SendBlk` sees it within its
limit, and the frames that `QueryPort` works through until the wait is over. -/
structure Exchange where
  written : Option Nat
  inTime : Bool
  frames : List Frame

/-- A command as it is remembered: its command byte, whether the device has received the whole
packet, and what `SendBlk` and `ReadBlk` told the caller. -/
structure Verdict where
  cmd : UInt8
  taken : Bool
  said : Bool
  deriving DecidableEq

/-- The host and its device. `badTrigger` tells which trigger edits do not show a number, and
`inTimer` holds while `TimerTimer` runs. Two are not variables of the program: `log` remembers
the commands, and `cutShort` that an exception has left the handler of a start or of a clear. -/
structure Session where
  device : Device
  app : App
  screen : Screen
  badTrigger : Chan → Bool := fun _ => false
  adcChannel : UInt8
  oldSps : Nat := 0
  devId : UInt8 := 0
  timerEnabled : Bool := false
  flgComOpen : Bool := false
  commThread : Bool := false
  buttonStop : Bool := false
  buttonStartADC : Bool := false
  inTimer : Bool := false
  log : List Verdict := []
  cutShort : Bool := false

namespace Session

/-- The program is started next to a device that has just booted. -/
def start (memory : UInt32 → UInt32) (form : Form) (screen : Screen) (adcChannel : UInt8) : Session where
  device := Device.boot memory
  app := { host := {}, form := { form with chartEnables := .off, samplesAutoStop := false }, call := none }
  screen := screen
  adcChannel := adcChannel

def onHost (f : Host → Host) (s : Session) : Session :=
  { s with app := { s.app with host := f s.app.host } }

def onForm (f : Form → Form) (s : Session) : Session :=
  { s with app := { s.app with form := f s.app.form } }

/-! ## Commands -/

/-- `SendBlk` with what `buftx` holds, `ReadBlk`, and the caller's test of `lenrx`. -/
def exchange (x : Exchange) (dataCount : UInt8) (buftx : Nat → UInt8) (accept : Nat → Bool)
    (s : Session) : Session × Bool :=
  if s.commThread then
    let asked := { s.app.host with buftx := buftx }.sendBlk dataCount
    let h := ((asked.purge.writeCommand x.written).handleAll x.frames).1
    let sent := x.inTime && h.errtx == 0
    let result := sent && h.waitCnt == 0 && h.readBlk && accept h.lenrx
    ({ s with
        device :=
          match x.written with
          | none => s.device
          | some n => usbdCdcAcmBulkOut (asked.packet.take n) s.device
        app := { s.app with host := if sent then { h with waitCnt := 0 } else h }
        log := s.log ++ [⟨buftx 1, x.written.any (asked.lentx ≤ ·), result⟩] },
      result)
  else (s.onHost fun h => { h with buftx := buftx }, false)

/-- `ReadStatus` -/
def readStatus (x : Exchange) (s : Session) : Session × Bool :=
  let ft := s.timerEnabled
  let r := exchange x 0 (Function.update s.app.host.buftx 1 cmdDevSta) (· == 8)
    { s with timerEnabled := false }
  ({ (if r.2 then r.1.onHost Host.readStatus else r.1) with timerEnabled := ft }, r.2)

/-- `SetAdcIniCfg` -/
def setAdcIniCfg (mode : UInt8) (x : Exchange) (s : Session) : Session × Bool :=
  let freq := UInt32.ofNat s.app.form.adcSmps * 512
  let r := exchange x 6
    (copyTo s.app.host.buftx 0
      [6, cmdDevCad, mode, s.adcChannel, freq.toUInt8, (freq >>> 8).toUInt8,
        (freq >>> 16).toUInt8, (freq >>> 24).toUInt8])
    (6 ≤ ·) { s with timerEnabled := false }
  ({ r.1 with timerEnabled := r.1.app.host.samplesEna }, r.2)

/-- `purge_com := 1` -/
def purgeCom (s : Session) : Session := s.onHost fun h => { h with purgeCom := true }

/-- A round of `StopReadDevice`. -/
def stopTry (x : Exchange) (s : Session) : Session × Bool :=
  exchange x 1 (Function.update (Function.update s.app.host.buftx 1 cmdDevCad) 2 0) (6 ≤ ·) s.purgeCom

/-- The loop of `StopReadDevice`, with the number of rounds left. -/
def stopTries (o : Nat → Exchange) : Nat → Session → Session × Bool
  | 0, s => (s, false)
  | n + 1, s =>
      let r := s.stopTry (o n)
      if r.2 then (r.1.purgeCom, true) else stopTries o n r.1

/-- `StopReadDevice` -/
def stopReadDevice (o : Nat → Exchange) (s : Session) : Session × Bool := stopTries o 6 s

/-- A round of `GetDevVersion` up to the device id. -/
def versionTry (x : Exchange) (s : Session) : Session × Bool :=
  let r := exchange x 0 (Function.update s.app.host.buftx 1 cmdDevVer) (· == 4) s.purgeCom
  if r.2 then
    ({ r.1 with devId := r.1.app.host.bufrx 0 }, r.1.app.host.bufrx 0 == Host.adcDeviceId)
  else (r.1, false)

/-- The loop of `GetDevVersion`, with the number of rounds left. Behind `StopReadDevice` it
succeeds either way. -/
def versionTries (o stops : Nat → Exchange) : Nat → Session → Session × Bool
  | 0, s => (s, false)
  | n + 1, s =>
      let r := s.versionTry (o n)
      if r.2 then ((r.1.stopReadDevice stops).1, true) else versionTries o stops n r.1

/-- `GetDevVersion` -/
def getDevVersion (o stops : Nat → Exchange) (s : Session) : Session × Bool :=
  versionTries o stops 6 s

/-! ## Buttons -/

/-- `OpenCom` succeeds; with the port open the host raises DTR. -/
def openCom (s : Session) : Session :=
  { s with flgComOpen := true, device := usbdCdcAcmSetDtr true s.device }

/-- `CloseComThread` and `CloseCom` -/
def closeCom (s : Session) : Session :=
  { s with commThread := false, flgComOpen := false, device := usbdCdcAcmSetDtr false s.device }

/-- `StartComThread` -/
def startComThread (s : Session) : Session :=
  if s.commThread then s
  else
    { s.onHost fun h => { h with
        idxBufcom := 0, waitId := 0, waitCnt := 0, lentx := 0, ismprx := 0, ismptx := 0, errtx := 0
        bufcom := Function.update h.bufcom 0 0 } with commThread := true }

/-- `SamplesEna := False; Timer1.Enabled := False` -/
def disable (s : Session) : Session :=
  { s.onHost fun h => { h with samplesEna := false } with timerEnabled := false }

/-- `ismptx := 0; ismprx := 0` -/
def resetSamples (s : Session) : Session := s.onHost fun h => { h with ismptx := 0, ismprx := 0 }

/-- `SetParStart`, and whether it returns: where a trigger edit does not show a number, `StrToFloat`
raises an exception behind the assignments before it. -/
def setParStart (s : Session) : Session × Bool :=
  if s.badTrigger .i then (s.onForm fun f => { f with maxSamples := s.screen.maxSamples }, false)
  else if s.badTrigger .u then
    (s.onForm fun f => { f with
        maxSamples := s.screen.maxSamples
        chan := Function.update f.chan .i { f.chan .i with trigger := s.screen.trigger .i } },
      false)
  else (s.onForm fun f => f.setParStart s.screen s.app.host.workAdc, true)

/-- `ButtonOpenClick` behind `OpenCom`, up to `GetDevVersion`. -/
def connect (s : Session) : Session :=
  (s.openCom.purgeCom.onForm fun f => { f.clearGrf with chartEnables := .off }).startComThread

/-- `ButtonOpenClick`; `name` is the result of `SetComName`, `opened` of `OpenCom`. -/
def buttonOpenClick (name opened : Bool) (o stops : Nat → Exchange) (s : Session) : Session :=
  let s := s.disable
  if s.flgComOpen then { s.closeCom with buttonStop := false, buttonStartADC := false }
  else if name && opened then
    let r := s.connect.getDevVersion o stops
    if r.2 then { r.1.purgeCom.onForm Form.clearGrf with buttonStop := true, buttonStartADC := true }
    else r.1.closeCom
  else s

/-- `ButtonStopClick` -/
def buttonStopClick (status config : Exchange) (s : Session) : Session :=
  if s.buttonStop then
    let r := s.disable.readStatus status
    if r.2 then
      if r.1.devId = Host.adcDeviceId then
        let r := r.1.setAdcIniCfg 0 config
        if r.2 then r.1.purgeCom.resetSamples.setParStart.1 else r.1
      else r.1.purgeCom.resetSamples.setParStart.1
    else r.1
  else s

/-- `ChartEnables`, from the channels that the device is to send. -/
def chartsOf (adcChannel : UInt8) : ChartEnables :=
  if adcChannel = 1 then .u else if adcChannel = 2 then .i else .ui

/-- `Round((SMP_BUF_CNT * 495.0)/s)` -/
def maxs (adcSmps : Nat) : Nat := (roundEven (smpBufCnt * 495 / adcSmps)).toNat

/-- The limit that the sample buffer sets on `MaxSamples`. -/
def clampMaxSamples (s : Session) : Session :=
  let f := s.app.form
  if f.adcSmps ≠ 0 ∧ maxs f.adcSmps < f.maxSamples then
    { s.onForm fun f => { f with maxSamples := maxs f.adcSmps } with
      screen := { s.screen with maxSamples := maxs f.adcSmps } }
  else s

/-- `ButtonStartADCClick` behind `SetParStart`. -/
def startSamples (s : Session) : Session :=
  let s := (s.onForm fun f => { f with chartEnables := chartsOf s.adcChannel }).clampMaxSamples
  let s := { s with oldSps := s.app.form.adcSmps }
  let s :=
    if s.app.form.samplesAutoStop then s.onForm fun f => { f with samplesAutoStop := false }.clearGrf
    else s
  { s.resetSamples.onHost fun h => { h with samplesEna := true } with timerEnabled := true }

/-- `ButtonStartADCClick` behind a successful `SetAdcIniCfg`. -/
def startCapture (s : Session) : Session :=
  let r := (s.onHost fun h => { h with workAdc := true }).setParStart
  if r.2 then r.1.startSamples else { r.1 with cutShort := true }

/-- `ButtonStartADCClick` -/
def buttonStartADCClick (config : Exchange) (s : Session) : Session :=
  if s.buttonStartADC then
    let r := s.disable.purgeCom.setAdcIniCfg 1 config
    if r.2 then r.1.startCapture else r.1
  else s

/-- `ButtonClrGrfClick` -/
def buttonClrGrfClick (s : Session) : Session :=
  if s.flgComOpen then
    let r := (s.disable.purgeCom.resetSamples.onForm Form.clearGrf).setParStart
    if r.2 then
      { r.1.onHost fun h => { h with samplesEna := s.app.host.samplesEna } with
        timerEnabled := s.timerEnabled }
    else { r.1 with cutShort := true }
  else s.onForm Form.clearGrf

/-! ## The timer -/

/-- `TimerTimer` up to the loop of `AddCrfSamples`. -/
def timer (s : Session) : Session :=
  if s.timerEnabled ∧ s.app.host.samplesEna then
    if s.app.host.ismptx ≠ s.app.host.ismprx then
      -- The division raises an exception that leaves `TimerTimer` as well.
      { s with app := s.app.addCrfSamples, inTimer := s.app.form.adcSmps ≠ 0 }
    else { s with inTimer := true }
  else s

/-- The next pass of `AddCrfSamples` reaches the limit. -/
def atLimit (a : App) : Bool :=
  match a.call with
  | none => false
  | some (irx, itx) =>
      irx != itx && (a.form.take (a.words irx)).flg && decide (a.form.absorb (a.words irx)).Full

/-- `(not ReadStatus) or (not StopReadDevice)`, negated. -/
def stopAtLimit (status : Exchange) (stops : Nat → Exchange) (s : Session) : Session × Bool :=
  let r := s.readStatus status
  if r.2 then r.1.stopReadDevice stops else (r.1, false)

/-- One pass of `AddCrfSamples`. At the limit it stops the device. -/
def pass (status : Exchange) (stops : Nat → Exchange) (s : Session) : Session :=
  if atLimit s.app then
    let r := s.stopAtLimit status stops
    let done := s.app.pass .noStatus
    let s := { r.1 with
      app := { done with host := { r.1.app.host with ismprx := done.host.ismprx } } }
    if r.2 then s.disable.purgeCom else s
  else { s with app := s.app.pass .noStatus }

/-- The branch of `TimerTimer` for an error that a block reported. -/
def takeError (stops : Nat → Exchange) (s : Session) : Session :=
  let r := s.stopReadDevice stops
  ((if r.2 then r.1.disable.purgeCom else r.1).onHost fun h => { h with devSendErr := 0 }).onForm
    fun f => { f with samplesAutoStop := true }

/-- The end of `TimerTimer`; `shown` tells that the labels are due. -/
def leaveTimer (shown : Bool) (s : Session) : Session :=
  { (if shown then s.onForm Form.showLabelsMX else s) with inTimer := false }

/-- `TimerTimer` behind `AddCrfSamples`. -/
def timerEnd (stops : Nat → Exchange) (shown : Bool) (s : Session) : Session :=
  (if s.app.host.devSendErr ≠ 0 then s.takeError stops else s).leaveTimer shown

/-! ## Steps -/

/-- What the device does without a request of the host. -/
def Unasked : Event → Bool
  | .irq (.bulkOut _) | .irq (.setDtr _) => false
  | _ => true

/-- `Adc_channels_tab` -/
def adcChannelsTab : Fin 3 → UInt8 := ![1, 2, 3]

/-- `Uk_adc`, `Uz_adc`, `Ik_adc` and `Iz_adc`, assigned from as many edits as show numbers. -/
def parsedAdc (parsed : Nat) (before shown : Chan → AdcCalibration) : Chan → AdcCalibration
  | .u => ⟨if 0 < parsed then (shown .u).k else (before .u).k,
      if 1 < parsed then (shown .u).zero else (before .u).zero⟩
  | .i => ⟨if 2 < parsed then (shown .i).k else (before .i).k,
      if 3 < parsed then (shown .i).zero else (before .i).zero⟩

/-- What can happen. A click waits until `TimerTimer` has returned. -/
inductive Action where
  | buttonOpen (name opened : Bool) (o stops : Nat → Exchange)
  | buttonStop (status config : Exchange)
  | buttonStartADC (config : Exchange)
  | buttonClrGrf
  | checkBoxTriger
  /-- `GetScrParms` of the ADC dialog; the first `parsed` of its edits show numbers. -/
  | adcConfig (parsed : Nat) (itemIndex : Fin 3) (adcSmps : UInt32) (adc : Chan → AdcCalibration)
  /-- `SpinEditAdcSmpsChange` -/
  | spinAdcSmps (x : UInt32)
  | edit (screen : Screen) (badTrigger : Chan → Bool)
  | timer
  | pass (status : Exchange) (stops : Nat → Exchange)
  | timerEnd (stops : Nat → Exchange) (shown : Bool)
  /-- The communication thread calls `QueryPort` while nothing is to be written. -/
  | query (readed : Option Chunk)
  | device (e : { e : Event // Unasked e = true })

/-- What waits until `TimerTimer` has returned. -/
def click : Action → Session → Session
  | .buttonOpen name opened o stops, s => s.buttonOpenClick name opened o stops
  | .buttonStop status config, s => s.buttonStopClick status config
  | .buttonStartADC config, s => s.buttonStartADCClick config
  | .buttonClrGrf, s => s.buttonClrGrfClick
  | .checkBoxTriger, s => s.setParStart.1
  | .adcConfig parsed itemIndex adcSmps adc, s =>
      let s := s.onForm fun f => { f with adc := parsedAdc parsed f.adc adc }
      if parsed < 4 then s
      else
        { s.onForm fun f => { f with adcSmps := adcSmps.toNat } with
          adcChannel := adcChannelsTab itemIndex }
  | .spinAdcSmps x, s =>
      if 1000 ≤ x ∧ x ≤ 100000 then s.onForm fun f => { f with adcSmps := x.toNat } else s
  | .edit screen badTrigger, s => { s with screen := screen, badTrigger := badTrigger }
  | .timer, s => s.timer
  | _, s => s

def act : Action → Session → Session
  | .pass status stops, s => if s.inTimer then s.pass status stops else s
  | .timerEnd stops shown, s =>
      if s.inTimer ∧ s.app.call = none then s.timerEnd stops shown else s
  | .query readed, s =>
      if s.commThread then s.onHost fun h => (h.queryPort none readed).1 else s
  | .device e, s => { s with device := step e.1 s.device }
  | a, s => if s.inTimer then s else s.click a

end Session
