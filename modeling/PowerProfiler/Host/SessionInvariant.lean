-- SUMMARY: What holds in every session whatever becomes of the commands: port, buttons, timer and the line of the device agree.
import PowerProfiler.Host.SessionCalls

/-!
# Sessions

The buttons for a capture are there exactly while the port is open, and with it DTR and the
I2S unit of the device. Samples are taken only then, and the timer runs exactly while they
are.
-/

open Framing Circular Runs

namespace Session

/-! ## Port, buttons and timer -/

/-- Port, buttons, timer and the line of the device agree. -/
structure Consistent (s : Session) : Prop where
  sound : Sound s.device
  line : s.device.i2s0 = s.flgComOpen ∧ s.device.dtrEnable = s.flgComOpen
  lentx : s.app.host.lentx = 0
  thread : s.commThread = s.flgComOpen
  buttons : s.buttonStop = s.flgComOpen ∧ s.buttonStartADC = s.flgComOpen
  devId : s.flgComOpen = true → s.devId = Host.adcDeviceId
  timer : s.timerEnabled = s.app.host.samplesEna
  ena : s.app.host.samplesEna = true →
    s.flgComOpen = true ∧ s.app.host.workAdc = true ∧ s.app.form.chartEnables ≠ .off
  inTimer : s.inTimer = true → s.flgComOpen = true
  call : s.app.call ≠ none → s.inTimer = true

namespace Consistent

variable {s s' : Session}

theorem start (memory : UInt32 → UInt32) (form : Form) (screen : Screen) (adcChannel : UInt8) :
    Consistent (Session.start memory form screen adcChannel) where
  sound := Sound.boot memory
  line := ⟨rfl, rfl⟩
  lentx := rfl
  thread := rfl
  buttons := ⟨rfl, rfl⟩
  devId := fun h => absurd h Bool.false_ne_true
  timer := rfl
  ena := fun h => absurd h Bool.false_ne_true
  inTimer := fun h => absurd h Bool.false_ne_true
  call := fun h => absurd rfl h

/-- Without its port a session is at rest. -/
theorem closed (h : Consistent s) (hclosed : s.flgComOpen = false) :
    s.app.host.samplesEna = false ∧ s.device.i2sCfg.start = 0 := by
  constructor
  · by_contra hena
    have hopen := (h.ena (Bool.eq_true_of_not_eq_false hena)).1
    rw [hclosed] at hopen
    cases hopen
  · exact start_of_asleep h.sound.driver (h.line.1.trans hclosed)

/-- Commands keep the agreement when the timer is left as it was. -/
theorem kept (h : Consistent s) (hk : Kept s s') (htimer : s'.timerEnabled = s.app.host.samplesEna)
    (hid : s'.devId = s.devId) : Consistent s' := by
  obtain ⟨hform, hcall⟩ := hk.app
  obtain ⟨hopen, hthread⟩ := hk.port
  obtain ⟨hstop, hstart, hin⟩ := hk.buttons
  constructor
  · exact hk.sound h.sound
  · rw [hk.line.1, hk.line.2, hopen]
    exact h.line
  · exact hk.lentx h.lentx
  · rw [hthread, hopen]
    exact h.thread
  · rw [hstop, hstart, hopen]
    exact h.buttons
  · rw [hopen, hid]
    exact h.devId
  · rw [htimer, hk.samplesEna]
  · rw [hk.samplesEna, hopen, hk.workAdc, hform]
    exact h.ena
  · rw [hin, hopen]
    exact h.inTimer
  · rw [hcall, hin]
    exact h.call

theorem disable (h : Consistent s) : Consistent s.disable where
  sound := h.sound
  line := h.line
  lentx := h.lentx
  thread := h.thread
  buttons := h.buttons
  devId := h.devId
  timer := rfl
  ena := fun hena => absurd hena Bool.false_ne_true
  inTimer := h.inTimer
  call := h.call

theorem onHost (h : Consistent s) {f : Host → Host}
    (hset : (f s.app.host).samplesEna = s.app.host.samplesEna)
    (hwork : (f s.app.host).workAdc = s.app.host.workAdc)
    (hlen : (f s.app.host).lentx = s.app.host.lentx) : Consistent (s.onHost f) :=
  h.kept (.onHost hset hwork hlen) h.timer rfl

theorem onForm (h : Consistent s) {f : Form → Form}
    (hcharts : (f s.app.form).chartEnables = s.app.form.chartEnables) : Consistent (s.onForm f) where
  sound := h.sound
  line := h.line
  lentx := h.lentx
  thread := h.thread
  buttons := h.buttons
  devId := h.devId
  timer := h.timer
  ena := fun hena => by
    obtain ⟨hopen, hwork, hoff⟩ := h.ena hena
    exact ⟨hopen, hwork, fun heq => hoff (hcharts.symm.trans heq)⟩
  inTimer := h.inTimer
  call := h.call

end Consistent

section Actions

variable {s : Session}

/-- The port is open, and neither the host nor the device captures. -/
structure Connected (s : Session) : Prop where
  sound : Sound s.device
  line : s.device.i2s0 = true ∧ s.device.dtrEnable = true
  start : s.device.i2sCfg.start = 0
  lentx : s.app.host.lentx = 0
  port : s.flgComOpen = true ∧ s.commThread = true
  samplesEna : s.app.host.samplesEna = false
  timer : s.timerEnabled = false
  inTimer : s.inTimer = false
  call : s.app.call = none
  buttons : s.buttonStop = false ∧ s.buttonStartADC = false

/-- The port opens. -/
theorem connect_connected (h : Consistent s) (hclosed : s.flgComOpen = false)
    (hin : s.inTimer = false) : Connected s.connect := by
  have hthread : ¬ s.commThread = true := by
    rw [h.thread, hclosed]
    decide
  have hline : s.device.i2s0 = s.device.dtrEnable := h.line.1.trans h.line.2.symm
  have hena := (h.closed hclosed).1
  have hcall : s.app.call = none := by
    by_contra hcall
    rw [h.call hcall] at hin
    cases hin
  have hconnect : s.connect =
      { (s.openCom.purgeCom.onForm fun f => { f.clearGrf with chartEnables := .off }).onHost
          fun h => { h with
            idxBufcom := 0, waitId := 0, waitCnt := 0, lentx := 0, ismprx := 0, ismptx := 0
            errtx := 0, bufcom := Function.update h.bufcom 0 0 } with commThread := true } := by
    unfold connect startComThread
    exact if_neg hthread
  rw [hconnect]
  exact {
    sound := usbdCdcAcmSetDtr_sound h.sound true
    line := (setDtr_line hline true).symm
    start := setDtr_start h.sound hline true fun _ => h.line.2.trans hclosed
    lentx := rfl
    port := ⟨rfl, rfl⟩
    samplesEna := hena
    timer := h.timer.trans hena
    inTimer := hin
    call := hcall
    buttons := ⟨h.buttons.1.trans hclosed, h.buttons.2.trans hclosed⟩ }

/-- `GetDevVersion` finds it so and leaves it so. -/
theorem Connected.version (h : Connected s) (o stops : Nat → Exchange) :
    Connected (s.getDevVersion o stops).1 := by
  obtain ⟨hkept, htimer, -, hstart⟩ := versionTries_spec o stops s 6
  obtain ⟨hstop, hstartADC, hin⟩ := hkept.buttons
  exact {
    sound := hkept.sound h.sound
    line := ⟨hkept.line.1.trans h.line.1, hkept.line.2.trans h.line.2⟩
    start := hstart h.sound h.start
    lentx := hkept.lentx h.lentx
    port := ⟨hkept.port.1.trans h.port.1, hkept.port.2.trans h.port.2⟩
    samplesEna := hkept.samplesEna.trans h.samplesEna
    timer := htimer.trans h.timer
    inTimer := hin.trans h.inTimer
    call := hkept.app.2.trans h.call
    buttons := ⟨hstop.trans h.buttons.1, hstartADC.trans h.buttons.2⟩ }

theorem Connected.consistent (h : Connected s) (hid : s.devId = Host.adcDeviceId) :
    Consistent { s with buttonStop := true, buttonStartADC := true } where
  sound := h.sound
  line := ⟨h.line.1.trans h.port.1.symm, h.line.2.trans h.port.1.symm⟩
  lentx := h.lentx
  thread := h.port.2.trans h.port.1.symm
  buttons := ⟨h.port.1.symm, h.port.1.symm⟩
  devId := fun _ => hid
  timer := h.timer.trans h.samplesEna.symm
  ena := fun hena => absurd (h.samplesEna.symm.trans hena) Bool.false_ne_true
  inTimer := fun _ => h.port.1
  call := fun hcall => absurd h.call hcall

/-- The port closes next to a host that does not capture. -/
theorem closeCom_consistent (hsound : Sound s.device) (hline : s.device.i2s0 = s.device.dtrEnable)
    (hlen : s.app.host.lentx = 0) (hbuttons : s.buttonStop = false ∧ s.buttonStartADC = false)
    (hena : s.app.host.samplesEna = false) (htimer : s.timerEnabled = false)
    (hin : s.inTimer = false) (hcall : s.app.call = none) : Consistent s.closeCom where
  sound := usbdCdcAcmSetDtr_sound hsound false
  line := (setDtr_line hline false).symm
  lentx := hlen
  thread := rfl
  buttons := hbuttons
  devId := fun hopen => absurd hopen Bool.false_ne_true
  timer := htimer.trans hena.symm
  ena := fun hena' => absurd (hena.symm.trans hena') Bool.false_ne_true
  inTimer := fun hin' => absurd (hin.symm.trans hin') Bool.false_ne_true
  call := fun hc => absurd hcall hc

theorem buttonOpenClick_consistent (h : Consistent s) (hin : s.inTimer = false) (name opened : Bool)
    (o stops : Nat → Exchange) : Consistent (s.buttonOpenClick name opened o stops) := by
  have hd := h.disable
  unfold buttonOpenClick
  dsimp only
  split
  · have hcall : s.app.call = none := by
      by_contra hcall
      rw [h.call hcall] at hin
      cases hin
    exact closeCom_consistent (s := { s.disable with buttonStop := false, buttonStartADC := false })
      hd.sound (hd.line.1.trans hd.line.2.symm) hd.lentx ⟨rfl, rfl⟩ rfl rfl hin hcall
  next hclosed =>
    split
    · have hc := (connect_connected hd (Bool.eq_false_of_not_eq_true hclosed) hin).version o stops
      split
      next hversion =>
        have hid := (versionTries_spec o stops s.disable.connect 6).2.2.1 hversion
        exact ((hc.consistent hid).onHost (f := fun h => { h with purgeCom := true }) rfl rfl
          rfl).onForm (f := Form.clearGrf) rfl
      · exact closeCom_consistent hc.sound (hc.line.1.trans hc.line.2.symm) hc.lentx hc.buttons
          hc.samplesEna hc.timer hc.inTimer hc.call
    · exact hd

/-! ## Start and stop -/

theorem setParStart_charts (screen : Screen) (workAdc : Bool) (f : Form) :
    (f.setParStart screen workAdc).chartEnables = f.chartEnables := by
  unfold Form.setParStart
  dsimp only
  split <;> rfl

/-- Whether it returns or not, `SetParStart` touches neither the channels nor the rate. -/
theorem setParStart_onForm (s : Session) : ∃ f : Form → Form, s.setParStart.1 = s.onForm f ∧
    ∀ x, (f x).chartEnables = x.chartEnables ∧ (f x).adcSmps = x.adcSmps := by
  unfold setParStart
  split
  · dsimp only
    exact ⟨_, rfl, fun _ => ⟨rfl, rfl⟩⟩
  · split
    · dsimp only
      exact ⟨_, rfl, fun _ => ⟨rfl, rfl⟩⟩
    · refine ⟨_, rfl, fun x => ⟨setParStart_charts _ _ x, ?_⟩⟩
      unfold Form.setParStart
      dsimp only
      split <;> rfl

theorem Consistent.setParStart (h : Consistent s) : Consistent s.setParStart.1 := by
  obtain ⟨f, heq, hf⟩ := setParStart_onForm s
  rw [heq]
  exact h.onForm (hf _).1

theorem Consistent.resetSamples (h : Consistent s) : Consistent s.purgeCom.resetSamples :=
  (h.onHost (f := fun h => { h with purgeCom := true }) rfl rfl rfl).onHost rfl rfl rfl

theorem Consistent.readStatus (h : Consistent s) (x : Exchange) : Consistent (s.readStatus x).1 := by
  obtain ⟨hkept, htimer, hid⟩ := readStatus_kept x s
  exact h.kept hkept (htimer.trans h.timer) hid

theorem Consistent.setAdcIniCfg (h : Consistent s) (mode : UInt8) (x : Exchange) :
    Consistent (s.setAdcIniCfg mode x).1 := by
  obtain ⟨hkept, htimer, hid⟩ := setAdcIniCfg_kept x s mode
  exact h.kept hkept htimer hid

theorem Consistent.stopReadDevice (h : Consistent s) (o : Nat → Exchange) :
    Consistent (s.stopReadDevice o).1 := by
  obtain ⟨hkept, htimer, hid⟩ := stopTries_kept o s 6
  exact h.kept hkept (htimer.trans h.timer) hid

theorem buttonStopClick_consistent (h : Consistent s) (status config : Exchange) :
    Consistent (s.buttonStopClick status config) := by
  unfold buttonStopClick
  split
  · have hread := h.disable.readStatus status
    dsimp only
    split
    · split
      · have hset := hread.setAdcIniCfg 0 config
        split
        · exact hset.resetSamples.setParStart
        · exact hset
      · exact hread.resetSamples.setParStart
    · exact hread
  · exact h

theorem chartsOf_ne_off (adcChannel : UInt8) : chartsOf adcChannel ≠ .off := by
  unfold chartsOf
  split
  · decide
  · split <;> decide

/-- What a successful start leaves. -/
structure Started (s s' : Session) : Prop where
  device : s'.device = s.device
  log : s'.log = s.log
  rest : s'.flgComOpen = s.flgComOpen ∧ s'.commThread = s.commThread ∧ s'.devId = s.devId ∧
    s'.inTimer = s.inTimer ∧ s'.buttonStop = s.buttonStop ∧ s'.buttonStartADC = s.buttonStartADC
  host : s'.app.host.samplesEna = true ∧ s'.app.host.workAdc = true ∧
    s'.app.host.lentx = s.app.host.lentx
  call : s'.app.call = s.app.call
  timer : s'.timerEnabled = true
  charts : s'.app.form.chartEnables = chartsOf s.adcChannel
  oldSps : s'.oldSps = s.app.form.adcSmps
  cutShort : s'.cutShort = s.cutShort

/-- What a start leaves where `SetParStart` raises an exception. -/
structure Halted (s s' : Session) : Prop where
  rest : ∃ f : Form → Form, (∀ x, (f x).chartEnables = x.chartEnables) ∧
    s' = { (s.onHost fun h => { h with workAdc := true }).onForm f with cutShort := true }

theorem startCapture_cases (s : Session) :
    Started s s.startCapture ∨ Halted s s.startCapture := by
  obtain ⟨f, heq, hf⟩ := setParStart_onForm (s.onHost fun h => { h with workAdc := true })
  unfold startCapture
  dsimp only
  rw [heq]
  split
  · left
    have hsmps : (f s.app.form).adcSmps = s.app.form.adcSmps := (hf _).2
    unfold startSamples clampMaxSamples
    dsimp only
    split <;> split <;>
      exact ⟨rfl, rfl, ⟨rfl, rfl, rfl, rfl, rfl, rfl⟩, ⟨rfl, rfl, rfl⟩, rfl, rfl, rfl, hsmps, rfl⟩
  · exact .inr ⟨f, fun x => (hf x).1, rfl⟩

theorem Started.consistent {s' : Session} (hstarted : Started s s') (h : Consistent s)
    (hopen : s.flgComOpen = true) : Consistent s' := by
  obtain ⟨hflg, hthread, hid, hin, hstop, hstart⟩ := hstarted.rest
  constructor
  · rw [hstarted.device]; exact h.sound
  · rw [hstarted.device, hflg]; exact h.line
  · rw [hstarted.host.2.2]; exact h.lentx
  · rw [hthread, hflg]; exact h.thread
  · rw [hstop, hstart, hflg]; exact h.buttons
  · rw [hid, hflg]; exact h.devId
  · rw [hstarted.timer, hstarted.host.1]
  · rw [hflg, hstarted.charts]
    exact fun _ => ⟨hopen, hstarted.host.2.1, chartsOf_ne_off _⟩
  · rw [hin, hflg]; exact h.inTimer
  · rw [hstarted.call, hin]; exact h.call

theorem Halted.consistent {s' : Session} (hhalted : Halted s s') (h : Consistent s) :
    Consistent s' := by
  obtain ⟨f, hf, rfl⟩ := hhalted.rest
  exact { h with
    ena := fun hena => by
      obtain ⟨hopen, -, hoff⟩ := h.ena hena
      exact ⟨hopen, rfl, fun heq => hoff ((hf _).symm.trans heq)⟩ }

theorem buttonStartADCClick_consistent (h : Consistent s) (config : Exchange) :
    Consistent (s.buttonStartADCClick config) := by
  unfold buttonStartADCClick
  split
  next hbutton =>
    have hpurged : Consistent s.disable.purgeCom :=
      h.disable.onHost (f := fun h => { h with purgeCom := true }) rfl rfl rfl
    have hset := hpurged.setAdcIniCfg 1 config
    dsimp only
    split
    · have hport := (setAdcIniCfg_kept config s.disable.purgeCom 1).1.port.1
      have hopen : s.disable.purgeCom.flgComOpen = true := h.buttons.2.symm.trans hbutton
      rcases startCapture_cases (s.disable.purgeCom.setAdcIniCfg 1 config).1 with hstarted | hhalted
      · exact hstarted.consistent hset (hport.trans hopen)
      · exact hhalted.consistent hset
    · exact hset
  · exact h

/-- Clearing the chart leaves a capture running, unless `SetParStart` raises an exception: then
samples are no longer taken. -/
theorem buttonClrGrfClick_cases (hopen : s.flgComOpen = true) :
    ∃ f : Form → Form, (∀ x, (f x).chartEnables = x.chartEnables) ∧
      (s.buttonClrGrfClick =
          (s.onHost fun h => { h with purgeCom := true, ismptx := 0, ismprx := 0 }).onForm f ∨
        s.buttonClrGrfClick =
          { s.disable.purgeCom.resetSamples.onForm f with cutShort := true }) := by
  obtain ⟨f, heq, hf⟩ := setParStart_onForm (s.disable.purgeCom.resetSamples.onForm Form.clearGrf)
  refine ⟨fun x => f x.clearGrf, fun x => (hf _).1, ?_⟩
  unfold buttonClrGrfClick
  rw [if_pos hopen]
  dsimp only
  rw [heq]
  split
  · exact .inl rfl
  · exact .inr rfl

theorem buttonClrGrfClick_consistent (h : Consistent s) : Consistent s.buttonClrGrfClick := by
  cases hopen : s.flgComOpen
  · have hclosed : s.buttonClrGrfClick = s.onForm Form.clearGrf :=
      if_neg (by rw [hopen]; decide)
    rw [hclosed]
    exact h.onForm rfl
  · obtain ⟨f, hf, heq | heq⟩ := buttonClrGrfClick_cases hopen
    · rw [heq]
      exact (h.onHost (f := fun h => { h with purgeCom := true, ismptx := 0, ismprx := 0 })
        rfl rfl rfl).onForm (hf _)
    · have hcleared := h.disable.resetSamples.onForm (hf _)
      rw [heq]
      exact { hcleared with }

/-! ## The timer -/

/-- What `AddCrfSamples` does before its loop. -/
theorem addCrfSamples_spec (a : App) : a.addCrfSamples.host = a.host ∧
    a.addCrfSamples.form.chartEnables = a.form.chartEnables ∧
    (a.form.adcSmps = 0 → a.addCrfSamples.call = a.call) := by
  refine ⟨?_, (App.sameSetup_addCrfSamples a).chartEnables, fun hzero => ?_⟩
  · unfold App.addCrfSamples
    split
    · split <;> rfl
    · rfl
  · unfold App.addCrfSamples
    rw [if_neg fun hcond => hcond.2 hzero]

theorem timer_consistent (h : Consistent s) (hin : s.inTimer = false) : Consistent s.timer := by
  obtain ⟨hhost, hcharts, hzero⟩ := addCrfSamples_spec s.app
  unfold timer
  split
  next hrun =>
    have hopen := (h.ena hrun.2).1
    split
    · refine ⟨h.sound, h.line, ?_, h.thread, h.buttons, h.devId, ?_, ?_, fun _ => hopen, fun hcall => ?_⟩
      · rw [hhost]; exact h.lentx
      · rw [hhost]; exact h.timer
      · rw [hhost, hcharts]; exact h.ena
      · refine decide_eq_true fun hsmps => ?_
        rw [hzero hsmps] at hcall
        rw [h.call hcall] at hin
        cases hin
    · exact { h with inTimer := fun _ => hopen, call := fun _ => rfl }
  · exact h

/-- What a pass leaves alone but for the end at the limit. -/
theorem pass_spec (a : App) : (a.pass .noStatus).host.samplesEna = a.host.samplesEna ∧
    (a.pass .noStatus).host.workAdc = a.host.workAdc ∧ (a.pass .noStatus).host.lentx = a.host.lentx ∧
    (a.pass .noStatus).form.chartEnables = a.form.chartEnables ∧
    (a.call = none → (a.pass .noStatus).call = none) := by
  have hhost : (a.pass .noStatus).host.samplesEna = a.host.samplesEna ∧
      (a.pass .noStatus).host.workAdc = a.host.workAdc ∧ (a.pass .noStatus).host.lentx = a.host.lentx := by
    unfold App.pass
    split
    · exact ⟨rfl, rfl, rfl⟩
    · split
      · exact ⟨rfl, rfl, rfl⟩
      · dsimp only
        split <;> exact ⟨rfl, rfl, rfl⟩
  refine ⟨hhost.1, hhost.2.1, hhost.2.2, (App.sameSetup_pass .noStatus a).chartEnables, fun hcall => ?_⟩
  rw [App.pass_idle hcall]
  exact hcall

theorem stopAtLimit_kept (status : Exchange) (stops : Nat → Exchange) (s : Session) :
    Kept s (s.stopAtLimit status stops).1 ∧
      (s.stopAtLimit status stops).1.timerEnabled = s.timerEnabled ∧
      (s.stopAtLimit status stops).1.devId = s.devId := by
  obtain ⟨hread, htimer, hid⟩ := readStatus_kept status s
  obtain ⟨hstop, htimer', hid'⟩ := stopTries_kept stops (s.readStatus status).1 6
  unfold stopAtLimit
  dsimp only
  split
  · exact ⟨hread.trans hstop, htimer'.trans htimer, hid'.trans hid⟩
  · exact ⟨hread, htimer, hid⟩

/-- The application behind the pass that reaches the limit. -/
def passedAtLimit (s r : Session) : Session :=
  { r with app := { s.app.pass .noStatus with
      host := { r.app.host with ismprx := (s.app.pass .noStatus).host.ismprx } } }

theorem pass_eq (status : Exchange) (stops : Nat → Exchange) (s : Session) :
    s.pass status stops =
      if atLimit s.app then
        if (s.stopAtLimit status stops).2 then
          (s.passedAtLimit (s.stopAtLimit status stops).1).disable.purgeCom
        else s.passedAtLimit (s.stopAtLimit status stops).1
      else { s with app := s.app.pass .noStatus } := rfl

theorem pass_consistent (h : Consistent s) (hin : s.inTimer = true) (status : Exchange)
    (stops : Nat → Exchange) : Consistent (s.pass status stops) := by
  obtain ⟨hena, hwork, hlen, hcharts, hcall⟩ := pass_spec s.app
  obtain ⟨hkept, htimer, hid⟩ := stopAtLimit_kept status stops s
  have hr := h.kept hkept (htimer.trans h.timer) hid
  have hlimit : Consistent (s.passedAtLimit (s.stopAtLimit status stops).1) := {
    sound := hr.sound
    line := hr.line
    lentx := hr.lentx
    thread := hr.thread
    buttons := hr.buttons
    devId := hr.devId
    timer := hr.timer
    ena := fun hena' => by
      obtain ⟨hopen, hwork', hoff⟩ := hr.ena hena'
      rw [hkept.app.1] at hoff
      exact ⟨hopen, hwork', fun heq => hoff (hcharts.symm.trans heq)⟩
    inTimer := hr.inTimer
    call := fun _ => hkept.buttons.2.2.trans hin }
  rw [pass_eq]
  split
  · split
    · exact hlimit.disable.onHost rfl rfl rfl
    · exact hlimit
  · exact {
      sound := h.sound
      line := h.line
      lentx := hlen.trans h.lentx
      thread := h.thread
      buttons := h.buttons
      devId := h.devId
      timer := h.timer.trans hena.symm
      ena := fun hena' => by
        obtain ⟨hopen, hwork', hoff⟩ := h.ena (hena.symm.trans hena')
        exact ⟨hopen, hwork.trans hwork', fun heq => hoff (hcharts.symm.trans heq)⟩
      inTimer := h.inTimer
      call := fun _ => hin }

theorem takeError_call (stops : Nat → Exchange) (s : Session) :
    (s.takeError stops).app.call = s.app.call := by
  have hstop := (stopTries_kept stops s 6).1.app.2
  unfold takeError
  dsimp only
  split <;> exact hstop

theorem takeError_consistent (h : Consistent s) (stops : Nat → Exchange) :
    Consistent (s.takeError stops) := by
  have hstop := h.stopReadDevice stops
  have hdone : Consistent (if (s.stopReadDevice stops).2 then
      (s.stopReadDevice stops).1.disable.purgeCom else (s.stopReadDevice stops).1) := by
    split
    · exact hstop.disable.onHost rfl rfl rfl
    · exact hstop
  exact (hdone.onHost (f := fun h => { h with devSendErr := 0 }) rfl rfl rfl).onForm
    (f := fun f => { f with samplesAutoStop := true }) rfl

theorem leaveTimer_consistent (h : Consistent s) (hcall : s.app.call = none) (shown : Bool) :
    Consistent (s.leaveTimer shown) := by
  cases shown with
  | false =>
      exact { h with
        inTimer := fun hin => absurd hin Bool.false_ne_true
        call := fun hc => absurd hcall hc }
  | true =>
      have hshown : Consistent (s.onForm Form.showLabelsMX) := h.onForm rfl
      exact { hshown with
        inTimer := fun hin => absurd hin Bool.false_ne_true
        call := fun hc => absurd hcall hc }

theorem timerEnd_consistent (h : Consistent s) (hcall : s.app.call = none) (stops : Nat → Exchange)
    (shown : Bool) : Consistent (s.timerEnd stops shown) := by
  unfold timerEnd
  split
  · exact leaveTimer_consistent (takeError_consistent h stops)
      ((takeError_call stops s).trans hcall) shown
  · exact leaveTimer_consistent h hcall shown

/-! ## Every action -/

theorem receive_settings (chunk : Chunk) (h : Host) : Host.SameSettings h (h.receive chunk).1 := by
  by_cases hnil : chunk.1 = []
  · have hempty : h.receive chunk = (h, []) := if_neg (by rw [hnil]; decide)
    rw [hempty]
    exact .refl h
  · obtain ⟨-, mem, idx, heq, -, -⟩ := Host.receive_eq hnil h
    have hset := Host.handleAll_settings h (Host.frames (h.base chunk) chunk.1)
    rw [heq]
    exact ⟨hset.workAdc, hset.samplesEna, hset.purgeCom, hset.lentx, hset.ismprx⟩

/-- The communication thread reads the settings and leaves them. -/
theorem query_settings (readed : Option Chunk) (h : Host) :
    (h.queryPort none readed).1.samplesEna = h.samplesEna ∧
      (h.queryPort none readed).1.workAdc = h.workAdc ∧
      (h.lentx = 0 → (h.queryPort none readed).1.lentx = 0) := by
  have hbefore : (h.purge.writeCommand none).samplesEna = h.samplesEna ∧
      (h.purge.writeCommand none).workAdc = h.workAdc ∧
      (h.lentx = 0 → (h.purge.writeCommand none).lentx = 0) := by
    have hlen : h.purge.lentx = h.lentx := by
      unfold Host.purge
      split <;> rfl
    obtain ⟨hwork, hena, -⟩ := h.purge_settings
    unfold Host.writeCommand
    split
    · exact ⟨hena, hwork, fun _ => rfl⟩
    · exact ⟨hena, hwork, hlen.trans⟩
  cases readed with
  | none => exact hbefore
  | some chunk =>
      have hset := receive_settings chunk (h.purge.writeCommand none)
      exact ⟨hset.samplesEna.trans hbefore.1, hset.workAdc.trans hbefore.2.1,
        fun hlen => hset.lentx.trans (hbefore.2.2 hlen)⟩

theorem device_consistent (h : Consistent s) {e : Event} (he : Unasked e = true) :
    Consistent { s with device := step e s.device } := by
  have hline := (step_unasked he s.device).line
  exact { h with
    sound := step_sound h.sound e
    line := ⟨hline.2.trans h.line.1, hline.1.trans h.line.2⟩ }

theorem click_consistent (h : Consistent s) (hin : s.inTimer = false) (a : Action) :
    Consistent (s.click a) := by
  cases a with
  | buttonOpen name opened o stops => exact buttonOpenClick_consistent h hin name opened o stops
  | buttonStop status config => exact buttonStopClick_consistent h status config
  | buttonStartADC config => exact buttonStartADCClick_consistent h config
  | buttonClrGrf => exact buttonClrGrfClick_consistent h
  | checkBoxTriger => exact h.setParStart
  | adcConfig parsed itemIndex adcSmps adc =>
      have hparsed := h.onForm (f := fun f => { f with adc := parsedAdc parsed f.adc adc }) rfl
      unfold click
      dsimp only
      split
      · exact hparsed
      · exact { hparsed.onForm (f := fun f => { f with adcSmps := adcSmps.toNat }) rfl with }
  | spinAdcSmps x =>
      unfold click
      dsimp only
      split
      · exact h.onForm rfl
      · exact h
  | edit screen badTrigger => exact { h with }
  | timer => exact timer_consistent h hin
  | pass status stops => exact h
  | timerEnd stops shown => exact h
  | query readed => exact h
  | device e => exact h

theorem act_consistent (h : Consistent s) (a : Action) : Consistent (act a s) := by
  have hclick : Consistent (if s.inTimer then s else s.click a) := by
    split
    · exact h
    next hin => exact click_consistent h (Bool.eq_false_of_not_eq_true hin) a
  cases a with
  | pass status stops =>
      unfold act
      dsimp only
      split
      next hin => exact pass_consistent h hin status stops
      · exact h
  | timerEnd stops shown =>
      unfold act
      dsimp only
      split
      next hdone => exact timerEnd_consistent h hdone.2 stops shown
      · exact h
  | query readed =>
      obtain ⟨hena, hwork, hlen⟩ := query_settings readed s.app.host
      unfold act
      dsimp only
      split
      · exact h.onHost hena hwork ((hlen h.lentx).trans h.lentx.symm)
      · exact h
  | device e => exact device_consistent h e.2
  | _ => exact hclick

end Actions

/-- Whatever is clicked and whatever becomes of the commands: the buttons for a capture are
enabled exactly while the port is open, and so is the I2S unit of the device there; the timer
runs exactly while samples are taken, which they only are with the port open; and behind a
closed port the device does not sample. -/
theorem session_consistent (memory : UInt32 → UInt32) (form : Form) (screen : Screen)
    (adcChannel : UInt8) (as : List Action) :
    let s := run act as (start memory form screen adcChannel)
    Consistent s ∧ (s.flgComOpen = false → s.app.host.samplesEna = false ∧ s.device.i2sCfg.start = 0) := by
  intro s
  have h : Consistent s := run_invariant (I := Consistent) (P := fun _ _ => True)
    (fun a _ h _ => act_consistent h a) (.start memory form screen adcChannel) (along_true _ _)
  exact ⟨h, h.closed⟩

end Session
