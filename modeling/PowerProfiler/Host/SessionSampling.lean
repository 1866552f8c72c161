-- SUMMARY: What the host knows of the device: it samples as the last start asked for, if the host was told what became of its commands.
import PowerProfiler.Host.SessionInvariant

/-!
# Sampling

The host never hears from the device whether it samples. It only remembers that it has
started a capture, and what its commands were told. Where that was the truth, what it
remembers holds of the device.
-/

open Framing Circular Runs

namespace Session

/-! ## What the host knows of the device -/

/-- The device samples as the last start asked for, and the chart shows what it sends. -/
structure Sampling (s : Session) : Prop where
  start : s.device.i2sCfg.start = 1
  asked : s.device.cfgAdc.freq = UInt32.ofNat s.oldSps * 512
  freq : s.device.i2sCfg.freq = clampFreq s.device.cfgAdc.freq
  pll : s.device.audioPll = some s.device.i2sCfg.freq
  channels : s.device.i2sCfg.channels = initChannels s.device.cfgAdc.chnl
  charts : s.app.form.chartEnables = chartsOf s.device.cfgAdc.chnl

/-- What a host that was told the truth knows while it takes samples, and what it knows of a
device that answered everything while it takes none, when no exception came between. -/
structure Told (s : Session) : Prop where
  on : Honest s.log → s.app.host.samplesEna = true → Sampling s
  off : Answered s.log → s.cutShort = false → s.app.host.samplesEna = false →
    s.device.i2sCfg.start = 0

namespace Told

variable {s s' : Session}

theorem start (memory : UInt32 → UInt32) (form : Form) (screen : Screen) (adcChannel : UInt8) :
    Told (Session.start memory form screen adcChannel) where
  on := fun _ hena => absurd hena Bool.false_ne_true
  off := fun _ _ _ => rfl

/-- Where the device goes on as it was, and the host too. -/
theorem same (h : Told s) (hlog : s.log <+: s'.log)
    (hdevice : Honest s'.log → SameSampling s.device s'.device)
    (hena : s'.app.host.samplesEna = s.app.host.samplesEna) (hsps : s'.oldSps = s.oldSps)
    (hcharts : s'.app.form.chartEnables = s.app.form.chartEnables)
    (hcut : s'.cutShort = s.cutShort) : Told s' where
  on := fun hhonest hon => by
    have hd := hdevice hhonest
    obtain ⟨hstart, hasked, hfreq, hpll, hchannels, hshown⟩ :=
      h.on (hhonest.before hlog) (hena.symm.trans hon)
    refine ⟨hd.start.trans hstart, ?_, ?_, ?_, ?_, ?_⟩
    · rw [hd.cfgAdc, hsps]; exact hasked
    · rw [hd.freq, hd.cfgAdc]; exact hfreq
    · rw [hd.audioPll, hd.freq]; exact hpll
    · rw [hd.channels, hd.cfgAdc]; exact hchannels
    · rw [hcharts, hd.cfgAdc]; exact hshown
  off := fun hanswered hwhole hoff =>
    (hdevice hanswered.honest).start.trans
      (h.off (hanswered.before hlog) (hcut.symm.trans hwhole) (hena.symm.trans hoff))

/-- Where nothing is sent and no capture starts or ends. -/
theorem quiet (h : Told s) (hlog : s'.log = s.log) (hdevice : s'.device = s.device)
    (hena : s'.app.host.samplesEna = s.app.host.samplesEna) (hsps : s'.oldSps = s.oldSps)
    (hcharts : s'.app.form.chartEnables = s.app.form.chartEnables)
    (hcut : s'.cutShort = s.cutShort) : Told s' :=
  h.same (hlog ▸ List.prefix_refl _) (fun _ => hdevice ▸ .refl _) hena hsps hcharts hcut

theorem setParStart (h : Told s) : Told s.setParStart.1 := by
  obtain ⟨f, heq, hf⟩ := setParStart_onForm s
  rw [heq]
  exact h.quiet rfl rfl rfl rfl (hf _).1 rfl

/-- Where the host has stopped. -/
theorem stopped (hena : s.app.host.samplesEna = false)
    (hstart : Answered s.log → s.cutShort = false → s.device.i2sCfg.start = 0) : Told s where
  on := fun _ hon => absurd (hena.symm.trans hon) Bool.false_ne_true
  off := fun hanswered hwhole _ => hstart hanswered hwhole

end Told

section Knowledge

variable {s : Session}

theorem closeCom_start (hs : Sound s.device) (hline : s.device.i2s0 = s.device.dtrEnable) :
    s.closeCom.device.i2sCfg.start = 0 :=
  setDtr_start hs hline false fun h => absurd h Bool.false_ne_true

theorem buttonOpenClick_told (h : Consistent s) (hin : s.inTimer = false) (name opened : Bool)
    (o stops : Nat → Exchange) : Told (s.buttonOpenClick name opened o stops) := by
  have hd := h.disable
  unfold buttonOpenClick
  dsimp only
  split
  · exact .stopped rfl fun _ _ => closeCom_start hd.sound (hd.line.1.trans hd.line.2.symm)
  next hclosed =>
    have hclosed := Bool.eq_false_of_not_eq_true hclosed
    split
    · have hc := (connect_connected hd hclosed hin).version o stops
      split
      · exact .stopped hc.samplesEna fun _ _ => hc.start
      · exact .stopped hc.samplesEna fun _ _ =>
          closeCom_start hc.sound (hc.line.1.trans hc.line.2.symm)
    · exact .stopped rfl fun _ _ => (hd.closed hclosed).2

/-- Behind a stop that was answered the device does not sample. -/
theorem setAdcIniCfg_stops (hs : Sound s.device) (hthread : s.commThread = true) (x : Exchange)
    (h : Answered (s.setAdcIniCfg 0 x).1.log) :
    (s.setAdcIniCfg 0 x).2 = true ∧ (s.setAdcIniCfg 0 x).1.device.i2sCfg.start = 0 := by
  have hresult := setAdcIniCfg_answered x s 0 hthread h
  have hdevice := setAdcIniCfg_honest x s 0 h.honest
  refine ⟨hresult, ?_⟩
  rw [hdevice, if_pos hresult]
  have hmerged : Sound { s.device with cfgAdc := s.asked 0 } := hs.of_same rfl rfl rfl ⟨rfl, rfl, rfl⟩
  exact i2sStop_start hmerged

theorem buttonStopClick_told (h : Consistent s) (ht : Told s) (status config : Exchange) :
    Told (s.buttonStopClick status config) := by
  unfold buttonStopClick
  split
  next hbutton =>
    obtain ⟨hread, -, hid⟩ := readStatus_kept status s.disable
    obtain ⟨hset, -, -⟩ := setAdcIniCfg_kept config (s.disable.readStatus status).1 0
    have hopen : s.flgComOpen = true := h.buttons.1.symm.trans hbutton
    have hthread : s.disable.commThread = true := h.thread.trans hopen
    have hthread' := hread.port.2.trans hthread
    have hsound := hread.sound h.sound
    have hena : (s.disable.readStatus status).1.app.host.samplesEna = false := hread.samplesEna
    have hena' := hset.samplesEna.trans hena
    have hstopped : Told ((s.disable.readStatus status).1.setAdcIniCfg 0 config).1 :=
      .stopped hena' fun hanswered _ => (setAdcIniCfg_stops hsound hthread' config hanswered).2
    dsimp only
    split
    · split
      · split
        · have hreset : Told ((s.disable.readStatus status).1.setAdcIniCfg 0
              config).1.purgeCom.resetSamples := hstopped.quiet rfl rfl rfl rfl rfl rfl
          exact hreset.setParStart
        · exact hstopped
      next hother => exact absurd (hid.trans (h.devId hopen)) hother
    next hfailed =>
      exact .stopped hena fun hanswered _ =>
        absurd (readStatus_answered status s.disable hthread hanswered) hfailed
  · exact ht

/-- A start of the awake unit. -/
theorem i2sStart_spec {d : Device} (h : Sound d) (hdev : d.i2s0 = true) (channels : UInt8)
    (freq : UInt32) :
    (i2sStart channels freq d).i2sCfg.start = 1 ∧
      (i2sStart channels freq d).i2sCfg.freq = clampFreq freq ∧
      (i2sStart channels freq d).i2sCfg.channels = initChannels channels ∧
      (i2sStart channels freq d).audioPll = some (clampFreq freq) := by
  by_cases hre : d.Reinit channels freq
  · obtain ⟨hfreq, hpll⟩ := h.driver.init_freq hdev channels freq
    rw [i2sStart_reinit hdev hre]
    exact ⟨rfl, hfreq, rfl, hpll⟩
  · have hpll := h.driver.pll hdev
    have hrange : clampFreq d.i2sCfg.freq = d.i2sCfg.freq :=
      clampFreq_eq_self.mpr ⟨h.driver.freq_ge, h.driver.freq_le⟩
    have hchannels : initChannels d.i2sCfg.channels = d.i2sCfg.channels :=
      initChannels_eq_self.mpr h.driver.channels
    rw [i2sStart_running hdev hre]
    simp only [Device.Reinit, not_or, not_not] at hre
    obtain ⟨-, rfl, rfl⟩ := hre
    exact ⟨rfl, hrange.symm, hchannels.symm, hpll.trans (congrArg _ hrange.symm)⟩

theorem buttonStartADCClick_told (h : Consistent s) (ht : Told s) (config : Exchange) :
    Told (s.buttonStartADCClick config) := by
  unfold buttonStartADCClick
  split
  next hbutton =>
    obtain ⟨hset, -, -⟩ := setAdcIniCfg_kept config s.disable.purgeCom 1
    have hopen : s.flgComOpen = true := h.buttons.2.symm.trans hbutton
    have hthread : s.disable.purgeCom.commThread = true := h.thread.trans hopen
    dsimp only
    split
    next hresult =>
      rcases startCapture_cases (s.disable.purgeCom.setAdcIniCfg 1 config).1 with hstarted | hhalted
      · refine ⟨fun hhonest _ => ?_,
          fun _ _ hoff => absurd (hstarted.host.1.symm.trans hoff) (by decide)⟩
        rw [hstarted.log] at hhonest
        have hdevice := setAdcIniCfg_honest config s.disable.purgeCom 1 hhonest
        rw [if_pos hresult, if_pos (by decide), ← hstarted.device] at hdevice
        have hmerged : Sound { s.device with cfgAdc := s.asked 1 } :=
          h.sound.of_same rfl rfl rfl ⟨rfl, rfl, rfl⟩
        obtain ⟨hstart, hfreq, hchannels, hpll⟩ :=
          i2sStart_spec hmerged (h.line.1.trans hopen) s.adcChannel (s.asked 1).freq
        have hcfg := i2sStart_cfgAdc s.adcChannel (s.asked 1).freq { s.device with cfgAdc := s.asked 1 }
        have hsps := hstarted.oldSps
        rw [hset.app.1] at hsps
        have hcharts := hstarted.charts
        rw [hset.settings.1] at hcharts
        refine ⟨?_, ?_, ?_, ?_, ?_, ?_⟩ <;> rw [hdevice]
        · exact hstart
        · rw [hsps]
          exact congrArg (·.freq) hcfg
        · exact hfreq.trans (congrArg (clampFreq ·.freq) hcfg).symm
        · exact hpll.trans (congrArg some hfreq).symm
        · exact hchannels.trans (congrArg (initChannels ·.chnl) hcfg).symm
        · exact hcharts.trans (congrArg (chartsOf ·.chnl) hcfg).symm
      · -- The device has been started, and the host does not take samples.
        obtain ⟨f, -, heq⟩ := hhalted.rest
        rw [heq]
        exact .stopped hset.samplesEna fun _ hwhole => absurd (show true = false from hwhole) (by decide)
    next hfailed =>
      exact .stopped hset.samplesEna fun hanswered _ =>
        absurd (setAdcIniCfg_answered config s.disable.purgeCom 1 hthread hanswered) hfailed
  · exact ht

theorem stopAtLimit_told (h : Consistent s) (hopen : s.flgComOpen = true) (status : Exchange)
    (stops : Nat → Exchange) :
    (Honest (s.stopAtLimit status stops).1.log → (s.stopAtLimit status stops).2 = false →
      SameSampling s.device (s.stopAtLimit status stops).1.device) ∧
    (Answered (s.stopAtLimit status stops).1.log → (s.stopAtLimit status stops).2 = true ∧
      (s.stopAtLimit status stops).1.device.i2sCfg.start = 0) := by
  have hdevice := readStatus_device status s
  have hread := (readStatus_kept status s).1
  have hthread := h.thread.trans hopen
  have hstop := (stopTries_kept stops (s.readStatus status).1 6).1
  have hhonest := stopTries_honest stops (s.readStatus status).1 6 (hread.sound h.sound)
  have hanswered := stopReadDevice_answered stops (s.readStatus status).1 (hread.port.2.trans hthread)
  unfold stopAtLimit
  dsimp only
  split
  · refine ⟨fun hlog hfailed => ?_, fun hlog => ⟨hanswered hlog, ?_⟩⟩
    · have hkept := hhonest hlog
      have hfailed : (stopTries stops 6 (s.readStatus status).1).2 = false := hfailed
      rw [hfailed] at hkept
      have hkept : (stopTries stops 6 (s.readStatus status).1).1.device =
          (s.readStatus status).1.device := hkept
      show SameSampling s.device (stopTries stops 6 (s.readStatus status).1).1.device
      rw [hkept]
      exact hdevice
    · have hkept := hhonest hlog.honest
      have hresult : (stopTries stops 6 (s.readStatus status).1).2 = true := hanswered hlog
      rw [if_pos hresult] at hkept
      exact hkept
  next hfailed =>
    exact ⟨fun _ _ => hdevice,
      fun hlog => absurd (readStatus_answered status s hthread hlog) hfailed⟩

theorem pass_told (h : Consistent s) (ht : Told s) (hin : s.inTimer = true) (status : Exchange)
    (stops : Nat → Exchange) : Told (s.pass status stops) := by
  obtain ⟨hena, -, -, hcharts, -⟩ := pass_spec s.app
  obtain ⟨hkept, -, -⟩ := stopAtLimit_kept status stops s
  obtain ⟨hhonest, hanswered⟩ := stopAtLimit_told h (h.inTimer hin) status stops
  rw [pass_eq]
  split
  · split
    · exact .stopped rfl fun hlog _ => (hanswered hlog).2
    next hfailed =>
      exact ht.same hkept.log (fun hlog => hhonest hlog (Bool.eq_false_of_not_eq_true hfailed))
        hkept.samplesEna hkept.settings.2 hcharts hkept.cutShort
  · exact ht.quiet rfl rfl hena rfl hcharts rfl

theorem takeError_told (h : Consistent s) (ht : Told s) (hopen : s.flgComOpen = true)
    (stops : Nat → Exchange) : Told (s.takeError stops) := by
  have hkept := (stopTries_kept stops s 6).1
  have hhonest := stopTries_honest stops s 6 h.sound
  have hanswered := stopReadDevice_answered stops s (h.thread.trans hopen)
  unfold takeError
  dsimp only
  split
  next hresult =>
    refine .stopped rfl fun hlog _ => ?_
    have hdevice := hhonest hlog.honest
    rw [if_pos (show (stopTries stops 6 s).2 = true from hresult)] at hdevice
    exact hdevice
  next hfailed =>
    refine ht.same hkept.log (fun hlog => ?_) hkept.samplesEna hkept.settings.2
      (congrArg (·.chartEnables) hkept.app.1) hkept.cutShort
    have hdevice := hhonest hlog
    rw [if_neg (show ¬ (stopTries stops 6 s).2 = true from hfailed)] at hdevice
    show SameSampling s.device (stopTries stops 6 s).1.device
    rw [hdevice]
    exact .refl _

theorem timerEnd_told (h : Consistent s) (ht : Told s) (hin : s.inTimer = true)
    (stops : Nat → Exchange) (shown : Bool) : Told (s.timerEnd stops shown) := by
  have hbefore : Told (if s.app.host.devSendErr ≠ 0 then s.takeError stops else s) := by
    split
    · exact takeError_told h ht (h.inTimer hin) stops
    · exact ht
  unfold timerEnd leaveTimer
  cases shown
  · exact hbefore.quiet rfl rfl rfl rfl rfl rfl
  · exact hbefore.quiet rfl rfl rfl rfl rfl rfl

theorem click_told (h : Consistent s) (ht : Told s) (hin : s.inTimer = false) (a : Action) :
    Told (s.click a) := by
  cases a with
  | buttonOpen name opened o stops => exact buttonOpenClick_told h hin name opened o stops
  | buttonStop status config => exact buttonStopClick_told h ht status config
  | buttonStartADC config => exact buttonStartADCClick_told h ht config
  | buttonClrGrf =>
      show Told s.buttonClrGrfClick
      cases hopen : s.flgComOpen
      · have hclosed : s.buttonClrGrfClick = s.onForm Form.clearGrf :=
          if_neg (by rw [hopen]; decide)
        rw [hclosed]
        exact ht.quiet rfl rfl rfl rfl rfl rfl
      · obtain ⟨f, hf, heq | heq⟩ := buttonClrGrfClick_cases hopen
        · rw [heq]
          exact ht.quiet rfl rfl rfl rfl (hf _) rfl
        · rw [heq]
          exact .stopped rfl fun _ hwhole => absurd (show true = false from hwhole) (by decide)
  | checkBoxTriger => exact ht.setParStart
  | adcConfig parsed itemIndex adcSmps adc =>
      unfold click
      dsimp only
      split
      · exact ht.quiet rfl rfl rfl rfl rfl rfl
      · exact ht.quiet rfl rfl rfl rfl rfl rfl
  | spinAdcSmps x =>
      unfold click
      dsimp only
      split
      · exact ht.quiet rfl rfl rfl rfl rfl rfl
      · exact ht
  | edit screen badTrigger => exact ht.quiet rfl rfl rfl rfl rfl rfl
  | timer =>
      obtain ⟨hhost, hcharts, -⟩ := addCrfSamples_spec s.app
      show Told s.timer
      unfold timer
      split
      · split
        · exact ht.quiet rfl rfl (congrArg Host.samplesEna hhost) rfl hcharts rfl
        · exact ht.quiet rfl rfl rfl rfl rfl rfl
      · exact ht
  | pass status stops => exact ht
  | timerEnd stops shown => exact ht
  | query readed => exact ht
  | device e => exact ht

theorem act_told (h : Consistent s) (ht : Told s) (a : Action) : Told (act a s) := by
  have hclick : Told (if s.inTimer then s else s.click a) := by
    split
    · exact ht
    next hin => exact click_told h ht (Bool.eq_false_of_not_eq_true hin) a
  cases a with
  | pass status stops =>
      unfold act
      dsimp only
      split
      next hin => exact pass_told h ht hin status stops
      · exact ht
  | timerEnd stops shown =>
      unfold act
      dsimp only
      split
      next hdone => exact timerEnd_told h ht hdone.1 stops shown
      · exact ht
  | query readed =>
      unfold act
      dsimp only
      split
      · exact ht.quiet rfl rfl (query_settings readed s.app.host).1 rfl rfl rfl
      · exact ht
  | device e =>
      exact ht.same (List.prefix_refl _) (fun _ => step_unasked e.2 s.device) rfl rfl rfl rfl
  | _ => exact hclick

end Knowledge

/-- What is known holds in every session. -/
theorem run_told (memory : UInt32 → UInt32) (form : Form) (screen : Screen) (adcChannel : UInt8)
    (as : List Action) : Told (run act as (start memory form screen adcChannel)) := by
  have h : Consistent (run act as (start memory form screen adcChannel)) ∧
      Told (run act as (start memory form screen adcChannel)) :=
    run_invariant (I := fun s => Consistent s ∧ Told s) (P := fun _ _ => True)
      (fun a _ h _ => ⟨act_consistent h.1 a, act_told h.1 h.2 a⟩)
      ⟨.start memory form screen adcChannel, .start memory form screen adcChannel⟩
      (along_true _ _)
  exact h.2

/-- The channels of the dialog are charted as the device sends them. -/
theorem chartsOf_code {chnl : UInt8} (h : chnl = 1 ∨ chnl = 2 ∨ chnl = 3) :
    (chartsOf chnl).code = (initChannels chnl).toNat := by
  rcases h with rfl | rfl | rfl <;> rfl

/-- The rates of the dialog reach the clock of the converter. -/
theorem clampFreq_smps {smps : Nat} (hlo : 1000 ≤ smps) (hhi : smps ≤ 187500) :
    (clampFreq (UInt32.ofNat smps * 512)).toNat = 512 * smps := by
  have hfreq : (UInt32.ofNat smps * 512).toNat = 512 * smps := by
    simp
    omega
  have hrange : 512000 ≤ UInt32.ofNat smps * 512 ∧ UInt32.ofNat smps * 512 ≤ 96000000 := by
    constructor <;> rw [UInt32.le_iff_toNat_le, hfreq]
    · show 512000 ≤ 512 * smps
      omega
    · show 512 * smps ≤ 96000000
      omega
  rw [clampFreq_eq_self.mpr hrange, hfreq]

/-- In every session in which the host was told of each command what became of it: while it
takes samples, the device sends them with the clock and the channels that the start asked
for. For a rate from 1000 to 187500 that clock is 512 times the rate shown, and for the
channels of the dialog the chart shows just the channels that are sent. -/
theorem session_sampling (memory : UInt32 → UInt32) (form : Form) (screen : Screen)
    (adcChannel : UInt8) (as : List Action) :
    let s := run act as (start memory form screen adcChannel)
    Honest s.log → s.app.host.samplesEna = true →
      Sampling s ∧
        (1000 ≤ s.oldSps → s.oldSps ≤ 187500 → s.device.i2sCfg.freq.toNat = 512 * s.oldSps) ∧
        (s.device.cfgAdc.chnl = 1 ∨ s.device.cfgAdc.chnl = 2 ∨ s.device.cfgAdc.chnl = 3 →
          s.app.form.chartEnables.code = s.device.i2sCfg.channels.toNat) := by
  intro s hhonest hena
  have h := (run_told memory form screen adcChannel as).on hhonest hena
  refine ⟨h, fun hlo hhi => ?_, fun hchnl => ?_⟩
  · rw [h.freq, h.asked]
    exact clampFreq_smps hlo hhi
  · rw [h.charts, h.channels]
    exact chartsOf_code hchnl

/-- A command that reaches the device and is answered with the frame. -/
def answeredWith (n : Nat) (reply : Frame) : Exchange := ⟨some n, true, [reply]⟩

/-- The port is opened and a capture started. -/
def openAndStart : List Action :=
  [.buttonOpen true true
      (fun _ => answeredWith 2 (dataReply cmdDevVer [0x23, 0x10, 2, 0] (by decide)))
      (fun _ => answeredWith 3 (dataReply cmdDevCad [0, 0, 0, 0, 0, 0] (by decide))),
    .buttonStartADC (answeredWith 8 (dataReply cmdDevCad [1, 3, 0, 0xd0, 7, 0] (by decide)))]

/-- The program next to a device, set to both channels at 1000 samples a second. -/
def bothChannels : Session :=
  start (fun _ => 0) (App.plain .ui).form ⟨1000, fun _ => 0, fun _ => false⟩ 3

theorem session_sampling_started :
    let s := run act openAndStart bothChannels
    Sampling s ∧ s.device.i2sCfg.freq.toNat = 512 * 1000 ∧ s.app.form.chartEnables.code = 3 := by
  intro s
  have hlog : s.log.all fun v => v.said == v.taken := by decide +kernel
  have hhonest : Honest s.log := fun v hv => eq_of_beq (List.all_eq_true.mp hlog v hv)
  have hena : s.app.host.samplesEna = true := by decide +kernel
  have hlo : 1000 ≤ s.oldSps := by decide +kernel
  have hhi : s.oldSps ≤ 187500 := by decide +kernel
  have hsps : 512 * s.oldSps = 512 * 1000 := by decide +kernel
  have hchnl : s.device.cfgAdc.chnl = 3 := by decide +kernel
  have hchannels : s.device.i2sCfg.channels.toNat = 3 := by decide +kernel
  obtain ⟨hsampling, hfreq, hcode⟩ := session_sampling (fun _ => 0) (App.plain .ui).form
    ⟨1000, fun _ => 0, fun _ => false⟩ 3 openAndStart hhonest hena
  exact ⟨hsampling, (hfreq hlo hhi).trans hsps, (hcode (.inr (.inr hchnl))).trans hchannels⟩

/-- In every session in which each command was taken and answered, and no exception has left the
handler of a start or of a clear, the host takes samples exactly while the device samples. -/
theorem session_answered (memory : UInt32 → UInt32) (form : Form) (screen : Screen)
    (adcChannel : UInt8) (as : List Action) :
    let s := run act as (start memory form screen adcChannel)
    Answered s.log → s.cutShort = false →
      (s.app.host.samplesEna = true ↔ s.device.i2sCfg.start = 1) := by
  intro s hanswered hwhole
  have h := run_told memory form screen adcChannel as
  refine ⟨fun hena => (h.on hanswered.honest hena).start, fun hstart => ?_⟩
  by_contra hena
  have hoff := h.off hanswered hwhole (Bool.eq_false_of_not_eq_true hena)
  rw [hstart] at hoff
  exact absurd hoff (by decide)

/-- The chart is cleared, and the capture is stopped again. -/
def clearAndStop : List Action :=
  [.buttonClrGrf,
    .buttonStop (answeredWith 2 (dataReply cmdDevSta [1, 0, 0, 0, 0, 0, 0, 0] (by decide)))
      (answeredWith 8 (dataReply cmdDevCad [0, 3, 0, 0xd0, 7, 0] (by decide)))]

theorem session_answered_stopped :
    let s := run act (openAndStart ++ clearAndStop) bothChannels
    (s.app.host.samplesEna = true ↔ s.device.i2sCfg.start = 1) ∧ s.log.length = 5 ∧
      s.app.host.samplesEna = false := by
  intro s
  have hlog : s.log.all fun v => v.said && v.taken := by decide +kernel
  have hanswered : Answered s.log := fun v hv => by
    have hv := List.all_eq_true.mp hlog v hv
    rwa [Bool.and_eq_true] at hv
  exact ⟨session_answered (fun _ => 0) (App.plain .ui).form ⟨1000, fun _ => 0, fun _ => false⟩ 3
    (openAndStart ++ clearAndStop) hanswered (by decide +kernel), by decide +kernel, by decide +kernel⟩

/-- A trigger edit that does not show a number parts them: the device has been started, and the
host does not take samples. -/
theorem session_parted :
    let s := run act (.edit ⟨1000, fun _ => 0, fun _ => false⟩ (· == .i) :: openAndStart) bothChannels
    Answered s.log ∧ s.app.host.samplesEna = false ∧ s.device.i2sCfg.start = 1 := by
  intro s
  have hlog : s.log.all fun v => v.said && v.taken := by decide +kernel
  refine ⟨fun v hv => ?_, by decide +kernel, by decide +kernel⟩
  have hv := List.all_eq_true.mp hlog v hv
  rwa [Bool.and_eq_true] at hv

end Session
