-- SUMMARY: When the configuration that a request reads back is the one the driver works with: exactly while no step sets them apart.
import PowerProfiler.Firmware.Reachable

/-!
# Configuration read-back

The settings live twice: requests merge into `cfg_adc`, the driver keeps `i2s_cfg`. A
start copies `cfg_adc` to the driver, which masks the channels and clamps the
frequency and never copies them back, refuses while it is asleep, and stops on its own
when DTR drops.
-/

open Framing Runs

/-- The request that reads the configuration: no data. -/
def cadRead : Frame := Frame.ofHead 0 cmdDevCad []

/-- The reply to a configuration read. -/
def readBack (d : Device) : Frame := (cmdDecode cadRead d).2

/-- The reply says that sampling is on exactly when it is, and while it is, the channels
and the frequency in force. -/
def Truthful (reply : Frame) (cfg : I2sCfg) : Prop :=
  (reply.payload.getD 0 0 ≠ 0 ↔ cfg.start = 1) ∧
    (cfg.start = 1 →
      reply.payload.getD 1 0 = cfg.channels ∧ reply.payload.drop 2 = u32Bytes cfg.freq)

/-- The reply of a configuration read carries `cfg_adc`. -/
theorem decodePacket_read (rest : List UInt8) (d : Device) :
    decodePacket (0 :: cmdDevCad :: rest) d = (d, some (readBack d)) ∧
      (readBack d).payload = d.cfgAdc.bytes := by
  have hread : Frame.ofHead 0 cmdDevCad rest = cadRead := rfl
  have hreq : request (0 :: cmdDevCad :: rest) = some cadRead := by
    rw [request, if_pos (show (0 : UInt8).toNat ≤ rest.length from Nat.zero_le _), hread]
  refine ⟨?_, rfl⟩
  rw [decodePacket, hreq]
  rfl

/-! ## One step -/

/-- The settings that `I2S_init` takes over as they are. -/
def DevAdcCfg.InRange (cfg : DevAdcCfg) : Prop :=
  (cfg.chnl = 1 ∨ cfg.chnl = 2 ∨ cfg.chnl = 3) ∧ 512000 ≤ cfg.freq ∧ cfg.freq ≤ 96000000

instance (cfg : DevAdcCfg) : Decidable cfg.InRange := inferInstanceAs (Decidable (_ ∧ _ ∧ _))

/-- A request that switches sampling on finds an awake driver and gives it settings in
range, and DTR drops only while the configuration says off. -/
def KeepsConfig : Event → Device → Prop
  | .irq (.bulkOut packet), d =>
      ∀ req ∈ request packet, req.cmd = cmdDevCad → req.payload ≠ [] →
        (d.cfgAdc.memcpy req.payload).enable ≠ 0 →
        d.i2s0 = true ∧ (d.cfgAdc.memcpy req.payload).InRange
  | .irq (.setDtr dtr), d => dtr = false → d.dtrEnable = true → d.cfgAdc.enable = 0
  | _, _ => True

/-- `cfg_adc` agrees with the driver. -/
structure Agrees (cfg : DevAdcCfg) (i2s : I2sCfg) : Prop where
  enable : cfg.enable ≠ 0 ↔ i2s.start = 1
  settings : i2s.start = 1 → cfg.chnl = i2s.channels ∧ cfg.freq = i2s.freq

theorem u32Bytes_inj {w w' : UInt32} : u32Bytes w = u32Bytes w' ↔ w = w' := by
  constructor
  · intro h
    simp only [u32Bytes, List.cons.injEq, and_true] at h
    obtain ⟨h0, h1, h2, h3⟩ := h
    rw [← u32OfBytes_u32Bytes w, ← u32OfBytes_u32Bytes w', h0, h1, h2, h3]
  · rintro rfl
    rfl

/-- The reply is truthful when the two copies agree. -/
theorem truthful_readBack (d : Device) :
    Truthful (readBack d) d.i2sCfg ↔ Agrees d.cfgAdc d.i2sCfg := by
  have hbytes : (readBack d).payload = d.cfgAdc.bytes := (decodePacket_read [] d).2
  rw [Truthful, hbytes]
  simp only [DevAdcCfg.bytes, List.getD_cons_zero, List.getD_cons_succ, List.drop_succ_cons,
    List.drop_zero, u32Bytes_inj]
  exact ⟨fun h => ⟨h.1, h.2⟩, fun h => ⟨h.enable, h.settings⟩⟩

/-- With sampling off, the copies agree when the configuration says off. -/
theorem agrees_stopped {cfg : DevAdcCfg} {i2s : I2sCfg} (h : i2s.start = 0) :
    Agrees cfg i2s ↔ cfg.enable = 0 := by
  have hne : i2s.start ≠ 1 := by rw [h]; decide
  constructor
  · intro ha
    by_contra henable
    exact hne (ha.enable.mp henable)
  · intro henable
    exact ⟨⟨fun h => absurd henable h, fun h => absurd h hne⟩, fun h => absurd h hne⟩

variable {d : Device}

/-- A refused start leaves the driver off. -/
theorem start_of_asleep (h : DriverInv d) (hdev : d.i2s0 = false) : d.i2sCfg.start = 0 :=
  h.start.resolve_right fun h1 => by simpa [hdev] using h.awake h1

/-- Behind a start of an awake driver sampling is on, and the driver has the settings
asked for exactly when they are in range. -/
theorem i2sStart_settings (h : DriverInv d) (hdev : d.i2s0 = true) (cfg : DevAdcCfg) :
    (i2sStart cfg.chnl cfg.freq d).i2sCfg.start = 1 ∧
      ((cfg.chnl = (i2sStart cfg.chnl cfg.freq d).i2sCfg.channels ∧
        cfg.freq = (i2sStart cfg.chnl cfg.freq d).i2sCfg.freq) ↔ cfg.InRange) := by
  by_cases hre : d.Reinit cfg.chnl cfg.freq
  · obtain ⟨hfreq, -⟩ := h.init_freq hdev cfg.chnl cfg.freq
    have hchannels : (i2sInit cfg.chnl cfg.freq d).i2sCfg.channels = initChannels cfg.chnl := rfl
    rw [i2sStart_reinit hdev hre]
    refine ⟨rfl, ?_⟩
    dsimp only
    rw [hchannels, hfreq, eq_comm, initChannels_eq_self, eq_comm (a := cfg.freq),
      clampFreq_eq_self]
    rfl
  · rw [i2sStart_running hdev hre]
    refine ⟨rfl, ?_⟩
    simp only [Device.Reinit, not_or, not_not] at hre
    obtain ⟨-, hchannels, hfreq⟩ := hre
    dsimp only
    have hrange : cfg.InRange := by
      refine ⟨?_, ?_, ?_⟩
      · rw [← hchannels]; exact h.channels
      · rw [← hfreq]; exact h.freq_ge
      · rw [← hfreq]; exact h.freq_le
    exact ⟨fun _ => hrange, fun _ => ⟨hchannels.symm, hfreq.symm⟩⟩

/-- A configuration request with data leaves the copies agreeing exactly when it switches
sampling off, or on in an awake driver with settings in range. -/
theorem cmdCad_agrees (h : Sound d) {data : List UInt8} (hne : data ≠ []) :
    Agrees (cmdCad data d).cfgAdc (cmdCad data d).i2sCfg ↔
      ((d.cfgAdc.memcpy data).enable ≠ 0 →
        d.i2s0 = true ∧ (d.cfgAdc.memcpy data).InRange) := by
  have hmerged : Sound (d.merged data) := h.of_same rfl rfl rfl ⟨rfl, rfl, rfl⟩
  have hcfg : (d.merged data).cfgAdc = d.cfgAdc.memcpy data := rfl
  have hdev : (d.merged data).i2s0 = d.i2s0 := rfl
  rw [cmdCad_cfgAdc hne, cmdCad_cons hne]
  dsimp only
  rw [hcfg]
  generalize d.cfgAdc.memcpy data = cfg at hcfg ⊢
  by_cases henable : cfg.enable = 0
  · have hstop : (i2sStop (d.merged data)).i2sCfg.start = 0 := by
      rw [i2sStop]
      split
      · rfl
      next hasleep => exact start_of_asleep hmerged.driver (by simpa using hasleep)
    rw [if_neg (not_not.mpr henable), agrees_stopped hstop]
    simp [henable]
  · rw [if_pos henable]
    cases hawake : d.i2s0
    · rw [i2sStart_asleep (hdev.trans hawake),
        agrees_stopped (start_of_asleep hmerged.driver (hdev.trans hawake))]
      simp [henable]
    · obtain ⟨hstart, hiff⟩ := i2sStart_settings hmerged.driver (hdev.trans hawake) cfg
      constructor
      · exact fun ha _ => ⟨rfl, hiff.mp (ha.settings hstart)⟩
      · intro hcond
        exact ⟨⟨fun _ => hstart, fun _ => henable⟩, fun _ => hiff.mpr (hcond henable).2⟩

/-- A step that keeps both copies keeps their agreement. -/
theorem agrees_same {d' : Device} (hadc : d'.cfgAdc = d.cfgAdc) (hi2s : d'.i2sCfg = d.i2sCfg) :
    Agrees d'.cfgAdc d'.i2sCfg ↔ Agrees d.cfgAdc d.i2sCfg := by
  rw [hadc, hi2s]

theorem bulkOut_agrees (h : Sound d) (ha : Agrees d.cfgAdc d.i2sCfg) (packet : List UInt8) :
    Agrees (usbdCdcAcmBulkOut packet d).cfgAdc (usbdCdcAcmBulkOut packet d).i2sCfg ↔
      KeepsConfig (.irq (.bulkOut packet)) d := by
  rcases usbdCdcAcmBulkOut_cases packet d with ⟨req, hreq, heq⟩ | ⟨hreq, heq⟩
  · have hsend : Agrees (usbdCdcAcmBulkOut packet d).cfgAdc (usbdCdcAcmBulkOut packet d).i2sCfg ↔
        Agrees (cmdDecode req d).1.cfgAdc (cmdDecode req d).1.i2sCfg := by
      rw [heq]
      exact agrees_same rfl rfl
    rw [hsend]
    simp only [KeepsConfig, hreq, Option.mem_some_iff, forall_eq']
    by_cases hcad : req.cmd = cmdDevCad ∧ req.payload ≠ []
    · rw [cmdDecode_cad hcad.1, cmdCad_agrees h hcad.2]
      simp [hcad]
    · have hsame := cmdDecode_sameDriver hcad d
      rw [agrees_same hsame.cfgAdc hsame.i2sCfg]
      exact ⟨fun _ h1 h2 => absurd ⟨h1, h2⟩ hcad, fun _ => ha⟩
  · rw [heq]
    simp only [KeepsConfig, hreq]
    exact ⟨fun _ req hmem => by simp at hmem, fun _ => ha⟩

/-- Behind a sleep sampling is off. -/
theorem i2sSleep_start (h : DriverInv d) :
    (i2sSleep d).cfgAdc = d.cfgAdc ∧ (i2sSleep d).i2sCfg.start = 0 := by
  by_cases hdev : d.i2s0
  · rw [i2sSleep, if_pos hdev]
    exact ⟨rfl, rfl⟩
  · rw [i2sSleep, if_neg hdev]
    exact ⟨rfl, start_of_asleep h (by simpa using hdev)⟩

/-- A wake-up finds sampling off and leaves it off, or does nothing. -/
theorem i2sWakeUp_start (h : DriverInv d) :
    (i2sWakeUp d).cfgAdc = d.cfgAdc ∧
      ((i2sWakeUp d).i2sCfg = d.i2sCfg ∨
        (d.i2sCfg.start = 0 ∧ (i2sWakeUp d).i2sCfg.start = 0)) := by
  by_cases hdev : d.i2s0
  · rw [i2sWakeUp, if_pos hdev]
    exact ⟨rfl, .inl rfl⟩
  · rw [i2sWakeUp, if_neg hdev]
    exact ⟨rfl, .inr ⟨start_of_asleep h (by simpa using hdev), rfl⟩⟩

theorem setDtr_agrees (h : Sound d) (ha : Agrees d.cfgAdc d.i2sCfg) (dtr : Bool) :
    Agrees (usbdCdcAcmSetDtr dtr d).cfgAdc (usbdCdcAcmSetDtr dtr d).i2sCfg ↔
      KeepsConfig (.irq (.setDtr dtr)) d := by
  cases dtr with
  | true =>
      refine iff_of_true ?_ (fun hdtr => absurd hdtr (by decide))
      cases hdtr : d.dtrEnable
      · have hstep : usbdCdcAcmSetDtr true d = { i2sWakeUp d with dtrEnable := true } := by
          simp [usbdCdcAcmSetDtr, hdtr]
        obtain ⟨hadc, hsame | ⟨hbefore, hafter⟩⟩ := i2sWakeUp_start h.driver
        · rw [hstep]
          exact (agrees_same hadc hsame).mpr ha
        · rw [hstep, agrees_stopped hafter]
          show (i2sWakeUp d).cfgAdc.enable = 0
          rw [hadc]
          exact (agrees_stopped hbefore).mp ha
      · have hstep : usbdCdcAcmSetDtr true d = { d with dtrEnable := true } := by
          simp [usbdCdcAcmSetDtr, hdtr]
        rw [hstep]
        exact ha
  | false =>
      cases hdtr : d.dtrEnable
      · have hstep : usbdCdcAcmSetDtr false d = { d with dtrEnable := false } := by
          simp [usbdCdcAcmSetDtr, hdtr]
        rw [hstep]
        exact iff_of_true ha (fun _ hon => by simp [hdtr] at hon)
      · have hstep : usbdCdcAcmSetDtr false d = { i2sSleep d with dtrEnable := false } := by
          simp [usbdCdcAcmSetDtr, hdtr]
        obtain ⟨hadc, hstart⟩ := i2sSleep_start h.driver
        rw [hstep, agrees_stopped hstart]
        simp only [KeepsConfig, hdtr, hadc, true_implies]

/-- From agreeing copies, a step keeps them agreeing exactly under the condition. -/
theorem step_agrees (h : Sound d) (ha : Agrees d.cfgAdc d.i2sCfg) (e : Event) :
    Agrees (step e d).cfgAdc (step e d).i2sCfg ↔ KeepsConfig e d := by
  cases e with
  | task =>
      have hcfg : (taskDataOut d).1.cfgAdc = d.cfgAdc := by
        rw [taskDataOut_eq h.sample]
        split
        · simp only [sendBlock]
          split <;> rfl
        · rfl
      exact (agrees_same hcfg (taskDataOut_i2sCfg h.sample)).trans (iff_of_true ha trivial)
  | drain =>
      obtain ⟨rb, buffer, busy, ep, heq⟩ := usbDcSendFromRingbuffer_withOutput d
      have hcfg : (step .drain d).cfgAdc = d.cfgAdc ∧ (step .drain d).i2sCfg = d.i2sCfg := by
        show (usbDcSendFromRingbuffer d).1.cfgAdc = _ ∧ (usbDcSendFromRingbuffer d).1.i2sCfg = _
        rw [heq]
        exact ⟨rfl, rfl⟩
      exact (agrees_same hcfg.1 hcfg.2).trans (iff_of_true ha trivial)
  | irq i =>
      cases i with
      | dma rx =>
          -- Only the wake-up counter changes.
          have hcfg : (dmaI2sIsr rx d).cfgAdc = d.cfgAdc ∧
              ∃ w, (dmaI2sIsr rx d).i2sCfg = { d.i2sCfg with wakeupcnt := w } := by
            by_cases hacc : d.Accepting
            · rw [dmaI2sIsr_accepting h.sample hacc]
              exact ⟨rfl, d.i2sCfg.wakeupcnt, rfl⟩
            · rw [dmaI2sIsr]
              split
              · exact ⟨rfl, d.i2sCfg.wakeupcnt, rfl⟩
              · split
                · exact ⟨rfl, _, rfl⟩
                next hstart hwake => exact absurd ⟨hstart, not_not.mp hwake⟩ hacc
          obtain ⟨hadc, w, hi2s⟩ := hcfg
          refine iff_of_true ?_ trivial
          show Agrees (dmaI2sIsr rx d).cfgAdc (dmaI2sIsr rx d).i2sCfg
          rw [hadc, hi2s]
          exact ⟨ha.enable, ha.settings⟩
      | bulkOut packet => exact bulkOut_agrees h ha packet
      | bulkIn =>
          obtain ⟨busy, ep, heq⟩ := inComplete_withOutput d
          have hcfg : (inComplete d).cfgAdc = d.cfgAdc ∧ (inComplete d).i2sCfg = d.i2sCfg := by
            rw [heq]
            exact ⟨rfl, rfl⟩
          exact (agrees_same hcfg.1 hcfg.2).trans (iff_of_true ha trivial)
      | setDtr dtr => exact setDtr_agrees h ha dtr
      | busReset => exact iff_of_true ha trivial
      | configure => exact iff_of_true ha trivial

/-! ## Every run -/

theorem boot_agrees (memory : UInt32 → UInt32) :
    Agrees (Device.boot memory).cfgAdc (Device.boot memory).i2sCfg :=
  (agrees_stopped rfl).mpr rfl

/-- The copies start out agreeing and agree in every state of a run exactly when every
step meets the condition. -/
theorem along_keepsConfig (memory : UInt32 → UInt32) (es : List Event) :
    (∀ es', es' <+: es →
      Agrees (run step es' (Device.boot memory)).cfgAdc
        (run step es' (Device.boot memory)).i2sCfg) ↔
      Along step KeepsConfig es (Device.boot memory) := by
  induction es using List.reverseRecOn with
  | nil =>
      refine iff_of_true (fun es' hpre => ?_) trivial
      rw [List.prefix_nil.mp hpre]
      exact boot_agrees memory
  | append_singleton es e ih =>
      have hsound := run_sound memory es
      rw [along_snoc]
      constructor
      · intro hall
        have hbefore := hall es (List.prefix_append _ _)
        have hafter := hall (es ++ [e]) (List.prefix_refl _)
        rw [run_snoc, step_agrees hsound hbefore] at hafter
        exact ⟨ih.mp fun es' hpre => hall es' (hpre.trans (List.prefix_append _ _)), hafter⟩
      · rintro ⟨hbefore, hlast⟩ es' hpre
        have hinit := ih.mpr hbefore
        rcases List.prefix_concat_iff.mp hpre with rfl | hpre
        · rw [run_snoc]
          exact (step_agrees hsound (hinit es (List.prefix_refl _)) e).mpr hlast
        · exact hinit es' hpre

/-- In a run from power-on every configuration read is truthful exactly when every
request that switches sampling on finds an awake driver and leaves settings in range, and
DTR never drops while the configuration says on. -/
theorem readBack_truthful_iff (memory : UInt32 → UInt32) (es : List Event) :
    (∀ es', es' <+: es →
      Truthful (readBack (run step es' (Device.boot memory)))
        (run step es' (Device.boot memory)).i2sCfg) ↔
      Along step KeepsConfig es (Device.boot memory) := by
  simp only [truthful_readBack]
  exact along_keepsConfig memory es

/-- DTR comes up and a request of one byte switches sampling on. -/
def bareStart : List Event := [.irq (.setDtr true), .irq (.bulkOut [1, cmdDevCad, 1])]

/-- Behind it the driver samples channel 1 at its lowest clock and the read-back says
channel 0 at frequency 0. -/
theorem bareStart_not_truthful :
    ¬ ∀ (memory : UInt32 → UInt32) (es : List Event), ∀ es', es' <+: es →
      Truthful (readBack (run step es' (Device.boot memory)))
        (run step es' (Device.boot memory)).i2sCfg := by
  intro h
  have htruthful := h (fun _ => 0) bareStart bareStart (List.prefix_refl _)
  obtain ⟨-, hsettings⟩ := htruthful
  exact absurd (hsettings (by decide)).1 (by decide)
