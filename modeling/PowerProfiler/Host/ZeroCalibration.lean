-- SUMMARY: The zero calibration of the ADC dialog: the mean shown is copied, accepted and loaded, and what the same samples then show.
import PowerProfiler.Host.WavRoundTrip

/-!
# Zero calibration

`ButtonCopyUzClick` puts the negative of the mean shown into the dialog. That mean was
computed with the zero in force, which the new one replaces, so the old zero comes back
with the other sign in the next mean.
-/

open Runs

/-! ## The dialog -/

/-- The edits of the ADC dialog. -/
structure AdcDialog where
  editK : Chan → ℚ
  editZero : Chan → ℚ
  spinSmps : Nat

namespace AdcDialog

/-- `ShowScrParms`, when the dialog is activated. -/
def showScrParms (s : Form) : AdcDialog where
  editK := fun c => (s.adc c).k
  editZero := fun c => (s.adc c).zero
  spinSmps := s.adcSmps

/-- `ButtonCopyUzClick`, `ButtonCopyIzClick` -/
def copyZero (c : Chan) (s : Form) (d : AdcDialog) : AdcDialog :=
  { d with editZero := Function.update d.editZero c (-(s.chan c).olds) }

/-- `GetScrParms`, when the dialog is accepted. -/
def accept (d : AdcDialog) (s : Form) : Form :=
  { s with
    adc := fun c => ⟨d.editK c, d.editZero c⟩
    adcSmps := d.spinSmps }

end AdcDialog

/-- The dialog is opened, the mean of a channel copied, and the dialog accepted. -/
def Form.calibrateZero (c : Chan) (s : Form) : Form :=
  ((AdcDialog.showScrParms s).copyZero c s).accept s

/-! ## Sums without a trigger -/

namespace Form

/-- The mean of the samples of a channel as they arrived. -/
def rawMean (c : Chan) (gs : List SampleGroup) : ℚ :=
  (gs.map fun g => (smpValue (g c) : ℚ)).sum / gs.length

/-- Every group taken is counted and summed. -/
structure Averaged (s₀ : Form) (ts : List SampleGroup) (s : Form) : Prop where
  setup : SameSetup s₀ s
  count : s.samplesCount = ts.length
  sum : ∀ c, s₀.chartEnables.charts c = true → (s.chan c).sum = (ts.map (s₀.value c)).sum

variable {s₀ s : Form} {ts : List SampleGroup} {g : SampleGroup}

theorem Averaged.feed (h : Averaged s₀ ts s) (hnone : s₀.anyTrigger = false) (hroom : ¬ s.Full) :
    Averaged s₀ (ts ++ [g]) (s.feed g) := by
  have hor : s.samplesCount ≠ 0 ∨ s.anyTrigger = false :=
    .inr (h.setup.anyTrigger.trans hnone)
  have hflg := flg_of_counting hor g
  refine ⟨h.setup.trans (s.sameSetup_feed g), ?_, fun c hc => ?_⟩
  · rw [count_feed hroom, count_absorb_of_plot hflg hor, h.count, List.length_append,
      List.length_singleton]
  · have hc' : s.chartEnables.charts c = true := by rw [h.setup.chartEnables]; exact hc
    obtain ⟨_, _, heq⟩ := chan_feed hroom g c
    have hsum : ((s.feed g).chan c).sum = ((s.absorb g).chan c).sum := by rw [heq]
    rw [hsum, chan_absorb_of_plot hflg hor hc']
    simp [h.sum c hc, h.setup.calibrate, value]

/-- The sum of calibrated samples. -/
theorem sum_value (s : Form) (c : Chan) (gs : List SampleGroup) :
    (gs.map (s.value c)).sum =
      (gs.map fun g => (smpValue (g c) : ℚ)).sum * (s.chan c).k + gs.length * (s.chan c).zero := by
  induction gs with
  | nil => simp
  | cons g gs ih =>
      simp only [List.map_cons, List.sum_cons, ih, List.length_cons, value, Channel.calibrate]
      push_cast
      ring

/-- The mean that is shown, and kept for the dialog. -/
theorem Averaged.shown (h : Averaged s₀ ts s) (hne : ts ≠ []) {c : Chan}
    (hc : s₀.chartEnables.charts c = true) :
    (s.showLabelsMX.chan c).olds = rawMean c ts * (s₀.chan c).k + (s₀.chan c).zero ∧
      (s.showLabelsMX.chan c).caption =
        .mean (rawMean c ts * (s₀.chan c).k + (s₀.chan c).zero) := by
  have hc' : s.chartEnables.charts c = true := by rw [h.setup.chartEnables]; exact hc
  have hlen : (ts.length : ℚ) ≠ 0 := by
    simpa using hne
  have hcount : s.samplesCount ≠ 0 := by
    rw [h.count]
    simpa using hne
  have hmean : (s.chan c).sum / s.samplesCount =
      rawMean c ts * (s₀.chan c).k + (s₀.chan c).zero := by
    rw [h.sum c hc, h.count, sum_value, rawMean]
    field_simp
  simp [showLabelsMX, hc', hcount, hmean]

/-- Without a trigger the limit alone says how many groups are taken. -/
theorem taken_congr {s s' : Form} (hnone : s.anyTrigger = false) (hnone' : s'.anyTrigger = false)
    (hcount : s.samplesCount = s'.samplesCount) (hmax : s.maxSamples = s'.maxSamples)
    (ht : s.t = s'.t) (gs : List SampleGroup) : s.taken gs = s'.taken gs := by
  induction gs generalizing s s' with
  | nil => rfl
  | cons g gs ih =>
      have hfull : s.Full ↔ s'.Full := by rw [Full, Full, idx, idx, hcount, hmax, ht]
      rw [taken, taken]
      by_cases h : s.Full
      · rw [if_pos h, if_pos (hfull.mp h)]
      · have h' : ¬ s'.Full := fun hf => h (hfull.mpr hf)
        have hset := s.sameSetup_feed g
        have hset' := s'.sameSetup_feed g
        have hcount' : (s.feed g).samplesCount = (s'.feed g).samplesCount := by
          rw [count_feed h, count_feed h',
            count_absorb_of_plot (flg_of_counting (.inr hnone) g) (.inr hnone),
            count_absorb_of_plot (flg_of_counting (.inr hnone') g) (.inr hnone'), hcount]
        rw [if_neg h, if_neg h', ih (hset.anyTrigger.trans hnone) (hset'.anyTrigger.trans hnone')
          hcount' (by rw [hset.maxSamples, hset'.maxSamples, hmax]) (by rw [hset.t, hset'.t, ht])]

end Form

namespace App

/-! ## Measurements -/

/-- A capture from the cleared graph on, and the labels behind it. -/
def measure (screen : Screen) (stop : StopAnswer) {m : ChartEnables} (batches : List (Batch m))
    (a : App) : App :=
  { captures stop batches (a.clrGrf screen) with
    form := (captures stop batches (a.clrGrf screen)).form.showLabelsMX }

/-- The dialog, in the program. -/
def calibrateZero (c : Chan) (a : App) : App := { a with form := a.form.calibrateZero c }

theorem workAdc_pass (stop : StopAnswer) (a : App) :
    (a.pass stop).host.workAdc = a.host.workAdc := by
  rw [pass]
  split
  · rfl
  · split
    · rfl
    · simp only []
      split
      · cases stop <;> rfl
      · rfl

theorem workAdc_passes (stop : StopAnswer) (n : Nat) (a : App) :
    ((pass stop)^[n] a).host.workAdc = a.host.workAdc := by
  induction n generalizing a with
  | zero => rfl
  | succ n ih => exact (ih _).trans (workAdc_pass stop a)

theorem host_addCrfSamples (a : App) : a.addCrfSamples.host = a.host := by
  rw [addCrfSamples]
  split
  · split <;> rfl
  · rfl

theorem workAdc_captures (stop : StopAnswer) {m : ChartEnables} (batches : List (Batch m)) (a : App) :
    (captures stop batches a).host.workAdc = a.host.workAdc := by
  induction batches generalizing a with
  | nil => rfl
  | cons b batches ih =>
      have hcapture : (a.capture stop b.1).host.workAdc = a.host.workAdc := by
        rw [capture, workAdc_passes, host_addCrfSamples]
        rfl
      exact (ih _).trans hcapture

/-- A running measurement without triggers, and a setting of the form for it. -/
structure Untriggered (m : ChartEnables) (screen : Screen) (a : App) : Prop where
  chartEnables : a.form.chartEnables = m
  workAdc : a.host.workAdc = true
  adcSmps : a.form.adcSmps ≠ 0
  maxSamples : 0 < screen.maxSamples
  triggerRise : ∀ c, screen.triggerRise c = false

variable {m : ChartEnables} {screen : Screen} {a : App}

theorem Untriggered.anyTrigger (h : Untriggered m screen a) :
    (a.clrGrf screen).form.anyTrigger = false := by
  rw [Form.anyTrigger, clrGrf_form, (chan_setParStart screen _ _ .i).1,
    (chan_setParStart screen _ _ .u).1, h.triggerRise, h.triggerRise]
  rfl

/-- The calibration of the dialog is in force. -/
theorem Untriggered.calibration (h : Untriggered m screen a) (c : Chan) :
    ((a.clrGrf screen).form.chan c).k = (a.form.adc c).k ∧
      ((a.clrGrf screen).form.chan c).zero = (a.form.adc c).zero := by
  rw [clrGrf_form, h.workAdc]
  exact ⟨rfl, rfl⟩

/-- The groups that the measurement plots. -/
def plotted (screen : Screen) (gs : List SampleGroup) (a : App) : List SampleGroup :=
  (a.clrGrf screen).form.taken gs

/-- The mean that is shown behind a measurement. -/
def shownMean (screen : Screen) (gs : List SampleGroup) (c : Chan) (a : App) : ℚ :=
  Form.rawMean c (plotted screen gs a) * (a.form.adc c).k + (a.form.adc c).zero

theorem Untriggered.averaged (h : Untriggered m screen a) (hoff : m ≠ .off) (stop : StopAnswer)
    (batches : List (Batch m)) :
    Form.Averaged (a.clrGrf screen).form (plotted screen (batches.flatMap Subtype.val) a)
      (captures stop batches (a.clrGrf screen)).form := by
  obtain ⟨hmode, -, -, hcount⟩ := clrGrf_fields a screen
  have hmode' : (a.clrGrf screen).form.chartEnables = m := hmode.trans h.chartEnables
  have hidle : Idle (a.clrGrf screen) :=
    idle_clrGrf (by rw [h.chartEnables]; exact hoff) h.adcSmps h.maxSamples
  obtain ⟨-, hform⟩ := idle_captures hidle hmode' stop batches
  have hstart : Form.Averaged (a.clrGrf screen).form [] (a.clrGrf screen).form := by
    refine ⟨.refl _, hcount, fun c _ => ?_⟩
    rw [clrGrf_form, h.workAdc]
    rfl
  have hrun := Form.foldl_taken (fun _ _ _ h' hroom => h'.feed h.anyTrigger hroom) hstart
    (batches.flatMap Subtype.val)
  rw [List.nil_append, ← hform] at hrun
  exact hrun

theorem adc_clrGrf (screen : Screen) (a : App) : (a.clrGrf screen).form.adc = a.form.adc := by
  rw [clrGrf_form]
  cases a.host.workAdc <;> rfl

theorem Untriggered.plotted_ne_nil (h : Untriggered m screen a) {gs : List SampleGroup}
    (hne : gs ≠ []) : plotted screen gs a ≠ [] := by
  obtain ⟨-, -, hmax, hcount⟩ := clrGrf_fields a screen
  have hpos : 0 < (a.clrGrf screen).form.maxSamples := by
    rw [hmax]
    exact h.maxSamples
  obtain ⟨g, gs, rfl⟩ := List.exists_cons_of_ne_nil hne
  rw [plotted, Form.taken, if_neg (Form.not_full_of_count hpos hcount)]
  exact List.cons_ne_nil _ _

/-- What a measurement leaves. -/
theorem Untriggered.measure (h : Untriggered m screen a) (stop : StopAnswer)
    (batches : List (Batch m)) (hne : batches.flatMap Subtype.val ≠ []) {c : Chan}
    (hc : m.charts c = true) :
    Untriggered m screen (a.measure screen stop batches) ∧
      (a.measure screen stop batches).form.adc = a.form.adc ∧
      (a.measure screen stop batches).form.adcSmps = a.form.adcSmps ∧
      ((a.measure screen stop batches).form.chan c).olds =
        shownMean screen (batches.flatMap Subtype.val) c a ∧
      ((a.measure screen stop batches).form.chan c).caption =
        .mean (shownMean screen (batches.flatMap Subtype.val) c a) := by
  have hoff : m ≠ .off := by
    rintro rfl
    cases c <;> cases hc
  obtain ⟨hmode, hadc, -, -⟩ := clrGrf_fields a screen
  have havg := h.averaged hoff stop batches
  have hmode' : (a.clrGrf screen).form.chartEnables = m := hmode.trans h.chartEnables
  obtain ⟨holds, hcaption⟩ := havg.shown (h.plotted_ne_nil hne) (by rw [hmode']; exact hc)
  rw [(h.calibration c).1, (h.calibration c).2] at holds hcaption
  have hsmps : (captures stop batches (a.clrGrf screen)).form.adcSmps = a.form.adcSmps :=
    havg.setup.adcSmps.trans hadc
  refine ⟨⟨havg.setup.chartEnables.trans hmode', ?_, ?_, h.maxSamples, h.triggerRise⟩, ?_, hsmps,
    holds, hcaption⟩
  · exact (workAdc_captures stop batches _).trans h.workAdc
  · exact hsmps.symm ▸ h.adcSmps
  · exact havg.setup.adc.trans (adc_clrGrf screen a)

/-- What the dialog leaves. -/
theorem Untriggered.calibrateZero (h : Untriggered m screen a) (c : Chan) :
    Untriggered m screen (a.calibrateZero c) ∧
      ((a.calibrateZero c).form.adc c).k = (a.form.adc c).k ∧
      ((a.calibrateZero c).form.adc c).zero = -(a.form.chan c).olds ∧
      (a.calibrateZero c).form.adcSmps = a.form.adcSmps := by
  refine ⟨⟨h.chartEnables, h.workAdc, h.adcSmps, h.maxSamples, h.triggerRise⟩, rfl, ?_, rfl⟩
  exact Function.update_self c _ _

/-- The same samples give the same points, whatever the calibration. -/
theorem Untriggered.plotted_congr {b : App} (ha : Untriggered m screen a)
    (hb : Untriggered m screen b) (hsmps : b.form.adcSmps = a.form.adcSmps)
    (gs : List SampleGroup) : plotted screen gs b = plotted screen gs a := by
  obtain ⟨-, hadc, hmax, hcount⟩ := clrGrf_fields a screen
  obtain ⟨-, hadc', hmax', hcount'⟩ := clrGrf_fields b screen
  refine Form.taken_congr hb.anyTrigger ha.anyTrigger (hcount'.trans hcount.symm)
    (hmax'.trans hmax.symm) ?_ gs
  rw [Form.t, Form.t, hadc, hadc']
  exact congrArg (fun n : Nat => 1000 / (n : ℚ)) hsmps

/-! ## The calibration -/

/-- The measurement, the dialog, and the measurement of the same samples again. -/
def remeasure (screen : Screen) (stop : StopAnswer) {m : ChartEnables} (batches : List (Batch m))
    (c : Chan) (a : App) : App :=
  ((a.measure screen stop batches).calibrateZero c).measure screen stop batches

/-- Behind the second measurement the old zero is shown with the other sign, and a second copy
brings it back. -/
theorem remeasure_eq (h : Untriggered m screen a) (stop : StopAnswer) (batches : List (Batch m))
    (hne : batches.flatMap Subtype.val ≠ []) {c : Chan} (hc : m.charts c = true) :
    ((a.remeasure screen stop batches c).form.chan c).caption =
        .mean (-(a.form.adc c).zero) ∧
      ((a.remeasure screen stop batches c).form.adc c).zero =
        -shownMean screen (batches.flatMap Subtype.val) c a ∧
      (((a.remeasure screen stop batches c).calibrateZero c).form.adc c).zero =
        (a.form.adc c).zero := by
  obtain ⟨hfirst, hadc, hsmps, holds, -⟩ := h.measure stop batches hne hc
  obtain ⟨hcal, hk, hzero, hsmps'⟩ := hfirst.calibrateZero c
  obtain ⟨hsecond, hadc', -, holds', hcaption'⟩ := hcal.measure stop batches hne hc
  obtain ⟨-, -, hzero', -⟩ := hsecond.calibrateZero c
  have hplotted := h.plotted_congr hcal (hsmps'.trans hsmps) (batches.flatMap Subtype.val)
  have hmean : shownMean screen (batches.flatMap Subtype.val) c
      ((a.measure screen stop batches).calibrateZero c) = -(a.form.adc c).zero := by
    rw [shownMean, hplotted, hk, hzero, holds, hadc, shownMean]
    ring
  refine ⟨?_, ?_, ?_⟩
  · rw [remeasure, hcaption', hmean]
  · rw [remeasure, hadc', hzero, holds]
  · rw [remeasure, hzero', holds', hmean, neg_neg]

/-- Over every measurement without a trigger that plots some sample: the mean of the same
samples is 0 behind the calibration, and a second one changes nothing, exactly when both the
old zero and the mean without it are 0. -/
theorem calibrateZero_iff (a : App) (screen : Screen) (stop : StopAnswer)
    (batches : List (Batch a.form.chartEnables)) (c : Chan)
    (hc : a.form.chartEnables.charts c = true) (hwork : a.host.workAdc = true)
    (hsmps : a.form.adcSmps ≠ 0) (hmax : 0 < screen.maxSamples)
    (hnone : ∀ c, screen.triggerRise c = false) (hne : batches.flatMap Subtype.val ≠ []) :
    (((a.remeasure screen stop batches c).form.chan c).caption = .mean 0 ∧
      (((a.remeasure screen stop batches c).calibrateZero c).form.adc c).zero =
        ((a.remeasure screen stop batches c).form.adc c).zero) ↔
      (a.form.adc c).zero = 0 ∧
        Form.rawMean c (plotted screen (batches.flatMap Subtype.val) a) * (a.form.adc c).k = 0 := by
  have h : Untriggered a.form.chartEnables screen a := ⟨rfl, hwork, hsmps, hmax, hnone⟩
  obtain ⟨hcaption, hfirst, hsecond⟩ := remeasure_eq h stop batches hne hc
  rw [hcaption, hfirst, hsecond, shownMean, Caption.mean.injEq, neg_eq_zero]
  constructor
  · rintro ⟨hzero, hsame⟩
    rw [hzero] at hsame
    exact ⟨hzero, by linarith⟩
  · rintro ⟨hzero, hraw⟩
    exact ⟨hzero, by rw [hzero, hraw]; ring⟩

/-- A measurement of U with a calibration in force. -/
def withCalibration (k zero : ℚ) : App :=
  { plain .u with
    host := { workAdc := true }
    form := { (plain .u).form with adc := fun _ => ⟨k, zero⟩ } }

/-- Four samples of mean zero, in two calls. -/
def balancedSamples : List (Batch .u) :=
  [⟨[fun _ => 3, fun _ => 0xFFFFFB], by decide⟩, ⟨[fun _ => 0x7FFFFF, fun _ => 0x800003], by decide⟩]

/-- Without an old zero and with a coefficient of -5/2, samples of mean zero stay there. -/
theorem calibrateZero_iff_balanced :
    (((withCalibration (-5 / 2) 0).remeasure noTrigger .stopped balancedSamples .u).form.chan
        .u).caption = .mean 0 ∧
      ((((withCalibration (-5 / 2) 0).remeasure noTrigger .stopped balancedSamples
        .u).calibrateZero .u).form.adc .u).zero =
        (((withCalibration (-5 / 2) 0).remeasure noTrigger .stopped balancedSamples .u).form.adc
          .u).zero :=
  (calibrateZero_iff (withCalibration (-5 / 2) 0) noTrigger .stopped balancedSamples .u (by decide)
    rfl (by decide) (by decide) (fun _ => rfl) (by decide)).mpr ⟨rfl, by decide +kernel⟩

theorem zeroSample_short : ChartEnables.u.width * [(fun _ => 0 : SampleGroup)].length <
    Host.smpSlots := by decide

/-- A sample of value 0. -/
def zeroSample : List (Batch .u) := [⟨[fun _ => 0], zeroSample_short⟩]

/-- With an old zero of 1 a sample of value 0 is shown as -1 behind the calibration. -/
theorem calibration_keeps_old_zero :
    ¬ ∀ (a : App) (screen : Screen) (stop : StopAnswer) (batches : List (Batch a.form.chartEnables))
      (c : Chan), a.form.chartEnables.charts c = true → a.host.workAdc = true →
      a.form.adcSmps ≠ 0 → 0 < screen.maxSamples → (∀ c, screen.triggerRise c = false) →
      batches.flatMap Subtype.val ≠ [] →
      ((a.remeasure screen stop batches c).form.chan c).caption = .mean 0 ∧
        (((a.remeasure screen stop batches c).calibrateZero c).form.adc c).zero =
          ((a.remeasure screen stop batches c).form.adc c).zero := by
  intro hall
  have hrun : Untriggered .u noTrigger (withCalibration 1 1) :=
    ⟨rfl, rfl, by decide, by decide, fun _ => rfl⟩
  obtain ⟨hcaption, -, -⟩ :=
    remeasure_eq hrun .stopped zeroSample (List.cons_ne_nil _ _) (c := .u) rfl
  obtain ⟨hzero, -⟩ := hall (withCalibration 1 1) noTrigger .stopped zeroSample .u rfl rfl (by decide)
    (by decide) (fun _ => rfl) (List.cons_ne_nil _ _)
  have hmean := Caption.mean.inj (hcaption.symm.trans hzero)
  exact absurd hmean (by decide +kernel)

end App
