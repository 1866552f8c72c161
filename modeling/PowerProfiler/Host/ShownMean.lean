-- SUMMARY: The mean shown and the points plotted: what a run of AddCrfSamples keeps between SamplesCount, the sums and the series.
import PowerProfiler.Host.Capture

/-!
# The shown mean

`ShowLabelsMX` divides the sum of a channel by `SamplesCount`. The pass in which the
triggers rise plots the sample before the rise and adds the one at the rise, so the mean is
that of the points exactly when the two are equal.
-/

open Runs

/-- What happens around the chart while samples come in. -/
inductive ChartEvent where
  /-- `QueryPort` changes the ring. -/
  | store (bufsmp : Nat → UInt32) (ismptx : Nat)
  /-- `AddCrfSamples` is called. -/
  | timer
  /-- `AddCrfSamples` makes a pass. -/
  | pass (stop : StopAnswer)

def chartStep : ChartEvent → App → App
  | .store bufsmp ismptx, a => { a with host := { a.host with bufsmp := bufsmp, ismptx := ismptx } }
  | .timer, a => a.addCrfSamples
  | .pass stop, a => a.pass stop

namespace Form

/-- The series have `SamplesCount` points, the sum is that of their values, and `ShowLabelsMX`
shows their mean. -/
def MeanShown (s : Form) : Prop :=
  0 < s.samplesCount → ∀ c, s.chartEnables.charts c = true →
    (s.chan c).series.length = s.samplesCount ∧
    (s.chan c).sum = (s.chan c).values.sum ∧
    (s.showLabelsMX.chan c).caption =
      .mean ((s.chan c).values.sum / (s.chan c).series.length)

/-- The triggers rise with these words. -/
def Starts (word : Chan → UInt32) (s : Form) : Prop :=
  s.samplesCount = 0 ∧ (s.take word).flg = true ∧ s.anyTrigger = true

/-- What holds of the points whatever the sums. -/
structure Counted (s : Form) : Prop where
  waiting : s.samplesCount = 0 → ∀ c, s.chartEnables.charts c = true →
    (s.chan c).sum = 0 ∧ (s.anyTrigger = false → (s.chan c).series = [])
  counting : 0 < s.samplesCount → ∀ c, s.chartEnables.charts c = true →
    (s.chan c).series.length = s.samplesCount

/-- The sums are those of the points. -/
def Summed (s : Form) : Prop :=
  0 < s.samplesCount → ∀ c, s.chartEnables.charts c = true →
    (s.chan c).sum = (s.chan c).values.sum

variable {s : Form} {word : Chan → UInt32}

theorem caption_showLabelsMX {c : Chan} (hc : s.chartEnables.charts c = true)
    (hcount : 0 < s.samplesCount) :
    (s.showLabelsMX.chan c).caption = .mean ((s.chan c).sum / s.samplesCount) := by
  simp [showLabelsMX, hc, hcount.ne']

theorem Counted.meanShown_iff (h : s.Counted) : s.MeanShown ↔ s.Summed := by
  constructor
  · exact fun hmean hcount c hc => (hmean hcount c hc).2.1
  · intro hsum hcount c hc
    have hlen := h.counting hcount c hc
    have hs := hsum hcount c hc
    refine ⟨hlen, hs, ?_⟩
    rw [caption_showLabelsMX hc hcount, hs, hlen]

/-! ## One pass -/

theorem Counted.absorb (h : s.Counted) (word : Chan → UInt32) : (s.absorb word).Counted := by
  have hmode := (sameSetup_absorb word s).chartEnables
  have htrig := (sameSetup_absorb word s).anyTrigger
  rcases absorb_kinds word s with hflg | ⟨hcount, hflg, hany⟩ | ⟨hflg, hor⟩
  · have hcount := count_of_not_flg hflg
    have hcount' := count_absorb_of_wait hflg
    refine ⟨fun _ c hc => ?_, fun hpos => absurd hcount' hpos.ne'⟩
    rw [hmode] at hc
    obtain ⟨hsum, -⟩ := h.waiting hcount c hc
    rw [chan_absorb_of_wait hflg hc]
    refine ⟨by simpa using hsum, fun hnone => ?_⟩
    rw [htrig] at hnone
    exact absurd (flg_of_counting (.inr hnone) word) (Bool.eq_false_iff.mp hflg)
  · have hcount' := count_absorb_of_start hcount hflg hany
    refine ⟨fun hzero => absurd (hcount'.symm.trans hzero) (by decide), fun _ c hc => ?_⟩
    rw [hmode] at hc
    rw [chan_absorb_of_start hcount hflg hany hc, hcount']
    simp
  · have hcount' := count_absorb_of_plot hflg hor
    refine ⟨fun hzero => ?_, fun _ c hc => ?_⟩
    · rw [hcount'] at hzero
      cases hzero
    · rw [hmode] at hc
      rw [chan_absorb_of_plot hflg hor hc, hcount']
      rcases Nat.eq_zero_or_pos s.samplesCount with hzero | hpos
      · obtain ⟨-, hempty⟩ := h.waiting hzero c hc
        simp [hempty (hor.resolve_left fun hne => hne hzero), hzero]
      · simp [h.counting hpos c hc]

/-- The sums stay those of the points unless the triggers rise between two different values. -/
theorem summed_absorb_iff (h : s.Counted) (hsum : s.Summed) :
    (s.absorb word).Summed ↔ (s.Starts word → ∀ c, s.chartEnables.charts c = true →
      (s.chan c).cur = (s.chan c).calibrate (word c)) := by
  have hmode := (sameSetup_absorb word s).chartEnables
  rcases absorb_kinds word s with hflg | ⟨hcount, hflg, hany⟩ | ⟨hflg, hor⟩
  · have hcount := count_absorb_of_wait hflg
    constructor
    · exact fun _ hstart => absurd hstart.2.1 (Bool.eq_false_iff.mp hflg)
    · exact fun _ hpos => absurd hcount hpos.ne'
  · have hcount' := count_absorb_of_start hcount hflg hany
    have hsums : ∀ c, s.chartEnables.charts c = true →
        (((s.absorb word).chan c).sum = ((s.absorb word).chan c).values.sum ↔
          (s.chan c).cur = (s.chan c).calibrate (word c)) := by
      intro c hc
      obtain ⟨hzero, -⟩ := h.waiting hcount c hc
      rw [chan_absorb_of_start hcount hflg hany hc]
      simp [Channel.values, hzero]
      exact eq_comm
    constructor
    · intro hsum' _ c hc
      exact (hsums c hc).mp (hsum' (by rw [hcount']; decide) c (by rw [hmode, hc]))
    · intro hsteady _ c hc
      rw [hmode] at hc
      exact (hsums c hc).mpr (hsteady ⟨hcount, hflg, hany⟩ c hc)
  · have hsums : (s.absorb word).Summed := by
      intro _ c hc
      rw [hmode] at hc
      rw [chan_absorb_of_plot hflg hor hc]
      rcases Nat.eq_zero_or_pos s.samplesCount with hzero | hpos
      · obtain ⟨hsum0, hempty⟩ := h.waiting hzero c hc
        simp [Channel.values, hsum0, hempty (hor.resolve_left fun hne => hne hzero)]
      · have hprev := hsum hpos c hc
        simpa [Channel.values] using hprev
    refine ⟨fun _ hstart => ?_, fun _ => hsums⟩
    rcases hor with hne | hnone
    · exact absurd hstart.1 hne
    · exact absurd hstart.2.2 (Bool.eq_false_iff.mp hnone)

/-! ## The limit -/

theorem Counted.autoStop (h : s.Counted) : s.autoStop.Counted := by
  have htrig := (sameSetup_autoStop s).anyTrigger
  refine ⟨fun hzero c hc => ?_, fun hpos c hc => ?_⟩
  · simpa [htrig] using h.waiting hzero c hc
  · simpa using h.counting hpos c hc

theorem summed_autoStop_iff : s.autoStop.Summed ↔ s.Summed := by
  simp [Summed, Channel.values]

/-! ## The cleared graph -/

theorem counted_clearGrf (s : Form) : s.clearGrf.Counted :=
  ⟨fun _ _ _ => ⟨rfl, fun _ => rfl⟩, fun hpos => absurd hpos (Nat.lt_irrefl 0)⟩

theorem summed_clearGrf (s : Form) : s.clearGrf.Summed := fun hpos => absurd hpos (Nat.lt_irrefl 0)

end Form

namespace App

/-! ## Events -/

/-- When the triggers rise in the pass that follows, the values before the rise are those at it. -/
def Steady : ChartEvent → App → Prop
  | .store _ _, _ => True
  | .timer, _ => True
  | .pass _, a => ∀ irx itx, a.call = some (irx, itx) → irx ≠ itx →
      a.form.Starts (a.words irx) → ∀ c, a.form.chartEnables.charts c = true →
        (a.form.chan c).cur = (a.form.chan c).calibrate (a.words irx c)

/-- What an event does to the form. -/
theorem form_chartStep (e : ChartEvent) (a : App) :
    (((chartStep e a).form = a.form ∨ (chartStep e a).form = a.form.autoStop) ∧ Steady e a) ∨
      ∃ irx itx stop, e = .pass stop ∧ a.call = some (irx, itx) ∧ irx ≠ itx ∧
        ((chartStep e a).form = a.form.absorb (a.words irx) ∨
          (chartStep e a).form = (a.form.absorb (a.words irx)).autoStop) := by
  cases e with
  | store bufsmp ismptx => exact .inl ⟨.inl rfl, trivial⟩
  | timer => exact .inl ⟨form_addCrfSamples a, trivial⟩
  | pass stop =>
      rcases form_pass stop a with ⟨hdone, heq⟩ | ⟨irx, itx, hcall, hne, heq⟩
      · exact .inl ⟨.inl heq, fun irx itx hcall hne => absurd (hdone irx itx hcall) hne⟩
      · exact .inr ⟨irx, itx, stop, rfl, hcall, hne, heq⟩

theorem steady_pass {a : App} {irx itx : Nat} (hcall : a.call = some (irx, itx)) (hne : irx ≠ itx)
    (stop : StopAnswer) : Steady (.pass stop) a ↔
      (a.form.Starts (a.words irx) → ∀ c, a.form.chartEnables.charts c = true →
        (a.form.chan c).cur = (a.form.chan c).calibrate (a.words irx c)) := by
  constructor
  · exact fun hsteady => hsteady irx itx hcall hne
  · intro h irx' itx' hsome
    rw [hcall] at hsome
    cases hsome
    exact fun _ => h

theorem counted_chartStep {a : App} (h : a.form.Counted) (e : ChartEvent) :
    (chartStep e a).form.Counted := by
  rcases form_chartStep e a with ⟨heq | heq, -⟩ | ⟨irx, -, -, -, -, -, heq | heq⟩
  · exact heq ▸ h
  · exact heq ▸ h.autoStop
  · exact heq ▸ h.absorb _
  · exact heq ▸ (h.absorb _).autoStop

/-- An event keeps the sums those of the points exactly when it is steady. -/
theorem summed_chartStep_iff {a : App} (h : a.form.Counted) (hsum : a.form.Summed)
    (e : ChartEvent) : (chartStep e a).form.Summed ↔ Steady e a := by
  rcases form_chartStep e a with ⟨heq | heq, hsteady⟩ | ⟨irx, itx, stop, rfl, hcall, hne, heq⟩
  · exact ⟨fun _ => hsteady, fun _ => heq ▸ hsum⟩
  · exact ⟨fun _ => hsteady, fun _ => heq ▸ Form.summed_autoStop_iff.mpr hsum⟩
  · have hsum' : (chartStep (.pass stop) a).form.Summed ↔
        (a.form.absorb (a.words irx)).Summed := by
      rcases heq with heq | heq
      · rw [heq]
      · rw [heq, Form.summed_autoStop_iff]
    rw [hsum', steady_pass hcall hne, Form.summed_absorb_iff h hsum]

/-! ## Runs -/

theorem counted_run {a : App} (h : a.form.Counted) (es : List ChartEvent) :
    (run chartStep es a).form.Counted := by
  induction es generalizing a with
  | nil => exact h
  | cons e es ih => exact ih (counted_chartStep h e)

/-- `ClearGrf`, on the form of the program. -/
def clear (a : App) : App := { a with form := a.form.clearGrf }

/-- From a cleared graph on: the mean shown is that of the points in every state that a run
reaches exactly when every event of the run is steady. -/
theorem meanShown_iff_steady (a : App) (es : List ChartEvent) :
    (∀ es', es' <+: es → (run chartStep es' a.clear).form.MeanShown) ↔
      Along chartStep Steady es a.clear := by
  have hcounted : ∀ es', (run chartStep es' a.clear).form.Counted :=
    counted_run (Form.counted_clearGrf a.form)
  constructor
  · intro hmean
    rw [along_iff_steps]
    intro es' e hpre
    have hbefore := hmean es' ((List.prefix_append _ _).trans hpre)
    have hafter := hmean (es' ++ [e]) hpre
    rw [(hcounted _).meanShown_iff] at hbefore hafter
    rw [run_snoc] at hafter
    exact (summed_chartStep_iff (hcounted es') hbefore e).mp hafter
  · intro hsteady es' hpre
    rw [(hcounted es').meanShown_iff]
    have hrun := run_invariant (I := fun a => a.form.Counted ∧ a.form.Summed)
      (fun e a h hs => ⟨counted_chartStep h.1 e, (summed_chartStep_iff h.1 h.2 e).mpr hs⟩)
      ⟨Form.counted_clearGrf a.form, Form.summed_clearGrf a.form⟩ (hsteady.initial hpre)
    exact hrun.2

/-- A trigger at 1 on U. -/
def triggerAtOne : App :=
  { plain .u with form := { (plain .u).form with
      chan := fun _ => ⟨1, 0, 1, true, false, 0, 0, 0, [], 0, .current 0⟩ } }

/-- The samples 0 and 2 arrive, and a call takes both. -/
def riseFromZero : List ChartEvent :=
  [.store (fun i => if i = 0 then 0 else 2) 2, .timer, .pass .stopped, .pass .stopped]

/-- The points 0 and 2 are shown with a mean of 2. -/
theorem rise_shows_wrong_mean :
    ¬ ∀ (a : App) (es es' : List ChartEvent), es' <+: es →
      (run chartStep es' a.clear).form.MeanShown := by
  intro hall
  have hcount : 0 < (run chartStep riseFromZero triggerAtOne.clear).form.samplesCount := by
    decide +kernel
  have hcharts : (run chartStep riseFromZero triggerAtOne.clear).form.chartEnables.charts .u := by
    decide +kernel
  have hsum := (hall triggerAtOne riseFromZero riseFromZero (List.prefix_refl _) hcount .u
    hcharts).2.1
  exact absurd hsum (by decide +kernel)

end App
