-- SUMMARY: What one pass of AddCrfSamples does to the chart, and calls that take whole groups of samples out of bufsmp.
import PowerProfiler.Host.Chart
import PowerProfiler.Lib.Runs

/-!
# Captures

A pass waits, starts or plots. A call works through the groups that lie in `bufsmp`
between `ismprx` and `ismptx`; `feed` says what one group does to the form, and a call is a
fold of `feed`, however the groups are spread over calls.
-/

open Circular Runs

/-! ## What stays -/

/-- What no pass changes. -/
structure SameSetup (s s' : Form) : Prop where
  chartEnables : s'.chartEnables = s.chartEnables
  adcSmps : s'.adcSmps = s.adcSmps
  maxSamples : s'.maxSamples = s.maxSamples
  adc : s'.adc = s.adc
  k : ∀ c, (s'.chan c).k = (s.chan c).k
  zero : ∀ c, (s'.chan c).zero = (s.chan c).zero
  trigger : ∀ c, (s'.chan c).trigger = (s.chan c).trigger
  triggerEnable : ∀ c, (s'.chan c).triggerEnable = (s.chan c).triggerEnable

namespace SameSetup

variable {s s' s'' : Form}

theorem refl (s : Form) : SameSetup s s :=
  ⟨rfl, rfl, rfl, rfl, fun _ => rfl, fun _ => rfl, fun _ => rfl, fun _ => rfl⟩

theorem trans (h : SameSetup s s') (h' : SameSetup s' s'') : SameSetup s s'' where
  chartEnables := h'.chartEnables.trans h.chartEnables
  adcSmps := h'.adcSmps.trans h.adcSmps
  maxSamples := h'.maxSamples.trans h.maxSamples
  adc := h'.adc.trans h.adc
  k c := (h'.k c).trans (h.k c)
  zero c := (h'.zero c).trans (h.zero c)
  trigger c := (h'.trigger c).trans (h.trigger c)
  triggerEnable c := (h'.triggerEnable c).trans (h.triggerEnable c)

theorem calibrate (h : SameSetup s s') (c : Chan) (w : UInt32) :
    (s'.chan c).calibrate w = (s.chan c).calibrate w := by
  rw [Channel.calibrate, Channel.calibrate, h.k, h.zero]

theorem t (h : SameSetup s s') : s'.t = s.t := by rw [Form.t, Form.t, h.adcSmps]

theorem anyTrigger (h : SameSetup s s') : s'.anyTrigger = s.anyTrigger := by
  rw [Form.anyTrigger, Form.anyTrigger, h.triggerEnable, h.triggerEnable]

end SameSetup

namespace Form

/-- A change of the charted channels that leaves their setup alone. -/
theorem sameSetup_onCharted (s : Form) {f : Channel → Channel} (hk : ∀ x, (f x).k = x.k)
    (hzero : ∀ x, (f x).zero = x.zero) (htrigger : ∀ x, (f x).trigger = x.trigger)
    (henable : ∀ x, (f x).triggerEnable = x.triggerEnable) : SameSetup s (s.onCharted f) := by
  refine ⟨rfl, rfl, rfl, rfl, ?_, ?_, ?_, ?_⟩
  all_goals
    intro c
    simp only [onCharted]
    split
  · exact hk _
  · rfl
  · exact hzero _
  · rfl
  · exact htrigger _
  · rfl
  · exact henable _
  · rfl

end Form

namespace Form

variable {s : Form} {g : Chan → UInt32} {c : Chan}

@[simp] theorem chan_onCharted (f : Channel → Channel) (s : Form) (c : Chan) :
    (s.onCharted f).chan c = if s.chartEnables.charts c then f (s.chan c) else s.chan c := rfl

@[simp] theorem chan_take (g : Chan → UInt32) (s : Form) (c : Chan) :
    (s.take g).chan c =
      if s.chartEnables.charts c then (s.chan c).take (g c) else s.chan c := rfl

@[simp] theorem chan_incCount (s : Form) : s.incCount.chan = s.chan := rfl

@[simp] theorem chartEnables_onCharted (f : Channel → Channel) (s : Form) :
    (s.onCharted f).chartEnables = s.chartEnables := rfl

@[simp] theorem chartEnables_take (g : Chan → UInt32) (s : Form) :
    (s.take g).chartEnables = s.chartEnables := rfl

@[simp] theorem chartEnables_incCount (s : Form) :
    s.incCount.chartEnables = s.chartEnables := rfl

@[simp] theorem samplesCount_onCharted (f : Channel → Channel) (s : Form) :
    (s.onCharted f).samplesCount = s.samplesCount := rfl

@[simp] theorem samplesCount_take (g : Chan → UInt32) (s : Form) :
    (s.take g).samplesCount = s.samplesCount := rfl

@[simp] theorem t_onCharted (f : Channel → Channel) (s : Form) : (s.onCharted f).t = s.t := rfl

@[simp] theorem t_take (g : Chan → UInt32) (s : Form) : (s.take g).t = s.t := rfl

@[simp] theorem idx_onCharted (f : Channel → Channel) (s : Form) :
    (s.onCharted f).idx = s.idx := rfl

@[simp] theorem idx_take (g : Chan → UInt32) (s : Form) : (s.take g).idx = s.idx := rfl

@[simp] theorem samplesCount_incCount (s : Form) :
    s.incCount.samplesCount = s.samplesCount + 1 := rfl

@[simp] theorem idx_incCount (s : Form) : s.incCount.idx = (s.samplesCount + 1) * s.t := by
  simp [idx, incCount, t]

theorem sameSetup_take (g : Chan → UInt32) (s : Form) : SameSetup s (s.take g) := by
  refine ⟨rfl, rfl, rfl, rfl, ?_, ?_, ?_, ?_⟩
  all_goals
    intro c
    simp only [take]
    split <;> rfl

theorem sameSetup_watch (s : Form) : SameSetup s (s.onCharted Channel.watch) := by
  apply sameSetup_onCharted
  all_goals
    intro x
    rw [Channel.watch]
    split <;> rfl

theorem sameSetup_insertOld (s : Form) (idx : ℚ) :
    SameSetup s (s.onCharted (Channel.insertOld idx)) :=
  sameSetup_onCharted _ (fun _ => rfl) (fun _ => rfl) (fun _ => rfl) (fun _ => rfl)

theorem sameSetup_addXY (s : Form) (idx : ℚ) : SameSetup s (s.onCharted (Channel.addXY idx)) :=
  sameSetup_onCharted _ (fun _ => rfl) (fun _ => rfl) (fun _ => rfl) (fun _ => rfl)

theorem sameSetup_incCount (s : Form) : SameSetup s s.incCount :=
  ⟨rfl, rfl, rfl, rfl, fun _ => rfl, fun _ => rfl, fun _ => rfl, fun _ => rfl⟩

theorem sameSetup_addSum (s : Form) : SameSetup s (s.onCharted Channel.addSum) :=
  sameSetup_onCharted _ (fun _ => rfl) (fun _ => rfl) (fun _ => rfl) (fun _ => rfl)

/-! ## The three kinds of pass -/

theorem count_of_not_flg (h : (s.take g).flg = false) : s.samplesCount = 0 := by
  have hor := (Bool.or_eq_false_iff.mp h).1
  simpa using hor

theorem idx_of_count (h : s.samplesCount = 0) : s.idx = 0 := by
  simp [idx, h]

/-- A pass that waits: the values are plotted at 0 and not counted. -/
theorem absorb_of_wait (h : (s.take g).flg = false) :
    s.absorb g = ((s.take g).onCharted Channel.watch).onCharted (Channel.addXY 0) := by
  have hcount : s.samplesCount = 0 := count_of_not_flg h
  simp [absorb, start, plot, h, hcount, idx_of_count]

/-- The pass in which the triggers rise: the old values, then the new ones. -/
theorem absorb_of_start (hcount : s.samplesCount = 0) (hflg : (s.take g).flg = true)
    (htrig : s.anyTrigger = true) :
    s.absorb g = (((((s.take g).onCharted Channel.watch).onCharted
      (Channel.insertOld 0)).incCount.onCharted (Channel.addXY s.t)).onCharted
        Channel.addSum).incCount := by
  have htrig' : ((s.take g).onCharted Channel.watch).anyTrigger = true := by
    rw [((sameSetup_take g s).trans (sameSetup_watch _)).anyTrigger, htrig]
  simp [absorb, start, plot, hcount, hflg, htrig', idx_of_count]

theorem watch_of_disabled {x : Channel} (h : x.triggerEnable = false) : x.watch = x := by
  simp [Channel.watch, h]

theorem onCharted_watch (h : s.anyTrigger = false) : s.onCharted Channel.watch = s := by
  obtain ⟨hi, hu⟩ := Bool.or_eq_false_iff.mp h
  have hchan : (s.onCharted Channel.watch).chan = s.chan := by
    funext c
    cases c with
    | i => simp [onCharted, watch_of_disabled hi]
    | u => simp [onCharted, watch_of_disabled hu]
  exact congrArg (fun f => ({ s with chan := f } : Form)) hchan

/-- Without a trigger to wait for, or behind the rise, the values are plotted and counted. -/
theorem absorb_of_plot (hflg : (s.take g).flg = true)
    (h : s.samplesCount ≠ 0 ∨ s.anyTrigger = false) :
    s.absorb g = (((s.take g).onCharted (Channel.addXY s.idx)).onCharted
      Channel.addSum).incCount := by
  have hstart : (s.take g).start true = s.take g := by
    unfold start
    rcases h with hcount | htrig
    · simp [hcount]
    · have htake : (s.take g).anyTrigger = false := by
        rw [(sameSetup_take g s).anyTrigger, htrig]
      simp [onCharted_watch htake, htake]
  simp [absorb, plot, hflg, hstart]

theorem risen_iff (x : Channel) :
    x.risen = true ↔ (x.triggerEnable = true → x.trigger ≤ x.cur ∧ x.triggerLow = true) := by
  cases h : x.triggerEnable <;> simp [Channel.risen, h]

theorem flg_iff (s : Form) (g : Chan → UInt32) :
    (s.take g).flg = true ↔ s.samplesCount ≠ 0 ∨
      ∀ c, s.chartEnables.charts c = true → ((s.chan c).take (g c)).risen = true := by
  have hall : (∀ c, s.chartEnables.charts c = true → ((s.chan c).take (g c)).risen = true) ↔
      (s.chartEnables.charts .i = true → ((s.chan .i).take (g .i)).risen = true) ∧
        (s.chartEnables.charts .u = true → ((s.chan .u).take (g .u)).risen = true) := by
    constructor
    · exact fun h => ⟨h .i, h .u⟩
    · rintro ⟨hi, hu⟩ (_ | _)
      · exact hi
      · exact hu
  rw [hall]
  cases hi : s.chartEnables.charts .i <;> cases hu : s.chartEnables.charts .u <;>
    simp [flg, hi, hu]

/-- Nothing is held back once the capture counts, or without a trigger. -/
theorem flg_of_counting {s : Form} (h : s.samplesCount ≠ 0 ∨ s.anyTrigger = false)
    (g : Chan → UInt32) : (s.take g).flg = true := by
  rw [flg_iff]
  refine h.imp_right fun htrig c _ => ?_
  obtain ⟨hi, hu⟩ := Bool.or_eq_false_iff.mp htrig
  rw [risen_iff]
  intro henable
  cases c with
  | i => exact absurd (hi.symm.trans henable) Bool.false_ne_true
  | u => exact absurd (hu.symm.trans henable) Bool.false_ne_true

/-- Each pass is of one of the three kinds. -/
theorem absorb_kinds (g : Chan → UInt32) (s : Form) :
    (s.take g).flg = false ∨
      (s.samplesCount = 0 ∧ (s.take g).flg = true ∧ s.anyTrigger = true) ∨
      ((s.take g).flg = true ∧ (s.samplesCount ≠ 0 ∨ s.anyTrigger = false)) := by
  cases (s.take g).flg with
  | false => exact .inl rfl
  | true =>
      cases s.anyTrigger with
      | false => exact .inr (.inr ⟨rfl, .inr rfl⟩)
      | true =>
          rcases Nat.eq_zero_or_pos s.samplesCount with hcount | hcount
          · exact .inr (.inl ⟨hcount, rfl, rfl⟩)
          · exact .inr (.inr ⟨rfl, .inl hcount.ne'⟩)

theorem sameSetup_absorb (g : Chan → UInt32) (s : Form) : SameSetup s (s.absorb g) := by
  rcases absorb_kinds g s with hflg | ⟨hcount, hflg, htrig⟩ | ⟨hflg, h⟩
  · rw [absorb_of_wait hflg]
    exact ((sameSetup_take g s).trans (sameSetup_watch _)).trans (sameSetup_addXY _ _)
  · rw [absorb_of_start hcount hflg htrig]
    exact (((((sameSetup_take g s).trans (sameSetup_watch _)).trans
      (sameSetup_insertOld _ _)).trans (sameSetup_incCount _)).trans
        (sameSetup_addXY _ _)).trans ((sameSetup_addSum _).trans (sameSetup_incCount _))
  · rw [absorb_of_plot hflg h]
    exact ((sameSetup_take g s).trans (sameSetup_addXY _ _)).trans
      ((sameSetup_addSum _).trans (sameSetup_incCount _))

/-! ## What a pass does to a charted channel -/

theorem chan_absorb_of_wait (hflg : (s.take g).flg = false)
    (hc : s.chartEnables.charts c = true) :
    (s.absorb g).chan c = (((s.chan c).take (g c)).watch).addXY 0 := by
  simp [absorb_of_wait hflg, hc]

theorem chan_absorb_of_start (hcount : s.samplesCount = 0) (hflg : (s.take g).flg = true)
    (htrig : s.anyTrigger = true) (hc : s.chartEnables.charts c = true) :
    (s.absorb g).chan c =
      (((((s.chan c).take (g c)).watch).insertOld 0).addXY s.t).addSum := by
  simp [absorb_of_start hcount hflg htrig, hc]

theorem chan_absorb_of_plot (hflg : (s.take g).flg = true)
    (h : s.samplesCount ≠ 0 ∨ s.anyTrigger = false) (hc : s.chartEnables.charts c = true) :
    (s.absorb g).chan c = (((s.chan c).take (g c)).addXY s.idx).addSum := by
  simp [absorb_of_plot hflg h, hc]

theorem count_absorb_of_wait (hflg : (s.take g).flg = false) : (s.absorb g).samplesCount = 0 := by
  simpa [absorb_of_wait hflg] using count_of_not_flg hflg

theorem count_absorb_of_start (hcount : s.samplesCount = 0) (hflg : (s.take g).flg = true)
    (htrig : s.anyTrigger = true) : (s.absorb g).samplesCount = 2 := by
  simp [absorb_of_start hcount hflg htrig, hcount]

theorem count_absorb_of_plot (hflg : (s.take g).flg = true)
    (h : s.samplesCount ≠ 0 ∨ s.anyTrigger = false) :
    (s.absorb g).samplesCount = s.samplesCount + 1 := by
  simp [absorb_of_plot hflg h]

/-- A pass takes the words of the charted channels only. -/
theorem absorb_congr {g' : Chan → UInt32} (h : ∀ c, s.chartEnables.charts c = true → g c = g' c) :
    s.take g = s.take g' ∧ s.absorb g = s.absorb g' := by
  have htake : s.take g = s.take g' := by
    have hchan : (s.take g).chan = (s.take g').chan := by
      funext c
      simp only [take]
      split
      · rename_i hc
        rw [h c hc]
      · rfl
    exact congrArg (fun f => ({ s with chan := f } : Form)) hchan
  exact ⟨htake, by rw [absorb, absorb, htake]⟩

end Form

namespace Channel

variable (x : Channel) (w : UInt32) (idx : ℚ)

@[simp] theorem cur_take : (x.take w).cur = x.calibrate w := rfl
@[simp] theorem oldCur_take : (x.take w).oldCur = x.cur := rfl
@[simp] theorem series_take : (x.take w).series = x.series := rfl
@[simp] theorem sum_take : (x.take w).sum = x.sum := rfl

@[simp] theorem cur_watch : x.watch.cur = x.cur := by rw [watch]; split <;> rfl
@[simp] theorem oldCur_watch : x.watch.oldCur = x.oldCur := by rw [watch]; split <;> rfl
@[simp] theorem series_watch : x.watch.series = x.series := by rw [watch]; split <;> rfl
@[simp] theorem sum_watch : x.watch.sum = x.sum := by rw [watch]; split <;> rfl

@[simp] theorem cur_insertOld : (x.insertOld idx).cur = x.cur := rfl
@[simp] theorem series_insertOld : (x.insertOld idx).series = [(idx, x.oldCur)] := rfl
@[simp] theorem sum_insertOld : (x.insertOld idx).sum = x.sum + x.cur := rfl

@[simp] theorem cur_addXY : (x.addXY idx).cur = x.cur := rfl
@[simp] theorem series_addXY : (x.addXY idx).series = x.series ++ [(idx, x.cur)] := rfl
@[simp] theorem sum_addXY : (x.addXY idx).sum = x.sum := rfl

@[simp] theorem cur_addSum : x.addSum.cur = x.cur := rfl
@[simp] theorem series_addSum : x.addSum.series = x.series := rfl
@[simp] theorem sum_addSum : x.addSum.sum = x.sum + x.cur := rfl

end Channel

theorem Form.cur_absorb {s : Form} {c : Chan} (g : Chan → UInt32)
    (hc : s.chartEnables.charts c = true) :
    ((s.absorb g).chan c).cur = (s.chan c).calibrate (g c) := by
  rcases Form.absorb_kinds g s with hflg | ⟨hcount, hflg, htrig⟩ | ⟨hflg, h⟩
  · simp [Form.chan_absorb_of_wait hflg hc]
  · simp [Form.chan_absorb_of_start hcount hflg htrig hc]
  · simp [Form.chan_absorb_of_plot hflg h hc]

/-! ## Up to the limit -/

namespace Form

/-- What a group of samples does to the form: nothing at the limit. -/
def feed (s : Form) (g : Chan → UInt32) : Form :=
  if s.Full then s
  else if (s.absorb g).Full then (s.absorb g).autoStop
  else s.absorb g

/-- A call at the limit leaves the form alone. -/
structure Settled (s : Form) : Prop where
  maxSamples_pos : 0 < s.maxSamples
  stopped : s.Full → s.autoStop = s

@[simp] theorem samplesCount_autoStop (s : Form) :
    s.autoStop.samplesCount = s.samplesCount := rfl

@[simp] theorem full_autoStop (s : Form) : s.autoStop.Full ↔ s.Full := Iff.rfl

@[simp] theorem chartEnables_autoStop (s : Form) : s.autoStop.chartEnables = s.chartEnables := rfl

/-- The labels and the means shown are all that the limit changes in a channel. -/
theorem chan_autoStop (s : Form) (c : Chan) :
    ∃ olds caption, s.autoStop.chan c = { s.chan c with olds := olds, caption := caption } := by
  simp only [autoStop, showLabelsMX]
  split
  · exact ⟨_, _, rfl⟩
  · exact ⟨_, _, rfl⟩

@[simp] theorem sum_autoStop (s : Form) (c : Chan) : (s.autoStop.chan c).sum = (s.chan c).sum := by
  obtain ⟨_, _, heq⟩ := chan_autoStop s c
  rw [heq]

@[simp] theorem series_autoStop (s : Form) (c : Chan) :
    (s.autoStop.chan c).series = (s.chan c).series := by
  obtain ⟨_, _, heq⟩ := chan_autoStop s c
  rw [heq]

theorem sameSetup_autoStop (s : Form) : SameSetup s s.autoStop := by
  refine ⟨rfl, rfl, rfl, rfl, ?_, ?_, ?_, ?_⟩
  all_goals
    intro c
    obtain ⟨_, _, heq⟩ := chan_autoStop s c
    rw [heq]

theorem autoStop_autoStop (s : Form) : s.autoStop.autoStop = s.autoStop := by
  have hchan : s.autoStop.autoStop.chan = s.autoStop.chan := by
    funext c
    simp only [autoStop, showLabelsMX]
    split <;> simp_all
  exact congrArg (fun f => ({ s.autoStop with chan := f } : Form)) hchan

theorem not_full_of_count {s : Form} (hpos : 0 < s.maxSamples) (h : s.samplesCount = 0) :
    ¬ s.Full := by
  simp [Full, idx, h, hpos.ne']

theorem Settled.feed {s : Form} (h : s.Settled) (g : Chan → UInt32) : (s.feed g).Settled := by
  have hmax : (s.absorb g).maxSamples = s.maxSamples := (sameSetup_absorb g s).maxSamples
  unfold Form.feed
  split
  · exact h
  · split
    · rename_i hfull
      exact ⟨hmax ▸ h.maxSamples_pos, fun _ => autoStop_autoStop _⟩
    · rename_i hnot
      exact ⟨hmax ▸ h.maxSamples_pos, fun hfull => absurd hfull hnot⟩

theorem sameSetup_feed (s : Form) (g : Chan → UInt32) : SameSetup s (s.feed g) := by
  unfold feed
  split
  · exact .refl s
  · split
    · exact (sameSetup_absorb g s).trans (sameSetup_autoStop _)
    · exact sameSetup_absorb g s

theorem feed_of_full {s : Form} (h : s.Full) (gs : List (Chan → UInt32)) :
    gs.foldl feed s = s := by
  induction gs with
  | nil => rfl
  | cons g gs ih =>
      have hfeed : s.feed g = s := by simp [feed, h]
      rw [List.foldl_cons, hfeed, ih]

/-- A pass at the limit has counted its values. -/
theorem flg_of_full {s : Form} (hpos : 0 < s.maxSamples) {g : Chan → UInt32}
    (h : (s.absorb g).Full) : (s.take g).flg = true := by
  cases hflg : (s.take g).flg with
  | true => rfl
  | false =>
      have hmax : (s.absorb g).maxSamples = s.maxSamples := (sameSetup_absorb g s).maxSamples
      exact absurd h (not_full_of_count (hmax ▸ hpos) (count_absorb_of_wait hflg))

end Form

namespace App

/-- All that a pass can do to the form. -/
theorem form_pass (stop : StopAnswer) (a : App) :
    ((∀ irx itx, a.call = some (irx, itx) → irx = itx) ∧ (a.pass stop).form = a.form) ∨
      ∃ irx itx, a.call = some (irx, itx) ∧ irx ≠ itx ∧
        ((a.pass stop).form = a.form.absorb (a.words irx) ∨
          (a.pass stop).form = (a.form.absorb (a.words irx)).autoStop) := by
  rcases hcall : a.call with _ | ⟨irx, itx⟩
  · rw [pass, hcall]
    exact .inl ⟨fun _ _ hsome => (nomatch hsome), rfl⟩
  · rw [pass, hcall]
    by_cases heq : irx = itx
    · simp only [if_pos heq]
      refine .inl ⟨fun irx' itx' hsome => ?_, trivial⟩
      cases hsome
      exact heq
    · simp only [if_neg heq]
      refine .inr ⟨irx, itx, rfl, heq, ?_⟩
      split
      · exact .inr rfl
      · exact .inl rfl

/-- All that the beginning of a call can do to the form. -/
theorem form_addCrfSamples (a : App) :
    a.addCrfSamples.form = a.form ∨ a.addCrfSamples.form = a.form.autoStop := by
  rw [addCrfSamples]
  split
  · split
    · exact .inr rfl
    · exact .inl rfl
  · exact .inl rfl

theorem sameSetup_pass (stop : StopAnswer) (a : App) : SameSetup a.form (a.pass stop).form := by
  rcases form_pass stop a with ⟨-, heq⟩ | ⟨irx, -, -, -, heq | heq⟩
  · rw [heq]
    exact .refl _
  · rw [heq]
    exact Form.sameSetup_absorb _ _
  · rw [heq]
    exact (Form.sameSetup_absorb _ _).trans (Form.sameSetup_autoStop _)

theorem sameSetup_passes (stop : StopAnswer) (n : Nat) (a : App) :
    SameSetup a.form ((pass stop)^[n] a).form := by
  induction n generalizing a with
  | zero => exact .refl _
  | succ n ih => exact (sameSetup_pass stop a).trans (ih _)

theorem sameSetup_addCrfSamples (a : App) : SameSetup a.form a.addCrfSamples.form := by
  rcases form_addCrfSamples a with heq | heq
  · rw [heq]
    exact .refl _
  · rw [heq]
    exact Form.sameSetup_autoStop _

end App
