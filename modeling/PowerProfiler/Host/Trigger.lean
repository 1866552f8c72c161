-- SUMMARY: The triggers: which sample starts the count, what the series hold from there on, and that the split into calls does not matter.
import PowerProfiler.Host.PlottedPoints

/-!
# Triggers

While `SamplesCount` is 0 the latches record which triggered channels have been below their
thresholds. The count starts at the first sample that is at its threshold on every
triggered channel with the latch set, and the series start one sample earlier.
-/

open Runs

/-- What lies in `bufsmp` at a call: at most as many groups as fit. -/
abbrev Batch (m : ChartEnables) : Type :=
  { gs : List SampleGroup // m.width * gs.length < Host.smpSlots }

namespace App

/-- `ButtonClrGrfClick` on an open port. -/
def clrGrf (screen : Screen) (a : App) : App where
  host := { a.host with purgeCom := true, ismptx := 0, ismprx := 0 }
  form := a.form.clearGrf.setParStart screen a.host.workAdc
  call := none

/-- A call for each batch, as it arrives. -/
def captures (stop : StopAnswer) {m : ChartEnables} (batches : List (Batch m)) (a : App) : App :=
  run (fun b => capture stop b.1) batches a

end App

namespace Form

/-- The channel is charted and its trigger enabled. -/
def Triggered (s : Form) (c : Chan) : Prop :=
  s.chartEnables.charts c = true ∧ (s.chan c).triggerEnable = true

/-- The sample `k` is at its threshold on every triggered channel, and an earlier one was below. -/
def RisesAt (s : Form) (gs : List SampleGroup) (k : Nat) : Prop :=
  ∃ g, gs[k]? = some g ∧ ∀ c, s.Triggered c →
    (s.chan c).trigger ≤ s.value c g ∧ ∃ g' ∈ gs.take k, s.value c g' < (s.chan c).trigger

/-! ## Waiting -/

/-- The latches record the groups seen so far. -/
structure Waiting (s₀ : Form) (gs : List SampleGroup) (s : Form) : Prop where
  setup : SameSetup s₀ s
  count : s.samplesCount = 0
  low : ∀ c, s₀.Triggered c → ((s.chan c).triggerLow = true ↔
    ∃ g ∈ gs, s₀.value c g < (s₀.chan c).trigger)
  cur : ∀ c, s₀.chartEnables.charts c = true → ∀ g ∈ gs.getLast?, (s.chan c).cur = s₀.value c g

variable {s₀ s : Form} {gs : List SampleGroup} {g : SampleGroup}

/-- The group that is let through. -/
theorem Waiting.flg_iff (h : Waiting s₀ gs s) :
    (s.take g).flg = true ↔ ∀ c, s₀.Triggered c → (s₀.chan c).trigger ≤ s₀.value c g ∧
      ∃ g' ∈ gs, s₀.value c g' < (s₀.chan c).trigger := by
  rw [Form.flg_iff]
  constructor
  · rintro (hne | hall) c hc
    · exact absurd h.count hne
    · have hrisen := hall c (by rw [h.setup.chartEnables]; exact hc.1)
      rw [risen_iff] at hrisen
      obtain ⟨hle, hlow⟩ := hrisen ((h.setup.triggerEnable c).trans hc.2)
      refine ⟨?_, (h.low c hc).mp hlow⟩
      have hval : (s.chan c).calibrate (g c) = s₀.value c g := h.setup.calibrate c (g c)
      rw [← hval, ← h.setup.trigger]
      exact hle
  · refine fun hall => .inr fun c hc => ?_
    rw [risen_iff]
    intro henable
    have htrig : s₀.Triggered c :=
      ⟨by rw [← h.setup.chartEnables]; exact hc, (h.setup.triggerEnable c).symm.trans henable⟩
    obtain ⟨hle, hlow⟩ := hall c htrig
    refine ⟨?_, (h.low c htrig).mpr hlow⟩
    have hval : (s.chan c).calibrate (g c) = s₀.value c g := h.setup.calibrate c (g c)
    show (s.chan c).trigger ≤ (s.chan c).calibrate (g c)
    rw [hval, h.setup.trigger]
    exact hle

/-- The latch behind a sample. -/
theorem low_watch (x : Channel) :
    x.watch.triggerLow = true ↔
      x.triggerLow = true ∨ (x.triggerEnable = true ∧ x.cur < x.trigger) := by
  rw [Channel.watch]
  split
  · rename_i h
    exact ⟨fun _ => .inr h, fun _ => rfl⟩
  · rename_i h
    exact ⟨.inl, fun hor => hor.resolve_right h⟩

/-- A group that is held back. -/
theorem Waiting.feed (h : Waiting s₀ gs s) (hmax : 0 < s.maxSamples)
    (hflg : (s.take g).flg = false) : Waiting s₀ (gs ++ [g]) (s.feed g) := by
  have hcount : (s.absorb g).samplesCount = 0 := count_absorb_of_wait hflg
  have hmax' : 0 < (s.absorb g).maxSamples := by
    rw [(sameSetup_absorb g s).maxSamples]
    exact hmax
  have hfeed : s.feed g = s.absorb g := by
    rw [Form.feed, if_neg (not_full_of_count hmax h.count),
      if_neg (not_full_of_count hmax' hcount)]
  have hchan : ∀ c, s₀.chartEnables.charts c = true →
      (s.feed g).chan c = (((s.chan c).take (g c)).watch).addXY 0 := by
    intro c hc
    rw [hfeed]
    exact chan_absorb_of_wait hflg (by rw [h.setup.chartEnables]; exact hc)
  refine ⟨h.setup.trans (s.sameSetup_feed g), by rw [hfeed, hcount], fun c hc => ?_, ?_⟩
  · have hlow : ((s.feed g).chan c).triggerLow = ((s.chan c).take (g c)).watch.triggerLow := by
      rw [hchan c hc.1]
      rfl
    have hval : (s.chan c).calibrate (g c) = s₀.value c g := h.setup.calibrate c (g c)
    have hlow' : ((s.chan c).take (g c)).triggerLow = true ↔
        ∃ g ∈ gs, s₀.value c g < (s₀.chan c).trigger := h.low c hc
    have henable : ((s.chan c).take (g c)).triggerEnable = true :=
      (h.setup.triggerEnable c).trans hc.2
    have htrigger : ((s.chan c).take (g c)).trigger = (s₀.chan c).trigger := h.setup.trigger c
    rw [hlow, low_watch, hlow', henable, htrigger, Channel.cur_take, hval]
    simp [or_and_right, exists_or]
  · intro c hc g' hg'
    have hlast : g = g' := by simpa using hg'
    rw [hchan c hc, ← hlast]
    simp only [Channel.cur_addXY, Channel.cur_watch, Channel.cur_take]
    exact h.setup.calibrate c (g c)

/-- The group that starts the count: the series hold the one before it and this one. -/
theorem Waiting.feed_start (h : Waiting s₀ (gs ++ [g₀]) s) (hmax : 0 < s.maxSamples)
    (hflg : (s.take g).flg = true) (htrig : s₀.anyTrigger = true) :
    Plotted s₀ [g₀, g] (s.feed g) := by
  have htrig' : s.anyTrigger = true := h.setup.anyTrigger.trans htrig
  have hroom := not_full_of_count hmax h.count
  refine ⟨h.setup.trans (s.sameSetup_feed g), ?_, fun c hc => ?_⟩
  · rw [(series_feed_of_not_full g hroom .i).1, count_absorb_of_start h.count hflg htrig']
    rfl
  · have hc' : s.chartEnables.charts c = true := by rw [h.setup.chartEnables, hc]
    have hcur := h.cur c hc g₀ (by simp)
    rw [(series_feed_of_not_full g hroom c).2, chan_absorb_of_start h.count hflg htrig' hc']
    simp only [Channel.series_addSum, Channel.series_addXY, Channel.series_insertOld,
      Channel.oldCur_watch, Channel.oldCur_take, Channel.cur_insertOld, Channel.cur_watch,
      Channel.cur_take, hcur, h.setup.calibrate, h.setup.t]
    simp [points, value]

/-! ## Whole sequences -/

theorem risesAt_append {rest : List SampleGroup} {k : Nat} (hk : k < gs.length) :
    s₀.RisesAt (gs ++ rest) k ↔ s₀.RisesAt gs k := by
  rw [RisesAt, RisesAt, List.getElem?_append_left hk, List.take_append_of_le_length hk.le]

theorem risesAt_length {rest : List SampleGroup} :
    s₀.RisesAt (gs ++ g :: rest) gs.length ↔ ∀ c, s₀.Triggered c →
      (s₀.chan c).trigger ≤ s₀.value c g ∧
        ∃ g' ∈ gs, s₀.value c g' < (s₀.chan c).trigger := by
  simp [RisesAt]

/-- Without a rise the capture waits. -/
theorem waiting_foldl (h : Waiting s₀ [] s₀) (hmax : 0 < s₀.maxSamples) (gs : List SampleGroup)
    (hnone : ∀ k < gs.length, ¬ s₀.RisesAt gs k) : Waiting s₀ gs (gs.foldl Form.feed s₀) := by
  induction gs using List.reverseRecOn with
  | nil => exact h
  | append_singleton gs g ih =>
      have hwait := ih fun k hk hrise => by
        refine hnone k ?_ ((risesAt_append hk).mpr hrise)
        rw [List.length_append]
        exact Nat.lt_add_right _ hk
      rw [List.foldl_append, List.foldl_cons, List.foldl_nil]
      refine hwait.feed (hwait.setup.maxSamples ▸ hmax) ?_
      have hlast := hnone gs.length (by simp)
      rw [risesAt_length, ← hwait.flg_iff] at hlast
      exact Bool.eq_false_iff.mpr hlast

/-- What the charted series hold when the triggers rose at the sample `k`. -/
structure ShownFrom (s₀ : Form) (gs : List SampleGroup) (k : Nat) (s : Form) : Prop where
  series : ∀ c, s₀.chartEnables.charts c = true →
    (s.chan c).series = s₀.points c ((gs.drop (k - 1)).take s.samplesCount)
  counted : 2 ≤ s.samplesCount ∧ s.samplesCount ≤ (gs.drop (k - 1)).length
  before : ∀ n, 2 ≤ n → n < s.samplesCount → ¬ s₀.FullAt n
  limit : s.samplesCount < (gs.drop (k - 1)).length → s₀.FullAt s.samplesCount

/-- From the first rise on the groups are plotted, with the one before it in front. -/
theorem shownFrom_split (h : Waiting s₀ [] s₀) (hmax : 0 < s₀.maxSamples)
    (htrig : s₀.anyTrigger = true) {init post : List SampleGroup} {g₀ : SampleGroup}
    (hrise : ∀ c, s₀.Triggered c → (s₀.chan c).trigger ≤ s₀.value c g ∧
      ∃ g' ∈ init ++ [g₀], s₀.value c g' < (s₀.chan c).trigger)
    (hnone : ∀ j < (init ++ [g₀]).length, ¬ s₀.RisesAt (init ++ [g₀]) j) :
    ShownFrom s₀ (init ++ g₀ :: g :: post) (init.length + 1)
      ((init ++ g₀ :: g :: post).foldl Form.feed s₀) := by
  have hwait := waiting_foldl h hmax (init ++ [g₀]) hnone
  have hmax' : 0 < ((init ++ [g₀]).foldl Form.feed s₀).maxSamples :=
    hwait.setup.maxSamples ▸ hmax
  have hstart := hwait.feed_start hmax' (hwait.flg_iff.mpr hrise) htrig
  have hcounts : (((init ++ [g₀]).foldl Form.feed s₀).feed g).samplesCount ≠ 0 := by
    rw [hstart.count]
    exact Nat.succ_ne_zero 1
  obtain ⟨m, hm, hplot, hroom, hlimit⟩ := hstart.foldl (.inl hcounts) post
  have hfold : (init ++ g₀ :: g :: post).foldl Form.feed s₀ =
      post.foldl Form.feed (((init ++ [g₀]).foldl Form.feed s₀).feed g) := by
    simp
  have hdrop : (init ++ g₀ :: g :: post).drop (init.length + 1 - 1) = g₀ :: g :: post := by simp
  have hcount : (post.foldl Form.feed (((init ++ [g₀]).foldl Form.feed s₀).feed g)).samplesCount =
      m + 2 := by
    rw [hplot.count, List.length_append, List.length_take, Nat.min_eq_left hm]
    exact Nat.add_comm 2 m
  rw [hfold]
  refine ⟨fun c hc => ?_, ?_, fun n hn hlt => ?_, fun hlt => ?_⟩
  · rw [hplot.series c hc, hcount, hdrop]
    rfl
  · rw [hcount, hdrop]
    simpa using hm
  · rw [hcount] at hlt
    have := hroom (n - 2) (by omega)
    rwa [List.length_cons, List.length_singleton, show 1 + 1 + (n - 2) = n by omega] at this
  · rw [hcount, hdrop] at hlt
    rw [hcount, Nat.add_comm]
    exact hlimit (by simpa using hlt)

theorem shownFrom_foldl (h : Waiting s₀ [] s₀) (hmax : 0 < s₀.maxSamples)
    (htrig : ∃ c, s₀.Triggered c) {k : Nat} (hrise : s₀.RisesAt gs k)
    (hfirst : ∀ j < k, ¬ s₀.RisesAt gs j) : ShownFrom s₀ gs k (gs.foldl Form.feed s₀) := by
  obtain ⟨c₀, hc₀⟩ := htrig
  have hany : s₀.anyTrigger = true := by
    rw [anyTrigger, Bool.or_eq_true]
    cases c₀ with
    | i => exact .inl hc₀.2
    | u => exact .inr hc₀.2
  obtain ⟨g, hg, hall⟩ := hrise
  obtain ⟨hk, rfl⟩ := List.getElem?_eq_some_iff.mp hg
  obtain ⟨-, g', hg', -⟩ := hall c₀ hc₀
  have hlen : (gs.take k).length = k := by simp [hk.le]
  have hsplit : gs.take k ++ gs[k] :: gs.drop (k + 1) = gs := by simp
  rcases List.eq_nil_or_concat (gs.take k) with hnil | ⟨init, g₀, hpre⟩
  · rw [hnil] at hg'
    cases hg'
  · have hnone : ∀ j < (gs.take k).length, ¬ s₀.RisesAt (gs.take k) j := by
      intro j hj hrise
      rw [← risesAt_append hj, hsplit] at hrise
      exact hfirst j (hlen ▸ hj) hrise
    rw [hpre, List.concat_eq_append] at hall hnone hsplit hlen
    rw [List.append_assoc, List.singleton_append] at hsplit
    have hk' : k = init.length + 1 := by simpa using hlen.symm
    have hshown : ShownFrom s₀ _ _ ((init ++ g₀ :: gs[k] :: gs.drop (k + 1)).foldl Form.feed s₀) :=
      shownFrom_split h hmax hany hall hnone
    rw [hsplit, ← hk'] at hshown
    exact hshown

end Form

namespace App

/-! ## Runs of calls -/

theorem idle_captures {m : ChartEnables} {a : App} (h : Idle a) (hm : a.form.chartEnables = m)
    (stop : StopAnswer) (batches : List (Batch m)) :
    Idle (captures stop batches a) ∧
      (captures stop batches a).form =
        (batches.flatMap Subtype.val).foldl Form.feed a.form := by
  induction batches generalizing a with
  | nil => exact ⟨h, rfl⟩
  | cons b batches ih =>
      obtain ⟨hidle, hform⟩ := h.capture stop (by rw [hm]; exact b.2)
      have hm' : (a.capture stop b.1).form.chartEnables = m := by
        rw [hform, (settled_foldl h.settled b.1).2.chartEnables, hm]
      obtain ⟨hidle', hform'⟩ := ih hidle hm'
      refine ⟨hidle', hform'.trans ?_⟩
      rw [hform, List.flatMap_cons, List.foldl_append]

/-! ## From the cleared graph on -/

variable (a : App) (screen : Screen)

theorem clrGrf_form : (a.clrGrf screen).form = a.form.clearGrf.setParStart screen a.host.workAdc :=
  rfl

theorem clrGrf_fields :
    (a.clrGrf screen).form.chartEnables = a.form.chartEnables ∧
      (a.clrGrf screen).form.adcSmps = a.form.adcSmps ∧
      (a.clrGrf screen).form.maxSamples = screen.maxSamples ∧
      (a.clrGrf screen).form.samplesCount = 0 := by
  rw [clrGrf_form]
  cases a.host.workAdc <;> exact ⟨rfl, rfl, rfl, rfl⟩

theorem chan_setParStart (s : Form) (workAdc : Bool) (c : Chan) :
    ((s.setParStart screen workAdc).chan c).triggerEnable = screen.triggerRise c ∧
      ((s.setParStart screen workAdc).chan c).triggerLow = false ∧
      ((s.setParStart screen workAdc).chan c).trigger = screen.trigger c := by
  cases workAdc <;> exact ⟨rfl, rfl, rfl⟩

theorem waiting_clrGrf : Form.Waiting (a.clrGrf screen).form [] (a.clrGrf screen).form := by
  refine ⟨.refl _, (clrGrf_fields a screen).2.2.2, fun c _ => ?_, fun _ _ g hg => ?_⟩
  · rw [clrGrf_form, (chan_setParStart screen _ _ c).2.1]
    simp
  · cases hg

theorem idle_clrGrf {a : App} {screen : Screen} (hoff : a.form.chartEnables ≠ .off)
    (hsmps : a.form.adcSmps ≠ 0) (hmax : 0 < screen.maxSamples) : Idle (a.clrGrf screen) := by
  obtain ⟨hmode, hadc, hlim, hcount⟩ := clrGrf_fields a screen
  have hpos : 0 < (a.clrGrf screen).form.maxSamples := by rw [hlim]; exact hmax
  have hroom : ¬ (a.clrGrf screen).form.Full := Form.not_full_of_count hpos hcount
  refine ⟨rfl, ⟨hpos, fun hfull => absurd hfull hroom⟩, ?_, ?_, fun _ => ⟨rfl, Nat.succ_pos _⟩⟩
  · rw [hmode]
    exact hoff
  · rw [hadc]
    exact hsmps

/-- Over every sequence of samples with a trigger on a charted channel, however it is spread
over calls: every call returns, nothing is counted before the triggers rise, the series then
hold the samples from the one before the rise up to the limit, and the form is that of any
other spread. -/
theorem trigger_batches (stop : StopAnswer) (batches batches' : List (Batch a.form.chartEnables))
    (hsmps : a.form.adcSmps ≠ 0) (hmax : 0 < screen.maxSamples)
    (htrig : ∃ c, a.form.chartEnables.charts c = true ∧ screen.triggerRise c = true)
    (hsame : batches'.flatMap Subtype.val = batches.flatMap Subtype.val) :
    (captures stop batches (a.clrGrf screen)).call = none ∧
      ((∀ k, ¬ (a.clrGrf screen).form.RisesAt (batches.flatMap Subtype.val) k) →
        (captures stop batches (a.clrGrf screen)).form.samplesCount = 0) ∧
      (∀ k, (a.clrGrf screen).form.RisesAt (batches.flatMap Subtype.val) k →
        (∀ j < k, ¬ (a.clrGrf screen).form.RisesAt (batches.flatMap Subtype.val) j) →
        (a.clrGrf screen).form.ShownFrom (batches.flatMap Subtype.val) k
          (captures stop batches (a.clrGrf screen)).form) ∧
      (captures stop batches' (a.clrGrf screen)).form =
        (captures stop batches (a.clrGrf screen)).form := by
  obtain ⟨c₀, hc₀, hrise₀⟩ := htrig
  have hoff : a.form.chartEnables ≠ .off := by
    intro hoff
    rw [hoff] at hc₀
    cases c₀ <;> cases hc₀
  have hmode : (a.clrGrf screen).form.chartEnables = a.form.chartEnables :=
    (clrGrf_fields a screen).1
  have hstart := idle_clrGrf hoff hsmps hmax
  have hwait := waiting_clrGrf a screen
  have htrig : ∃ c, (a.clrGrf screen).form.Triggered c :=
    ⟨c₀, by rw [hmode]; exact hc₀, (chan_setParStart screen _ _ c₀).1.trans hrise₀⟩
  obtain ⟨hidle, hform⟩ := idle_captures hstart hmode stop batches
  obtain ⟨-, hform'⟩ := idle_captures hstart hmode stop batches'
  refine ⟨hidle.call, fun hnone => ?_, fun k hrise hfirst => ?_, ?_⟩
  · rw [hform]
    exact (Form.waiting_foldl hwait hstart.settled.maxSamples_pos _ fun k _ => hnone k).count
  · rw [hform]
    exact Form.shownFrom_foldl hwait hstart.settled.maxSamples_pos htrig hrise hfirst
  · rw [hform', hsame, hform]

/-- A threshold of 1 on U. -/
def riseU : Screen where
  maxSamples := 1000
  trigger := fun _ => 1
  triggerRise := fun c => c = .u

/-- A sample below the threshold and one above it, in two calls and in one. -/
def twoCalls : List (Batch .u) :=
  [⟨[fun _ => 0], by decide⟩, ⟨[fun _ => 2], by decide⟩]

def oneCall : List (Batch .u) := [⟨[fun _ => 0, fun _ => 2], by decide⟩]

theorem trigger_batches_riseU :
    (captures .stopped oneCall ((plain .u).clrGrf riseU)).form =
      (captures .stopped twoCalls ((plain .u).clrGrf riseU)).form ∧
    ((plain .u).clrGrf riseU).form.ShownFrom [fun _ => 0, fun _ => 2] 1
      (captures .stopped twoCalls ((plain .u).clrGrf riseU)).form := by
  obtain ⟨-, -, hshown, hsame⟩ := trigger_batches (plain .u) riseU .stopped twoCalls oneCall
    (by decide) (by decide) ⟨.u, by decide⟩ rfl
  refine ⟨hsame, hshown 1 ⟨fun _ => 2, rfl, ?_⟩ ?_⟩
  · rintro (_ | _) hc
    · exact absurd hc.1 (by decide)
    · exact ⟨by decide +kernel, fun _ => 0, List.mem_cons_self, by decide +kernel⟩
  · rintro j hj ⟨g, -, hall⟩
    obtain rfl : j = 0 := by omega
    obtain ⟨-, g', hg', -⟩ := hall .u ⟨rfl, rfl⟩
    cases hg'

end App
