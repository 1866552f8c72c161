-- SUMMARY: Saving undoes the calibration: when the bytes of a WAV file are those that arrived for the points of the chart.
import PowerProfiler.Host.WavFile
import PowerProfiler.Host.Trigger

/-!
# From the wire to the file

A sample of 24 bits is calibrated when it is plotted, and the calibration is undone when the
chart is saved. The points are the last groups that the calls took, except that a trigger
of a channel that is not charted puts a value from before the capture in front of them.
-/

open Bytes Runs

/-! ## One sample -/

/-- The number that three bytes stand for. -/
theorem smpValue_eq {w : UInt32} (h : w.toNat < 2 ^ 24) :
    smpValue w = if w.toNat < 2 ^ 23 then (w.toNat : Int) else w.toNat - 2 ^ 24 := by
  unfold smpValue
  by_cases hlt : w.toNat < 2 ^ 23
  · have hnot : ¬ (0x800000 : UInt32) ≤ w := by
      rw [UInt32.le_iff_toNat_le]
      simpa using hlt
    rw [if_neg hnot, if_pos hlt]
  · have hle : (0x800000 : UInt32) ≤ w := by
      rw [UInt32.le_iff_toNat_le]
      simpa using hlt
    have hsub : (w - 0x1000000).toNat = 2 ^ 32 - 2 ^ 24 + w.toNat := by
      rw [UInt32.toNat_sub]
      simp
      omega
    have hint : ∀ x : UInt32, x.toInt32.toInt =
        if 2 * x.toNat < 2 ^ 32 then (x.toNat : Int) else x.toNat - (2 ^ 32 : Nat) :=
      fun x => BitVec.toInt_eq_toNat_cond x.toBitVec
    rw [if_pos hle, if_neg hlt, hint, hsub, if_neg (by omega)]
    omega

theorem smpValue_range {w : UInt32} (h : w.toNat < 2 ^ 24) :
    -8388608 ≤ smpValue w ∧ smpValue w ≤ 8388607 := by
  rw [smpValue_eq h]
  split <;> omega

theorem clamp24_of_range {n : Int} (h : -8388608 ≤ n ∧ n ≤ 8388607) : clamp24 n = n := by
  have hle : ¬ (8388607 : ℚ) < n := by exact_mod_cast not_lt.mpr h.2
  have hge : ¬ (n : ℚ) < -8388608 := by exact_mod_cast not_lt.mpr h.1
  rw [clamp24, if_neg hle, if_neg hge]

/-- The value of a sample has the bytes of the sample. -/
theorem le3_smpValue {w : UInt32} (h : w.toNat < 2 ^ 24) :
    le 3 (UInt32.ofInt (smpValue w)) = le 3 w := by
  apply le3_congr
  have hnat : (UInt32.ofInt (smpValue w)).toNat = (smpValue w % 2 ^ 32).toNat := by
    rw [UInt32.ofInt, UInt32.toNat_ofNat']
    omega
  rw [hnat, smpValue_eq h]
  split <;> omega

theorem uncalibrate_calibrate {c : Channel} (hk : c.k ≠ 0) (w : UInt32) :
    (c.calibrate w - c.zero) / c.k = smpValue w := by
  rw [Channel.calibrate, add_sub_cancel_right, mul_div_cancel_right₀ _ hk]

/-- A captured value is written as the bytes of its sample. -/
theorem le3_wavSample {c : Channel} {i : Nat} {w : UInt32} (hk : c.k ≠ 0) (h : w.toNat < 2 ^ 24)
    (hi : c.values[i]? = some (c.calibrate w)) : le 3 (c.wavSample i) = le 3 w := by
  rw [Channel.wavSample, Channel.uncalibrate, hi]
  simp only [if_neg hk]
  rw [uncalibrate_calibrate hk, clamp24_of_range (smpValue_range h), Form.roundEven_intCast,
    le3_smpValue h]

/-- The words that a block leaves in `bufsmp` have its bytes. -/
theorem flatMap_le3_samplesOf {bs : List UInt8} (h : 3 ∣ bs.length) :
    (Host.samplesOf bs).flatMap (le 3) = bs := by
  induction bs using Host.samplesOf.induct with
  | case1 b0 b1 b2 rest ih =>
      have hrest : 3 ∣ rest.length := by
        simp only [List.length_cons] at h
        omega
      rw [Host.samplesOf, List.flatMap_cons, le3_or3, ih hrest]
      rfl
  | case2 bs hbs =>
      have hshort := Host.length_lt_three hbs
      obtain rfl : bs = [] := List.eq_nil_of_length_eq_zero (by omega)
      rfl

/-- They are samples of 24 bits. -/
theorem samplesOf_lt (bs : List UInt8) : ∀ w ∈ Host.samplesOf bs, w.toNat < 2 ^ 24 := by
  induction bs using Host.samplesOf.induct with
  | case1 b0 b1 b2 rest ih =>
      intro w hw
      rw [Host.samplesOf] at hw
      rcases List.mem_cons.mp hw with rfl | hw
      · have h0 := b0.toNat_lt
        have h1 := b1.toNat_lt
        have h2 := b2.toNat_lt
        rw [toNat_or3]
        omega
      · exact ih w hw
  | case2 bs hbs =>
      intro w hw
      rw [Host.samplesOf] at hw
      · cases hw
      · exact hbs

/-! ## The points and the groups behind them -/

/-- The bytes of a group in the order of the file. -/
def ChartEnables.wireBytes (m : ChartEnables) (g : SampleGroup) : List UInt8 :=
  (if m.charts .u then le 3 (g .u) else []) ++ (if m.charts .i then le 3 (g .i) else [])

namespace Form

/-- The groups that are taken, up to the limit. -/
def taken : Form → List SampleGroup → List SampleGroup
  | _, [] => []
  | s, g :: gs => if s.Full then [] else g :: taken (s.feed g) gs

/-- What each group that is taken preserves holds behind a sequence of groups. -/
theorem foldl_taken {R : List SampleGroup → Form → Prop}
    (hstep : ∀ ts s g, R ts s → ¬ s.Full → R (ts ++ [g]) (s.feed g)) {ts : List SampleGroup}
    {s : Form} (h : R ts s) (gs : List SampleGroup) :
    R (ts ++ s.taken gs) (gs.foldl Form.feed s) := by
  induction gs generalizing s ts with
  | nil => simpa [taken] using h
  | cons g gs ih =>
      by_cases hfull : s.Full
      · rw [feed_of_full hfull, taken, if_pos hfull, List.append_nil]
        exact h
      · have hnext := ih (hstep ts s g h hfull)
        rw [taken, if_neg hfull, List.foldl_cons]
        simpa using hnext

/-- The points are the last of the groups `ts` taken so far. -/
structure Captured (s₀ : Form) (ts : List SampleGroup) (s : Form) : Prop where
  setup : SameSetup s₀ s
  values : ∃ pts, pts <:+ ts ∧ ∀ c, s₀.chartEnables.charts c = true →
    (s.chan c).values = pts.map (s₀.value c)
  cur : ∀ c, s₀.chartEnables.charts c = true → ∀ g ∈ ts.getLast?, (s.chan c).cur = s₀.value c g
  low : ∀ c, s₀.Triggered c → s.samplesCount = 0 → (s.chan c).triggerLow = true → ts ≠ []

/-- A trigger that is waited for belongs to a charted channel. -/
def TriggerCharted (s : Form) : Prop := s.anyTrigger = true → ∃ c, s.Triggered c

/-- Up to the labels the limit changes nothing in a channel. -/
theorem chan_feed {s : Form} (hroom : ¬ s.Full) (g : SampleGroup) (c : Chan) :
    ∃ olds caption, (s.feed g).chan c =
      { (s.absorb g).chan c with olds := olds, caption := caption } := by
  unfold feed
  rw [if_neg hroom]
  split
  · exact chan_autoStop _ c
  · exact ⟨_, _, rfl⟩

variable {s₀ s : Form} {ts : List SampleGroup} {g : SampleGroup}

theorem count_feed (hroom : ¬ s.Full) : (s.feed g).samplesCount = (s.absorb g).samplesCount :=
  (series_feed_of_not_full g hroom .i).1

/-- A channel that lets a group through has seen one before, when its trigger is waited for. -/
theorem Captured.nonempty (h : Captured s₀ ts s) (hcount : s.samplesCount = 0)
    (hflg : (s.take g).flg = true) {c : Chan} (hc : s₀.Triggered c) : ts ≠ [] := by
  have hc' : s.chartEnables.charts c = true := by rw [h.setup.chartEnables]; exact hc.1
  have hrisen := ((flg_iff s g).mp hflg).resolve_left (fun hne => hne hcount) c hc'
  rw [risen_iff] at hrisen
  exact h.low c hc hcount (hrisen ((h.setup.triggerEnable c).trans hc.2)).2

theorem Captured.feed (h : Captured s₀ ts s) (hgood : s₀.TriggerCharted) (hroom : ¬ s.Full) :
    Captured s₀ (ts ++ [g]) (s.feed g) := by
  have hmode : ∀ {c}, s₀.chartEnables.charts c = true → s.chartEnables.charts c = true := by
    intro c hc
    rw [h.setup.chartEnables]
    exact hc
  have hval : ∀ c, (s.chan c).calibrate (g c) = s₀.value c g := fun c => h.setup.calibrate c (g c)
  have hvalues : ∀ c, ((s.feed g).chan c).values = ((s.absorb g).chan c).values := by
    intro c
    obtain ⟨_, _, heq⟩ := chan_feed hroom g c
    rw [heq]
    rfl
  obtain ⟨pts, hpts, hseries⟩ := h.values
  have hnext : (pts ++ [g]) <:+ (ts ++ [g]) := by
    obtain ⟨rest, rfl⟩ := hpts
    exact ⟨rest, by simp⟩
  refine ⟨h.setup.trans (s.sameSetup_feed g), ?_, fun c hc g' hg' => ?_, fun _ _ _ _ => by simp⟩
  · rcases absorb_kinds g s with hflg | ⟨hcount, hflg, htrig⟩ | ⟨hflg, hor⟩
    · refine ⟨pts ++ [g], hnext, fun c hc => ?_⟩
      rw [hvalues, chan_absorb_of_wait hflg (hmode hc)]
      simpa [Channel.values, hval] using hseries c hc
    · obtain ⟨c₀, hc₀⟩ := hgood (h.setup.anyTrigger.symm.trans htrig)
      rcases List.eq_nil_or_concat ts with hnil | ⟨init, g₀, hts⟩
      · exact absurd hnil (h.nonempty hcount hflg hc₀)
      · rw [List.concat_eq_append] at hts
        refine ⟨[g₀, g], ⟨init, by simp [hts]⟩, fun c hc => ?_⟩
        have hcur := h.cur c hc g₀ (by simp [hts])
        rw [hvalues, chan_absorb_of_start hcount hflg htrig (hmode hc)]
        simp [Channel.values, hcur, hval]
    · refine ⟨pts ++ [g], hnext, fun c hc => ?_⟩
      rw [hvalues, chan_absorb_of_plot hflg hor (hmode hc)]
      simpa [Channel.values, hval] using hseries c hc
  · obtain rfl : g = g' := by simpa using hg'
    obtain ⟨_, _, heq⟩ := chan_feed hroom g c
    rw [heq]
    exact (cur_absorb g (hmode hc)).trans (hval c)

/-! ## A trigger that nothing waits for -/

/-- One point more than groups were taken: the first is a value from before the capture. -/
structure Stale (s₀ : Form) (ts : List SampleGroup) (s : Form) : Prop where
  setup : SameSetup s₀ s
  count : 0 < s.samplesCount
  length : ∀ c, s₀.chartEnables.charts c = true → (s.chan c).series.length = ts.length + 1

theorem Stale.feed (h : Stale s₀ ts s) (hroom : ¬ s.Full) : Stale s₀ (ts ++ [g]) (s.feed g) := by
  have hor : s.samplesCount ≠ 0 ∨ s.anyTrigger = false := .inl h.count.ne'
  have hflg := flg_of_counting hor g
  refine ⟨h.setup.trans (s.sameSetup_feed g), ?_, fun c hc => ?_⟩
  · rw [count_feed hroom, count_absorb_of_plot hflg hor]
    exact Nat.succ_pos _
  · have hc' : s.chartEnables.charts c = true := by rw [h.setup.chartEnables]; exact hc
    rw [(series_feed_of_not_full g hroom c).2, chan_absorb_of_plot hflg hor hc']
    simp [h.length c hc]

/-- A sample arrives for a chart in which only triggers of channels that are not charted are
enabled. -/
def StaleStart (s : Form) (gs : List SampleGroup) : Prop :=
  s.chartEnables ≠ .off ∧ s.adcSmps ≠ 0 ∧ 0 < s.maxSamples ∧ gs ≠ [] ∧
    s.anyTrigger = true ∧ ∀ c, ¬ s.Triggered c

/-- The first group starts the count with what the channels showed before. -/
theorem stale_feed (hcount : s.samplesCount = 0) (hroom : ¬ s.Full) (htrig : s.anyTrigger = true)
    (hnone : ∀ c, ¬ s.Triggered c) : Stale s [g] (s.feed g) := by
  have hflg : (s.take g).flg = true := by
    rw [flg_iff]
    refine .inr fun c hc => ?_
    rw [risen_iff]
    exact fun henable => absurd ⟨hc, henable⟩ (hnone c)
  refine ⟨s.sameSetup_feed g, ?_, fun c hc => ?_⟩
  · rw [count_feed hroom, count_absorb_of_start hcount hflg htrig]
    exact Nat.succ_pos _
  · rw [(series_feed_of_not_full g hroom c).2, chan_absorb_of_start hcount hflg htrig hc]
    rfl

/-! ## The bytes of the file -/

theorem flatMap_range {α β : Type} {xs : List α} {f : Nat → List β} {h : α → List β}
    (hf : ∀ i (hi : i < xs.length), f i = h xs[i]) :
    (List.range xs.length).flatMap f = xs.flatMap h := by
  rw [List.flatMap_def, List.flatMap_def]
  refine congrArg List.flatten (List.ext_getElem (by simp) fun i hi _ => ?_)
  simpa using hf i (by simpa using hi)

/-- When the values are those of some groups, the bytes are those of the groups. -/
theorem wavData_eq {s₀ s : Form} (hset : SameSetup s₀ s) {pts : List SampleGroup}
    (hk : ∀ c, s₀.chartEnables.charts c = true → (s₀.chan c).k ≠ 0)
    (h24 : ∀ g ∈ pts, ∀ c, (g c).toNat < 2 ^ 24)
    (hvalues : ∀ c, s₀.chartEnables.charts c = true → (s.chan c).values = pts.map (s₀.value c)) :
    s.wavData = pts.flatMap s₀.chartEnables.wireBytes := by
  have hsetc : ∀ c, s₀.chartEnables.charts c = true →
      ∀ i (hi : i < pts.length), le 3 ((s.chan c).wavSample i) = le 3 (pts[i] c) := by
    intro c hc i hi
    have hk' : (s.chan c).k ≠ 0 := by rw [hset.k]; exact hk c hc
    refine le3_wavSample hk' (h24 _ (List.getElem_mem hi) c) ?_
    rw [hvalues c hc, List.getElem?_map, List.getElem?_eq_getElem hi, Option.map_some,
      hset.calibrate]
    rfl
  have hlen : ∀ c, s₀.chartEnables.charts c = true → (s.chan c).series.length = pts.length := by
    intro c hc
    have := congrArg List.length (hvalues c hc)
    simpa [Channel.values] using this
  have hframe : ∀ i (hi : i < pts.length), s.wavFrame i = s₀.chartEnables.wireBytes pts[i] := by
    intro i hi
    rw [wavFrame, hset.chartEnables]
    cases hm : s₀.chartEnables <;> rw [hm] at hsetc
    · rfl
    · rw [hsetc .u rfl i hi]
      simp [ChartEnables.wireBytes, ChartEnables.charts, ChartEnables.code, Chan.mask]
    · rw [hsetc .i rfl i hi]
      simp [ChartEnables.wireBytes, ChartEnables.charts, ChartEnables.code, Chan.mask]
    · rw [hsetc .u rfl i hi, hsetc .i rfl i hi]
      simp [ChartEnables.wireBytes, ChartEnables.charts, ChartEnables.code, Chan.mask]
  by_cases hoff : s₀.chartEnables = .off
  · have hnil : ∀ g, s₀.chartEnables.wireBytes g = [] := by
      intro g
      rw [hoff]
      rfl
    have hcont : s.dataCont = 0 := by rw [dataCont, hset.chartEnables, hoff]
    simp [wavData, hcont, hnil]
  · have hcont : s.dataCont = pts.length := by
      rw [dataCont, hset.chartEnables]
      cases hm : s₀.chartEnables <;> rw [hm] at hlen
      · exact absurd hm hoff
      · exact hlen .u rfl
      · exact hlen .i rfl
      · exact hlen .u rfl
    rw [wavData, hcont, flatMap_range hframe]

theorem wavData_of_empty (h : ∀ c, (s.chan c).series = []) : s.wavData = [] := by
  have hcont : s.dataCont = 0 := by
    rw [dataCont]
    cases s.chartEnables <;> simp [h]
  simp [wavData, hcont]

theorem wavData_off (h : s.chartEnables = .off) : s.wavData = [] := by
  have hcont : s.dataCont = 0 := by rw [dataCont, h]
  simp [wavData, hcont]

theorem length_wireBytes (m : ChartEnables) (pts : List SampleGroup) :
    (pts.flatMap m.wireBytes).length = pts.length * (3 * m.width) := by
  rw [List.length_flatMap]
  cases m <;>
    simp [ChartEnables.wireBytes, ChartEnables.charts, ChartEnables.code, Chan.mask,
      ChartEnables.width]

theorem taken_isPrefix (s : Form) (gs : List SampleGroup) : s.taken gs <+: gs := by
  induction gs generalizing s with
  | nil => exact List.prefix_refl _
  | cons g gs ih =>
      rw [taken]
      split
      · exact List.nil_prefix
      · exact List.prefix_cons_inj g |>.mpr (ih _)

/-- One point too many cannot be the bytes of groups that were taken. -/
theorem Stale.not_wireBytes (h : Stale s₀ ts s) (hoff : s₀.chartEnables ≠ .off) :
    ¬ ∃ pts, pts <:+ ts ∧ s.wavData = pts.flatMap s₀.chartEnables.wireBytes := by
  rintro ⟨pts, hpts, heq⟩
  have hwidth : 0 < s₀.chartEnables.width := ChartEnables.width_pos hoff
  have hcont : s.dataCont = ts.length + 1 := by
    have hlen := h.length
    rw [dataCont, h.setup.chartEnables]
    cases hm : s₀.chartEnables <;> rw [hm] at hlen
    · exact absurd hm hoff
    · exact hlen .u rfl
    · exact hlen .i rfl
    · exact hlen .u rfl
  have hbytes := congrArg List.length heq
  rw [length_wavData, length_wireBytes, hcont, h.setup.chartEnables,
    Nat.mul_left_inj (by omega)] at hbytes
  have := hpts.length_le
  omega

end Form

namespace App

/-! ## Runs -/

/-- Calls that never get to their loop. -/
structure Blocked (a : App) : Prop where
  call : a.call = none
  shut : a.form.adcSmps = 0 ∨ a.form.Full
  empty : ∀ c, (a.form.chan c).series = []

theorem Blocked.capture {a : App} (h : Blocked a) (stop : StopAnswer) (gs : List SampleGroup) :
    Blocked (a.capture stop gs) := by
  have henter : (a.deliver gs).addCrfSamples = a.deliver gs ∨
      (a.deliver gs).addCrfSamples = { a.deliver gs with form := a.form.autoStop } := by
    rw [addCrfSamples]
    by_cases hsmps : a.form.adcSmps = 0
    · exact .inl (if_neg fun hand => hand.2 hsmps)
    · have hfull : (a.deliver gs).form.Full := h.shut.resolve_left hsmps
      rw [if_pos ⟨h.call, hsmps⟩, if_pos hfull]
      exact .inr rfl
  have hcall : (a.deliver gs).addCrfSamples.call = none := by
    rcases henter with heq | heq
    · rw [heq]
      exact h.call
    · rw [heq]
      exact h.call
  rw [App.capture, iterate_pass_idle hcall]
  rcases henter with heq | heq
  · rw [heq]
    exact ⟨h.call, h.shut, h.empty⟩
  · rw [heq]
    exact ⟨h.call, h.shut, fun c => (Form.series_autoStop _ c).trans (h.empty c)⟩

theorem blocked_captures {a : App} (h : Blocked a) (stop : StopAnswer) {m : ChartEnables}
    (batches : List (Batch m)) : Blocked (captures stop batches a) := by
  induction batches generalizing a with
  | nil => exact h
  | cons b batches ih => exact ih (h.capture stop b.1)

theorem sameSetup_captures (stop : StopAnswer) {m : ChartEnables} (batches : List (Batch m))
    (a : App) : SameSetup a.form (captures stop batches a).form := by
  induction batches generalizing a with
  | nil => exact .refl _
  | cons b batches ih =>
      have hdeliver : SameSetup a.form (a.deliver b.1).form := .refl _
      exact ((hdeliver.trans (sameSetup_addCrfSamples _)).trans
        (sameSetup_passes stop _ _)).trans (ih _)

theorem empty_clrGrf (a : App) (screen : Screen) (c : Chan) :
    ((a.clrGrf screen).form.chan c).series = [] := by
  rw [clrGrf_form]
  cases a.host.workAdc <;> rfl

theorem captured_clrGrf (a : App) (screen : Screen) :
    Form.Captured (a.clrGrf screen).form [] (a.clrGrf screen).form := by
  refine ⟨.refl _, ⟨[], List.suffix_refl _, fun c _ => ?_⟩, fun _ _ g hg => ?_, fun c _ _ hlow => ?_⟩
  · rw [Channel.values, empty_clrGrf]
    rfl
  · cases hg
  · rw [clrGrf_form, (chan_setParStart screen _ _ c).2.1] at hlow
    cases hlow

section Saved

variable {a : App} {screen : Screen} (stop : StopAnswer) (batches : List (Batch a.form.chartEnables))

/-- A limit of 0 is reached before anything is plotted. -/
theorem full_clrGrf : (a.clrGrf screen).form.Full ↔ screen.maxSamples = 0 := by
  obtain ⟨-, -, hmax, hcount⟩ := clrGrf_fields a screen
  simp [Form.Full, Form.idx, hcount, hmax]

/-- Where nothing can be captured the file has no data. -/
theorem wavData_of_shut (hshut : a.form.chartEnables = .off ∨ a.form.adcSmps = 0 ∨
      screen.maxSamples = 0 ∨ batches.flatMap Subtype.val = []) :
    (captures stop batches (a.clrGrf screen)).form.wavData = [] := by
  obtain ⟨hmode, hadc, -, -⟩ := clrGrf_fields a screen
  have hset := sameSetup_captures stop batches (a.clrGrf screen)
  by_cases hoff : a.form.chartEnables = .off
  · apply Form.wavData_off
    rw [hset.chartEnables, hmode, hoff]
  by_cases hblock : a.form.adcSmps = 0 ∨ screen.maxSamples = 0
  · have hblocked : Blocked (a.clrGrf screen) := by
      refine ⟨rfl, ?_, empty_clrGrf a screen⟩
      rwa [hadc, full_clrGrf]
    exact Form.wavData_of_empty (blocked_captures hblocked stop batches).empty
  · obtain ⟨hsmps, hpos⟩ := not_or.mp hblock
    have hgs : batches.flatMap Subtype.val = [] :=
      ((hshut.resolve_left hoff).resolve_left hsmps).resolve_left hpos
    obtain ⟨-, hform⟩ :=
      idle_captures (idle_clrGrf hoff hsmps (Nat.pos_of_ne_zero hpos)) hmode stop batches
    rw [hform, hgs]
    exact Form.wavData_of_empty (empty_clrGrf a screen)

variable (hoff : a.form.chartEnables ≠ .off) (hsmps : a.form.adcSmps ≠ 0)
  (hpos : 0 < screen.maxSamples)
include hoff hsmps hpos

/-- When a trigger that is waited for is charted, the file holds the last groups taken. -/
theorem wavData_of_charted (hgood : (a.clrGrf screen).form.TriggerCharted)
    (hk : ∀ c, a.form.chartEnables.charts c = true → ((a.clrGrf screen).form.chan c).k ≠ 0)
    (h24 : ∀ g ∈ batches.flatMap Subtype.val, ∀ c, (g c).toNat < 2 ^ 24) :
    ∃ pts, pts <:+ (a.clrGrf screen).form.taken (batches.flatMap Subtype.val) ∧
      (captures stop batches (a.clrGrf screen)).form.wavData =
        pts.flatMap a.form.chartEnables.wireBytes := by
  obtain ⟨hmode, -, -, -⟩ := clrGrf_fields a screen
  have hset := sameSetup_captures stop batches (a.clrGrf screen)
  obtain ⟨-, hform⟩ := idle_captures (idle_clrGrf hoff hsmps hpos) hmode stop batches
  have hcap := Form.foldl_taken (fun _ _ _ h hroom => h.feed hgood hroom)
    (captured_clrGrf a screen) (batches.flatMap Subtype.val)
  rw [List.nil_append, ← hform] at hcap
  obtain ⟨pts, hpts, hvalues⟩ := hcap.values
  have hbytes := Form.wavData_eq hset (by rwa [hmode])
    (fun g hg => h24 g ((Form.taken_isPrefix _ _).subset (hpts.subset hg))) hvalues
  rw [hmode] at hbytes
  exact ⟨pts, hpts, hbytes⟩

/-- Otherwise it holds a value from before the capture. -/
theorem wavData_of_stale (hstale : (a.clrGrf screen).form.StaleStart (batches.flatMap Subtype.val)) :
    ¬ ∃ pts, pts <:+ (a.clrGrf screen).form.taken (batches.flatMap Subtype.val) ∧
      (captures stop batches (a.clrGrf screen)).form.wavData =
        pts.flatMap a.form.chartEnables.wireBytes := by
  obtain ⟨hmode, -, -, hcount⟩ := clrGrf_fields a screen
  obtain ⟨-, -, hlimit, hne, htrig, hnone⟩ := hstale
  have hroom : ¬ (a.clrGrf screen).form.Full := Form.not_full_of_count hlimit hcount
  obtain ⟨-, hform⟩ := idle_captures (idle_clrGrf hoff hsmps hpos) hmode stop batches
  obtain ⟨g, gs, hgs⟩ := List.exists_cons_of_ne_nil hne
  have hheld := Form.foldl_taken (fun _ _ _ h hroom => h.feed hroom)
    (Form.stale_feed (g := g) hcount hroom htrig hnone) gs
  have htaken : (a.clrGrf screen).form.taken (g :: gs) =
      [g] ++ ((a.clrGrf screen).form.feed g).taken gs := by
    rw [Form.taken, if_neg hroom]
    rfl
  rw [← htaken, ← List.foldl_cons, ← hgs, ← hform] at hheld
  have hnot := hheld.not_wireBytes (by rw [hmode]; exact hoff)
  rw [hmode] at hnot
  exact hnot

end Saved

section Fresh

variable {a : App} {screen : Screen} (stop : StopAnswer) (batches : List (Batch a.form.chartEnables))

/-- A stale start in terms of the settings before the chart was cleared. -/
theorem staleStart_iff {gs : List SampleGroup} :
    (a.clrGrf screen).form.StaleStart gs ↔
      a.form.chartEnables ≠ .off ∧ a.form.adcSmps ≠ 0 ∧ 0 < screen.maxSamples ∧ gs ≠ [] ∧
        ¬ (a.clrGrf screen).form.TriggerCharted := by
  obtain ⟨hmode, hadc, hmax, -⟩ := clrGrf_fields a screen
  rw [Form.StaleStart, hmode, hadc, hmax, Form.TriggerCharted, Classical.not_imp, not_exists]

/-- Unless the start was stale the file holds the last groups taken. -/
theorem wavData_of_fresh
    (hk : ∀ c, a.form.chartEnables.charts c = true → ((a.clrGrf screen).form.chan c).k ≠ 0)
    (h24 : ∀ g ∈ batches.flatMap Subtype.val, ∀ c, (g c).toNat < 2 ^ 24)
    (hfresh : ¬ (a.clrGrf screen).form.StaleStart (batches.flatMap Subtype.val)) :
    ∃ pts, pts <:+ (a.clrGrf screen).form.taken (batches.flatMap Subtype.val) ∧
      (captures stop batches (a.clrGrf screen)).form.wavData =
        pts.flatMap a.form.chartEnables.wireBytes := by
  by_cases hshut : a.form.chartEnables = .off ∨ a.form.adcSmps = 0 ∨
      screen.maxSamples = 0 ∨ batches.flatMap Subtype.val = []
  · exact ⟨[], List.nil_suffix, wavData_of_shut stop batches hshut⟩
  · simp only [not_or] at hshut
    obtain ⟨hoff, hsmps, hmax0, hne⟩ := hshut
    have hpos : 0 < screen.maxSamples := Nat.pos_of_ne_zero hmax0
    have hgood : (a.clrGrf screen).form.TriggerCharted := by
      by_contra hbad
      exact hfresh (staleStart_iff.mpr ⟨hoff, hsmps, hpos, hne, hbad⟩)
    exact wavData_of_charted stop batches hoff hsmps hpos hgood hk h24

/-- With one channel charted, the data of the file are the last bytes of the payloads up to
where the capture ended. -/
theorem wavData_of_payload (hmono : a.form.chartEnables = .u ∨ a.form.chartEnables = .i)
    {payload : List UInt8} (hthree : 3 ∣ payload.length)
    (hgroups : batches.flatMap Subtype.val = (Host.samplesOf payload).map fun w _ => w)
    (hk : ∀ c, a.form.chartEnables.charts c = true → ((a.clrGrf screen).form.chan c).k ≠ 0)
    (hfresh : ¬ (a.clrGrf screen).form.StaleStart (batches.flatMap Subtype.val)) :
    (captures stop batches (a.clrGrf screen)).form.wavData <:+ payload.take
      (3 * ((a.clrGrf screen).form.taken (batches.flatMap Subtype.val)).length) := by
  have h24 : ∀ g ∈ batches.flatMap Subtype.val, ∀ c, (g c).toNat < 2 ^ 24 := by
    rw [hgroups]
    intro g hg c
    obtain ⟨w, hw, rfl⟩ := List.mem_map.mp hg
    exact samplesOf_lt payload w hw
  have hbytes : (batches.flatMap Subtype.val).flatMap a.form.chartEnables.wireBytes = payload := by
    have hwire : ∀ w : UInt32, a.form.chartEnables.wireBytes (fun _ => w) = le 3 w := by
      intro w
      rcases hmono with hmode | hmode <;> rw [hmode] <;> rfl
    rw [hgroups, List.flatMap_map]
    simp only [hwire]
    exact flatMap_le3_samplesOf hthree
  have hlen : ∀ gs : List SampleGroup,
      (gs.flatMap a.form.chartEnables.wireBytes).length = 3 * gs.length := by
    intro gs
    rw [Form.length_wireBytes]
    rcases hmono with hmode | hmode <;> rw [hmode, Nat.mul_comm] <;> rfl
  obtain ⟨pts, hpts, hdata⟩ := wavData_of_fresh stop batches hk h24 hfresh
  have htaken := (Form.taken_isPrefix (a.clrGrf screen).form
    (batches.flatMap Subtype.val)).flatMap a.form.chartEnables.wireBytes
  rw [hbytes, List.prefix_iff_eq_take, hlen] at htaken
  rw [hdata, ← htaken]
  exact hpts.flatMap _

end Fresh

/-- Over every run of calls on samples of 24 bits: the file holds the bytes of the last groups
that were taken, unless the capture started on a trigger of a channel that is not charted; and
the calibration is undone exactly, within the limits of a sample. -/
theorem wavData_iff (a : App) (screen : Screen) (stop : StopAnswer)
    (batches : List (Batch a.form.chartEnables))
    (hk : ∀ c, a.form.chartEnables.charts c = true → ((a.clrGrf screen).form.chan c).k ≠ 0)
    (h24 : ∀ g ∈ batches.flatMap Subtype.val, ∀ c, (g c).toNat < 2 ^ 24) :
    ((∃ pts, pts <:+ (a.clrGrf screen).form.taken (batches.flatMap Subtype.val) ∧
        (captures stop batches (a.clrGrf screen)).form.wavData =
          pts.flatMap a.form.chartEnables.wireBytes) ↔
      ¬ (a.clrGrf screen).form.StaleStart (batches.flatMap Subtype.val)) ∧
    ∀ c, a.form.chartEnables.charts c = true → ∀ w : UInt32, w.toNat < 2 ^ 24 →
      ((a.clrGrf screen).form.chan c).calibrate w - ((a.clrGrf screen).form.chan c).zero =
          smpValue w * ((a.clrGrf screen).form.chan c).k ∧
        clamp24 ((((a.clrGrf screen).form.chan c).calibrate w -
          ((a.clrGrf screen).form.chan c).zero) / ((a.clrGrf screen).form.chan c).k) =
            smpValue w := by
  refine ⟨⟨fun hsaved hstale => ?_, wavData_of_fresh stop batches hk h24⟩,
    fun c hc w hw => ⟨add_sub_cancel_right _ _, ?_⟩⟩
  · obtain ⟨hoff, hsmps, hpos, -, -⟩ := staleStart_iff.mp hstale
    exact wavData_of_stale stop batches hoff hsmps hpos hstale hsaved
  · rw [uncalibrate_calibrate (hk c hc)]
    exact clamp24_of_range (smpValue_range hw)

/-- No trigger. -/
def noTrigger : Screen := ⟨1000, fun _ => 0, fun _ => false⟩

/-- A group of the two samples. -/
def pair (i u : UInt32) : SampleGroup := fun c => if c = .i then i else u

/-- The smallest and the greatest sample, and negative ones, in two calls. -/
def twoBatches : List (Batch .ui) :=
  [⟨[pair 0x800000 0x7FFFFF, pair 0xFFFFFE 5], by decide⟩, ⟨[pair 0 0xFFFFFF], by decide⟩]

theorem twoBatches_lt : ∀ g ∈ twoBatches.flatMap Subtype.val, ∀ c, (g c).toNat < 2 ^ 24 := by
  have hboth : ∀ g ∈ twoBatches.flatMap Subtype.val,
      (g .i).toNat < 2 ^ 24 ∧ (g .u).toNat < 2 ^ 24 := by decide
  intro g hg c
  cases c with
  | i => exact (hboth g hg).1
  | u => exact (hboth g hg).2

/-- Both channels are charted, each with a calibration of its own. -/
def calibrated : App :=
  { plain .ui with
    host := { workAdc := true }
    form := { (plain .ui).form with adc := fun c => if c = .i then ⟨-1/4, 7⟩ else ⟨3/2, 1/5⟩ } }

theorem wavData_iff_twoBatches :
    (∃ pts, pts <:+ (calibrated.clrGrf noTrigger).form.taken (twoBatches.flatMap Subtype.val) ∧
      (captures .stopped twoBatches (calibrated.clrGrf noTrigger)).form.wavData =
        pts.flatMap ChartEnables.ui.wireBytes) ∧
      (captures .stopped twoBatches (calibrated.clrGrf noTrigger)).form.wavData =
        [0xFF, 0xFF, 0x7F, 0, 0, 0x80, 5, 0, 0, 0xFE, 0xFF, 0xFF, 0xFF, 0xFF, 0xFF, 0, 0, 0] := by
  obtain ⟨hiff, -⟩ := wavData_iff calibrated noTrigger .stopped twoBatches
    (fun c _ => by cases c <;> decide +kernel) twoBatches_lt
  exact ⟨hiff.mpr fun hstale => absurd hstale.2.2.2.2.1 (by decide), by decide +kernel⟩

/-- A trigger on I. -/
def riseI : Screen := ⟨1000, fun _ => 0, fun c => c = .i⟩

/-- One sample. -/
def oneSample : List (Batch .u) := [⟨[fun _ => 5], by decide⟩]

theorem oneSample_lt : ∀ g ∈ oneSample.flatMap Subtype.val, ∀ c, (g c).toNat < 2 ^ 24 := by
  intro g hg c
  obtain rfl : g = fun _ => 5 := List.mem_singleton.mp hg
  show (5 : UInt32).toNat < 2 ^ 24
  decide

/-- With U charted and the trigger of I enabled, the first frame of the file never arrived. -/
theorem stale_frame_saved :
    ¬ ∀ (a : App) (screen : Screen) (stop : StopAnswer) (batches : List (Batch a.form.chartEnables)),
      (∀ c, a.form.chartEnables.charts c = true → ((a.clrGrf screen).form.chan c).k ≠ 0) →
      (∀ g ∈ batches.flatMap Subtype.val, ∀ c, (g c).toNat < 2 ^ 24) →
      ∃ pts, pts <:+ (a.clrGrf screen).form.taken (batches.flatMap Subtype.val) ∧
        (captures stop batches (a.clrGrf screen)).form.wavData =
          pts.flatMap a.form.chartEnables.wireBytes := by
  intro hall
  obtain ⟨pts, hpts, heq⟩ := hall (plain .u) riseI .stopped oneSample
    (fun c _ => by cases c <;> decide) oneSample_lt
  have hdata : (captures .stopped oneSample ((plain .u).clrGrf riseI)).form.wavData =
      [0, 0, 0, 5, 0, 0] := by decide +kernel
  have hlen := congrArg List.length (hdata.symm.trans heq)
  have hle : pts.length ≤ 1 := hpts.length_le.trans (Form.taken_isPrefix _ _).length_le
  rw [Form.length_wireBytes] at hlen
  have hlen' : 6 = pts.length * 3 := hlen
  omega

end App
