-- SUMMARY: What the series hold once a capture counts: the calibrated groups one after the other, at their times, up to the limit.
import PowerProfiler.Host.CaptureCalls

/-!
# Plotted points

Once `SamplesCount` counts, or when no trigger is waited for, every group becomes a point in
each charted series, at the time that follows from its number, until the limit.
-/

namespace Form

/-- The calibrated value of a group on a channel. -/
def value (s : Form) (c : Chan) (g : SampleGroup) : ℚ := (s.chan c).calibrate (g c)

/-- The values of some groups at the times 0, `t`, `2t` and so on. -/
def points (s : Form) (c : Chan) (gs : List SampleGroup) : List (ℚ × ℚ) :=
  gs.mapIdx fun j g => (j * s.t, s.value c g)

/-- The charted series hold these groups and `SamplesCount` counts them. -/
structure Plotted (s₀ : Form) (pts : List SampleGroup) (s : Form) : Prop where
  setup : SameSetup s₀ s
  count : s.samplesCount = pts.length
  series : ∀ c, s₀.chartEnables.charts c = true → (s.chan c).series = s₀.points c pts

/-- The number of points at which the limit is reached. -/
def FullAt (s : Form) (n : Nat) : Prop := (s.maxSamples : ℚ) ≤ n * s.t

theorem points_snoc (s : Form) (c : Chan) (gs : List SampleGroup) (g : SampleGroup) :
    s.points c (gs ++ [g]) = s.points c gs ++ [(gs.length * s.t, s.value c g)] := by
  simp [points]

theorem value_of_setup {s₀ s : Form} (h : SameSetup s₀ s) (c : Chan) (g : SampleGroup) :
    s.value c g = s₀.value c g := h.calibrate c (g c)

theorem full_iff {s₀ s : Form} (h : SameSetup s₀ s) : s.Full ↔ s₀.FullAt s.samplesCount := by
  rw [Full, FullAt, idx, h.maxSamples, h.t]

/-! ## One group -/

theorem series_feed_of_not_full {s : Form} (g : SampleGroup) (hroom : ¬ s.Full) (c : Chan) :
    (s.feed g).samplesCount = (s.absorb g).samplesCount ∧
      ((s.feed g).chan c).series = ((s.absorb g).chan c).series := by
  unfold feed
  rw [if_neg hroom]
  split
  · exact ⟨rfl, series_autoStop _ c⟩
  · exact ⟨rfl, rfl⟩

variable {s₀ s : Form} {pts : List SampleGroup}

/-- A group becomes one more point. -/
theorem Plotted.feed (h : Plotted s₀ pts s) (hcount : s.samplesCount ≠ 0 ∨ s.anyTrigger = false)
    (hroom : ¬ s.Full) (g : SampleGroup) : Plotted s₀ (pts ++ [g]) (s.feed g) := by
  have hflg := flg_of_counting hcount g
  refine ⟨h.setup.trans (s.sameSetup_feed g), ?_, fun c hc => ?_⟩
  · rw [(series_feed_of_not_full g hroom .i).1, count_absorb_of_plot hflg hcount, h.count,
      List.length_append, List.length_singleton]
  · have hc' : s.chartEnables.charts c = true := by rw [h.setup.chartEnables, hc]
    rw [(series_feed_of_not_full g hroom c).2, chan_absorb_of_plot hflg hcount hc', points_snoc]
    simp only [Channel.series_addSum, Channel.series_addXY, Channel.series_take,
      Channel.cur_take, h.series c hc, idx, h.count, h.setup.t]
    rw [h.setup.calibrate]
    rfl

/-! ## Sequences of groups -/

/-- The groups become points until the limit. -/
theorem Plotted.foldl (h : Plotted s₀ pts s) (hcount : s.samplesCount ≠ 0 ∨ s.anyTrigger = false)
    (gs : List SampleGroup) :
    ∃ m ≤ gs.length, Plotted s₀ (pts ++ gs.take m) (gs.foldl Form.feed s) ∧
      (∀ i < m, ¬ s₀.FullAt (pts.length + i)) ∧
      (m < gs.length → s₀.FullAt (pts.length + m)) := by
  induction gs generalizing s pts with
  | nil =>
      refine ⟨0, le_refl 0, by simpa using h, ?_, ?_⟩
      · exact fun i hi => absurd hi (Nat.not_lt_zero i)
      · exact fun hlt => absurd hlt (Nat.lt_irrefl 0)
  | cons g gs ih =>
      have hfullAt : s.Full ↔ s₀.FullAt pts.length := by rw [full_iff h.setup, h.count]
      by_cases hfull : s.Full
      · refine ⟨0, Nat.zero_le _, ?_, ?_, fun _ => hfullAt.mp hfull⟩
        · rw [feed_of_full hfull]
          simpa using h
        · exact fun i hi => absurd hi (Nat.not_lt_zero i)
      · have hnext := h.feed hcount hfull g
        have hcount' : (s.feed g).samplesCount ≠ 0 ∨ (s.feed g).anyTrigger = false :=
          .inl (by rw [hnext.count, List.length_append]; exact Nat.succ_ne_zero _)
        obtain ⟨m, hm, hplot, hroom, hlimit⟩ := ih hnext hcount'
        have hlen : (pts ++ [g]).length = pts.length + 1 := by simp
        refine ⟨m + 1, Nat.succ_le_succ hm, ?_, ?_, ?_⟩
        · simpa using hplot
        · rintro (_ | i) hi
          · exact fun hf => hfull (hfullAt.mpr hf)
          · have := hroom i (Nat.lt_of_succ_lt_succ hi)
            rwa [hlen, Nat.add_right_comm] at this
        · intro hlt
          have := hlimit (Nat.lt_of_succ_lt_succ hlt)
          rwa [hlen, Nat.add_right_comm] at this

end Form
