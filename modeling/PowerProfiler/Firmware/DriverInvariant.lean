-- SUMMARY: The settings of the I2S driver under every order of its operations: ranges, the clock in force, and the silence after a stop.
import PowerProfiler.Firmware.SampleInvariant

/-!
# The invariant of the I2S driver

The driver keeps its settings in range however it is called, has programmed the clock
it says it has, and keeps the sample ring empty while it is stopped and while it
discards the first 512 blocks behind a start.
-/

/-- The settings of the driver are in range and agree with its state. -/
structure DriverInv (d : Device) : Prop where
  freq_ge : 512000 ≤ d.i2sCfg.freq
  freq_le : d.i2sCfg.freq ≤ 96000000
  channels : d.i2sCfg.channels = 1 ∨ d.i2sCfg.channels = 2 ∨ d.i2sCfg.channels = 3
  wakeupcnt : d.i2sCfg.wakeupcnt ≤ 512
  start : d.i2sCfg.start = 0 ∨ d.i2sCfg.start = 1
  awake : d.i2sCfg.start = 1 → d.i2s0 = true
  pll : d.i2s0 = true → d.audioPll = some d.i2sCfg.freq
  stopped : d.i2sCfg.start = 0 → d.dataBufferWrPtr = 0 ∧ d.dataBufferRdPtr = 0
  discarding : d.i2sCfg.wakeupcnt ≠ 0 → d.dataBufferWrPtr = 0 ∧ d.dataBufferRdPtr = 0

/-! ## Settings -/

theorem clampFreq_range (freq : UInt32) :
    512000 ≤ clampFreq freq ∧ clampFreq freq ≤ 96000000 := by
  rw [clampFreq]
  split
  · exact ⟨UInt32.le_refl _, by decide⟩
  next hlo =>
    split
    · exact ⟨by decide, UInt32.le_refl _⟩
    next hhi => exact ⟨UInt32.not_lt.mp hlo, UInt32.not_lt.mp hhi⟩

/-- Within the limits a frequency is kept. -/
theorem clampFreq_eq_self {freq : UInt32} : clampFreq freq = freq ↔
    512000 ≤ freq ∧ freq ≤ 96000000 := by
  constructor
  · intro h
    rw [← h]
    exact clampFreq_range freq
  · rintro ⟨hlo, hhi⟩
    rw [clampFreq, if_neg (UInt32.not_lt.mpr hlo), if_neg (UInt32.not_lt.mpr hhi)]

/-- The channel selection that `I2S_init` makes of its argument. -/
def initChannels (channels : UInt8) : UInt8 := if channels &&& 3 = 0 then 1 else channels &&& 3

theorem initChannels_mem (channels : UInt8) :
    initChannels channels = 1 ∨ initChannels channels = 2 ∨ initChannels channels = 3 := by
  have hand : (channels &&& 3).toNat = channels.toNat % 4 := by
    rw [UInt8.toNat_and]
    exact Nat.and_two_pow_sub_one_eq_mod _ 2
  rw [initChannels]
  split
  · exact .inl rfl
  next h0 =>
    rw [← UInt8.toNat_inj, hand] at h0
    rw [← UInt8.toNat_inj, ← UInt8.toNat_inj, ← UInt8.toNat_inj, hand]
    simp at h0 ⊢
    omega

theorem initChannels_eq_self {channels : UInt8} :
    initChannels channels = channels ↔ channels = 1 ∨ channels = 2 ∨ channels = 3 := by
  constructor
  · intro h
    rw [← h]
    exact initChannels_mem channels
  · rintro (rfl | rfl | rfl) <;> decide

/-! ## Each operation -/

namespace DriverInv

variable {d : Device}

theorem boot (memory : UInt32 → UInt32) : DriverInv (Device.boot memory) where
  freq_ge := by show (512000 : UInt32) ≤ 24576000; decide
  freq_le := by show (24576000 : UInt32) ≤ 96000000; decide
  channels := .inr (.inr rfl)
  wakeupcnt := UInt32.le_refl _
  start := .inl rfl
  awake h := absurd (show (0 : UInt8) = 1 from h) (by decide)
  pll h := absurd h Bool.false_ne_true
  stopped _ := ⟨rfl, rfl⟩
  discarding _ := ⟨rfl, rfl⟩

/-- A step that keeps the settings, the state of the driver and the pointers keeps the
invariant. -/
theorem of_same {d' : Device} (h : DriverInv d) (hcfg : d'.i2sCfg = d.i2sCfg)
    (hdev : d'.i2s0 = d.i2s0) (hpll : d'.audioPll = d.audioPll) (hptrs : SamePtrs d d') :
    DriverInv d' := by
  obtain ⟨h1, h2, h3, h4, h5, h6, h7, h8, h9⟩ := h
  constructor <;> rw [hcfg]
  · exact h1
  · exact h2
  · exact h3
  · exact h4
  · exact h5
  · rw [hdev]; exact h6
  · rw [hdev, hpll]; exact h7
  · rw [hptrs.wr, hptrs.rd]; exact h8
  · rw [hptrs.wr, hptrs.rd]; exact h9

/-- The frequency behind `I2S_init` is in range and programmed. -/
theorem i2sInit_freq {freq : UInt32}
    (hold : d.i2sCfg.freq = freq → clampFreq freq = freq ∧ d.audioPll = some freq)
    (channels : UInt8) : (i2sInit channels freq d).i2sCfg.freq = clampFreq freq ∧
      (i2sInit channels freq d).audioPll = some (clampFreq freq) := by
  by_cases hne : d.i2sCfg.freq ≠ freq
  · simp only [i2sInit, if_pos hne, and_self]
  · obtain ⟨hclamp, hpll⟩ := hold (not_not.mp hne)
    have heq : d.i2sCfg.freq = freq := not_not.mp hne
    simp [i2sInit, heq, hclamp, hpll]

/-- Behind `I2S_init`, with sampling on or off. -/
theorem of_i2sInit {d' : Device} {channels : UInt8} {freq : UInt32} {start : UInt8}
    (hstart : start = 0 ∨ start = 1)
    (hcfg : d'.i2sCfg = { (i2sInit channels freq d).i2sCfg with start := start })
    (hfreq : (i2sInit channels freq d).i2sCfg.freq = clampFreq freq)
    (hpll : d'.audioPll = some (clampFreq freq)) (hdev : d'.i2s0 = true)
    (hptrs : d'.dataBufferWrPtr = 0 ∧ d'.dataBufferRdPtr = 0) : DriverInv d' := by
  obtain ⟨hlo, hhi⟩ := clampFreq_range freq
  constructor
  · rw [hcfg, hfreq]; exact hlo
  · rw [hcfg, hfreq]; exact hhi
  · rw [hcfg]; exact initChannels_mem channels
  · rw [hcfg]; exact UInt32.le_refl _
  · rw [hcfg]; exact hstart
  · exact fun _ => hdev
  · rw [hpll, hcfg, hfreq]; exact fun _ => rfl
  · exact fun _ => hptrs
  · exact fun _ => hptrs

end DriverInv

section Steps

variable {d : Device}

/-- A start that initialises the unit again. -/
theorem i2sStart_reinit {channels : UInt8} {freq : UInt32} (hdev : d.i2s0 = true)
    (hre : d.Reinit channels freq) :
    i2sStart channels freq d =
      { i2sInit channels freq d with
        blkReadCount := 0
        blkOverflowCnt := 0
        i2sCfg := { (i2sInit channels freq d).i2sCfg with start := 1 } } := by
  rw [i2sStart, if_pos hdev, if_pos hre]

/-- A start with the settings in force only clears the counters. -/
theorem i2sStart_running {channels : UInt8} {freq : UInt32} (hdev : d.i2s0 = true)
    (hre : ¬ d.Reinit channels freq) :
    i2sStart channels freq d =
      { d with
        blkReadCount := 0
        blkOverflowCnt := 0
        i2sCfg := { d.i2sCfg with start := 1 } } := by
  rw [i2sStart, if_pos hdev, if_neg hre]

theorem i2sStart_asleep {channels : UInt8} {freq : UInt32} (hdev : d.i2s0 = false) :
    i2sStart channels freq d = d := by
  rw [i2sStart, if_neg (by rw [hdev]; decide)]

/-- In an awake driver `I2S_init` programs the frequency it stores. -/
theorem DriverInv.init_freq (h : DriverInv d) (hdev : d.i2s0 = true) (channels : UInt8)
    (freq : UInt32) : (i2sInit channels freq d).i2sCfg.freq = clampFreq freq ∧
      (i2sInit channels freq d).audioPll = some (clampFreq freq) := by
  apply DriverInv.i2sInit_freq
  rintro rfl
  exact ⟨clampFreq_eq_self.mpr ⟨h.freq_ge, h.freq_le⟩, h.pll hdev⟩

theorem i2sStart_driverInv (h : DriverInv d) (channels : UInt8) (freq : UInt32) :
    DriverInv (i2sStart channels freq d) := by
  cases hdev : d.i2s0
  · rw [i2sStart_asleep hdev]
    exact h
  · by_cases hre : d.Reinit channels freq
    · obtain ⟨hfreq, hpll⟩ := h.init_freq hdev channels freq
      rw [i2sStart_reinit hdev hre]
      exact .of_i2sInit (.inr rfl) rfl hfreq hpll rfl ⟨rfl, rfl⟩
    · have hstart : d.i2sCfg.start = 1 := by
        simp only [Device.Reinit, not_or] at hre
        exact h.start.resolve_left hre.1
      have hcfg : ({ d.i2sCfg with start := 1 } : I2sCfg) = d.i2sCfg := by rw [← hstart]
      rw [i2sStart_running hdev hre, hcfg]
      exact h.of_same rfl rfl rfl ⟨rfl, rfl, rfl⟩

/-- Sampling switched off with both pointers at zero. -/
theorem DriverInv.off (h : DriverInv d) {d' : Device}
    (hcfg : d'.i2sCfg = { d.i2sCfg with start := 0 })
    (hpll : d'.i2s0 = true → d'.audioPll = some d.i2sCfg.freq)
    (hptrs : d'.dataBufferWrPtr = 0 ∧ d'.dataBufferRdPtr = 0) : DriverInv d' := by
  obtain ⟨h1, h2, h3, h4, -, -, -, -, -⟩ := h
  constructor <;> rw [hcfg]
  · exact h1
  · exact h2
  · exact h3
  · exact h4
  · exact .inl rfl
  · exact fun h => absurd (show (0 : UInt8) = 1 from h) (by decide)
  · exact hpll
  · exact fun _ => hptrs
  · exact fun _ => hptrs

theorem i2sStop_driverInv (h : DriverInv d) : DriverInv (i2sStop d) := by
  by_cases hdev : d.i2s0
  · rw [i2sStop, if_pos hdev]
    exact h.off rfl h.pll ⟨rfl, rfl⟩
  · rw [i2sStop, if_neg hdev]
    exact h

theorem i2sSleep_driverInv (h : DriverInv d) : DriverInv (i2sSleep d) := by
  by_cases hdev : d.i2s0
  · rw [i2sSleep, if_pos hdev]
    exact h.off rfl (fun hon => absurd hon Bool.false_ne_true) ⟨rfl, rfl⟩
  · rw [i2sSleep, if_neg hdev]
    exact h

theorem i2sWakeUp_driverInv (h : DriverInv d) : DriverInv (i2sWakeUp d) := by
  by_cases hdev : d.i2s0
  · rw [i2sWakeUp, if_pos hdev]
    exact h
  · rw [i2sWakeUp, if_neg hdev]
    -- The stored frequency is zero when `I2S_init` compares it, so it is programmed again.
    obtain ⟨hfreq, hpll⟩ := @DriverInv.i2sInit_freq
      { d with i2sCfg := { d.i2sCfg with freq := 0 } } d.i2sCfg.freq
      (fun hzero => by
        have := h.freq_ge
        rw [← show (0 : UInt32) = d.i2sCfg.freq from hzero] at this
        exact absurd this (by decide)) d.i2sCfg.channels
    exact .of_i2sInit (.inl rfl) rfl hfreq hpll rfl ⟨rfl, rfl⟩

theorem dmaI2sIsr_driverInv (h : DriverInv d) (hs : SampleInv d) (rx : RxBuffer) :
    DriverInv (dmaI2sIsr rx d) := by
  by_cases hacc : d.Accepting
  · obtain ⟨h1, h2, h3, h4, h5, h6, h7, -, -⟩ := h
    rw [dmaI2sIsr_accepting hs hacc]
    exact ⟨h1, h2, h3, h4, h5, h6, h7, fun h0 => absurd h0 hacc.1, fun hw => absurd hacc.2 hw⟩
  · by_cases hstart : d.i2sCfg.start = 0
    · rw [dmaI2sIsr, if_pos hstart]
      exact h
    · have hwake : d.i2sCfg.wakeupcnt ≠ 0 := fun hw => hacc ⟨hstart, hw⟩
      have hle : d.i2sCfg.wakeupcnt - 1 ≤ 512 := by
        have h0 : d.i2sCfg.wakeupcnt.toNat ≠ 0 := fun h0 => hwake (UInt32.toNat_inj.mp h0)
        have h512 := UInt32.le_iff_toNat_le.mp h.wakeupcnt
        rw [UInt32.le_iff_toNat_le, UInt32.toNat_sub_of_le _ _ (by
          rw [UInt32.le_iff_toNat_le]; simp; omega)]
        simp at h512 ⊢
        omega
      rw [dmaI2sIsr, if_neg hstart, if_pos hwake]
      exact { h with wakeupcnt := hle, discarding := fun _ => h.discarding hwake }

theorem sendBlock_i2s (samples : List UInt32) (d : Device) :
    (sendBlock samples d).i2sCfg = d.i2sCfg ∧ (sendBlock samples d).i2s0 = d.i2s0 ∧
      (sendBlock samples d).audioPll = d.audioPll := by
  simp only [sendBlock]
  split <;> exact ⟨rfl, rfl, rfl⟩

/-- With both pointers equal nothing is built. -/
theorem taskDataOut_idle (hs : SampleInv d) (h : d.dataBufferWrPtr = 0 ∧ d.dataBufferRdPtr = 0) :
    taskDataOut d = (d, none) := by
  rw [taskDataOut_eq hs, h.1, h.2]
  exact if_neg (by decide)

/-- A block is only built while sampling runs and the discard is over. -/
theorem accepting_of_built (h : DriverInv d) (hs : SampleInv d) {samples : List UInt32}
    (hb : (taskDataOut d).2 = some samples) : d.i2sCfg.start = 1 ∧ d.i2sCfg.wakeupcnt = 0 := by
  constructor
  · refine h.start.resolve_left fun h0 => ?_
    rw [taskDataOut_idle hs (h.stopped h0)] at hb
    cases hb
  · by_contra hw
    rw [taskDataOut_idle hs (h.discarding hw)] at hb
    cases hb

theorem taskDataOut_driverInv (h : DriverInv d) (hs : SampleInv d) :
    DriverInv (taskDataOut d).1 := by
  rcases hb : (taskDataOut d).2 with _ | samples
  · rw [taskDataOut_eq hs] at hb ⊢
    split at hb
    · cases hb
    next hp =>
      rw [if_neg hp]
      exact h
  · obtain ⟨hstart, hwake⟩ := accepting_of_built h hs hb
    rw [taskDataOut_eq hs] at hb ⊢
    split at hb
    next hp =>
      rw [if_pos hp]
      obtain ⟨hcfg, hdev, hpll⟩ := sendBlock_i2s d.blockSamples d.popBlock
      obtain ⟨h1, h2, h3, h4, h5, h6, h7, -, -⟩ := h
      constructor <;> dsimp only <;> rw [hcfg]
      · exact h1
      · exact h2
      · exact h3
      · exact h4
      · exact h5
      · rw [hdev]; exact h6
      · rw [hdev, hpll]; exact h7
      · exact fun h0 => absurd (hstart.symm.trans h0) (by decide)
      · exact fun hw => absurd hwake hw
    · cases hb

theorem sampleStep_driverInv (op : SampleOp) (h : DriverInv d) (hs : SampleInv d) :
    DriverInv (sampleStep op d) := by
  cases op with
  | isr rx => exact dmaI2sIsr_driverInv h hs rx
  | task => exact taskDataOut_driverInv h hs
  | start channels freq => exact i2sStart_driverInv h channels freq
  | stop => exact i2sStop_driverInv h
  | sleep => exact i2sSleep_driverInv h
  | wakeUp => exact i2sWakeUp_driverInv h

end Steps

theorem sampleRun_driverInv (memory : UInt32 → UInt32) (ops : List SampleOp) :
    DriverInv (Runs.run sampleStep ops (Device.boot memory)) := by
  induction ops using List.reverseRecOn with
  | nil => exact DriverInv.boot memory
  | append_singleton ops op ih =>
      rw [Runs.run_snoc]
      exact sampleStep_driverInv op ih (sampleRun_sampleInv memory ops)

/-! ## The discard behind a start -/

/-- The blocks discarded since the last start that initialised the unit. -/
def countDiscard (op : SampleOp) (d : Device) (n : Nat) : Nat :=
  match op with
  | .isr _ => if d.i2sCfg.start ≠ 0 ∧ d.i2sCfg.wakeupcnt ≠ 0 then n + 1 else n
  | .start channels freq => if d.i2s0 ∧ d.Reinit channels freq then 0 else n
  | _ => n

/-- The machine with the count of discarded blocks beside the device. -/
def countStep (op : SampleOp) (s : Device × Nat) : Device × Nat :=
  (sampleStep op s.1, countDiscard op s.1 s.2)

/-- While sampling runs, the wake-up counter is what is left of the 512 blocks. -/
def LeftOf512 (s : Device × Nat) : Prop :=
  s.1.i2sCfg.start = 1 → s.1.i2sCfg.wakeupcnt.toNat + s.2 = 512

theorem LeftOf512.of_stopped {s : Device × Nat} (h : s.1.i2sCfg.start = 0) : LeftOf512 s :=
  fun h1 => absurd (h.symm.trans h1) (by decide)

theorem LeftOf512.of_same {s s' : Device × Nat} (h : LeftOf512 s)
    (hcfg : s'.1.i2sCfg = s.1.i2sCfg) (hn : s'.2 = s.2) : LeftOf512 s' := by
  intro h1
  rw [hcfg] at h1 ⊢
  rw [hn]
  exact h h1

theorem dmaI2sIsr_left {s : Device × Nat} (rx : RxBuffer) (hs : SampleInv s.1)
    (h : LeftOf512 s) : LeftOf512 (countStep (.isr rx) s) := by
  by_cases hdisc : s.1.i2sCfg.start ≠ 0 ∧ s.1.i2sCfg.wakeupcnt ≠ 0
  · intro hstart
    have hstep : (countStep (.isr rx) s).1.i2sCfg =
        { s.1.i2sCfg with wakeupcnt := s.1.i2sCfg.wakeupcnt - 1 } := by
      show (dmaI2sIsr rx s.1).i2sCfg = _
      rw [dmaI2sIsr, if_neg hdisc.1, if_pos hdisc.2]
    have hcount : (countStep (.isr rx) s).2 = s.2 + 1 := if_pos hdisc
    rw [hstep] at hstart ⊢
    rw [hcount]
    have hleft := h hstart
    have h0 : s.1.i2sCfg.wakeupcnt.toNat ≠ 0 := fun h0 => hdisc.2 (UInt32.toNat_inj.mp h0)
    have hsub : (s.1.i2sCfg.wakeupcnt - 1).toNat = s.1.i2sCfg.wakeupcnt.toNat - 1 := by
      rw [UInt32.toNat_sub_of_le _ _ (by rw [UInt32.le_iff_toNat_le]; simp; omega)]
      rfl
    simp only [hsub]
    omega
  · have hcount : (countStep (.isr rx) s).2 = s.2 := if_neg hdisc
    refine h.of_same ?_ hcount
    show (dmaI2sIsr rx s.1).i2sCfg = _
    by_cases hstart : s.1.i2sCfg.start = 0
    · rw [dmaI2sIsr, if_pos hstart]
    · have hwake : s.1.i2sCfg.wakeupcnt = 0 := by
        by_contra hne
        exact hdisc ⟨hstart, hne⟩
      rw [dmaI2sIsr_accepting hs ⟨hstart, hwake⟩]

theorem i2sStart_left {s : Device × Nat} (channels : UInt8) (freq : UInt32)
    (hinv : DriverInv s.1) (h : LeftOf512 s) : LeftOf512 (countStep (.start channels freq) s) := by
  have hstep : (countStep (.start channels freq) s).1 = i2sStart channels freq s.1 := rfl
  cases hdev : s.1.i2s0
  · refine h.of_same ?_ (if_neg (by simp [hdev]))
    rw [hstep, i2sStart_asleep hdev]
  · by_cases hre : s.1.Reinit channels freq
    · have hcount : (countStep (.start channels freq) s).2 = 0 := if_pos ⟨hdev, hre⟩
      intro _
      rw [hstep, i2sStart_reinit hdev hre, hcount]
      rfl
    · refine h.of_same ?_ (if_neg (fun hboth => hre hboth.2))
      have hstart : s.1.i2sCfg.start = 1 := by
        simp only [Device.Reinit, not_or] at hre
        exact hinv.start.resolve_left hre.1
      rw [hstep, i2sStart_running hdev hre]
      show ({ s.1.i2sCfg with start := 1 } : I2sCfg) = s.1.i2sCfg
      rw [← hstart]

theorem taskDataOut_i2sCfg {d : Device} (hs : SampleInv d) :
    (taskDataOut d).1.i2sCfg = d.i2sCfg := by
  rw [taskDataOut_eq hs]
  split
  · exact (sendBlock_i2s _ _).1
  · rfl

theorem countStep_left {op : SampleOp} {s : Device × Nat} (hinv : DriverInv s.1)
    (hs : SampleInv s.1) (h : LeftOf512 s) : LeftOf512 (countStep op s) := by
  have hoff := sampleStep_driverInv op hinv hs
  cases op with
  | isr rx => exact dmaI2sIsr_left rx hs h
  | task => exact h.of_same (taskDataOut_i2sCfg hs) rfl
  | start channels freq => exact i2sStart_left channels freq hinv h
  | stop =>
      by_cases hdev : s.1.i2s0
      · apply LeftOf512.of_stopped
        show (i2sStop s.1).i2sCfg.start = 0
        rw [i2sStop, if_pos hdev]
      · refine h.of_same ?_ rfl
        show (i2sStop s.1).i2sCfg = _
        rw [i2sStop, if_neg hdev]
  | sleep =>
      by_cases hdev : s.1.i2s0
      · apply LeftOf512.of_stopped
        show (i2sSleep s.1).i2sCfg.start = 0
        rw [i2sSleep, if_pos hdev]
      · refine h.of_same ?_ rfl
        show (i2sSleep s.1).i2sCfg = _
        rw [i2sSleep, if_neg hdev]
  | wakeUp =>
      by_cases hdev : s.1.i2s0
      · refine h.of_same ?_ rfl
        show (i2sWakeUp s.1).i2sCfg = _
        rw [i2sWakeUp, if_pos hdev]
      · apply LeftOf512.of_stopped
        show (i2sWakeUp s.1).i2sCfg.start = 0
        rw [i2sWakeUp, if_neg hdev]
        rfl

/-- From a stopped driver, a block is built only when the start before it has discarded
512 blocks. -/
theorem discard_before_block {d : Device} (hinv : DriverInv d) (hs : SampleInv d)
    (hstop : d.i2sCfg.start = 0) (ops : List SampleOp) {samples : List UInt32}
    (hb : (taskDataOut (Runs.run countStep ops (d, 0)).1).2 = some samples) :
    (Runs.run countStep ops (d, 0)).2 = 512 := by
  obtain ⟨hinv', hs', hleft⟩ : DriverInv (Runs.run countStep ops (d, 0)).1 ∧
      SampleInv (Runs.run countStep ops (d, 0)).1 ∧
      LeftOf512 (Runs.run countStep ops (d, 0)) :=
    Runs.run_invariant (P := fun _ _ => True)
      (I := fun s : Device × Nat => DriverInv s.1 ∧ SampleInv s.1 ∧ LeftOf512 s)
      (fun op _ h _ => ⟨sampleStep_driverInv op h.1 h.2.1, sampleStep_sampleInv op h.2.1,
        countStep_left h.1 h.2.1 h.2.2⟩)
      ⟨hinv, hs, .of_stopped hstop⟩ (Runs.along_true _ _)
  obtain ⟨hstart, hwake⟩ := accepting_of_built hinv' hs' hb
  have := hleft hstart
  rw [hwake] at this
  simpa using this

/-- After every order of the operations from power-on: the settings are in range, sampling
needs an awake driver, the programmed clock is the stored one, a stopped driver has both
pointers at zero; a start that initialises the unit stores its frequency clamped; and from
a stopped driver a block comes only behind 512 discarded ones. -/
theorem i2sDriver_law (memory : UInt32 → UInt32) (ops : List SampleOp) :
    let d := Runs.run sampleStep ops (Device.boot memory)
    (512000 ≤ d.i2sCfg.freq ∧ d.i2sCfg.freq ≤ 96000000) ∧
      (d.i2sCfg.channels = 1 ∨ d.i2sCfg.channels = 2 ∨ d.i2sCfg.channels = 3) ∧
      d.i2sCfg.wakeupcnt ≤ 512 ∧
      (d.i2sCfg.start = 0 ∨ d.i2sCfg.start = 1) ∧
      (d.i2sCfg.start = 1 → d.i2s0 = true) ∧
      (d.i2s0 = true → d.audioPll = some d.i2sCfg.freq) ∧
      (∀ channels freq, d.i2s0 = true → d.Reinit channels freq →
        (i2sStart channels freq d).i2sCfg.freq = clampFreq freq) ∧
      (d.i2sCfg.start = 0 →
        (d.dataBufferWrPtr = 0 ∧ d.dataBufferRdPtr = 0) ∧
        ∀ ops', (taskDataOut (Runs.run countStep ops' (d, 0)).1).2 ≠ none →
          (Runs.run countStep ops' (d, 0)).2 = 512) := by
  intro d
  have h : DriverInv d := sampleRun_driverInv memory ops
  have hs : SampleInv d := sampleRun_sampleInv memory ops
  refine ⟨⟨h.freq_ge, h.freq_le⟩, h.channels, h.wakeupcnt, h.start, h.awake, h.pll, ?_, ?_⟩
  · intro channels freq hdev hre
    rw [i2sStart_reinit hdev hre]
    exact (h.init_freq hdev channels freq).1
  · intro hstop
    refine ⟨h.stopped hstop, fun ops' hb => ?_⟩
    obtain ⟨samples, hb⟩ := Option.ne_none_iff_exists'.mp hb
    exact discard_before_block h hs hstop ops' hb
