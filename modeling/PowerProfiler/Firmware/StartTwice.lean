-- SUMMARY: When a repeated start leaves the stream alone: exactly for arguments that I2S_init stores as they are.
import PowerProfiler.Firmware.DriverInvariant

/-!
# Starting twice

`I2S_Start` compares its arguments with the settings in force, and `I2S_init` stores
masked channels and a clamped frequency. Arguments that are stored otherwise than given
look like new ones to the next start.
-/

open Runs

/-- The operations that a started driver goes on with by itself. -/
def Streams : SampleOp → Prop
  | .isr _ | .task => True
  | _ => False

/-- The second start finds the unit started and only clears the counters. -/
def AlreadyStarted (channels : UInt8) (freq : UInt32) (d : Device) : Prop :=
  ¬ d.Reinit channels freq ∧
    i2sStart channels freq d = { d with blkReadCount := 0, blkOverflowCnt := 0 }

/-- `d'` has the settings of `d`. -/
structure SameSettings (d d' : Device) : Prop where
  i2s0 : d'.i2s0 = d.i2s0
  start : d'.i2sCfg.start = d.i2sCfg.start
  channels : d'.i2sCfg.channels = d.i2sCfg.channels
  freq : d'.i2sCfg.freq = d.i2sCfg.freq

namespace SameSettings

variable {d d' d'' : Device}

theorem refl (d : Device) : SameSettings d d := ⟨rfl, rfl, rfl, rfl⟩

theorem trans (h : SameSettings d d') (h' : SameSettings d' d'') : SameSettings d d'' where
  i2s0 := h'.i2s0.trans h.i2s0
  start := h'.start.trans h.start
  channels := h'.channels.trans h.channels
  freq := h'.freq.trans h.freq

end SameSettings

/-! ## The stream between the starts -/

theorem dmaI2sIsr_settings (rx : RxBuffer) (d : Device) : SameSettings d (dmaI2sIsr rx d) := by
  unfold dmaI2sIsr
  split
  · exact .refl d
  · split
    · exact ⟨rfl, rfl, rfl, rfl⟩
    · unfold dmaStore
      rw [Device.foldl_storeSample]
      exact ⟨rfl, rfl, rfl, rfl⟩

theorem taskDataOut_settings (d : Device) : SameSettings d (taskDataOut d).1 := by
  unfold taskDataOut
  split
  · exact .refl d
  · unfold sendBlock
    dsimp only
    split <;> exact ⟨rfl, rfl, rfl, rfl⟩

theorem run_settings {ops : List SampleOp} (hops : ∀ op ∈ ops, Streams op) (d : Device) :
    SameSettings d (run sampleStep ops d) := by
  induction ops generalizing d with
  | nil => exact .refl d
  | cons op ops ih =>
      have hstep : SameSettings d (sampleStep op d) := by
        have hop := hops op List.mem_cons_self
        cases op with
        | isr rx => exact dmaI2sIsr_settings rx d
        | task => exact taskDataOut_settings d
        | start channels freq => cases hop
        | stop => cases hop
        | sleep => cases hop
        | wakeUp => cases hop
      exact hstep.trans (ih (fun op' hmem => hops op' (List.mem_cons_of_mem _ hmem)) _)

/-! ## The two starts -/

variable {d : Device} {channels : UInt8} {freq : UInt32}

/-- The settings behind a start. -/
theorem i2sStart_stored (hdev : d.i2s0 = true) :
    (i2sStart channels freq d).i2s0 = true ∧ (i2sStart channels freq d).i2sCfg.start = 1 ∧
      ((i2sStart channels freq d).i2sCfg.channels = channels ∧
          (i2sStart channels freq d).i2sCfg.freq = freq ↔
        ¬ d.Reinit channels freq ∨
          initChannels channels = channels ∧ (clampFreq freq = freq ∨ d.i2sCfg.freq = freq)) := by
  by_cases hre : d.Reinit channels freq
  · rw [i2sStart_reinit hdev hre]
    refine ⟨rfl, rfl, ?_⟩
    have hchannels : (i2sInit channels freq d).i2sCfg.channels = initChannels channels := rfl
    have hfreq : (i2sInit channels freq d).i2sCfg.freq =
        if d.i2sCfg.freq ≠ freq then clampFreq freq else d.i2sCfg.freq := rfl
    rw [hchannels, hfreq]
    constructor
    · rintro ⟨hc, hf⟩
      refine .inr ⟨hc, ?_⟩
      split at hf
      · exact .inl hf
      · exact .inr hf
    · rintro (hno | ⟨hc, hf⟩)
      · exact absurd hre hno
      · refine ⟨hc, ?_⟩
        split
        next hne => exact hf.resolve_right hne
        next heq => exact not_not.mp heq
  · rw [i2sStart_running hdev hre]
    have hsame : d.i2sCfg.channels = channels ∧ d.i2sCfg.freq = freq := by
      unfold Device.Reinit at hre
      push Not at hre
      exact hre.2
    exact ⟨hdev, rfl, fun _ => .inl hre, fun _ => hsame⟩

/-- A start with the settings in force is no new start. -/
theorem alreadyStarted_iff (hdev : d.i2s0 = true) (hstart : d.i2sCfg.start = 1) :
    AlreadyStarted channels freq d ↔ d.i2sCfg.channels = channels ∧ d.i2sCfg.freq = freq := by
  constructor
  · rintro ⟨hre, -⟩
    unfold Device.Reinit at hre
    push Not at hre
    exact hre.2
  · rintro ⟨hc, hf⟩
    have hre : ¬ d.Reinit channels freq := by
      unfold Device.Reinit
      push Not
      exact ⟨by rw [hstart]; decide, hc, hf⟩
    refine ⟨hre, ?_⟩
    rw [i2sStart_running hdev hre, ← hstart]

/-- In an awake driver, with DMA interrupts and calls of the task in between, the second
start takes the started path exactly when the first did, or when the channels are one, two
or three and the frequency lies within the limits or is the one in force. -/
theorem startTwice_iff (hdev : d.i2s0 = true) (channels : UInt8) (freq : UInt32)
    {ops : List SampleOp} (hops : ∀ op ∈ ops, Streams op) :
    AlreadyStarted channels freq (run sampleStep ops (i2sStart channels freq d)) ↔
      ¬ d.Reinit channels freq ∨
        (channels = 1 ∨ channels = 2 ∨ channels = 3) ∧
          ((512000 ≤ freq ∧ freq ≤ 96000000) ∨ d.i2sCfg.freq = freq) := by
  obtain ⟨hdev', hstart, hsame⟩ := @i2sStart_stored d channels freq hdev
  obtain ⟨hi2s0, hstart', hchannels, hfreq⟩ := run_settings hops (i2sStart channels freq d)
  rw [alreadyStarted_iff (hi2s0.trans hdev') (hstart'.trans hstart), hchannels, hfreq, hsame,
    initChannels_eq_self, clampFreq_eq_self]

/-- In the states that the driver reaches, this is a condition on the arguments alone. -/
theorem startTwice_iff_of_driverInv (h : DriverInv d) :
    (¬ d.Reinit channels freq ∨
        (channels = 1 ∨ channels = 2 ∨ channels = 3) ∧
          ((512000 ≤ freq ∧ freq ≤ 96000000) ∨ d.i2sCfg.freq = freq)) ↔
      (channels = 1 ∨ channels = 2 ∨ channels = 3) ∧ 512000 ≤ freq ∧ freq ≤ 96000000 := by
  constructor
  · rintro (hre | ⟨hc, hf | rfl⟩)
    · unfold Device.Reinit at hre
      push Not at hre
      obtain ⟨-, rfl, rfl⟩ := hre
      exact ⟨h.channels, h.freq_ge, h.freq_le⟩
    · exact ⟨hc, hf⟩
    · exact ⟨hc, h.freq_ge, h.freq_le⟩
  · rintro ⟨hc, hf⟩
    exact .inr ⟨hc, .inl hf⟩

theorem startTwice_iff_awake :
    AlreadyStarted 3 24576000
        (run sampleStep [.task] (i2sStart 3 24576000 (i2sWakeUp (Device.boot fun _ => 0)))) ↔
      ¬ (i2sWakeUp (Device.boot fun _ => 0)).Reinit 3 24576000 ∨
        ((3 : UInt8) = 1 ∨ (3 : UInt8) = 2 ∨ (3 : UInt8) = 3) ∧
          (((512000 : UInt32) ≤ 24576000 ∧ (24576000 : UInt32) ≤ 96000000) ∨
            (i2sWakeUp (Device.boot fun _ => 0)).i2sCfg.freq = 24576000) := by
  refine startTwice_iff rfl 3 24576000 ?_
  intro op hmem
  obtain rfl := List.mem_singleton.mp hmem
  trivial

/-- A start with no channel selected is stored as channel one, and the next one starts
over. -/
theorem startTwice_restarts :
    ¬ ∀ (d : Device), d.i2s0 = true → ∀ (channels : UInt8) (freq : UInt32) (ops : List SampleOp),
      (∀ op ∈ ops, Streams op) →
      AlreadyStarted channels freq (run sampleStep ops (i2sStart channels freq d)) := by
  intro hall
  have hre := (hall (i2sWakeUp (Device.boot fun _ => 0)) rfl 0 24576000 [] (by simp)).1
  exact hre (.inr (.inl (by decide)))
