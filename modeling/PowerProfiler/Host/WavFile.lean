-- SUMMARY: The WAV file of ButtonSaveWavClick: its header, its data, and how far the fields of the header agree with the data.
import PowerProfiler.Host.PlottedPoints
import PowerProfiler.Lib.Bytes

/-!
# The WAV file

`SetWavHeader` fills the fields of `wav_header`, then one frame is written for each point:
the values of the charted channels with their calibration undone, three bytes each, U
first.
-/

open Bytes

/-! ## The header -/

/-- `_WAV_HEADER`, with the values `wav_header` starts with. -/
structure WavHeader where
  riff : UInt32 := 0x46464952
  size8 : UInt32 := 8
  wave : UInt32 := 0x45564157
  fmt : UInt32 := 0x20746d66
  fsize : UInt32 := 0x10
  ccod : UInt16 := 1
  mono : UInt16 := 1
  freq : UInt32 := 0x1F40
  bps : UInt32 := 0x1F40
  blka : UInt16 := 2
  bits : UInt16 := 0x10
  data : UInt32 := 0x61746164
  dsize : UInt32 := 0

namespace WavHeader

/-- `sizeof(wav_header)` -/
def size : Nat := 44

/-- The record as `FileWrite` writes it. -/
def bytes (h : WavHeader) : List UInt8 :=
  le 4 h.riff ++ le 4 h.size8 ++ le 4 h.wave ++ le 4 h.fmt ++ le 4 h.fsize ++
    le 2 h.ccod.toUInt32 ++ le 2 h.mono.toUInt32 ++ le 4 h.freq ++ le 4 h.bps ++
    le 2 h.blka.toUInt32 ++ le 2 h.bits.toUInt32 ++ le 4 h.data ++ le 4 h.dsize

theorem length_bytes (h : WavHeader) : h.bytes.length = size := by
  simp [bytes, size]

end WavHeader

/-- `SetWavHeader` -/
def setWavHeader (stereo : Bool) (smps samplecount : UInt32) (bits : UInt16) (h : WavHeader) :
    WavHeader :=
  let mono : UInt16 := if stereo then 2 else 1
  let blka := bits / 8
  let dsize := samplecount * blka.toUInt32 * mono.toUInt32
  { h with
    mono := mono
    freq := smps
    bps := smps
    bits := bits
    blka := blka
    dsize := dsize
    size8 := dsize + UInt32.ofNat WavHeader.size - 8 }

/-! ## The data -/

/-- `Round`: to the nearest integer, a half to the even one. -/
def roundEven (x : ℚ) : Int :=
  if x - ⌊x⌋ < 1 / 2 then ⌊x⌋
  else if 1 / 2 < x - ⌊x⌋ then ⌊x⌋ + 1
  else if ⌊x⌋ % 2 = 0 then ⌊x⌋
  else ⌊x⌋ + 1

/-- The limits of a 24-bit sample. -/
def clamp24 (x : ℚ) : ℚ :=
  if 8388607 < x then 8388607 else if x < -8388608 then -8388608 else x

/-- A point with the calibration undone; 0 where the series has no such point or the division
fails. -/
def Channel.uncalibrate (c : Channel) (i : Nat) : ℚ :=
  match c.values[i]? with
  | none => 0
  | some y => if c.k = 0 then 0 else (y - c.zero) / c.k

/-- `val[0]` or `val[1]`: the rounded value as a double word. -/
def Channel.wavSample (c : Channel) (i : Nat) : UInt32 :=
  UInt32.ofInt (roundEven (clamp24 (c.uncalibrate i)))

namespace Form

/-- `data_cont` -/
def dataCont (s : Form) : Nat :=
  match s.chartEnables with
  | .off => 0
  | .i => (s.chan .i).series.length
  | .u | .ui => (s.chan .u).series.length

/-- What is written for a point. -/
def wavFrame (s : Form) (i : Nat) : List UInt8 :=
  match s.chartEnables with
  | .off => []
  | .u => le 3 ((s.chan .u).wavSample i)
  | .i => le 3 ((s.chan .i).wavSample i)
  | .ui => le 3 ((s.chan .u).wavSample i) ++ le 3 ((s.chan .i).wavSample i)

/-- The bytes behind the header. -/
def wavData (s : Form) : List UInt8 := (List.range s.dataCont).flatMap s.wavFrame

/-- The rate in the header, for the `old_sps` that the status bar shows. -/
def wavRate (oldSps : ℚ) : UInt32 :=
  UInt32.ofInt (roundEven
    (if oldSps = 0 then 8000 else if oldSps < 100 then oldSps * 1000 else oldSps))

/-- The header of the file that is saved; without a point there is none. -/
def wavHeader (s : Form) (oldSps : ℚ) (h : WavHeader) : Option WavHeader :=
  if s.dataCont = 0 then none
  else some (setWavHeader (s.chartEnables = .ui) (wavRate oldSps) (UInt32.ofNat s.dataCont) 24 h)

/-! ## What a reader makes of the header -/

/-- The header `h` describes `n` frames of `channels` samples in `data`. -/
structure Consistent (h : WavHeader) (channels n : Nat) (data : List UInt8) : Prop where
  mono : h.mono.toNat = channels
  blockAlign : h.blka.toNat = channels * (h.bits.toNat / 8)
  byteRate : h.bps.toNat = h.freq.toNat * h.blka.toNat
  dsize : h.dsize.toNat = data.length
  size8 : h.size8.toNat = (h.bytes ++ data).length - 8
  frames : data.length = n * h.blka.toNat

theorem roundEven_intCast (n : Int) : roundEven n = n := by
  simp [roundEven]

theorem toNat_ofInt {n : Nat} (h : n < 2 ^ 32) : (UInt32.ofInt (n : Int)).toNat = n := by
  have hmod : ((n : Int) % 2 ^ 32).toNat = n := by omega
  rw [UInt32.ofInt, hmod]
  exact UInt32.toNat_ofNat_of_lt' h

/-- A rate that `ShowSmps` can show is never written as zero. -/
theorem wavRate_ne_zero (smps : UInt32) : (wavRate (smps.toNat : ℚ)).toNat ≠ 0 := by
  have hlt := smps.toNat_lt
  have hrate : wavRate (smps.toNat : ℚ) = UInt32.ofInt
      ((if smps.toNat = 0 then 8000 else if smps.toNat < 100 then smps.toNat * 1000
        else smps.toNat : Nat) : Int) := by
    have hcast : (if (smps.toNat : ℚ) = 0 then (8000 : ℚ) else if (smps.toNat : ℚ) < 100 then
        (smps.toNat : ℚ) * 1000 else (smps.toNat : ℚ)) =
        ((((if smps.toNat = 0 then 8000 else if smps.toNat < 100 then smps.toNat * 1000
          else smps.toNat : Nat) : Int)) : ℚ) := by
      push_cast
      norm_cast
    rw [wavRate, hcast, roundEven_intCast]
  rw [hrate, toNat_ofInt]
  · split
    · decide
    · split <;> omega
  · split
    · decide
    · split <;> omega

/-- A frame has three bytes for each charted channel. -/
theorem length_wavFrame (s : Form) (i : Nat) :
    (s.wavFrame i).length = 3 * s.chartEnables.width := by
  rw [wavFrame]
  cases s.chartEnables <;> simp [ChartEnables.width]

theorem length_wavData (s : Form) : s.wavData.length = s.dataCont * (3 * s.chartEnables.width) := by
  rw [wavData, List.length_flatMap]
  simp [length_wavFrame]

/-! ## What holds of the header -/

/-- `SetWavHeader` counts the bytes of all channels in the sizes, but in neither the frame nor
the rate. -/
theorem setWavHeader_fields (stereo : Bool) (smps : UInt32) (n : Nat) (h : WavHeader) :
    (setWavHeader stereo smps (UInt32.ofNat n) 24 h).blka.toNat = 3 ∧
      (setWavHeader stereo smps (UInt32.ofNat n) 24 h).bits.toNat = 24 ∧
      (setWavHeader stereo smps (UInt32.ofNat n) 24 h).freq = smps ∧
      (setWavHeader stereo smps (UInt32.ofNat n) 24 h).bps = smps ∧
      (setWavHeader stereo smps (UInt32.ofNat n) 24 h).mono.toNat = if stereo then 2 else 1 := by
  refine ⟨rfl, rfl, rfl, rfl, ?_⟩
  cases stereo <;> rfl

theorem setWavHeader_sizes (stereo : Bool) (smps : UInt32) (n : Nat) (h : WavHeader)
    (hfit : 36 + n * (3 * (if stereo then 2 else 1)) < 2 ^ 32) :
    (setWavHeader stereo smps (UInt32.ofNat n) 24 h).dsize.toNat =
        n * (3 * (if stereo then 2 else 1)) ∧
      (setWavHeader stereo smps (UInt32.ofNat n) 24 h).size8.toNat =
        36 + n * (3 * (if stereo then 2 else 1)) := by
  have hblka : (24 / 8 : UInt16).toUInt32 = 3 := rfl
  have hdsize : (setWavHeader stereo smps (UInt32.ofNat n) 24 h).dsize.toNat =
      n * (3 * (if stereo then 2 else 1)) := by
    cases stereo
    · have hmono : (1 : UInt16).toUInt32 = 1 := rfl
      simp only [setWavHeader, hblka, hmono, UInt32.toNat_mul, UInt32.toNat_ofNat',
        Bool.false_eq_true, if_false] at hfit ⊢
      simp
      omega
    · have hmono : (2 : UInt16).toUInt32 = 2 := rfl
      simp only [setWavHeader, hblka, hmono, UInt32.toNat_mul, UInt32.toNat_ofNat', if_true]
        at hfit ⊢
      simp
      omega
  refine ⟨hdsize, ?_⟩
  have hsize8 : (setWavHeader stereo smps (UInt32.ofNat n) 24 h).size8 =
      (setWavHeader stereo smps (UInt32.ofNat n) 24 h).dsize + 36 := by
    have hsub : ∀ x : UInt32, x + UInt32.ofNat WavHeader.size - 8 = x + 36 := by
      intro x
      rw [UInt32.sub_eq_add_neg, UInt32.add_assoc]
      rfl
    exact hsub _
  rw [hsize8, UInt32.toNat_add, hdsize, Nat.add_comm]
  exact Nat.mod_eq_of_lt hfit

/-- What is saved describes its own size, but not its rate, and its frames in one channel only. -/
theorem wavHeader_inconsistent (s : Form) (smps : UInt32) (h w : WavHeader)
    (hsave : s.wavHeader smps.toNat h = some w) :
    ¬ Consistent w s.chartEnables.width s.dataCont s.wavData ∧
      w.bps.toNat ≠ w.freq.toNat * w.blka.toNat ∧
      (w.blka.toNat = s.chartEnables.width * (w.bits.toNat / 8) ↔ s.chartEnables.width = 1) ∧
      (s.wavData.length = s.dataCont * w.blka.toNat ↔ s.chartEnables.width = 1) ∧
      (36 + s.wavData.length < 2 ^ 32 → w.dsize.toNat = s.wavData.length ∧
        w.size8.toNat = (w.bytes ++ s.wavData).length - 8) := by
  have hpos : 0 < s.dataCont := by
    rw [Nat.pos_iff_ne_zero]
    intro hzero
    rw [wavHeader, if_pos hzero] at hsave
    cases hsave
  have hwidth : (if decide (s.chartEnables = .ui) then 2 else 1) = s.chartEnables.width := by
    rw [dataCont] at hpos
    cases hm : s.chartEnables with
    | off =>
        rw [hm] at hpos
        exact absurd hpos (Nat.lt_irrefl 0)
    | u | i | ui => rfl
  rw [wavHeader, if_neg hpos.ne', Option.some.injEq] at hsave
  obtain ⟨hblka, hbits, hfreq, hbps, -⟩ :=
    setWavHeader_fields (s.chartEnables = .ui) (wavRate smps.toNat) s.dataCont h
  have hsizes := setWavHeader_sizes (s.chartEnables = .ui) (wavRate smps.toNat) s.dataCont h
  rw [hwidth] at hsizes
  rw [hsave] at hblka hbits hfreq hbps hsizes
  have hrate : w.bps.toNat ≠ w.freq.toNat * w.blka.toNat := by
    rw [hbps, hfreq, hblka]
    have := wavRate_ne_zero smps
    omega
  refine ⟨fun hcons => hrate hcons.byteRate, hrate, ?_, ?_, ?_⟩
  · rw [hblka, hbits]
    omega
  · rw [length_wavData, hblka, Nat.mul_right_inj hpos.ne']
    omega
  · rw [length_wavData, List.length_append, w.length_bytes, length_wavData]
    intro hfit
    obtain ⟨hdsize, hsize8⟩ := hsizes hfit
    refine ⟨hdsize, ?_⟩
    rw [hsize8, WavHeader.size]
    omega

/-- A form with one point on U. -/
def onePoint (m : ChartEnables) : Form :=
  { (App.plain m).form with
    chan := fun c => { (App.plain m).form.chan c with series := [(0, 5)] } }

theorem wavHeader_inconsistent_onePoint :
    ¬ Consistent (setWavHeader true (wavRate 48000) 1 24 {}) 2 1 (onePoint .ui).wavData :=
  (wavHeader_inconsistent (onePoint .ui) 48000 {} _ rfl).1

/-- The file of one point in two channels. -/
theorem saved_wav_not_consistent :
    ¬ ∀ (s : Form) (smps : UInt32) (h w : WavHeader), s.wavHeader smps.toNat h = some w →
      36 + s.wavData.length < 2 ^ 32 →
      Consistent w s.chartEnables.width s.dataCont s.wavData := by
  intro hall
  have hblka := (hall (onePoint .ui) 48000 {} _ rfl (by decide +kernel)).blockAlign
  exact absurd hblka (by decide)

end Form
