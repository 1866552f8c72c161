-- SUMMARY: The audio PLL settings of Set_Audio_PLL_Freq: their range, their accuracy and their monotony over all six bands.
import PowerProfiler.Firmware.DriverInvariant

/-!
# The audio PLL

`Set_Audio_PLL_Freq` picks a pair of dividers by the band of the frequency and scales
the frequency by a 32.32 constant of that band. The upper word of the rounded product
goes to the 24 bits of `SDMIN`, the dividers to the 7 bits of `POSTDIV` and the 4 bits of
`REFDIV_RATIO`.
-/

/-- The clock of the crystal. -/
def crystalHz : Nat := 32000000

/-- `prediv`, `div` and the constant first put into `x.dd`. -/
structure PllBand where
  prediv : UInt32
  div : UInt32
  factor : UInt64

def pllBand (freqHz : UInt32) : PllBand :=
  if freqHz ≤ 8000 * 512 then
    if freqHz ≤ 2500 * 512 then { prediv := 8, div := 108, factor := 0x389F83BE4 }
    else if freqHz ≤ 4000 * 512 then { prediv := 4, div := 108, factor := 0x1C4FC1DF2 }
    else { prediv := 2, div := 108, factor := 0xE27E0EF9 }
  else if freqHz ≤ 19531 * 512 then { prediv := 2, div := 72, factor := 0x96FEB4A6 }
  else if freqHz ≤ 66000 * 512 then { prediv := 2, div := 36, factor := 0x4B7F5A53 }
  else { prediv := 2, div := 18, factor := 0x25BFAD2A }

/-- `x.dd` behind the multiplication. -/
def pllProduct (freqHz : UInt32) : UInt64 :=
  (pllBand freqHz).factor * freqHz.toUInt64 + 0x80000000

/-- `x.dw[1]` -/
def sdmin (freqHz : UInt32) : UInt32 := (pllProduct freqHz >>> 32).toUInt32

/-- The clock that the settings produce. -/
def pllClock (freqHz : UInt32) : ℚ :=
  (sdmin freqHz).toNat * crystalHz / (2 ^ 17 * (pllBand freqHz).prediv.toNat * (pllBand freqHz).div.toNat)

/-- How far the multiplier is from the requested clock, in units of 1/32000000. -/
def pllError (freqHz : UInt32) : ℤ :=
  (sdmin freqHz).toNat * crystalHz -
    freqHz.toNat * (pllBand freqHz).div.toNat * (pllBand freqHz).prediv.toNat * 2 ^ 17

/-! ## The bands -/

/-- A band of frequencies with its settings, all as numbers. -/
structure InBand (freqHz : UInt32) (lo hi prediv div factor : Nat) : Prop where
  gt : lo < freqHz.toNat
  le : freqHz.toNat ≤ hi
  prediv_eq : (pllBand freqHz).prediv.toNat = prediv
  div_eq : (pllBand freqHz).div.toNat = div
  factor_eq : (pllBand freqHz).factor.toNat = factor

/-- The frequency is in one of the six bands. -/
theorem pllBand_cases {freqHz : UInt32} (hlo : 512000 ≤ freqHz) (hhi : freqHz ≤ 96000000) :
    InBand freqHz 511999 1280000 8 108 0x389F83BE4 ∨
    InBand freqHz 1280000 2048000 4 108 0x1C4FC1DF2 ∨
    InBand freqHz 2048000 4096000 2 108 0xE27E0EF9 ∨
    InBand freqHz 4096000 9999872 2 72 0x96FEB4A6 ∨
    InBand freqHz 9999872 33792000 2 36 0x4B7F5A53 ∨
    InBand freqHz 33792000 96000000 2 18 0x25BFAD2A := by
  have hlo' : 512000 ≤ freqHz.toNat := UInt32.le_iff_toNat_le.mp hlo
  have hhi' : freqHz.toNat ≤ 96000000 := UInt32.le_iff_toNat_le.mp hhi
  have hle : ∀ b : UInt32, ¬ freqHz ≤ b → b.toNat < freqHz.toNat := by
    intro b hb
    rw [UInt32.le_iff_toNat_le] at hb
    omega
  by_cases h8000 : freqHz ≤ 8000 * 512
  · by_cases h2500 : freqHz ≤ 2500 * 512
    · left
      have hband : pllBand freqHz = ⟨8, 108, 0x389F83BE4⟩ := by
        rw [pllBand, if_pos h8000, if_pos h2500]
      exact ⟨hlo', UInt32.le_iff_toNat_le.mp h2500, by rw [hband]; rfl, by rw [hband]; rfl,
        by rw [hband]; rfl⟩
    · by_cases h4000 : freqHz ≤ 4000 * 512
      · right; left
        have hband : pllBand freqHz = ⟨4, 108, 0x1C4FC1DF2⟩ := by
          rw [pllBand, if_pos h8000, if_neg h2500, if_pos h4000]
        exact ⟨hle _ h2500, UInt32.le_iff_toNat_le.mp h4000, by rw [hband]; rfl,
          by rw [hband]; rfl, by rw [hband]; rfl⟩
      · right; right; left
        have hband : pllBand freqHz = ⟨2, 108, 0xE27E0EF9⟩ := by
          rw [pllBand, if_pos h8000, if_neg h2500, if_neg h4000]
        exact ⟨hle _ h4000, UInt32.le_iff_toNat_le.mp h8000, by rw [hband]; rfl,
          by rw [hband]; rfl, by rw [hband]; rfl⟩
  · right; right; right
    by_cases h19531 : freqHz ≤ 19531 * 512
    · left
      have hband : pllBand freqHz = ⟨2, 72, 0x96FEB4A6⟩ := by
        rw [pllBand, if_neg h8000, if_pos h19531]
      exact ⟨hle _ h8000, UInt32.le_iff_toNat_le.mp h19531, by rw [hband]; rfl,
        by rw [hband]; rfl, by rw [hband]; rfl⟩
    · by_cases h66000 : freqHz ≤ 66000 * 512
      · right; left
        have hband : pllBand freqHz = ⟨2, 36, 0x4B7F5A53⟩ := by
          rw [pllBand, if_neg h8000, if_neg h19531, if_pos h66000]
        exact ⟨hle _ h19531, UInt32.le_iff_toNat_le.mp h66000, by rw [hband]; rfl,
          by rw [hband]; rfl, by rw [hband]; rfl⟩
      · right; right
        have hband : pllBand freqHz = ⟨2, 18, 0x25BFAD2A⟩ := by
          rw [pllBand, if_neg h8000, if_neg h19531, if_neg h66000]
        exact ⟨hle _ h66000, hhi', by rw [hband]; rfl, by rw [hband]; rfl, by rw [hband]; rfl⟩

/-! ## The product -/

/-- The 64-bit computation is exact. -/
theorem pllProduct_fits {freqHz : UInt32} (hlo : 512000 ≤ freqHz) (hhi : freqHz ≤ 96000000) :
    (pllBand freqHz).factor.toNat * freqHz.toNat + 0x80000000 < 2 ^ 64 := by
  rcases pllBand_cases hlo hhi with h | h | h | h | h | h
  all_goals
    have hle := h.le
    rw [h.factor_eq]
    omega

theorem pllProduct_toNat {freqHz : UInt32} (hlo : 512000 ≤ freqHz) (hhi : freqHz ≤ 96000000) :
    (pllProduct freqHz).toNat = (pllBand freqHz).factor.toNat * freqHz.toNat + 0x80000000 := by
  have hfits := pllProduct_fits hlo hhi
  have hmul : (pllBand freqHz).factor.toNat * freqHz.toNat < 2 ^ 64 := by omega
  unfold pllProduct
  rw [UInt64.toNat_add, UInt64.toNat_mul, UInt32.toNat_toUInt64, Nat.mod_eq_of_lt hmul]
  exact Nat.mod_eq_of_lt hfits

/-- The multiplier is the product over 2^32, rounded. -/
theorem sdmin_toNat {freqHz : UInt32} (hlo : 512000 ≤ freqHz) (hhi : freqHz ≤ 96000000) :
    (sdmin freqHz).toNat =
      ((pllBand freqHz).factor.toNat * freqHz.toNat + 0x80000000) / 2 ^ 32 := by
  have hfits := pllProduct_fits hlo hhi
  unfold sdmin
  rw [UInt64.toNat_toUInt32, UInt64.toNat_shiftRight, pllProduct_toNat hlo hhi]
  show _ >>> 32 % 2 ^ 32 = _
  rw [Nat.shiftRight_eq_div_pow, Nat.mod_eq_of_lt]
  omega

/-- The multiplier in its band. -/
theorem InBand.sdmin_eq {freqHz : UInt32} {lo hi prediv div factor : Nat}
    (h : InBand freqHz lo hi prediv div factor) (hlo : 512000 ≤ freqHz)
    (hhi : freqHz ≤ 96000000) :
    (sdmin freqHz).toNat = (factor * freqHz.toNat + 0x80000000) / 2 ^ 32 := by
  rw [sdmin_toNat hlo hhi, h.factor_eq]

/-! ## The settings -/

/-- Each setting fits the field it is written to. -/
theorem pllFields_fit {freqHz : UInt32} (hlo : 512000 ≤ freqHz) (hhi : freqHz ≤ 96000000) :
    (sdmin freqHz).toNat < 2 ^ 24 ∧ (pllBand freqHz).div.toNat < 2 ^ 7 ∧
      (pllBand freqHz).prediv.toNat < 2 ^ 4 := by
  rcases pllBand_cases hlo hhi with h | h | h | h | h | h
  all_goals
    have hle := h.le
    rw [h.sdmin_eq hlo hhi, h.div_eq, h.prediv_eq]
    omega

/-- The rounding of the product and of the constant together stay within 0.51 units. -/
theorem pll_accurate {freqHz : UInt32} (hlo : 512000 ≤ freqHz) (hhi : freqHz ≤ 96000000) :
    100 * |pllError freqHz| ≤ 51 * crystalHz := by
  have hcrystal : (crystalHz : ℤ) = 32000000 := rfl
  have hbounds : 100 * pllError freqHz ≤ 51 * crystalHz ∧
      -(51 * crystalHz) ≤ 100 * pllError freqHz := by
    unfold pllError
    rcases pllBand_cases hlo hhi with h | h | h | h | h | h
    all_goals
      have hgt := h.gt
      have hle := h.le
      rw [h.sdmin_eq hlo hhi, h.div_eq, h.prediv_eq, hcrystal]
      omega
  rcases abs_cases (pllError freqHz) with ⟨heq, -⟩ | ⟨heq, -⟩
  · rw [heq]
    exact hbounds.1
  · rw [heq]
    linarith [hbounds.2]

/-! ## The clock -/

/-- Two clocks compare as their multipliers over the dividers do. -/
theorem pllClock_le {f g : UInt32} (hf : 0 < (pllBand f).prediv.toNat * (pllBand f).div.toNat)
    (hg : 0 < (pllBand g).prediv.toNat * (pllBand g).div.toNat)
    (h : (sdmin f).toNat * ((pllBand g).prediv.toNat * (pllBand g).div.toNat) ≤
      (sdmin g).toNat * ((pllBand f).prediv.toNat * (pllBand f).div.toNat)) :
    pllClock f ≤ pllClock g := by
  have hf' : (0 : ℚ) < (pllBand f).prediv.toNat * (pllBand f).div.toNat := by exact_mod_cast hf
  have hg' : (0 : ℚ) < (pllBand g).prediv.toNat * (pllBand g).div.toNat := by exact_mod_cast hg
  have h' : ((sdmin f).toNat : ℚ) * ((pllBand g).prediv.toNat * (pllBand g).div.toNat) ≤
      (sdmin g).toNat * ((pllBand f).prediv.toNat * (pllBand f).div.toNat) := by exact_mod_cast h
  have hcrystal : (0 : ℚ) ≤ crystalHz * 2 ^ 17 := by positivity
  unfold pllClock
  rw [div_le_div_iff₀ (by linarith) (by linarith)]
  have := mul_le_mul_of_nonneg_left h' hcrystal
  linarith

/-- The clock never falls when the frequency rises, within a band or into the next. -/
theorem pll_monotone {f g : UInt32} (hlo : 512000 ≤ f) (hfg : f ≤ g) (hhi : g ≤ 96000000) :
    pllClock f ≤ pllClock g := by
  have hfhi := UInt32.le_trans hfg hhi
  have hglo := UInt32.le_trans hlo hfg
  have hle : f.toNat ≤ g.toNat := UInt32.le_iff_toNat_le.mp hfg
  rcases pllBand_cases hlo hfhi with hf | hf | hf | hf | hf | hf <;>
    rcases pllBand_cases hglo hhi with hg | hg | hg | hg | hg | hg
  all_goals
    have hflo := hf.gt
    have hfle := hf.le
    have hggt := hg.gt
    have hgle := hg.le
    apply pllClock_le
    · rw [hf.prediv_eq, hf.div_eq]
      decide
    · rw [hg.prediv_eq, hg.div_eq]
      decide
    · rw [hf.sdmin_eq hlo hfhi, hg.sdmin_eq hglo hhi, hf.prediv_eq, hf.div_eq, hg.prediv_eq,
        hg.div_eq]
      omega

/-- For every frequency that `I2S_init` admits: the computation is exact in 64 bits, each
setting fits its field, the multiplier is accurate to 0.51 units, and the clock rises
with the frequency. -/
theorem audioPll_law {freqHz : UInt32} (hlo : 512000 ≤ freqHz) (hhi : freqHz ≤ 96000000) :
    ((pllBand freqHz).factor.toNat * freqHz.toNat + 0x80000000 < 2 ^ 64 ∧
      (pllProduct freqHz).toNat = (pllBand freqHz).factor.toNat * freqHz.toNat + 0x80000000) ∧
    ((sdmin freqHz).toNat < 2 ^ 24 ∧ (pllBand freqHz).div.toNat < 2 ^ 7 ∧
      (pllBand freqHz).prediv.toNat < 2 ^ 4) ∧
    100 * |pllError freqHz| ≤ 51 * crystalHz ∧
    ∀ g, freqHz ≤ g → g ≤ 96000000 → pllClock freqHz ≤ pllClock g :=
  ⟨⟨pllProduct_fits hlo hhi, pllProduct_toNat hlo hhi⟩, pllFields_fit hlo hhi,
    pll_accurate hlo hhi, fun _ hle hghi => pll_monotone hlo hle hghi⟩

/-- The clock of a converter at 48 kHz. -/
theorem audioPll_law_48k :
    ((pllBand 24576000).factor.toNat * (24576000 : UInt32).toNat + 0x80000000 < 2 ^ 64 ∧
      (pllProduct 24576000).toNat =
        (pllBand 24576000).factor.toNat * (24576000 : UInt32).toNat + 0x80000000) ∧
    ((sdmin 24576000).toNat < 2 ^ 24 ∧ (pllBand 24576000).div.toNat < 2 ^ 7 ∧
      (pllBand 24576000).prediv.toNat < 2 ^ 4) ∧
    100 * |pllError 24576000| ≤ 51 * crystalHz ∧
    ∀ g, 24576000 ≤ g → g ≤ 96000000 → pllClock 24576000 ≤ pllClock g :=
  audioPll_law (by decide) (by decide)
