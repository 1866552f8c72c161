-- SUMMARY: Bytes put together into words by shifts and disjunctions, as sums, and words taken apart into bytes.
import Mathlib

/-!
# Bytes of a word

Shifted bytes do not overlap, so their disjunction is their sum. `le` takes a word apart
again, little end first.
-/

namespace Bytes

theorem or_shiftLeft {a b k : Nat} (h : b < 2 ^ k) : b ||| a <<< k = b + a * 2 ^ k := by
  rw [Nat.or_comm, ← Nat.shiftLeft_add_eq_or_of_lt h, Nat.shiftLeft_eq, Nat.add_comm]

theorem toNat_shiftLeft8 (b : UInt8) : (b.toUInt32 <<< 8).toNat = b.toNat <<< 8 := by
  have h := b.toNat_lt
  simp [Nat.shiftLeft_eq]
  omega

theorem toNat_shiftLeft16 (b : UInt8) : (b.toUInt32 <<< 16).toNat = b.toNat <<< 16 := by
  have h := b.toNat_lt
  simp [Nat.shiftLeft_eq]
  omega

theorem toNat_shiftLeft24 (b : UInt8) : (b.toUInt32 <<< 24).toNat = b.toNat <<< 24 := by
  have h := b.toNat_lt
  simp [Nat.shiftLeft_eq]
  omega

theorem toNat_or3 (b0 b1 b2 : UInt8) :
    (b0.toUInt32 ||| (b1.toUInt32 <<< 8) ||| (b2.toUInt32 <<< 16)).toNat =
      b0.toNat + b1.toNat * 2 ^ 8 + b2.toNat * 2 ^ 16 := by
  have h0 := b0.toNat_lt
  have h1 := b1.toNat_lt
  rw [UInt32.toNat_or, UInt32.toNat_or, toNat_shiftLeft8, toNat_shiftLeft16, UInt8.toNat_toUInt32,
    or_shiftLeft h0, or_shiftLeft (by omega)]

theorem toNat_or4 (b0 b1 b2 b3 : UInt8) :
    (b0.toUInt32 ||| (b1.toUInt32 <<< 8) ||| (b2.toUInt32 <<< 16) |||
      (b3.toUInt32 <<< 24)).toNat =
      b0.toNat + b1.toNat * 2 ^ 8 + b2.toNat * 2 ^ 16 + b3.toNat * 2 ^ 24 := by
  have h0 := b0.toNat_lt
  have h1 := b1.toNat_lt
  have h2 := b2.toNat_lt
  rw [UInt32.toNat_or, toNat_or3, toNat_shiftLeft24, or_shiftLeft (by omega)]

/-- The lowest bytes of a word, little end first. -/
def le : Nat → UInt32 → List UInt8
  | 0, _ => []
  | n + 1, w => w.toUInt8 :: le n (w >>> 8)

@[simp] theorem length_le (n : Nat) (w : UInt32) : (le n w).length = n := by
  induction n generalizing w with
  | zero => rfl
  | succ n ih => rw [le, List.length_cons, ih]

theorem toNat_shiftRight8 (w : UInt32) : (w >>> 8).toNat = w.toNat / 256 := by
  rw [UInt32.toNat_shiftRight]
  exact Nat.shiftRight_eq_div_pow _ 8

theorem toUInt8_eq {w : UInt32} {b : UInt8} (h : w.toNat % 256 = b.toNat) : w.toUInt8 = b := by
  rw [← UInt8.toNat_inj, UInt32.toNat_toUInt8]
  exact h

theorem le3_or3 (b0 b1 b2 : UInt8) :
    le 3 (b0.toUInt32 ||| (b1.toUInt32 <<< 8) ||| (b2.toUInt32 <<< 16)) = [b0, b1, b2] := by
  have h := toNat_or3 b0 b1 b2
  have h0 := b0.toNat_lt
  have h1 := b1.toNat_lt
  have h2 := b2.toNat_lt
  rw [le, le, le, le, @toUInt8_eq _ b0, @toUInt8_eq _ b1, @toUInt8_eq _ b2]
  · rw [toNat_shiftRight8, toNat_shiftRight8, h]
    omega
  · rw [toNat_shiftRight8, h]
    omega
  · rw [h]
    omega

/-- The three lowest bytes depend on the word modulo `2 ^ 24` only. -/
theorem le3_congr {w w' : UInt32} (h : w.toNat % 2 ^ 24 = w'.toNat % 2 ^ 24) :
    le 3 w = le 3 w' := by
  rw [le, le, le, le, le, le, le, le, @toUInt8_eq w w'.toUInt8,
    @toUInt8_eq (w >>> 8) (w' >>> 8).toUInt8, @toUInt8_eq (w >>> 8 >>> 8) (w' >>> 8 >>> 8).toUInt8]
  · rw [UInt32.toNat_toUInt8]
    simp only [toNat_shiftRight8]
    omega
  · rw [UInt32.toNat_toUInt8]
    simp only [toNat_shiftRight8]
    omega
  · rw [UInt32.toNat_toUInt8]
    omega

end Bytes
