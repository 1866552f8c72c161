-- SUMMARY: Bounded queues as lists: appending what fits, and appending over the oldest, in one go or twice.
import Mathlib

/-!
# Bounded queues

A queue of at most `n` items is a list, oldest first. `offer` appends as many of the new
items as fit; `overwrite` appends all of them and lets the oldest give way, which may be
done in one go or piece by piece.
-/

namespace BoundedQueue

variable {α : Type}

/-- Append what fits; the rest of the new items is dropped. -/
def offer (n : Nat) (q xs : List α) : List α := q ++ xs.take (n - q.length)

/-- Append everything; only the last `n` items stay. -/
def overwrite (n : Nat) (q xs : List α) : List α := (q ++ xs).rtake n

variable {n : Nat} {q xs ys : List α}

@[simp] theorem offer_nil (n : Nat) (q : List α) : offer n q [] = q := by simp [offer]

@[simp] theorem length_offer (n : Nat) (q xs : List α) :
    (offer n q xs).length = q.length + min (n - q.length) xs.length := by
  simp [offer]

theorem offer_fits (h : q.length + xs.length ≤ n) : offer n q xs = q ++ xs := by
  rw [offer, List.take_of_length_le (by omega)]

theorem offer_full (h : n ≤ q.length) : offer n q xs = q := by
  rw [offer, Nat.sub_eq_zero_of_le h, List.take_zero, List.append_nil]

/-! ## Overwriting -/

theorem rtake_of_length_le (h : xs.length ≤ n) : xs.rtake n = xs := by
  rw [List.rtake, Nat.sub_eq_zero_of_le h, List.drop_zero]

@[simp] theorem length_rtake (n : Nat) (xs : List α) : (xs.rtake n).length = min n xs.length := by
  simp [List.rtake]
  omega

theorem rtake_append (n : Nat) (xs ys : List α) :
    (xs ++ ys).rtake n = xs.rtake (n - ys.length) ++ ys.rtake n := by
  simp [List.rtake_eq_reverse_take_reverse, List.take_append]

theorem rtake_rtake {m : Nat} (h : m ≤ n) (xs : List α) : (xs.rtake n).rtake m = xs.rtake m := by
  simp [List.rtake_eq_reverse_take_reverse, List.take_take, h]

@[simp] theorem length_overwrite (n : Nat) (q xs : List α) :
    (overwrite n q xs).length = min n (q.length + xs.length) := by
  simp [overwrite]

theorem overwrite_fits (h : q.length + xs.length ≤ n) : overwrite n q xs = q ++ xs :=
  rtake_of_length_le (by simpa using h)

@[simp] theorem overwrite_nil (h : q.length ≤ n) : overwrite n q [] = q := by
  rw [overwrite_fits (by simpa using h), List.append_nil]

/-- The new items that stay, behind the old ones that stay. -/
theorem overwrite_eq (h : xs.length ≤ n) :
    overwrite n q xs = q.drop (q.length + xs.length - n) ++ xs := by
  have hdrop : q.length - (n - xs.length) = q.length + xs.length - n := by omega
  rw [overwrite, rtake_append, rtake_of_length_le h, List.rtake, hdrop]

/-- Of new items beyond the bound only the last ones matter. -/
theorem overwrite_rtake (n : Nat) (q xs : List α) :
    overwrite n q (xs.rtake n) = overwrite n q xs := by
  have hlen : n - (xs.rtake n).length = n - xs.length := by
    rw [length_rtake]
    omega
  rw [overwrite, overwrite, rtake_append, rtake_append, hlen, rtake_rtake le_rfl]

/-- Overwriting twice is overwriting with both lists. -/
theorem overwrite_overwrite (n : Nat) (q xs ys : List α) :
    overwrite n (overwrite n q xs) ys = overwrite n q (xs ++ ys) := by
  rw [overwrite, overwrite, overwrite, ← List.append_assoc, rtake_append,
    rtake_rtake (Nat.sub_le _ _), ← rtake_append]

end BoundedQueue
