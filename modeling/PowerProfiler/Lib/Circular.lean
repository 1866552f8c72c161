-- SUMMARY: Circular windows over a memory: slots modulo the size, what a window holds, and linear and circular copies into it.
import Mathlib

/-!
# Circular windows

A memory is a function from addresses to values. The slot `i` of the window that
starts at `start` in a ring of `n` cells is `(start + i) % n`. `Holds` reads a
window as a list, `copyTo` writes a list at consecutive addresses, and `fill`
writes it slot by slot around the ring.
-/

namespace Circular

variable {α : Type}

/-- The address of the `i`-th cell after `start` in a ring of `n` cells. -/
def slot (n start i : Nat) : Nat := (start + i) % n

theorem slot_lt {n : Nat} (hn : 0 < n) (start i : Nat) : slot n start i < n := Nat.mod_lt _ hn

theorem slot_of_lt {n start i : Nat} (h : start + i < n) : slot n start i = start + i :=
  Nat.mod_eq_of_lt h

theorem slot_of_ge {n start i : Nat} (h : n ≤ start + i) (h' : start + i < n + n) :
    slot n start i = start + i - n := by
  rw [slot, Nat.mod_eq_sub_mod h, Nat.mod_eq_of_lt (by omega)]

theorem slot_slot (n start i j : Nat) : slot n (slot n start i) j = slot n start (i + j) := by
  simp [slot, Nat.add_assoc]

theorem slot_mod (n start i : Nat) : slot n (start % n) i = slot n start i := by
  simp [slot]

/-- Within one revolution different offsets have different slots. -/
theorem slot_inj {n start i j : Nat} (hi : i < n) (hj : j < n)
    (h : slot n start i = slot n start j) : i = j := by
  have hmod : i ≡ j [MOD n] := Nat.ModEq.add_left_cancel' start h
  simpa [Nat.ModEq, Nat.mod_eq_of_lt hi, Nat.mod_eq_of_lt hj] using hmod

/-! ## Windows -/

/-- The window that starts at `start` holds the list `xs`. -/
def Holds (mem : Nat → α) (n start : Nat) (xs : List α) : Prop :=
  ∀ i (h : i < xs.length), mem (slot n start i) = xs[i]

theorem Holds.nil (mem : Nat → α) (n start : Nat) : Holds mem n start [] := by
  intro i h
  simp at h

theorem holds_append {mem : Nat → α} {n start : Nat} {xs ys : List α} :
    Holds mem n start (xs ++ ys) ↔
      Holds mem n start xs ∧ Holds mem n (slot n start xs.length) ys := by
  constructor
  · intro h
    refine ⟨fun i hi => ?_, fun i hi => ?_⟩
    · rw [h i (by simp; omega), List.getElem_append_left hi]
    · rw [slot_slot, h (xs.length + i) (by simp; omega)]
      simp
  · rintro ⟨hx, hy⟩ i hi
    by_cases hlt : i < xs.length
    · rw [List.getElem_append_left hlt, hx i hlt]
    · have := hy (i - xs.length) (by simp at hi; omega)
      rw [slot_slot, Nat.add_sub_cancel' (by omega)] at this
      rw [this, List.getElem_append_right (by omega)]

/-- A memory that agrees on the slots of a window holds the same list. -/
theorem Holds.congr {mem mem' : Nat → α} {n start : Nat} {xs : List α}
    (h : Holds mem n start xs) (hmem : ∀ i, i < xs.length → mem' (slot n start i) = mem (slot n start i)) :
    Holds mem' n start xs := by
  intro i hi
  rw [hmem i hi, h i hi]

/-- A window holds one list of each length. -/
theorem Holds.unique {mem : Nat → α} {n start : Nat} {xs ys : List α}
    (hx : Holds mem n start xs) (hy : Holds mem n start ys) (hlen : xs.length = ys.length) :
    xs = ys := by
  apply List.ext_getElem hlen
  intro i hi hi'
  rw [← hx i hi, hy i hi']

/-- Short of the end of the ring a window is read at consecutive addresses. -/
theorem Holds.map_range' {mem : Nat → α} {n start k : Nat} {xs : List α}
    (h : Holds mem n start xs) (hk : k ≤ xs.length) (hn : start + k ≤ n) :
    (List.range' start k).map mem = xs.take k := by
  apply List.ext_getElem
  · simp [hk]
  · intro i hi _
    simp only [List.length_map, List.length_range'] at hi
    have hcell := h i (by omega)
    rw [slot_of_lt (by omega)] at hcell
    simpa using hcell

/-! ## Copies -/

/-- Write a list at consecutive addresses from `dst`. -/
def copyTo (mem : Nat → α) : Nat → List α → Nat → α
  | _, [] => mem
  | dst, x :: xs => copyTo (Function.update mem dst x) (dst + 1) xs

@[simp] theorem copyTo_nil (mem : Nat → α) (dst : Nat) : copyTo mem dst [] = mem := rfl

/-- A copy leaves the addresses outside it alone. -/
theorem copyTo_frame {mem : Nat → α} {dst a : Nat} {xs : List α}
    (h : a < dst ∨ dst + xs.length ≤ a) : copyTo mem dst xs a = mem a := by
  induction xs generalizing mem dst with
  | nil => rfl
  | cons x xs ih =>
      simp only [List.length_cons] at h
      rw [copyTo, ih (by omega), Function.update_of_ne (by omega)]

theorem copyTo_get {mem : Nat → α} {dst i : Nat} {xs : List α} (h : i < xs.length) :
    copyTo mem dst xs (dst + i) = xs[i] := by
  induction xs generalizing mem dst i with
  | nil => simp at h
  | cons x xs ih =>
      cases i with
      | zero => rw [copyTo, copyTo_frame (by omega)]; simp
      | succ i =>
          have := @ih (Function.update mem dst x) (dst + 1) i (by simpa using h)
          simpa [copyTo, Nat.add_assoc, Nat.add_comm 1 i] using this

theorem copyTo_append (mem : Nat → α) (dst : Nat) (xs ys : List α) :
    copyTo mem dst (xs ++ ys) = copyTo (copyTo mem dst xs) (dst + xs.length) ys := by
  induction xs generalizing mem dst with
  | nil => rfl
  | cons x xs ih => simp [copyTo, ih, Nat.add_assoc, Nat.add_comm 1]

/-- Write a list slot by slot around a ring of `n` cells. -/
def fill (mem : Nat → α) (n : Nat) : Nat → List α → Nat → α
  | _, [] => mem
  | start, x :: xs => fill (Function.update mem (start % n) x) n (start + 1) xs

@[simp] theorem fill_nil (mem : Nat → α) (n start : Nat) : fill mem n start [] = mem := rfl

theorem fill_append (mem : Nat → α) (n start : Nat) (xs ys : List α) :
    fill mem n start (xs ++ ys) = fill (fill mem n start xs) n (start + xs.length) ys := by
  induction xs generalizing mem start with
  | nil => rfl
  | cons x xs ih => simp [fill, ih, Nat.add_assoc, Nat.add_comm 1]

theorem fill_congr_start (mem : Nat → α) {n s s' : Nat} (h : s % n = s' % n) (xs : List α) :
    fill mem n s xs = fill mem n s' xs := by
  induction xs generalizing mem s s' with
  | nil => rfl
  | cons x xs ih =>
      rw [fill, fill, h]
      exact ih _ (by rw [Nat.add_mod, h, ← Nat.add_mod])

/-- Short of the end of the ring a circular write is a linear copy. -/
theorem fill_eq_copyTo (mem : Nat → α) {n start : Nat} {xs : List α}
    (h : start + xs.length ≤ n) : fill mem n start xs = copyTo mem start xs := by
  induction xs generalizing mem start with
  | nil => rfl
  | cons x xs ih =>
      simp only [List.length_cons] at h
      rw [fill, copyTo, Nat.mod_eq_of_lt (by omega), ih _ (by omega)]

/-- Past the end of the ring a circular write is two linear copies, the second
from address zero. -/
theorem fill_eq_copyTo_copyTo (mem : Nat → α) {n start : Nat} {xs : List α} (hs : start ≤ n)
    (h : n ≤ start + xs.length) (h' : xs.length ≤ n) :
    fill mem n start xs =
      copyTo (copyTo mem start (xs.take (n - start))) 0 (xs.drop (n - start)) := by
  have hlen : (xs.take (n - start)).length = n - start := by simp; omega
  have hrest : (xs.drop (n - start)).length ≤ n := by simp; omega
  calc fill mem n start xs
      = fill mem n start (xs.take (n - start) ++ xs.drop (n - start)) := by
        rw [List.take_append_drop]
    _ = fill (copyTo mem start (xs.take (n - start))) n n (xs.drop (n - start)) := by
        rw [fill_append, fill_eq_copyTo mem (by omega), hlen, Nat.add_sub_cancel' hs]
    _ = fill (copyTo mem start (xs.take (n - start))) n 0 (xs.drop (n - start)) :=
        fill_congr_start _ (by simp) _
    _ = _ := fill_eq_copyTo _ (by omega)

/-- A circular write leaves the slots outside it alone. -/
theorem fill_frame {mem : Nat → α} {n start a : Nat} {xs : List α}
    (h : ∀ i, i < xs.length → slot n start i ≠ a) : fill mem n start xs a = mem a := by
  induction xs generalizing mem start with
  | nil => rfl
  | cons x xs ih =>
      have hhead : start % n ≠ a := by simpa [slot] using h 0 (by simp)
      have htail : ∀ i, i < xs.length → slot n (start + 1) i ≠ a := by
        intro i hi
        simpa [slot, Nat.add_assoc, Nat.add_comm 1 i] using h (i + 1) (by simpa using hi)
      rw [fill, ih htail, Function.update_of_ne hhead.symm]

/-- What a circular write leaves in a cell depends on that cell alone. -/
theorem fill_congr_mem {mem mem' : Nat → α} {a : Nat} (h : mem a = mem' a) (n start : Nat)
    (xs : List α) : fill mem n start xs a = fill mem' n start xs a := by
  induction xs generalizing mem mem' start with
  | nil => exact h
  | cons x xs ih =>
      apply ih
      by_cases ha : a = start % n
      · simp [ha]
      · rw [Function.update_of_ne ha, Function.update_of_ne ha, h]

theorem holds_fill (mem : Nat → α) {n start : Nat} {xs : List α} (h : xs.length ≤ n) :
    Holds (fill mem n start xs) n start xs := by
  induction xs generalizing mem start with
  | nil => exact Holds.nil _ _ _
  | cons x xs ih =>
      simp only [List.length_cons] at h
      intro i hi
      cases i with
      | zero =>
          have hne : ∀ i, i < xs.length → slot n (start + 1) i ≠ start % n := by
            intro i hi heq
            have : slot n start (i + 1) = slot n start 0 := by
              simpa [slot, Nat.add_assoc, Nat.add_comm 1 i] using heq
            have := slot_inj (by omega) (by omega) this
            omega
          have hslot : slot n start 0 = start % n := by simp [slot]
          rw [fill, hslot, fill_frame hne]
          simp
      | succ i =>
          have hrest : Holds (Circular.fill (Function.update mem (start % n) x) n (start + 1) xs) n
              (start + 1) xs := ih _ (by omega)
          have := hrest i (by simpa using hi)
          rw [fill]
          simpa [slot, Nat.add_assoc, Nat.add_comm 1 i] using this

/-- However long the list that went around the ring, its last `n` items are there. -/
theorem holds_fill_drop (mem : Nat → α) {n m : Nat} {xs : List α} (hm : m ≤ xs.length)
    (h : xs.length ≤ m + n) : Holds (fill mem n 0 xs) n m (xs.drop m) := by
  have hsplit : fill mem n 0 xs = fill (fill mem n 0 (xs.take m)) n m (xs.drop m) := by
    conv_lhs => rw [← List.take_append_drop m xs, fill_append]
    simp [hm]
  rw [hsplit]
  exact holds_fill _ (by simp; omega)

/-- Writing a list right behind a window extends it, as long as both fit. -/
theorem Holds.fill {mem : Nat → α} {n start : Nat} {xs ys : List α} (h : Holds mem n start xs)
    (hlen : xs.length + ys.length ≤ n) :
    Holds (Circular.fill mem n (start + xs.length) ys) n start (xs ++ ys) := by
  rw [holds_append]
  constructor
  · apply h.congr
    intro i hi
    apply fill_frame
    intro j hj heq
    have heq' : slot n start (xs.length + j) = slot n start i := by
      simpa [slot, Nat.add_assoc] using heq
    have := slot_inj (by omega) (by omega) heq'
    omega
  · have hhold : Holds (Circular.fill mem n (start + xs.length) ys) n (start + xs.length) ys :=
      holds_fill mem (by omega)
    intro i hi
    rw [← hhold i hi, slot_slot]
    simp [slot, Nat.add_assoc]

end Circular
