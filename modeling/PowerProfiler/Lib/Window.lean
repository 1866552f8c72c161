-- SUMMARY: Linear stretches of a memory read as lists, and what a copy leaves in them.
import PowerProfiler.Lib.Circular

/-!
# Linear windows

`read` is the list of values at consecutive addresses. A copy (`Circular.copyTo`) puts
its list where it is sent and leaves every stretch beside it alone.
-/

namespace Window

open Circular

variable {α : Type}

/-- The `n` values from `start` on. -/
def read (mem : Nat → α) (start n : Nat) : List α := (List.range' start n).map mem

variable {mem : Nat → α} {start n : Nat}

@[simp] theorem length_read : (read mem start n).length = n := by simp [read]

@[simp] theorem read_zero : read mem start 0 = [] := rfl

theorem read_succ : read mem start (n + 1) = mem start :: read mem (start + 1) n := by
  simp [read, List.range'_succ]

@[simp] theorem getElem_read {i : Nat} (h : i < (read mem start n).length) :
    (read mem start n)[i] = mem (start + i) := by
  simp [read]

theorem read_add (mem : Nat → α) (start m n : Nat) :
    read mem start (m + n) = read mem start m ++ read mem (start + m) n := by
  rw [read, ← List.range'_append_1, List.map_append]
  rfl

theorem take_read {k : Nat} (h : k ≤ n) : (read mem start n).take k = read mem start k := by
  obtain ⟨m, rfl⟩ := Nat.exists_eq_add_of_le h
  rw [read_add, List.take_left' length_read]

theorem read_min (mem : Nat → α) (start n k : Nat) :
    read mem start (min n k) = (read mem start n).take k := by
  rw [← take_read (min_le_left n k), List.take_eq_take_min (i := k), length_read, min_comm]

theorem drop_read {k : Nat} (h : k ≤ n) :
    (read mem start n).drop k = read mem (start + k) (n - k) := by
  obtain ⟨m, rfl⟩ := Nat.exists_eq_add_of_le h
  rw [read_add, List.drop_left' length_read, Nat.add_sub_cancel_left]

theorem read_congr {mem' : Nat → α} (h : ∀ a, start ≤ a → a < start + n → mem' a = mem a) :
    read mem' start n = read mem start n := by
  apply List.map_congr_left
  intro a ha
  rw [List.mem_range'_1] at ha
  exact h a ha.1 ha.2

/-- A copy is read back where it was sent. -/
theorem read_copyTo (mem : Nat → α) (dst : Nat) (xs : List α) :
    read (copyTo mem dst xs) dst xs.length = xs := by
  apply List.ext_getElem
  · simp
  · intro i hi hi'
    rw [getElem_read, copyTo_get hi']

/-- A copy leaves what lies before it alone. -/
theorem read_copyTo_before {dst : Nat} (xs : List α) (h : start + n ≤ dst) :
    read (copyTo mem dst xs) start n = read mem start n :=
  read_congr fun a _ ha => copyTo_frame (.inl (by omega))

/-- A copy right behind a stretch extends it. -/
theorem read_copyTo_append (mem : Nat → α) (start n : Nat) (xs : List α) :
    read (copyTo mem (start + n) xs) start (n + xs.length) = read mem start n ++ xs := by
  rw [read_add, read_copyTo_before xs (le_refl _), read_copyTo]

end Window
