-- SUMMARY: Chains of nodes in an array: the work along a stretch of linked nodes, and round after round of a closed chain.
import Mathlib

/-!
# Chains

Nodes lie in an array and name their successor by its index. A walk does the work of a node
and goes on to its successor.
-/

namespace Chain

variable {N E : Type} (next : N → Option Nat) (work : N → List E)

/-- The work of at most so many nodes, from the given one on. -/
def walk (mem : Nat → N) : Nat → Option Nat → List E
  | 0, _ => []
  | _ + 1, none => []
  | n + 1, some i => work (mem i) ++ walk mem n (next (mem i))

/-- The work of the `n` nodes from `base` on. -/
def stretch (mem : Nat → N) (base n : Nat) : List E :=
  (List.range n).flatMap fun i => work (mem (base + i))

variable {next work} {mem : Nat → N} {base n : Nat}

@[simp] theorem walk_none (n : Nat) : walk next work mem n none = [] := by
  cases n <;> rfl

theorem stretch_zero : stretch work mem base 0 = [] := rfl

theorem stretch_succ : stretch work mem base (n + 1) =
    work (mem base) ++ stretch work mem (base + 1) n := by
  simp only [stretch, List.range_succ_eq_map, List.flatMap_cons, List.flatMap_map, Nat.add_zero,
    Nat.add_comm 1, Nat.succ_eq_add_one, Nat.add_assoc]

theorem stretch_snoc : stretch work mem base (n + 1) =
    stretch work mem base n ++ work (mem (base + n)) := by
  simp [stretch, List.range_succ]

theorem stretch_add (m : Nat) : stretch work mem base (m + n) =
    stretch work mem base m ++ stretch work mem (base + m) n := by
  induction n with
  | zero => simp [stretch_zero]
  | succ n ih => rw [← Nat.add_assoc, stretch_snoc, stretch_snoc, ih, List.append_assoc, Nat.add_assoc]

theorem stretch_congr {mem' : Nat → N} {base' : Nat}
    (h : ∀ i < n, work (mem' (base' + i)) = work (mem (base + i))) :
    stretch work mem' base' n = stretch work mem base n := by
  unfold stretch
  rw [List.flatMap_def, List.flatMap_def,
    List.map_congr_left fun i hi => h i (List.mem_range.mp hi)]

/-- Each node of the stretch but the last is linked to the one behind it. -/
def Linked (next : N → Option Nat) (mem : Nat → N) (base n : Nat) : Prop :=
  ∀ i, i + 1 < n → next (mem (base + i)) = some (base + i + 1)

theorem Linked.tail (h : Linked next mem base (n + 1)) : Linked next mem (base + 1) n := by
  intro i hi
  have hnext := h (i + 1) (by omega)
  rwa [← Nat.add_assoc, Nat.add_right_comm base i 1] at hnext

/-- A walk along the stretch, and on from its last node. -/
theorem walk_linked (h : Linked next mem base (n + 1)) (k : Nat) :
    walk next work mem (n + 1 + k) (some base) =
      stretch work mem base (n + 1) ++ walk next work mem k (next (mem (base + n))) := by
  induction n generalizing base with
  | zero =>
      rw [Nat.zero_add, Nat.add_comm, walk, stretch_succ, stretch_zero, List.append_nil, Nat.add_zero]
  | succ n ih =>
      have hnext := h 0 (by omega)
      rw [Nat.add_zero] at hnext
      have hlast : base + 1 + n = base + (n + 1) := by omega
      have hstretch : stretch work mem base (n + 1 + 1) =
          work (mem base) ++ stretch work mem (base + 1) (n + 1) := stretch_succ
      rw [Nat.add_right_comm (n + 1) 1 k, walk, hnext, ih h.tail, hlast, hstretch, List.append_assoc]

/-- Rounds of a chain that is closed. -/
theorem walk_rounds (h : Linked next mem base (n + 1))
    (hclosed : next (mem (base + n)) = some base) (rounds : Nat) :
    walk next work mem (rounds * (n + 1)) (some base) =
      (List.replicate rounds (stretch work mem base (n + 1))).flatten := by
  induction rounds with
  | zero => simp [walk]
  | succ rounds ih =>
      rw [Nat.succ_mul, Nat.add_comm, walk_linked h, hclosed, ih, List.replicate_succ,
        List.flatten_cons]

end Chain
