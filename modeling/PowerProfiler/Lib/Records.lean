-- SUMMARY: Tables of records that begin with their own length, and the loop that walks over them.
import Mathlib.Data.List.GetD
import Mathlib.Data.UInt

/-!
# Tables of records

A record begins with its length and a tag. A table is a sequence of records with a zero
behind it, and the loop `while (p[0] != 0) { …; p += p[0]; }` stops at each of them once.
-/

namespace Records

/-- A record: length, tag and contents. -/
structure Record where
  bytes : List UInt8
  length_eq : (bytes.getD 0 0).toNat = bytes.length
  two_le : 2 ≤ bytes.length

/-- The byte behind the length. -/
def tagAt (p : List UInt8) : UInt8 := p.getD 1 0

def hasTag (t : UInt8) (p : List UInt8) : Bool := tagAt p == t

def Record.tag (r : Record) : UInt8 := tagAt r.bytes

/-- The bytes of the records one behind the other. -/
def flat (rs : List Record) : List UInt8 := rs.flatMap Record.bytes

def table (rs : List Record) : List UInt8 := flat rs ++ [0]

/-! ## The loop -/

def pointersFrom : Nat → List UInt8 → List (List UInt8)
  | 0, _ => []
  | n + 1, p => if p.getD 0 0 = 0 then [] else p :: pointersFrom n (p.drop (p.getD 0 0).toNat)

/-- The values of `p` in the loop: the bytes from each of its stops on. -/
def pointers (p : List UInt8) : List (List UInt8) := pointersFrom p.length p

theorem pointersFrom_enough {n : Nat} {p : List UInt8} (h : p.length ≤ n) :
    pointersFrom n p = pointers p := by
  induction n using Nat.strongRecOn generalizing p with
  | ind n ih =>
      cases p with
      | nil => cases n <;> rfl
      | cons len rest =>
          obtain ⟨n, rfl⟩ : ∃ m, n = m + 1 := Nat.exists_eq_succ_of_ne_zero (by
            rintro rfl
            cases h)
          have hn : rest.length ≤ n := Nat.le_of_succ_le_succ h
          unfold pointers
          rw [List.length_cons, pointersFrom, pointersFrom]
          split
          · rfl
          next hne =>
            have hpos : 0 < ((len :: rest).getD 0 0).toNat :=
              Nat.pos_of_ne_zero fun h0 => hne (UInt8.toNat_inj.mp h0)
            have hdrop : ((len :: rest).drop ((len :: rest).getD 0 0).toNat).length ≤ rest.length := by
              rw [List.length_drop, List.length_cons]
              omega
            rw [ih n (Nat.lt_succ_self n) (hdrop.trans hn),
              ih rest.length (Nat.lt_succ_of_le hn) hdrop]

@[simp] theorem pointers_end (rest : List UInt8) : pointers (0 :: rest) = [] := rfl

/-- The loop stops at a record and goes on behind it. -/
theorem pointers_record (r : Record) (rest : List UInt8) :
    pointers (r.bytes ++ rest) = (r.bytes ++ rest) :: pointers rest := by
  have hlen := r.length_eq
  have htwo := r.two_le
  have hfirst : (r.bytes ++ rest).getD 0 0 = r.bytes.getD 0 0 :=
    List.getD_append _ _ _ _ (by omega)
  have hne : ¬ r.bytes.getD 0 0 = 0 := by
    intro h0
    rw [h0] at hlen
    change 0 = r.bytes.length at hlen
    omega
  obtain ⟨n, hn⟩ : ∃ n, (r.bytes ++ rest).length = n + 1 :=
    Nat.exists_eq_succ_of_ne_zero (by rw [List.length_append]; omega)
  have hrest : rest.length ≤ n := by
    rw [List.length_append] at hn
    omega
  rw [pointers, hn, pointersFrom, hfirst, if_neg hne, hlen, List.drop_left,
    pointersFrom_enough hrest]

/-- The bytes from each of the records on. -/
def stops : List Record → List UInt8 → List (List UInt8)
  | [], _ => []
  | r :: rs, rest => (r.bytes ++ (flat rs ++ rest)) :: stops rs rest

theorem stops_append (rs rs' : List Record) (rest : List UInt8) :
    stops (rs ++ rs') rest = stops rs (flat rs' ++ rest) ++ stops rs' rest := by
  induction rs with
  | nil => rfl
  | cons r rs ih =>
      have hflat : flat (rs ++ rs') = flat rs ++ flat rs' := List.flatMap_append
      rw [List.cons_append, stops, stops, ih, hflat, List.append_assoc]
      rfl

theorem pointers_flat (rs : List Record) (rest : List UInt8) :
    pointers (flat rs ++ rest) = stops rs rest ++ pointers rest := by
  induction rs with
  | nil => rfl
  | cons r rs ih =>
      have hflat : flat (r :: rs) ++ rest = r.bytes ++ (flat rs ++ rest) := by
        simp [flat]
      rw [hflat, pointers_record, ih]
      rfl

theorem pointers_table (rs : List Record) : pointers (table rs) = stops rs [0] := by
  rw [table, pointers_flat, pointers_end, List.append_nil]

section Visit

variable {σ : Type} {f : σ → List UInt8 → σ} {rs : List Record}

/-- A loop body over records. -/
def visit (f : σ → List UInt8 → σ) (s : σ) (rs : List Record) : σ :=
  rs.foldl (fun s r => f s r.bytes) s

theorem visit_cons (s : σ) (r : Record) (rs : List Record) :
    visit f s (r :: rs) = visit f (f s r.bytes) rs := rfl

theorem visit_append (s : σ) (rs rs' : List Record) :
    visit f s (rs ++ rs') = visit f (visit f s rs) rs' := List.foldl_append

/-- Records that change nothing. -/
theorem visit_unchanged {s : σ} (h : ∀ r ∈ rs, f s r.bytes = s) : visit f s rs = s := by
  induction rs with
  | nil => rfl
  | cons r rs ih =>
      rw [visit_cons, h r List.mem_cons_self]
      exact ih fun r' hr' => h r' (List.mem_cons_of_mem _ hr')

/-- A loop whose body only looks at the record that it stops at. -/
theorem foldl_stops (h : ∀ r ∈ rs, ∀ s rest, f s (r.bytes ++ rest) = f s r.bytes)
    (rest : List UInt8) (s : σ) : (stops rs rest).foldl f s = visit f s rs := by
  induction rs generalizing s with
  | nil => rfl
  | cons r rs ih =>
      rw [stops, List.foldl_cons, h r List.mem_cons_self, visit_cons]
      exact ih (fun r' hr' => h r' (List.mem_cons_of_mem _ hr')) _

end Visit

/-! ## Tags -/

theorem Record.tagAt_append (r : Record) (rest : List UInt8) : tagAt (r.bytes ++ rest) = r.tag :=
  List.getD_append _ _ _ _ r.two_le

/-- The stops with the tag, where no record has it. -/
theorem filter_stops_nil {t : UInt8} {rs : List Record} (h : ∀ r ∈ rs, r.tag ≠ t)
    (rest : List UInt8) : (stops rs rest).filter (hasTag t) = [] := by
  induction rs with
  | nil => rfl
  | cons r rs ih =>
      have hr : ¬ hasTag t (r.bytes ++ (flat rs ++ rest)) = true := by
        rw [hasTag, r.tagAt_append, beq_iff_eq]
        exact h r List.mem_cons_self
      rw [stops, List.filter_cons_of_neg hr]
      exact ih fun r' hr' => h r' (List.mem_cons_of_mem _ hr')

/-- The stops with the tag, where every record has it. -/
theorem filter_stops_self {t : UInt8} {rs : List Record} (h : ∀ r ∈ rs, r.tag = t)
    (rest : List UInt8) : (stops rs rest).filter (hasTag t) = stops rs rest := by
  induction rs with
  | nil => rfl
  | cons r rs ih =>
      have hr : hasTag t (r.bytes ++ (flat rs ++ rest)) = true := by
        rw [hasTag, r.tagAt_append, beq_iff_eq]
        exact h r List.mem_cons_self
      rw [stops, List.filter_cons_of_pos hr]
      exact congrArg _ (ih fun r' hr' => h r' (List.mem_cons_of_mem _ hr'))

/-- The first `len` bytes of the table, if it has as many. -/
def window (p : List UInt8) (len : Nat) : Option (List UInt8) :=
  if len ≤ p.length then some (p.take len) else none

theorem window_append (p rest : List UInt8) : window (p ++ rest) p.length = some p := by
  unfold window
  rw [if_pos (by rw [List.length_append]; omega), List.take_left]

/-- A stop begins with its record. -/
theorem stops_window (rs : List Record) (rest : List UInt8) :
    (stops rs rest).map (fun p => window p (p.getD 0 0).toNat) =
      rs.map fun r => some r.bytes := by
  induction rs with
  | nil => rfl
  | cons r rs ih =>
      have htwo := r.two_le
      have hfirst : (r.bytes ++ (flat rs ++ rest)).getD 0 0 = r.bytes.getD 0 0 :=
        List.getD_append _ _ _ _ (by omega)
      rw [stops, List.map_cons, List.map_cons, ih, hfirst, r.length_eq, window_append]

end Records
