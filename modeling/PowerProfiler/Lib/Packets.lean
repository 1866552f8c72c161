-- SUMMARY: Transfers cut into packets: full packets with a short one at the end, their reassembly, and the round trip.
import Mathlib

/-!
# Packets

A transfer travels as packets of at most `n` items. All but the last are full and the
last one is shorter, so that a transfer of a multiple of `n` items ends with an empty
packet. The receiver appends packets until a short one ends the transfer, or until as
many items are there as it has room for.
-/

namespace Packets

variable {α : Type}

/-- The packets of a transfer. -/
def packetize (n : Nat) (bs : List α) : List (List α) :=
  if _h : 0 < n ∧ n ≤ bs.length then bs.take n :: packetize n (bs.drop n) else [bs]
termination_by bs.length
decreasing_by
  rw [List.length_drop]
  omega

/-- The transfers that packets complete, and what is left of an unfinished one; `acc` is
what the first of them continues and `cap` the room of the receiver. -/
def receive (n cap : Nat) : List α → List (List α) → List (List α) × List α
  | acc, [] => ([], acc)
  | acc, p :: ps =>
      if p.length < n ∨ acc.length + p.length = cap then
        ((acc ++ p) :: (receive n cap [] ps).1, (receive n cap [] ps).2)
      else receive n cap (acc ++ p) ps

variable {n cap : Nat}

/-! ## Sending -/

theorem packetize_short {bs : List α} (h : bs.length < n) : packetize n bs = [bs] := by
  rw [packetize, dif_neg (by omega)]

theorem packetize_full {bs : List α} (hn : 0 < n) (h : n ≤ bs.length) :
    packetize n bs = bs.take n :: packetize n (bs.drop n) := by
  rw [packetize, dif_pos ⟨hn, h⟩]

/-! ## Receiving -/

theorem receive_append (acc : List α) (ps qs : List (List α)) :
    receive n cap acc (ps ++ qs) =
      ((receive n cap acc ps).1 ++ (receive n cap (receive n cap acc ps).2 qs).1,
        (receive n cap (receive n cap acc ps).2 qs).2) := by
  induction ps generalizing acc with
  | nil => rfl
  | cons p ps ih =>
      rw [List.cons_append]
      by_cases hlast : p.length < n ∨ acc.length + p.length = cap
      · rw [receive, receive, if_pos hlast, if_pos hlast, ih]
        rfl
      · rw [receive, receive, if_neg hlast, if_neg hlast, ih]

/-- A transfer that fits completes with its last packet. -/
theorem receive_packetize (hn : 0 < n) {acc bs : List α} (h : acc.length + bs.length < cap) :
    receive n cap acc (packetize n bs) = ([acc ++ bs], []) := by
  induction bs using packetize.induct (n := n) generalizing acc with
  | case1 bs hfull ih =>
      have hlen : (bs.take n).length = n := by
        rw [List.length_take]
        omega
      have hmore : ¬ ((bs.take n).length < n ∨ acc.length + (bs.take n).length = cap) := by
        omega
      rw [packetize_full hfull.1 hfull.2, receive, if_neg hmore, ih]
      · rw [List.append_assoc, List.take_append_drop]
      · rw [List.length_append, List.length_drop]
        omega
  | case2 bs hshort =>
      rw [packetize, dif_neg hshort, receive, if_pos (by omega)]
      rfl

/-- Transfers that fit arrive as they were sent. -/
theorem receive_transfers (hn : 0 < n) {ts : List (List α)} (h : ∀ t ∈ ts, t.length < cap) :
    receive n cap [] (ts.flatMap (packetize n)) = (ts, []) := by
  induction ts with
  | nil => rfl
  | cons t ts ih =>
      have hhead : ([] : List α).length + t.length < cap := by
        simpa using h t List.mem_cons_self
      rw [List.flatMap_cons, receive_append, receive_packetize hn hhead,
        ih fun t' ht' => h t' (List.mem_cons_of_mem _ ht')]
      rfl

end Packets
