-- SUMMARY: The chain written for any transfers makes the channel do just these transfers, an interrupt behind each, round after round.
import PowerProfiler.Firmware.Dma

/-!
# What a chain transfers

The nodes of a transfer lie one behind the other and cover it without a gap, so that a walk
of the channel along the chain does what the transfers ask for, in their order.
-/

open Chain

namespace Dma

/-! ## The nodes of one transfer -/

/-- `control` in node `i` of a transfer. -/
def controlAt (control : LliControl) (lliCount last i : Nat) : LliControl :=
  if i + 1 = lliCount then { control with transferSize := last % 4096, i := true }
  else { control with transferSize := 4064, i := false }

/-- What `bflb_dma_lli_config` has in its node `i` once it has written `m` of them. -/
def nodeAt (control : LliControl) (base lliCount : Nat) (srcAddr dstAddr offset : UInt32)
    (last m i : Nat) : LliNode where
  srcAddr := if control.si then srcAddr + UInt32.ofNat i * offset else srcAddr
  dstAddr := if control.di then dstAddr + UInt32.ofNat i * offset else dstAddr
  nextlli := if i + 1 < m then some (base + i + 1) else none
  control := controlAt control lliCount last i

section Config

variable (control : LliControl) (base lliCount : Nat) (srcAddr dstAddr offset : UInt32) (last : Nat)

/-- The loop behind its first `m` rounds. -/
structure ConfigInv (pool : Nat → LliNode) (m : Nat) (s : ConfigLoop) : Prop where
  src : s.srcAddr = if control.si then srcAddr + UInt32.ofNat m * offset else srcAddr
  dst : s.dstAddr = if control.di then dstAddr + UInt32.ofNat m * offset else dstAddr
  early : m < lliCount → s.control = { control with transferSize := 4064, i := false }
  written : ∀ i < m, s.pool (base + i) =
    nodeAt control base lliCount srcAddr dstAddr offset last m i
  frame : ∀ j, j < base ∨ base + m ≤ j → s.pool j = pool j

variable {control base lliCount srcAddr dstAddr offset last} {pool : Nat → LliNode} {m : Nat}
  {s : ConfigLoop}

theorem addr_succ (moves : Bool) (addr offset : UInt32) (m : Nat) :
    (if moves then (if moves then addr + UInt32.ofNat m * offset else addr) + offset
      else if moves then addr + UInt32.ofNat m * offset else addr) =
      if moves then addr + UInt32.ofNat (m + 1) * offset else addr := by
  cases moves
  · rfl
  · have hsucc : UInt32.ofNat (m + 1) * offset = UInt32.ofNat m * offset + offset := by
      rw [UInt32.ofNat_add, UInt32.add_mul]
      exact congrArg _ (UInt32.one_mul offset)
    simp only [if_true, hsucc, UInt32.add_assoc]

/-- The pool behind a round: the new node, the link to it, and the rest as it was. -/
theorem lliConfigNode_pool (s : ConfigLoop) (m j : Nat) :
    (lliConfigNode base lliCount offset last s m).pool j =
      if j = base + m then
        { srcAddr := s.srcAddr, dstAddr := s.dstAddr, nextlli := none
          control := (lliConfigNode base lliCount offset last s m).control }
      else if m ≠ 0 ∧ j = base + m - 1 then { s.pool j with nextlli := some (base + m) }
      else s.pool j := by
  have hbefore : m ≠ 0 → base + m ≠ base + m - 1 := by omega
  unfold lliConfigNode
  dsimp only
  by_cases hj : j = base + m
  · rw [if_pos hj, hj, Function.update_self]
    split
    next hm => rw [Function.update_of_ne (hbefore hm), Function.update_self]
    · rw [Function.update_self]
  · rw [if_neg hj, Function.update_of_ne hj]
    by_cases hm : m ≠ 0
    · rw [if_pos hm]
      by_cases hlast : j = base + m - 1
      · rw [if_pos ⟨hm, hlast⟩, hlast, Function.update_self,
          Function.update_of_ne (hbefore hm).symm]
      · rw [if_neg fun h => hlast h.2, Function.update_of_ne hlast, Function.update_of_ne hj]
    · rw [if_neg hm, if_neg fun h => hm h.1, Function.update_of_ne hj]

theorem ConfigInv.step (h : ConfigInv control base lliCount srcAddr dstAddr offset last pool m s)
    (hm : m < lliCount) :
    ConfigInv control base lliCount srcAddr dstAddr offset last pool (m + 1)
      (lliConfigNode base lliCount offset last s m) := by
  have hcontrol : (lliConfigNode base lliCount offset last s m).control =
      controlAt control lliCount last m := by
    have hlast : (m = lliCount - 1) = (m + 1 = lliCount) := propext (by omega)
    unfold lliConfigNode controlAt
    rw [h.early hm]
    simp only [hlast]
  have hmoves : (controlAt control lliCount last m).si = control.si ∧
      (controlAt control lliCount last m).di = control.di := by
    unfold controlAt
    split <;> exact ⟨rfl, rfl⟩
  constructor
  · show (if (lliConfigNode base lliCount offset last s m).control.si then s.srcAddr + offset
      else s.srcAddr) = _
    rw [hcontrol, hmoves.1, h.src]
    exact addr_succ _ _ _ _
  · show (if (lliConfigNode base lliCount offset last s m).control.di then s.dstAddr + offset
      else s.dstAddr) = _
    rw [hcontrol, hmoves.2, h.dst]
    exact addr_succ _ _ _ _
  · intro hm'
    rw [hcontrol]
    exact if_neg (by omega)
  · intro i hi
    rw [lliConfigNode_pool, hcontrol, h.src, h.dst]
    by_cases him : i = m
    · rw [him, if_pos rfl, nodeAt, if_neg (Nat.lt_irrefl _)]
    · have hold := h.written i (by omega)
      have hne : ¬ base + i = base + m := by omega
      rw [if_neg hne, hold]
      by_cases hlink : i + 1 = m
      · -- the node before this one is linked to it
        have hprev : m ≠ 0 ∧ base + i = base + m - 1 := by omega
        have hnext : i + 1 < m + 1 := by omega
        rw [if_pos hprev, nodeAt, nodeAt, if_pos hnext, ← hlink]
        rfl
      · have hprev : ¬ (m ≠ 0 ∧ base + i = base + m - 1) := by omega
        have hnext : (i + 1 < m) = (i + 1 < m + 1) := propext (by omega)
        rw [if_neg hprev, nodeAt, nodeAt]
        simp only [hnext]
  · intro j hj
    have hne : ¬ j = base + m := by omega
    have hprev : ¬ (m ≠ 0 ∧ j = base + m - 1) := by omega
    rw [lliConfigNode_pool, if_neg hne, if_neg hprev]
    exact h.frame j (by omega)

/-- The nodes of a transfer, one behind the other; the rest of the pool is as it was. -/
theorem lliConfig_spec (control : LliControl) (base lliCount : Nat)
    (srcAddr dstAddr offset : UInt32) (last : Nat) (pool : Nat → LliNode) :
    (∀ i < lliCount, lliConfig control base lliCount srcAddr dstAddr offset last pool (base + i) =
      nodeAt control base lliCount srcAddr dstAddr offset last lliCount i) ∧
    ∀ j, j < base ∨ base + lliCount ≤ j →
      lliConfig control base lliCount srcAddr dstAddr offset last pool j = pool j := by
  have hinv : ∀ m ≤ lliCount, ConfigInv control base lliCount srcAddr dstAddr offset last pool m
      ((List.range m).foldl (lliConfigNode base lliCount offset last)
        { pool, srcAddr, dstAddr, control := { control with transferSize := 4064, i := false } }) := by
    intro m hm
    induction m with
    | zero =>
        refine ⟨?_, ?_, fun _ => rfl, fun i hi => absurd hi (Nat.not_lt_zero i), fun _ _ => rfl⟩ <;>
        · have hzero : UInt32.ofNat 0 * offset = 0 := UInt32.zero_mul
          rw [hzero, UInt32.add_zero, ite_self]
          rfl
    | succ m ih =>
        rw [List.range_succ, List.foldl_append]
        exact (ih (by omega)).step hm
  have h := hinv lliCount (le_refl _)
  exact ⟨h.written, h.frame⟩

end Config

/-! ## Items -/

theorem itemAddr_add (width : Nat) (mv : Bool) (addr : UInt32) (a b : Nat) :
    itemAddr width mv (itemAddr width mv addr a) b = itemAddr width mv addr (a + b) := by
  cases mv
  · rfl
  · simp only [itemAddr, if_true, UInt32.add_assoc, ← UInt32.ofNat_add, ← Nat.add_mul]

theorem moves_add (c : LliControl) (src dst : UInt32) (a b : Nat) :
    moves c src dst (a + b) = moves c src dst a ++
      moves c (itemAddr c.width c.si src a) (itemAddr c.width c.di dst a) b := by
  simp only [moves, List.range_add, List.map_append, List.map_map]
  refine congrArg _ (List.map_congr_left fun k _ => ?_)
  simp only [Function.comp_apply, itemAddr_add]

/-- The offset between two nodes is what the items of a full node cover. -/
theorem transferOffset_eq : ∀ {w : Fin 4}, w ≠ 3 →
    transferOffset w = UInt32.ofNat (4064 * 2 ^ w.val) := by
  decide

theorem nodeAddr (c : LliControl) (hw : c.sWidth ≠ 3) (mv : Bool) (addr : UInt32) (i : Nat) :
    (if mv then addr + UInt32.ofNat i * transferOffset c.sWidth else addr) =
      itemAddr c.width mv addr (i * 4064) := by
  cases mv
  · rfl
  · rw [transferOffset_eq hw, ← UInt32.ofNat_mul, ← Nat.mul_assoc]
    rfl

/-- The last node takes the rest of the transfer, which a node has room for; it is empty only
for an empty transfer. -/
theorem cut_spec (len : Nat) :
    0 < (cut len).1 ∧ ((cut len).1 - 1) * 4064 + (cut len).2 = len ∧
    (cut len).2 < 4096 ∧ (0 < len → 0 < (cut len).2) := by
  unfold cut
  dsimp only
  split <;> dsimp only <;> omega

section Nodes

variable (c : LliControl) (base : Nat) (src dst : UInt32) (len : Nat) (i : Nat)

/-- A node of a transfer as it is written. -/
def nodeOf : LliNode :=
  nodeAt c base (cut len).1 src dst (transferOffset c.sWidth) (cut len).2 (cut len).1 i

/-- A node in front of the last transfers 4064 items in silence. -/
theorem work_inner (hw : c.sWidth ≠ 3) (hi : i + 1 < (cut len).1) :
    (nodeOf c base src dst len i).work =
      moves c (itemAddr c.width c.si src (i * 4064)) (itemAddr c.width c.di dst (i * 4064)) 4064 := by
  have hcontrol : controlAt c (cut len).1 (cut len).2 i =
      { c with transferSize := 4064, i := false } := if_neg (by omega)
  simp only [nodeOf, nodeAt, LliNode.work, hcontrol, nodeAddr c hw]
  exact List.append_nil _

/-- The last node transfers the rest and raises the interrupt. -/
theorem work_last (hw : c.sWidth ≠ 3) :
    (nodeOf c base src dst len ((cut len).1 - 1)).work =
      moves c (itemAddr c.width c.si src (((cut len).1 - 1) * 4064))
        (itemAddr c.width c.di dst (((cut len).1 - 1) * 4064)) (cut len).2 ++ [.irq] := by
  obtain ⟨hpos, -, hroom, -⟩ := cut_spec len
  have hcontrol : controlAt c (cut len).1 (cut len).2 ((cut len).1 - 1) =
      { c with transferSize := (cut len).2, i := true } := by
    rw [controlAt, if_pos (by omega), Nat.mod_eq_of_lt hroom]
  simp only [nodeOf, nodeAt, LliNode.work, hcontrol, nodeAddr c hw, if_true]
  rfl

/-- The nodes of a transfer do what it asks for. -/
theorem stretch_transfer (hw : c.sWidth ≠ 3) {pool : Nat → LliNode}
    (hpool : ∀ i < (cut len).1, (pool (base + i)).work = (nodeOf c base src dst len i).work) :
    stretch LliNode.work pool base (cut len).1 = moves c src dst len ++ [.irq] := by
  obtain ⟨hpos, hsum, -, -⟩ := cut_spec len
  have hinner : ∀ m ≤ (cut len).1 - 1,
      stretch LliNode.work pool base m = moves c src dst (m * 4064) := by
    intro m hm
    induction m with
    | zero => rw [stretch_zero, Nat.zero_mul]; rfl
    | succ m ih =>
        rw [stretch_snoc, ih (by omega), hpool m (by omega),
          work_inner c base src dst len m hw (by omega), Nat.succ_mul, moves_add]
  have hcount : (cut len).1 = (cut len).1 - 1 + 1 := by omega
  rw [hcount, stretch_snoc, hinner _ (le_refl _), hpool _ (by omega), work_last c base src dst len hw,
    ← List.append_assoc, ← moves_add, hsum]

/-- The nodes of a transfer are neither empty nor too large. -/
theorem items_nodeOf (hlen : 0 < len) :
    0 < (nodeOf c base src dst len i).control.transferSize ∧
      (nodeOf c base src dst len i).control.transferSize < 4096 := by
  obtain ⟨-, -, hroom, hpos⟩ := cut_spec len
  show 0 < (controlAt c (cut len).1 (cut len).2 i).transferSize ∧
    (controlAt c (cut len).1 (cut len).2 i).transferSize < 4096
  unfold controlAt
  split
  · rw [Nat.mod_eq_of_lt hroom]
    exact ⟨hpos hlen, hroom⟩
  · exact ⟨show 0 < 4064 by decide, show 4064 < 4096 by decide⟩

end Nodes

/-! ## The chain -/

/-- The number of nodes for the transfers. -/
def nodeCount (c : LliControl) (ts : List LliTransfer) : Nat :=
  (ts.map fun t => (cut ((transferLen c.sWidth t.nbytes).getD 0)).1).sum

/-- The first `used` nodes are linked one to the other and do the work `w`, each of a size that
a node can have. -/
structure Built (w : List Work) (s : Reload) : Prop where
  linked : Linked LliNode.nextlli s.pool 0 s.used
  work : stretch LliNode.work s.pool 0 s.used = w
  items : ∀ j < s.used, 0 < (s.pool j).control.transferSize ∧
    (s.pool j).control.transferSize < 4096

section Add

variable {c : LliControl} {maxLliCount : Nat} {first : Bool} {t : LliTransfer} {len : Nat}
  {s : Reload}

/-- What a transfer adds to the pool. -/
theorem addTransfer_pool (hfirst : first = decide (s.used = 0)) (j : Nat) :
    (addTransfer c maxLliCount first t len s).pool j =
      if s.used ≤ j ∧ j < s.used + (cut len).1 then
        nodeOf c s.used t.srcAddr t.dstAddr len (j - s.used)
      else if 0 < s.used ∧ j = s.used - 1 then { s.pool j with nextlli := some s.used }
      else s.pool j := by
  obtain ⟨hnew, hold⟩ := lliConfig_spec c s.used (cut len).1 t.srcAddr t.dstAddr
    (transferOffset c.sWidth) (cut len).2 s.pool
  have hconfig : lliConfig c s.used (cut len).1 t.srcAddr t.dstAddr (transferOffset c.sWidth)
      (cut len).2 s.pool j = if s.used ≤ j ∧ j < s.used + (cut len).1 then
        nodeOf c s.used t.srcAddr t.dstAddr len (j - s.used) else s.pool j := by
    split
    next hin =>
      have h := hnew (j - s.used) (by omega)
      rwa [Nat.add_sub_cancel' hin.1] at h
    next hout => exact hold j (by omega)
  unfold addTransfer
  dsimp only
  by_cases hused : s.used = 0
  · rw [hfirst, decide_eq_true hused, if_pos rfl, hconfig]
    have hnone : ¬ (0 < s.used ∧ j = s.used - 1) := by omega
    rw [if_neg hnone]
  · rw [hfirst, decide_eq_false hused, if_neg Bool.false_ne_true]
    by_cases hprev : j = s.used - 1
    · have hout : ¬ (s.used ≤ j ∧ j < s.used + (cut len).1) := by omega
      have hin : 0 < s.used ∧ j = s.used - 1 := by omega
      rw [if_neg hout, if_pos hin, hprev, Function.update_self, ← hprev, hconfig, if_neg hout]
    · have hin : ¬ (0 < s.used ∧ j = s.used - 1) := by omega
      rw [Function.update_of_ne hprev, hconfig, if_neg hin]

theorem work_link (n : LliNode) (next : Option Nat) : { n with nextlli := next }.work = n.work := rfl

/-- Another transfer on the chain. -/
theorem Built.add {w : List Work} (h : Built w s) (hw : c.sWidth ≠ 3) (hlen : 0 < len)
    (hfirst : first = decide (s.used = 0)) :
    Built (w ++ (moves c t.srcAddr t.dstAddr len ++ [.irq]))
      (addTransfer c maxLliCount first t len s) := by
  have hpool := @addTransfer_pool c maxLliCount first t len s hfirst
  have hused : (addTransfer c maxLliCount first t len s).used = s.used + (cut len).1 := rfl
  have hnew : ∀ i < (cut len).1, (addTransfer c maxLliCount first t len s).pool (s.used + i) =
      nodeOf c s.used t.srcAddr t.dstAddr len i := by
    intro i hi
    have hin : s.used ≤ s.used + i ∧ s.used + i < s.used + (cut len).1 := by omega
    rw [hpool, if_pos hin, Nat.add_sub_cancel_left]
  constructor
  · intro i hi
    rw [hused] at hi
    rw [Nat.zero_add]
    rcases Nat.lt_or_ge i s.used with hold | hin
    · have hout : ¬ (s.used ≤ i ∧ i < s.used + (cut len).1) := by omega
      rw [hpool, if_neg hout]
      by_cases hprev : i = s.used - 1
      · have hlink : 0 < s.used ∧ i = s.used - 1 := by omega
        have hnext : s.used = i + 1 := by omega
        rw [if_pos hlink]
        exact congrArg some hnext
      · have hnext := h.linked i (by omega)
        rw [Nat.zero_add] at hnext
        rw [if_neg fun hlink => hprev hlink.2]
        exact hnext
    · obtain ⟨k, rfl⟩ := Nat.exists_eq_add_of_le hin
      have hnext : k + 1 < (cut len).1 := by omega
      rw [hnew k (by omega)]
      exact if_pos hnext
  · have hkeep : stretch LliNode.work (addTransfer c maxLliCount first t len s).pool 0 s.used =
        stretch LliNode.work s.pool 0 s.used := by
      refine stretch_congr fun i hi => ?_
      have hout : ¬ (s.used ≤ 0 + i ∧ 0 + i < s.used + (cut len).1) := by omega
      rw [hpool, if_neg hout]
      split
      · exact work_link _ _
      · rfl
    rw [hused, stretch_add, hkeep, h.work, Nat.zero_add,
      stretch_transfer c s.used t.srcAddr t.dstAddr len hw fun i hi => by rw [hnew i hi]]
  · intro j hj
    rw [hused] at hj
    rcases Nat.lt_or_ge j s.used with hold | hin
    · have hout : ¬ (s.used ≤ j ∧ j < s.used + (cut len).1) := by omega
      have hitems := h.items j hold
      rw [hpool, if_neg hout]
      split
      · exact hitems
      · exact hitems
    · obtain ⟨k, rfl⟩ := Nat.exists_eq_add_of_le hin
      rw [hnew k (by omega)]
      exact items_nodeOf c s.used t.srcAddr t.dstAddr len k hlen

end Add

/-! ## Reloading -/

/-- The lengths that the loop accepts. -/
def Accepted (c : LliControl) (ts : List LliTransfer) : Prop :=
  ∀ t ∈ ts, (transferLen c.sWidth t.nbytes).isSome

/-- The items of a transfer make up its bytes. -/
theorem transferLen_eq {w : Fin 4} (hw : w ≠ 3) {nbytes : UInt32} {len : Nat}
    (h : transferLen w nbytes = some len) : nbytes.toNat = len * 2 ^ w.val := by
  fin_cases w
  · simpa [transferLen] using h
  · simp only [transferLen] at h
    split at h
    · cases h
    next heven =>
      rw [not_not, ← UInt32.toNat_inj] at heven
      simp only [Option.some.injEq, UInt32.toNat_shiftRight, Nat.shiftRight_eq_div_pow] at h
      simp at h heven ⊢
      omega
  · simp only [transferLen] at h
    split at h
    · cases h
    next hfour =>
      rw [not_not, ← UInt32.toNat_inj] at hfour
      simp only [Option.some.injEq, UInt32.toNat_shiftRight, Nat.shiftRight_eq_div_pow] at h
      simp at h hfour ⊢
      omega
  · exact absurd rfl hw

theorem minusOne_neg : ¬ (0 : Int) ≤ -1 := by decide

theorem enomem_neg : ¬ (0 : Int) ≤ -12 := by decide

section Loop

variable {c : LliControl} {maxLliCount : Nat}

/-- The loop succeeds exactly for lengths it accepts and a pool that is large enough, and it
writes behind the pool exactly when it then says so. -/
theorem lliReloadLoop_result (first : Bool) (ts : List LliTransfer) (s : Reload)
    (hused : s.used ≤ maxLliCount) :
    let r := lliReloadLoop c maxLliCount first ts s
    (0 ≤ r.2 ↔ Accepted c ts ∧ s.used + nodeCount c ts ≤ maxLliCount) ∧
      (0 ≤ r.2 → r.2 = (s.used + nodeCount c ts : Nat) ∧ r.1.used = s.used + nodeCount c ts) ∧
      (r.1.fault = true ↔ s.fault = true ∨ r.2 = -12) := by
  induction ts generalizing first s with
  | nil =>
      refine ⟨iff_of_true (Int.natCast_nonneg _) ⟨fun t ht => absurd ht (List.not_mem_nil), hused⟩,
        fun _ => ⟨rfl, rfl⟩, ?_⟩
      have hok : ¬ ((s.used : Int) = -12) := by omega
      exact (or_iff_left hok).symm
  | cons t ts ih =>
      have hcons : nodeCount c (t :: ts) =
          (cut ((transferLen c.sWidth t.nbytes).getD 0)).1 + nodeCount c ts := rfl
      rcases hlen : transferLen c.sWidth t.nbytes with _ | len
      · have hnot : ¬ Accepted c (t :: ts) := fun h => by
          have := h t List.mem_cons_self
          rw [hlen] at this
          cases this
        rw [lliReloadLoop, hlen]
        have hother : ¬ (-1 : Int) = -12 := by decide
        exact ⟨iff_of_false minusOne_neg fun h => hnot h.1, fun h => absurd h minusOne_neg,
          (or_iff_left hother).symm⟩
      · have hadd : nodeCount c (t :: ts) = (cut len).1 + nodeCount c ts := by
          rw [hcons, hlen, Option.getD_some]
        have haccepted : Accepted c (t :: ts) ↔ Accepted c ts := by
          refine ⟨fun h t' ht' => h t' (List.mem_cons_of_mem _ ht'), fun h t' ht' => ?_⟩
          rcases List.mem_cons.mp ht' with rfl | ht'
          · rw [hlen]; rfl
          · exact h t' ht'
        let s' := addTransfer c maxLliCount first t len s
        have hused' : s'.used = s.used + (cut len).1 := rfl
        have hfault' : s'.fault = (s.fault || decide (maxLliCount < s'.used)) := rfl
        rw [lliReloadLoop, hlen]
        dsimp only
        by_cases hfull : maxLliCount < s'.used
        · rw [if_pos hfull]
          have hmore : ¬ s.used + nodeCount c (t :: ts) ≤ maxLliCount := by omega
          refine ⟨iff_of_false enomem_neg fun h => hmore h.2, fun h => absurd h enomem_neg,
            iff_of_true ?_ (.inr rfl)⟩
          show s'.fault = true
          rw [hfault', decide_eq_true hfull, Bool.or_true]
        · obtain ⟨hok, hvalue, hfault⟩ := ih false s' (by omega)
          rw [if_neg hfull]
          have hsum : s'.used + nodeCount c ts = s.used + nodeCount c (t :: ts) := by omega
          rw [hsum, ← haccepted] at hok
          rw [hsum] at hvalue
          rw [hfault', decide_eq_false hfull, Bool.or_false] at hfault
          exact ⟨hok, hvalue, hfault⟩

/-- A loop that succeeds leaves the chain of its transfers. -/
theorem lliReloadLoop_built (hw : c.sWidth ≠ 3) (first : Bool) (ts : List LliTransfer)
    (s : Reload) {w : List Work} (h : Built w s) (hfirst : first = decide (s.used = 0))
    (hts : ∀ t ∈ ts, t.nbytes ≠ 0) (hok : 0 ≤ (lliReloadLoop c maxLliCount first ts s).2) :
    Built (w ++ ts.flatMap (LliTransfer.work c)) (lliReloadLoop c maxLliCount first ts s).1 := by
  induction ts generalizing first s w with
  | nil =>
      rw [List.flatMap_nil, List.append_nil]
      exact h
  | cons t ts ih =>
      rw [lliReloadLoop] at hok ⊢
      rcases hlen : transferLen c.sWidth t.nbytes with _ | len
      · rw [hlen] at hok
        exact absurd hok minusOne_neg
      · have hbytes := transferLen_eq hw hlen
        have hpos : 0 < len := by
          have hne : t.nbytes.toNat ≠ 0 := fun hz =>
            hts t List.mem_cons_self (UInt32.toNat_inj.mp hz)
          rcases Nat.eq_zero_or_pos len with rfl | hpos
          · rw [Nat.zero_mul] at hbytes
            exact absurd hbytes hne
          · exact hpos
        have hadd := @Built.add c maxLliCount first t len s w h hw hpos hfirst
        have hwork : t.work c = moves c t.srcAddr t.dstAddr len ++ [.irq] := by
          rw [LliTransfer.work, hlen, Option.getD_some]
        rw [hlen] at hok
        dsimp only at hok ⊢
        split at hok
        · exact absurd hok enomem_neg
        next hroom =>
          have hnew : 0 < (addTransfer c maxLliCount first t len s).used :=
            Nat.add_pos_right _ (cut_spec len).1
          rw [if_neg hroom, List.flatMap_cons, hwork, ← List.append_assoc]
          exact ih false _ hadd (decide_eq_false hnew.ne').symm
            (fun t' ht' => hts t' (List.mem_cons_of_mem _ ht')) hok

end Loop

/-- `bflb_dma_channel_lli_reload` succeeds exactly for lengths that are multiples of the width and
a pool with room for all nodes. It compares only behind the write: exactly when it returns
`-ENOMEM` it has written behind the pool. -/
theorem lliReload_result (maxLliCount : Nat) (ts : List LliTransfer) (d : DmaChannel) :
    let c := d.regs.control
    let r := lliReload maxLliCount ts d
    (0 ≤ r.2 ↔ Accepted c ts ∧ nodeCount c ts ≤ maxLliCount) ∧
      (0 ≤ r.2 → r.2 = (nodeCount c ts : Nat)) ∧
      (r.1.fault = true ↔ d.fault = true ∨ r.2 = -12) := by
  obtain ⟨hok, hvalue, hfault⟩ := lliReloadLoop_result (c := d.regs.control) true ts
    ⟨d.pool, 0, d.fault⟩ (Nat.zero_le maxLliCount)
  simp only [Nat.zero_add] at hok hvalue
  exact ⟨hok, fun h => (hvalue h).1, hfault⟩

/-- A channel whose registers hold the head of the chain. -/
theorem work_walk {d : DmaChannel} (h : d.regs = d.pool 0) (n : Nat) :
    d.work n = walk LliNode.nextlli LliNode.work d.pool n (some 0) := by
  cases n with
  | zero => rfl
  | succ n => rw [DmaChannel.work, h, walk]

/-- The registers follow the head of the chain. -/
theorem lliLinkHead_regs {d : DmaChannel} (h : d.regs = d.pool 0) (used : Nat) :
    (lliLinkHead used d).regs = (lliLinkHead used d).pool 0 := by
  unfold lliLinkHead
  dsimp only
  rw [h]
  by_cases hzero : 0 = used - 1
  · rw [hzero, Function.update_self]
  · rw [Function.update_of_ne hzero]

/-- The channel goes round a chain whose end is linked to its head. -/
theorem lliLinkHead_rounds {q : DmaChannel} {n : Nat} {w : List Work}
    (hlinked : Linked LliNode.nextlli q.pool 0 (n + 1))
    (hwork : stretch LliNode.work q.pool 0 (n + 1) = w) (hregs : q.regs = q.pool 0) (rounds : Nat) :
    (lliLinkHead (n + 1) q).work (rounds * (n + 1)) = (List.replicate rounds w).flatten := by
  have hlast : ∀ i, (lliLinkHead (n + 1) q).pool i =
      if i = n then { q.pool n with nextlli := some 0 } else q.pool i :=
    fun i => Function.update_apply q.pool n _ i
  have hlinked' : Linked LliNode.nextlli (lliLinkHead (n + 1) q).pool 0 (n + 1) := by
    intro i hi
    have hne : ¬ 0 + i = n := by omega
    rw [hlast, if_neg hne]
    exact hlinked i hi
  have hclosed : ((lliLinkHead (n + 1) q).pool (0 + n)).nextlli = some 0 := by
    rw [hlast, if_pos (Nat.zero_add n)]
  have hsame : stretch LliNode.work (lliLinkHead (n + 1) q).pool 0 (n + 1) = w := by
    refine (stretch_congr fun i _ => ?_).trans hwork
    rw [hlast]
    split
    next hi => rw [hi]; exact work_link _ _
    · rfl
  rw [work_walk (lliLinkHead_regs hregs (n + 1)), walk_rounds hlinked' hclosed, hsame]

/-- Behind a reload that succeeds the pool holds a chain that does the transfers, and the registers
hold its head. -/
theorem lliReload_chain (maxLliCount : Nat) {ts : List LliTransfer}
    (hts : ∀ t ∈ ts, t.nbytes ≠ 0) (d : DmaChannel) (hw : d.regs.control.sWidth ≠ 3)
    (hok : 0 ≤ (lliReload maxLliCount ts d).2) :
    let c := d.regs.control
    let r := lliReload maxLliCount ts d
    Linked LliNode.nextlli r.1.pool 0 (nodeCount c ts) ∧
      stretch LliNode.work r.1.pool 0 (nodeCount c ts) = ts.flatMap (LliTransfer.work c) ∧
      r.1.regs = r.1.pool 0 ∧ r.2 = (nodeCount c ts : Nat) := by
  intro c r
  have hempty : Built [] ⟨d.pool, 0, d.fault⟩ :=
    ⟨fun i hi => absurd hi (Nat.not_lt_zero _), rfl, fun j hj => absurd hj (Nat.not_lt_zero _)⟩
  obtain ⟨hlinked, hwork, -⟩ := @lliReloadLoop_built c maxLliCount hw true ts _ [] hempty rfl hts hok
  obtain ⟨hresult, hused⟩ := (lliReloadLoop_result (c := c) true ts
    ⟨d.pool, 0, d.fault⟩ (Nat.zero_le maxLliCount)).2.1 hok
  have hregs : r.1.regs = r.1.pool 0 := if_neg (Int.not_lt.mpr hok)
  rw [Nat.zero_add] at hresult hused
  rw [hused] at hlinked hwork
  exact ⟨hlinked, hwork, hregs, hresult⟩

/-- Any transfers of whole items, none of them empty, whose nodes fit into the pool: behind
`bflb_dma_channel_lli_link_head` the channel transfers them item by item in their order, with
an interrupt behind each, round after round. -/
theorem lliReload_rounds (maxLliCount : Nat) {ts : List LliTransfer} (hne : ts ≠ [])
    (hts : ∀ t ∈ ts, t.nbytes ≠ 0) (d : DmaChannel) (hw : d.regs.control.sWidth ≠ 3)
    (hok : 0 ≤ (lliReload maxLliCount ts d).2) (rounds : Nat) :
    let total := (lliReload maxLliCount ts d).2.toNat
    (lliLinkHead total (lliReload maxLliCount ts d).1).work (rounds * total) =
      (List.replicate rounds (ts.flatMap (LliTransfer.work d.regs.control))).flatten := by
  intro total
  obtain ⟨hlinked, hwork, hregs, hresult⟩ := lliReload_chain maxLliCount hts d hw hok
  have htotal : total = nodeCount d.regs.control ts := congrArg Int.toNat hresult
  have hpos : nodeCount d.regs.control ts ≠ 0 := by
    obtain ⟨t, ts, rfl⟩ := List.exists_cons_of_ne_nil hne
    have hfirst := (cut_spec ((transferLen d.regs.control.sWidth t.nbytes).getD 0)).1
    have hcons : nodeCount d.regs.control (t :: ts) =
        (cut ((transferLen d.regs.control.sWidth t.nbytes).getD 0)).1 +
          nodeCount d.regs.control ts := rfl
    omega
  obtain ⟨n, hn⟩ := Nat.exists_eq_succ_of_ne_zero hpos
  rw [hn] at hlinked hwork
  rw [htotal, hn]
  exact lliLinkHead_rounds hlinked hwork hregs rounds

/-- Half words from memory to memory: 5000 of them, which need two nodes, and two more. -/
def halfWords : List LliTransfer := [⟨0x1000, 0x8000, 10000⟩, ⟨0x6000, 0xC000, 4⟩]

/-- A channel for half words. -/
def halfWordChannel : DmaChannel where
  pool _ := ⟨0, 0, none, ⟨0, dmaDataWidth8Bit, false, false, false⟩⟩
  regs := ⟨0, 0, none, ⟨0, dmaDataWidth16Bit, true, true, false⟩⟩

theorem lliReload_rounds_halfWords :
    let total := (lliReload 3 halfWords halfWordChannel).2.toNat
    (lliLinkHead total (lliReload 3 halfWords halfWordChannel).1).work (2 * total) =
      (List.replicate 2 (halfWords.flatMap (LliTransfer.work ⟨0, 1, true, true, false⟩))).flatten :=
  lliReload_rounds 3 (List.cons_ne_nil _ _)
    (fun t ht => by
      simp only [List.mem_cons, List.not_mem_nil, or_false] at ht
      rcases ht with rfl | rfl <;> decide)
    halfWordChannel (by decide) (by decide +kernel) 2

end Dma
