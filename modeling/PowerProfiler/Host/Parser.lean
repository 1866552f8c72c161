-- SUMMARY: What one call of QueryPort dispatches and keeps, as a function of the bytes it has: the loop law and the call law.
import PowerProfiler.Host.Frames

/-!
# The parser on byte strings

`consume` splits a string into complete frames and what the loop leaves of it. The loop
on `bufcom` dispatches the frames of `consume`, one after the other, until one of them
makes it leave; what is left it keeps, unless it found no frame at all: then it does not
move `idx_bufcom`, and the bytes just appended are forgotten.
-/

open Framing Circular

namespace Host

/-! ## Consuming -/

/-- The complete frames that the loop works through, and what it leaves. A frame behind
which the next size byte is too large is the last one, and everything behind it is
dropped. -/
def consume : List UInt8 → List Frame × List UInt8
  | size :: cmd :: rest =>
      if size.toNat ≤ rest.length then
        if maxBlkCnt < ((rest.drop size.toNat).headD 0).toNat then
          ([Frame.ofHead size cmd rest], [])
        else
          (Frame.ofHead size cmd rest :: (consume (rest.drop size.toNat)).1,
            (consume (rest.drop size.toNat)).2)
      else ([], size :: cmd :: rest)
  | bs => ([], bs)
termination_by bs => bs.length
decreasing_by all_goals simp; omega

theorem consume_incomplete {bs : List UInt8} (h : Incomplete bs) : consume bs = ([], bs) := by
  match bs, h with
  | [], _ => simp [consume]
  | [_], _ => simp [consume]
  | size :: cmd :: rest, h =>
      simp only [Incomplete] at h
      simp [consume, h]

/-- Without a complete frame everything is left. -/
theorem consume_rest_of_nil {bs : List UInt8} (h : (consume bs).1 = []) : (consume bs).2 = bs := by
  match bs with
  | [] => simp [consume]
  | [_] => simp [consume]
  | size :: cmd :: rest =>
      rw [consume] at h ⊢
      split at h
      · split at h <;> cases h
      next hsize => rw [if_neg hsize]

/-! ## The loop law -/

/-- The receive buffer and its fill level. -/
def setBuf (mem : Nat → UInt8) (idx : Nat) (h : Host) : Host :=
  { h with bufcom := mem, idxBufcom := idx }

section SetBuf

variable (mem : Nat → UInt8) (idx : Nat) (h : Host)

theorem setBuf_self : h.setBuf h.bufcom h.idxBufcom = h := rfl

@[simp] theorem setBuf_setBuf (mem' : Nat → UInt8) (idx' : Nat) :
    (h.setBuf mem idx).setBuf mem' idx' = h.setBuf mem' idx' := rfl

/-- What a frame does has nothing to do with the receive buffer. -/
theorem handle_setBuf (f : Frame) :
    (h.setBuf mem idx).handle f = ((h.handle f).1.setBuf mem idx, (h.handle f).2) := by
  by_cases hdata : h.workAdc ∧ f.cmd &&& 0x7F = cmdDevAdc
  · by_cases hsamples : f.cmd &&& 0x80 = 0
    · by_cases hstore : h.samplesEna ∧ 1 < f.payload.length <;>
        simp [handle, setBuf, hdata, hsamples, hstore, storeFrame]
    · by_cases hnine : f.payload.length = 9 <;>
        simp [handle, setBuf, hdata, hsamples, countsFrame, hnine]
  · by_cases hwait : 0 < h.waitCnt
    · by_cases hmatch : f.cmd &&& 0x7F = h.waitId
      · rw [hmatch] at hdata
        simp [handle, setBuf, hdata, hwait, hmatch, replyFrame]
      · by_cases hmiss : 3 < h.waitCnt + 1 <;>
          simp [handle, setBuf, hdata, hwait, hmatch, hmiss, giveUp]
    · simp [handle, setBuf, hdata, hwait]

theorem handle_bufcom (f : Frame) :
    (h.handle f).1.bufcom = h.bufcom ∧ (h.handle f).1.idxBufcom = h.idxBufcom := by
  have hself := handle_setBuf h.bufcom h.idxBufcom h f
  rw [setBuf_self] at hself
  rw [congrArg Prod.fst hself]
  exact ⟨rfl, rfl⟩

theorem handleAll_setBuf (fs : List Frame) :
    (h.setBuf mem idx).handleAll fs =
      ((h.handleAll fs).1.setBuf mem idx, (h.handleAll fs).2) := by
  induction fs generalizing h with
  | nil => rfl
  | cons f fs ih =>
      rw [handleAll, handleAll, handle_setBuf]
      rcases h.handle f with ⟨h', exited⟩
      cases exited
      · simp only [ih]
      · rfl

end SetBuf

/-- What the loop leaves behind: the buffer, and its fill level when no frame made it
leave. -/
structure LoopResult (h : Host) (n : Nat) (mem : Nat → UInt8) (idx : Nat) : Prop where
  bound : idx = h.idxBufcom ∨ idx + 2 ≤ n
  left : (mem = h.bufcom ∧ idx = h.idxBufcom) ∨ idx = 0 ∨
    ∃ k, Window.read h.bufcom 0 n =
      stream ((consume (Window.read h.bufcom 0 n)).1.take k) ++ Window.read mem 0 idx
  idx_eq : (h.handleAll (consume (Window.read h.bufcom 0 n)).1).2.2 = false →
    idx = if (consume (Window.read h.bufcom 0 n)).1 = [] then h.idxBufcom
      else (consume (Window.read h.bufcom 0 n)).2.length
  rest : (h.handleAll (consume (Window.read h.bufcom 0 n)).1).2.2 = false →
    Window.read mem 0 (consume (Window.read h.bufcom 0 n)).2.length =
      (consume (Window.read h.bufcom 0 n)).2

/-- One complete frame at the front of `bufcom`. -/
theorem read_front {h : Host} {n : Nat} (hsize : (h.bufcom 0).toNat + 2 ≤ n) :
    ∃ tail, tail = Window.read h.bufcom (2 + (h.bufcom 0).toNat) (n - 2 - (h.bufcom 0).toNat) ∧
      Window.read h.bufcom 0 n = h.frontFrame.bytes ++ tail ∧
      consume (Window.read h.bufcom 0 n) =
        if maxBlkCnt < (tail.headD 0).toNat then ([h.frontFrame], [])
        else (h.frontFrame :: (consume tail).1, (consume tail).2) := by
  obtain ⟨m, rfl⟩ := Nat.exists_eq_add_of_le hsize
  have hread : Window.read h.bufcom 0 ((h.bufcom 0).toNat + 2 + m) =
      h.bufcom 0 :: h.bufcom 1 :: Window.read h.bufcom 2 ((h.bufcom 0).toNat + m) := by
    rw [show (h.bufcom 0).toNat + 2 + m = (h.bufcom 0).toNat + m + 1 + 1 by omega,
      Window.read_succ, Window.read_succ]
  have hfront : Frame.ofHead (h.bufcom 0) (h.bufcom 1)
      (Window.read h.bufcom 2 ((h.bufcom 0).toNat + m)) = h.frontFrame := by
    simp only [frontFrame, Frame.ofHead, Frame.mk.injEq, true_and]
    rw [Window.take_read (Nat.le_add_right _ _), Window.take_read (le_refl _)]
  have htail : (Window.read h.bufcom 2 ((h.bufcom 0).toNat + m)).drop (h.bufcom 0).toNat =
      Window.read h.bufcom (2 + (h.bufcom 0).toNat)
        ((h.bufcom 0).toNat + 2 + m - 2 - (h.bufcom 0).toNat) := by
    rw [Window.drop_read (Nat.le_add_right _ _),
      show (h.bufcom 0).toNat + m - (h.bufcom 0).toNat =
        (h.bufcom 0).toNat + 2 + m - 2 - (h.bufcom 0).toNat by omega]
  have hbytes := Frame.bytes_ofHead (h.bufcom 1)
    (show (h.bufcom 0).toNat ≤ (Window.read h.bufcom 2 ((h.bufcom 0).toNat + m)).length by simp)
  rw [hfront, htail, ← hread] at hbytes
  refine ⟨_, rfl, hbytes.symm, ?_⟩
  rw [hread, consume, if_pos (by simp), hfront, htail]

/-- No complete frame at the front of `bufcom`. -/
theorem read_incomplete {h : Host} {n : Nat} (hsize : ¬ (h.bufcom 0).toNat + 2 ≤ n) :
    Incomplete (Window.read h.bufcom 0 n) := by
  match n with
  | 0 => trivial
  | 1 => trivial
  | n + 2 =>
      rw [Window.read_succ, Window.read_succ]
      simp only [Incomplete, Window.length_read]
      omega

/-- The loop dispatches the frames of `consume`, and leaves the buffer as `LoopResult` says. -/
def LoopLaw (n : Nat) (h : Host) : Prop :=
  (h.queryLoop n).2 = (h.handleAll (consume (Window.read h.bufcom 0 n)).1).2.1 ∧
    ∃ mem idx, LoopResult h n mem idx ∧
      (h.queryLoop n).1 =
        (h.handleAll (consume (Window.read h.bufcom 0 n)).1).1.setBuf mem idx

section Loop

variable {n : Nat} {h h₁ : Host}

theorem loopLaw_incomplete (hsize : ¬ (h.bufcom 0).toNat + 2 ≤ n) : LoopLaw n h := by
  have hconsume := consume_incomplete (read_incomplete hsize)
  rw [LoopLaw, queryLoop, dif_neg hsize]
  refine ⟨by rw [hconsume]; rfl, h.bufcom, h.idxBufcom, ⟨.inl rfl, .inl ⟨rfl, rfl⟩, ?_, ?_⟩, ?_⟩
  · intro _
    rw [hconsume, if_pos rfl]
  · intro _
    rw [hconsume, Window.length_read]
  · rw [hconsume]
    rfl

variable (hsize : (h.bufcom 0).toNat + 2 ≤ n) (hn : n ≤ bufcomSize)
include hsize hn

/-- The first frame makes the loop leave, with the buffer as it stands. -/
theorem loopLaw_exits (hhandle : h.handle h.frontFrame = (h₁, true)) : LoopLaw n h := by
  obtain ⟨tail, -, -, hconsume⟩ := read_front hsize
  obtain ⟨hmem, hidx⟩ := handle_bufcom h h.frontFrame
  rw [hhandle] at hmem hidx
  have hall : h.handleAll (consume (Window.read h.bufcom 0 n)).1 = (h₁, [h.frontFrame], true) := by
    rw [hconsume]
    split <;> simp only [handleAll, hhandle]
  have hnever : ¬ (true = false) := by decide
  rw [LoopLaw, queryLoop, dif_pos hsize, dispatch_eq h (by omega), hhandle]
  refine ⟨by rw [hall], h.bufcom, h.idxBufcom, ⟨.inl rfl, .inl ⟨rfl, rfl⟩, ?_, ?_⟩, ?_⟩
  · rw [hall]
    exact fun hfalse => absurd hfalse hnever
  · rw [hall]
    exact fun hfalse => absurd hfalse hnever
  · rw [hall, ← hmem, ← hidx]
    rfl

/-- Behind the first frame the rest moves to the front of the buffer. -/
theorem shift_rest (hhandle : h.handle h.frontFrame = (h₁, false)) :
    ∃ mem,
      (if 0 < n - 2 - (h.bufcom 0).toNat then
        ({ h₁ with fault := h₁.fault || decide (n < 2 + (h.bufcom 0).toNat) } : Host).shift
          (n - 2 - (h.bufcom 0).toNat)
        else { h₁ with fault := h₁.fault || decide (n < 2 + (h.bufcom 0).toNat) }) =
        h₁.setBuf mem h.idxBufcom ∧
      Window.read mem 0 (n - 2 - (h.bufcom 0).toNat) =
        Window.read h.bufcom (2 + (h.bufcom 0).toNat) (n - 2 - (h.bufcom 0).toNat) := by
  obtain ⟨hmem, hidx⟩ := handle_bufcom h h.frontFrame
  rw [hhandle] at hmem hidx
  dsimp only at hmem hidx
  have hnot : ¬ n < 2 + (h.bufcom 0).toNat := by omega
  have hin : ¬ bufcomSize < 2 + (h.bufcom 0).toNat + (n - 2 - (h.bufcom 0).toNat) := by omega
  by_cases hpos : 0 < n - 2 - (h.bufcom 0).toNat
  · refine ⟨copyTo h.bufcom 0 (Window.read h.bufcom (2 + (h.bufcom 0).toNat)
      (n - 2 - (h.bufcom 0).toNat)), ?_, ?_⟩
    · rw [if_pos hpos]
      simp only [shift, setBuf, hmem, hidx, hnot, hin, decide_false, Bool.or_false]
    · have hcopied := Window.read_copyTo h.bufcom 0
        (Window.read h.bufcom (2 + (h.bufcom 0).toNat) (n - 2 - (h.bufcom 0).toNat))
      rwa [Window.length_read] at hcopied
  · have hzero : n - 2 - (h.bufcom 0).toNat = 0 := by omega
    refine ⟨h.bufcom, ?_, by rw [hzero]; rfl⟩
    rw [if_neg hpos]
    simp only [setBuf, hnot, decide_false, Bool.or_false]
    rw [← hmem, ← hidx]

/-- The loop goes on with the rest, unless that begins with too large a size. -/
theorem queryLoop_goes (hhandle : h.handle h.frontFrame = (h₁, false)) :
    ∃ mem,
      Window.read mem 0 (n - 2 - (h.bufcom 0).toNat) =
        Window.read h.bufcom (2 + (h.bufcom 0).toNat) (n - 2 - (h.bufcom 0).toNat) ∧
      h.queryLoop n =
        if maxBlkCnt < ((Window.read h.bufcom (2 + (h.bufcom 0).toNat)
            (n - 2 - (h.bufcom 0).toNat)).headD 0).toNat then
          ((h₁.setBuf mem h.idxBufcom).drop, [h.frontFrame])
        else
          let out := (h₁.setBuf mem (n - 2 - (h.bufcom 0).toNat)).queryLoop
            (n - 2 - (h.bufcom 0).toNat)
          (out.1, h.frontFrame :: out.2) := by
  obtain ⟨mem, hshift, hread⟩ := shift_rest hsize hn hhandle
  have hhead : (0 < n - 2 - (h.bufcom 0).toNat ∧
      maxBlkCnt < ((h₁.setBuf mem h.idxBufcom).bufcom 0).toNat) ↔
      maxBlkCnt < ((Window.read h.bufcom (2 + (h.bufcom 0).toNat)
        (n - 2 - (h.bufcom 0).toNat)).headD 0).toNat := by
    show (_ ∧ maxBlkCnt < (mem 0).toNat) ↔ _
    rw [← hread]
    cases n - 2 - (h.bufcom 0).toNat with
    | zero => simp
    | succ m =>
        rw [Window.read_succ]
        simp
  refine ⟨mem, hread, ?_⟩
  rw [queryLoop, dif_pos hsize, dispatch_eq h (by omega), hhandle]
  dsimp only
  rw [hshift]
  simp only [hhead]
  rfl

/-- The rest begins with too large a size and is dropped. -/
theorem loopLaw_drops (hhandle : h.handle h.frontFrame = (h₁, false))
    (hbig : maxBlkCnt < ((Window.read h.bufcom (2 + (h.bufcom 0).toNat)
      (n - 2 - (h.bufcom 0).toNat)).headD 0).toNat) : LoopLaw n h := by
  obtain ⟨tail, htail, -, hconsume⟩ := read_front hsize
  obtain ⟨mem, -, hloop⟩ := queryLoop_goes hsize hn hhandle
  rw [if_pos hbig] at hloop
  rw [htail, if_pos hbig] at hconsume
  have hall : h.handleAll (consume (Window.read h.bufcom 0 n)).1 = (h₁, [h.frontFrame], false) := by
    rw [hconsume]
    simp only [handleAll, hhandle]
  rw [LoopLaw, hloop]
  refine ⟨by rw [hall], Function.update mem 0 0, 0, ⟨.inr (by omega), .inr (.inl rfl), ?_, ?_⟩, ?_⟩
  · intro _
    rw [hconsume]
    rfl
  · intro _
    rw [hconsume]
    rfl
  · rw [hall]
    rfl

/-- The loop goes on with the rest. -/
theorem loopLaw_goes (hhandle : h.handle h.frontFrame = (h₁, false))
    (hsmall : ¬ maxBlkCnt < ((Window.read h.bufcom (2 + (h.bufcom 0).toNat)
      (n - 2 - (h.bufcom 0).toNat)).headD 0).toNat)
    (ih : ∀ h', LoopLaw (n - 2 - (h.bufcom 0).toNat) h') : LoopLaw n h := by
  obtain ⟨tail, htail, hbytes, hconsume⟩ := read_front hsize
  obtain ⟨mem, hread, hloop⟩ := queryLoop_goes hsize hn hhandle
  rw [if_neg hsmall] at hloop
  rw [← htail] at hsmall hread
  rw [if_neg hsmall] at hconsume
  obtain ⟨hframes, mem', idx', hresult, hhost⟩ :=
    ih (h₁.setBuf mem (n - 2 - (h.bufcom 0).toNat))
  have hread' : Window.read (h₁.setBuf mem (n - 2 - (h.bufcom 0).toNat)).bufcom 0
      (n - 2 - (h.bufcom 0).toNat) = tail := hread
  rw [hread', handleAll_setBuf] at hframes hhost
  obtain ⟨hbound, hleft, hidx', hrest'⟩ := hresult
  rw [hread', handleAll_setBuf] at hidx' hrest'
  rw [hread'] at hleft
  have hall : h.handleAll (consume (Window.read h.bufcom 0 n)).1 =
      ((h₁.handleAll (consume tail).1).1,
        h.frontFrame :: (h₁.handleAll (consume tail).1).2.1,
        (h₁.handleAll (consume tail).1).2.2) := by
    rw [hconsume]
    simp only [handleAll, hhandle]
  rw [LoopLaw, hloop]
  refine ⟨?_, mem', idx', ⟨?_, .inr ?_, ?_, ?_⟩, ?_⟩
  · rw [hall]
    exact congrArg _ hframes
  · rcases hbound with hsame | hless
    · have : idx' = n - 2 - (h.bufcom 0).toNat := hsame
      omega
    · omega
  · rw [hconsume]
    rcases hleft with ⟨hmem', hidx''⟩ | hzero | ⟨k, hk⟩
    · refine .inr ⟨1, ?_⟩
      have hsame : Window.read mem' 0 idx' = tail := by
        rw [hmem', hidx'']
        exact hread
      rw [hsame, hbytes]
      simp
    · exact .inl hzero
    · refine .inr ⟨k + 1, ?_⟩
      rw [List.take_succ_cons, stream_cons, List.append_assoc, ← hk]
      exact hbytes
  · rw [hall, hconsume]
    intro hfalse
    have hcons : (h.frontFrame :: (consume tail).1, (consume tail).2).1 ≠ [] :=
      List.cons_ne_nil _ _
    rw [if_neg hcons, hidx' hfalse]
    by_cases hnil : (consume tail).1 = []
    · -- Without another frame the tail is what is left.
      rw [if_pos hnil, consume_rest_of_nil hnil, htail, Window.length_read]
      rfl
    · rw [if_neg hnil]
  · rw [hall, hconsume]
    exact hrest'
  · rw [hall]
    exact hhost

end Loop

theorem queryLoop_eq (n : Nat) (h : Host) (hn : n ≤ bufcomSize) : LoopLaw n h := by
  induction n using Nat.strong_induction_on generalizing h with
  | _ n ih =>
  by_cases hsize : (h.bufcom 0).toNat + 2 ≤ n
  · rcases hhandle : h.handle h.frontFrame with ⟨h₁, exited⟩
    cases exited with
    | true => exact loopLaw_exits hsize hn hhandle
    | false =>
        by_cases hbig : maxBlkCnt < ((Window.read h.bufcom (2 + (h.bufcom 0).toNat)
            (n - 2 - (h.bufcom 0).toNat)).headD 0).toNat
        · exact loopLaw_drops hsize hn hhandle hbig
        · exact loopLaw_goes hsize hn hhandle hbig fun h' => ih _ (by omega) h' (by omega)
  · exact loopLaw_incomplete hsize

/-! ## The call law -/

/-- The bytes of the unfinished frame. -/
def pend (h : Host) : List UInt8 := Window.read h.bufcom 0 h.idxBufcom

/-- What the chunk goes behind. -/
def base (chunk : Chunk) (h : Host) : List UInt8 := if h.Overflows chunk then [] else h.pend

/-- The frames of a call, from the bytes it has and those it receives. -/
def frames (pend chunk : List UInt8) : List Frame :=
  if maxBlkCnt < ((pend ++ chunk).headD 0).toNat then [] else (consume (pend ++ chunk)).1

/-- The bytes that a call keeps. -/
def kept (pend chunk : List UInt8) : List UInt8 :=
  if maxBlkCnt < ((pend ++ chunk).headD 0).toNat then []
  else if (consume (pend ++ chunk)).1 = [] then pend
  else (consume (pend ++ chunk)).2

theorem length_pend (h : Host) : h.pend.length = h.idxBufcom := Window.length_read

/-- Without bytes of an unfinished frame a chunk stands alone. -/
theorem base_of_empty {h : Host} (hidx : h.idxBufcom = 0) (chunk : Chunk) : h.base chunk = [] := by
  rw [base, pend, hidx]
  split <;> rfl

theorem length_base_add (chunk : Chunk) (h : Host) :
    (h.base chunk).length + chunk.1.length ≤ bufcomSize := by
  have hchunk := chunk.2
  rw [base]
  split
  · rw [List.length_nil]
    exact (Nat.zero_add _).trans_le (hchunk.trans (by decide))
  next hfits =>
    rw [Overflows] at hfits
    rw [length_pend]
    omega

/-- The buffer behind the append. -/
theorem append_eq (chunk : Chunk) (h : Host) :
    ∃ mem, h.append chunk = h.setBuf mem (h.base chunk).length ∧
      Window.read mem 0 ((h.base chunk).length + chunk.1.length) = h.base chunk ++ chunk.1 := by
  have hlen := length_base_add chunk h
  refine ⟨copyTo h.bufcom (h.base chunk).length chunk.1, ?_, ?_⟩
  · have hin : ¬ bufcomSize < (h.base chunk).length + chunk.1.length := not_lt.mpr hlen
    rw [append]
    by_cases hover : h.Overflows chunk
    · rw [base, if_pos hover] at hin
      simp only [base, if_pos hover, setBuf, List.length_nil] at hin ⊢
      simp only [hin, decide_false, Bool.or_false]
    · rw [base, if_neg hover, length_pend] at hin
      simp only [base, if_neg hover, setBuf, length_pend] at hin ⊢
      simp only [hin, decide_false, Bool.or_false]
  · have hread := Window.read_copyTo_append h.bufcom 0 (h.base chunk).length chunk.1
    rw [Nat.zero_add] at hread
    have hbase : Window.read h.bufcom 0 (h.base chunk).length = h.base chunk := by
      rw [base]
      split
      · rfl
      · rw [length_pend]
        rfl
    rw [hread, hbase]

/-- A call with a chunk dispatches the frames of `frames` until one makes it leave; when
none does, it keeps the bytes of `kept`. -/
theorem receive_eq {chunk : Chunk} (hne : chunk.1 ≠ []) (h : Host) :
    (h.receive chunk).2 = (h.handleAll (frames (h.base chunk) chunk.1)).2.1 ∧
      ∃ mem idx,
        (h.receive chunk).1 =
          (h.handleAll (frames (h.base chunk) chunk.1)).1.setBuf mem idx ∧
        (idx ≤ bufcomSize ∧ (Window.read mem 0 idx = h.base chunk ∨ Window.read mem 0 idx = [] ∨
          ∃ k, h.base chunk ++ chunk.1 =
            stream ((frames (h.base chunk) chunk.1).take k) ++ Window.read mem 0 idx)) ∧
        ((h.handleAll (frames (h.base chunk) chunk.1)).2.2 = false →
          Window.read mem 0 idx = kept (h.base chunk) chunk.1) := by
  have hpos : 0 < chunk.1.length := List.length_pos_iff.mpr hne
  have hlen := length_base_add chunk h
  obtain ⟨mem, happend, hread⟩ := append_eq chunk h
  have hhead : ((h.base chunk ++ chunk.1).headD 0).toNat = (mem 0).toNat := by
    obtain ⟨m, hm⟩ := Nat.exists_eq_succ_of_ne_zero
      (show (h.base chunk).length + chunk.1.length ≠ 0 by omega)
    rw [hm, Window.read_succ] at hread
    rw [← hread]
    rfl
  rw [receive, if_pos hpos, happend]
  by_cases hbig : maxBlkCnt < (mem 0).toNat
  · have hframes : frames (h.base chunk) chunk.1 = [] := by rw [frames, hhead, if_pos hbig]
    have hkept : kept (h.base chunk) chunk.1 = [] := by rw [kept, hhead, if_pos hbig]
    rw [hframes, hkept]
    dsimp only
    rw [if_neg (show ¬ ((h.setBuf mem (h.base chunk).length).bufcom 0).toNat ≤ maxBlkCnt from
      not_le.mpr hbig)]
    exact ⟨rfl, Function.update mem 0 0, 0, rfl, ⟨Nat.zero_le _, .inr (.inl rfl)⟩, fun _ => rfl⟩
  · have hframes : frames (h.base chunk) chunk.1 = (consume (h.base chunk ++ chunk.1)).1 := by
      rw [frames, hhead, if_neg hbig]
    have hkept : kept (h.base chunk) chunk.1 =
        if (consume (h.base chunk ++ chunk.1)).1 = [] then h.base chunk
        else (consume (h.base chunk ++ chunk.1)).2 := by
      rw [kept, hhead, if_neg hbig]
    obtain ⟨hout, mem', idx', hresult, hhost⟩ := queryLoop_eq (chunk.1.length + (h.base chunk).length)
      (h.setBuf mem (h.base chunk).length) (by omega)
    have hread' : Window.read (h.setBuf mem (h.base chunk).length).bufcom 0
        (chunk.1.length + (h.base chunk).length) = h.base chunk ++ chunk.1 := by
      rw [Nat.add_comm]
      exact hread
    obtain ⟨hbound, hleft, hidx, hrest⟩ := hresult
    rw [hread', handleAll_setBuf] at hout hhost hidx hrest
    rw [hread'] at hleft
    dsimp only
    rw [if_pos (show ((h.setBuf mem (h.base chunk).length).bufcom 0).toNat ≤ maxBlkCnt from
      not_lt.mp hbig), hframes, hkept]
    refine ⟨hout, mem', idx', hhost, ⟨?_, ?_⟩, ?_⟩
    · rcases hbound with hsame | hless
      · have : idx' = (h.base chunk).length := hsame
        omega
      · omega
    · rcases hleft with ⟨hmem, hidx'⟩ | hzero | hk
      · left
        have htake := congrArg (List.take (h.base chunk).length) hread
        rw [Window.take_read (Nat.le_add_right _ _), List.take_left] at htake
        rw [hmem, hidx']
        exact htake
      · right; left
        rw [hzero]
        rfl
      · exact .inr (.inr hk)
    · intro hfalse
      have hidx' := hidx hfalse
      have hrest' := hrest hfalse
      by_cases hnil : (consume (h.base chunk ++ chunk.1)).1 = []
      · -- The loop found no frame: the old fill level stays, and the chunk is forgotten.
        rw [if_pos hnil] at hidx' ⊢
        rw [consume_rest_of_nil hnil] at hrest'
        have hidx'' : idx' = (h.base chunk).length := hidx'
        have htake := congrArg (List.take (h.base chunk).length) hrest'
        rw [List.length_append, Window.take_read (Nat.le_add_right _ _), List.take_left] at htake
        rw [hidx'']
        exact htake
      · rw [if_neg hnil] at hidx' ⊢
        rw [hidx']
        exact hrest'

end Host
