-- SUMMARY: What a sequence of frames does to the sample ring, to the wait for a reply and to memory safety, and runs of the parser.
import PowerProfiler.Host.Parser
import PowerProfiler.Lib.Runs

/-!
# Effects of frames

Each part of the host's state sees the frames of a call in its own way: the sample ring
stores data frames (`storeAll`), the wait takes at most one reply (`answer`) or gives up
(`givesUp`), and only a reply longer than `bufrx` leaves an array.
-/

open Framing Circular

namespace Host

/-- The frame carries samples or sample counters, for a host that measures. -/
def DataFrame (workAdc : Bool) (f : Frame) : Prop := workAdc ∧ f.cmd &&& 0x7F = cmdDevAdc

instance (workAdc : Bool) (f : Frame) : Decidable (DataFrame workAdc f) :=
  inferInstanceAs (Decidable (_ ∧ _))

/-- The host stores the samples of the frame. -/
def Stored (workAdc samplesEna : Bool) (f : Frame) : Prop :=
  DataFrame workAdc f ∧ f.cmd &&& 0x80 = 0 ∧ samplesEna ∧ 1 < f.payload.length

instance (workAdc samplesEna : Bool) (f : Frame) : Decidable (Stored workAdc samplesEna f) :=
  inferInstanceAs (Decidable (_ ∧ _ ∧ _ ∧ _))

/-- A block of one sample. -/
def oneSample : Frame := ⟨cmdDevAdc, [0x11, 0x22, 0x33], by decide⟩

/-! ## The sample ring -/

/-- What a frame does to `bufsmp` and `ismptx`. -/
def storeOne (workAdc samplesEna : Bool) (s : (Nat → UInt32) × Nat) (f : Frame) :
    (Nat → UInt32) × Nat :=
  if Stored workAdc samplesEna f then
    (fill s.1 smpSlots (storeStart s.2) (samplesOf f.payload),
      (storeStart s.2 + (samplesOf f.payload).length) % smpSlots)
  else s

/-- What a sequence of frames does to `bufsmp` and `ismptx`. -/
def storeAll (workAdc samplesEna : Bool) (fs : List Frame) (s : (Nat → UInt32) × Nat) :
    (Nat → UInt32) × Nat :=
  fs.foldl (storeOne workAdc samplesEna) s

/-! ## The wait -/

/-- The frame taken as the reply, among frames that arrive while `cnt` counts the wait. -/
def answer (workAdc : Bool) (waitId : UInt8) : UInt32 → List Frame → Option Frame
  | _, [] => none
  | cnt, f :: fs =>
      if DataFrame workAdc f then answer workAdc waitId cnt fs
      else if 0 < cnt then
        if f.cmd &&& 0x7F = waitId then some f
        else if 3 < cnt + 1 then none
        else answer workAdc waitId (cnt + 1) fs
      else none

/-- The frames make the wait give up. -/
def givesUp (workAdc : Bool) (waitId : UInt8) : UInt32 → List Frame → Bool
  | _, [] => false
  | cnt, f :: fs =>
      if DataFrame workAdc f then givesUp workAdc waitId cnt fs
      else if 0 < cnt then
        if f.cmd &&& 0x7F = waitId then false
        else if 3 < cnt + 1 then true
        else givesUp workAdc waitId (cnt + 1) fs
      else false

/-! ## One frame -/

/-- All that a frame can do. -/
theorem handle_cases (f : Frame) (h : Host) :
    (DataFrame h.workAdc f ∧ Stored h.workAdc h.samplesEna f ∧ h.handle f = (h.storeFrame f, false)) ∨
    (DataFrame h.workAdc f ∧ ¬ Stored h.workAdc h.samplesEna f ∧
      (h.handle f = (h, false) ∨ h.handle f = (h.countsFrame f, false))) ∨
    (¬ DataFrame h.workAdc f ∧ 0 < h.waitCnt ∧ f.cmd &&& 0x7F = h.waitId ∧
      h.handle f = (h.replyFrame f, false)) ∨
    (¬ DataFrame h.workAdc f ∧ 0 < h.waitCnt ∧ f.cmd &&& 0x7F ≠ h.waitId ∧ 3 < h.waitCnt + 1 ∧
      h.handle f = (giveUp { h with waitCnt := h.waitCnt + 1 }, true)) ∨
    (¬ DataFrame h.workAdc f ∧ 0 < h.waitCnt ∧ f.cmd &&& 0x7F ≠ h.waitId ∧ ¬ 3 < h.waitCnt + 1 ∧
      h.handle f = ({ h with waitCnt := h.waitCnt + 1 }, false)) ∨
    (¬ DataFrame h.workAdc f ∧ ¬ 0 < h.waitCnt ∧ h.handle f = (h, false)) := by
  have hhandle := handle.eq_def f h
  by_cases hdata : h.workAdc ∧ f.cmd &&& 0x7F = cmdDevAdc
  · rw [if_pos hdata] at hhandle
    by_cases hsamples : f.cmd &&& 0x80 = 0
    · rw [if_pos hsamples] at hhandle
      by_cases hstore : h.samplesEna ∧ 1 < f.payload.length
      · rw [if_pos hstore] at hhandle
        exact .inl ⟨hdata, ⟨hdata, hsamples, hstore⟩, hhandle⟩
      · rw [if_neg hstore] at hhandle
        exact .inr (.inl ⟨hdata, fun hs => hstore hs.2.2, .inl hhandle⟩)
    · rw [if_neg hsamples] at hhandle
      exact .inr (.inl ⟨hdata, fun hs => hsamples hs.2.1, .inr hhandle⟩)
  · rw [if_neg hdata] at hhandle
    refine .inr (.inr ?_)
    by_cases hwait : 0 < h.waitCnt
    · rw [if_pos hwait] at hhandle
      by_cases hmatch : f.cmd &&& 0x7F = h.waitId
      · rw [if_pos hmatch] at hhandle
        exact .inl ⟨hdata, hwait, hmatch, hhandle⟩
      · rw [if_neg hmatch] at hhandle
        by_cases hmiss : 3 < h.waitCnt + 1
        · rw [if_pos hmiss] at hhandle
          exact .inr (.inl ⟨hdata, hwait, hmatch, hmiss, hhandle⟩)
        · rw [if_neg hmiss] at hhandle
          exact .inr (.inr (.inl ⟨hdata, hwait, hmatch, hmiss, hhandle⟩))
    · rw [if_neg hwait] at hhandle
      exact .inr (.inr (.inr ⟨hdata, hwait, hhandle⟩))

theorem countsFrame_keeps (f : Frame) (h : Host) :
    ∃ all notSend err, h.countsFrame f =
      { h with devAllSendCount := all, devNotSendCount := notSend, devSendErr := err } := by
  rw [countsFrame]
  split
  · exact ⟨_, _, _, rfl⟩
  · exact ⟨_, _, _, rfl⟩

/-- The settings that no frame changes. -/
structure SameSettings (h h' : Host) : Prop where
  workAdc : h'.workAdc = h.workAdc
  samplesEna : h'.samplesEna = h.samplesEna
  purgeCom : h'.purgeCom = h.purgeCom
  lentx : h'.lentx = h.lentx
  ismprx : h'.ismprx = h.ismprx

theorem SameSettings.refl (h : Host) : SameSettings h h := ⟨rfl, rfl, rfl, rfl, rfl⟩

theorem SameSettings.trans {h h' h'' : Host} (hs : SameSettings h h') (hs' : SameSettings h' h'') :
    SameSettings h h'' where
  workAdc := hs'.workAdc.trans hs.workAdc
  samplesEna := hs'.samplesEna.trans hs.samplesEna
  purgeCom := hs'.purgeCom.trans hs.purgeCom
  lentx := hs'.lentx.trans hs.lentx
  ismprx := hs'.ismprx.trans hs.ismprx

variable (f : Frame) (h : Host)

theorem handle_settings : SameSettings h (h.handle f).1 := by
  rcases handle_cases f h with ⟨-, -, heq⟩ | ⟨-, -, heq | heq⟩ | ⟨-, -, -, heq⟩ | ⟨-, -, -, -, heq⟩ |
    ⟨-, -, -, -, heq⟩ | ⟨-, -, heq⟩
  · rw [heq]; exact ⟨rfl, rfl, rfl, rfl, rfl⟩
  · rw [heq]; exact .refl h
  · obtain ⟨_, _, _, hcounts⟩ := countsFrame_keeps f h
    rw [heq, hcounts]
    exact ⟨rfl, rfl, rfl, rfl, rfl⟩
  · rw [heq]; exact ⟨rfl, rfl, rfl, rfl, rfl⟩
  · rw [heq]; exact ⟨rfl, rfl, rfl, rfl, rfl⟩
  · rw [heq]; exact ⟨rfl, rfl, rfl, rfl, rfl⟩
  · rw [heq]; exact .refl h

/-- A frame does the same to the sample ring whatever the wait. -/
theorem handle_samples :
    ((h.handle f).1.bufsmp, (h.handle f).1.ismptx) =
      storeOne h.workAdc h.samplesEna (h.bufsmp, h.ismptx) f := by
  have hother : ¬ DataFrame h.workAdc f → ¬ Stored h.workAdc h.samplesEna f := fun hd hs => hd hs.1
  rw [storeOne]
  rcases handle_cases f h with ⟨-, hs, heq⟩ | ⟨-, hs, heq | heq⟩ | ⟨hd, -, -, heq⟩ |
    ⟨hd, -, -, -, heq⟩ | ⟨hd, -, -, -, heq⟩ | ⟨hd, -, heq⟩
  · rw [heq, if_pos hs]; rfl
  · rw [heq, if_neg hs]
  · obtain ⟨_, _, _, hcounts⟩ := countsFrame_keeps f h
    rw [heq, if_neg hs, hcounts]
  · rw [heq, if_neg (hother hd)]; rfl
  · rw [heq, if_neg (hother hd)]; rfl
  · rw [heq, if_neg (hother hd)]
  · rw [heq, if_neg (hother hd)]

/-! ## Sequences of frames -/

variable {f h}

theorem handleAll_cons {h' : Host} (hhandle : h.handle f = (h', false)) (fs : List Frame) :
    h.handleAll (f :: fs) = ((h'.handleAll fs).1, f :: (h'.handleAll fs).2.1,
      (h'.handleAll fs).2.2) := by
  rw [handleAll, hhandle]

theorem handleAll_cons_exit {h' : Host} (hhandle : h.handle f = (h', true)) (fs : List Frame) :
    h.handleAll (f :: fs) = (h', [f], true) := by
  rw [handleAll, hhandle]

variable (f h)

theorem handleAll_settings (fs : List Frame) : SameSettings h (h.handleAll fs).1 := by
  induction fs generalizing h with
  | nil => exact .refl h
  | cons f fs ih =>
      have hstep := handle_settings f h
      rcases hhandle : h.handle f with ⟨h', exited⟩
      rw [hhandle] at hstep
      cases exited
      · rw [handleAll_cons hhandle]
        exact hstep.trans (ih h')
      · rw [handleAll_cons_exit hhandle]
        exact hstep

/-- Without an exit every frame is dispatched. -/
theorem handleAll_dispatched {fs : List Frame} (hstay : (h.handleAll fs).2.2 = false) :
    (h.handleAll fs).2.1 = fs := by
  induction fs generalizing h with
  | nil => rfl
  | cons f fs ih =>
      rcases hhandle : h.handle f with ⟨h', exited⟩
      cases exited
      · rw [handleAll_cons hhandle] at hstay ⊢
        exact congrArg _ (ih h' hstay)
      · rw [handleAll_cons_exit hhandle] at hstay
        cases hstay

/-- Without an exit the sample ring sees every frame. -/
theorem handleAll_samples {fs : List Frame} (hstay : (h.handleAll fs).2.2 = false) :
    ((h.handleAll fs).1.bufsmp, (h.handleAll fs).1.ismptx) =
      storeAll h.workAdc h.samplesEna fs (h.bufsmp, h.ismptx) := by
  induction fs generalizing h with
  | nil => rfl
  | cons f fs ih =>
      have hstep := handle_samples f h
      have hset := handle_settings f h
      rcases hhandle : h.handle f with ⟨h', exited⟩
      rw [hhandle] at hstep hset
      cases exited
      · rw [handleAll_cons hhandle] at hstay ⊢
        refine (ih h' hstay).trans ?_
        rw [storeAll, storeAll, List.foldl_cons, ← hstep, hset.workAdc, hset.samplesEna]
      · rw [handleAll_cons_exit hhandle] at hstay
        cases hstay

theorem eq_zero_of_not_pos {cnt : UInt32} (h : ¬ 0 < cnt) : cnt = 0 := by
  rw [← UInt32.toNat_inj]
  rw [UInt32.lt_iff_toNat_lt] at h
  simpa using h

/-- Nothing gives up when nothing is awaited. -/
theorem givesUp_zero (workAdc : Bool) (waitId : UInt8) (fs : List Frame) :
    givesUp workAdc waitId 0 fs = false := by
  induction fs with
  | nil => rfl
  | cons f fs ih =>
      rw [givesUp, ih]
      split <;> rfl

theorem answer_zero (workAdc : Bool) (waitId : UInt8) (fs : List Frame) :
    answer workAdc waitId 0 fs = none := by
  induction fs with
  | nil => rfl
  | cons f fs ih =>
      rw [answer, ih]
      split <;> rfl

/-- The parser is left exactly when the wait gives up, and only a reply can be too long. -/
theorem handleAll_wait (fs : List Frame) :
    (h.handleAll fs).2.2 = givesUp h.workAdc h.waitId h.waitCnt fs ∧
      (h.handleAll fs).1.fault = (h.fault || decide (∃ f ∈ answer h.workAdc h.waitId h.waitCnt fs,
        bufrxSize < f.payload.length)) := by
  induction fs generalizing h with
  | nil => simp [handleAll, givesUp, answer]
  | cons f fs ih =>
      rw [givesUp, answer]
      rcases handle_cases f h with ⟨hd, -, heq⟩ | ⟨hd, -, heq | heq⟩ | ⟨hd, hw, hm, heq⟩ |
        ⟨hd, hw, hm, hmiss, heq⟩ | ⟨hd, hw, hm, hmiss, heq⟩ | ⟨hd, hw, heq⟩
      · rw [handleAll_cons heq, if_pos hd, if_pos hd]
        exact ih _
      · rw [handleAll_cons heq, if_pos hd, if_pos hd]
        exact ih _
      · obtain ⟨_, _, _, hcounts⟩ := countsFrame_keeps f h
        rw [handleAll_cons heq, if_pos hd, if_pos hd, hcounts]
        exact ih _
      · rw [handleAll_cons heq, if_neg hd, if_neg hd, if_pos hw, if_pos hw, if_pos hm, if_pos hm]
        obtain ⟨hexit, hfault⟩ := ih (h.replyFrame f)
        have hcnt : (h.replyFrame f).waitCnt = 0 := rfl
        rw [hcnt] at hexit hfault
        rw [givesUp_zero] at hexit
        rw [answer_zero] at hfault
        refine ⟨hexit, hfault.trans ?_⟩
        simp [replyFrame]
      · rw [handleAll_cons_exit heq, if_neg hd, if_neg hd, if_pos hw, if_pos hw, if_neg hm,
          if_neg hm, if_pos hmiss, if_pos hmiss]
        exact ⟨rfl, by simp [giveUp]⟩
      · rw [handleAll_cons heq, if_neg hd, if_neg hd, if_pos hw, if_pos hw, if_neg hm, if_neg hm,
          if_neg hmiss, if_neg hmiss]
        exact ih _
      · rw [handleAll_cons heq, if_neg hd, if_neg hd, if_neg hw, if_neg hw]
        obtain ⟨hexit, hfault⟩ := ih h
        rw [eq_zero_of_not_pos hw] at hexit hfault
        rw [givesUp_zero] at hexit
        rw [answer_zero] at hfault
        exact ⟨hexit, hfault⟩

/-- Nothing awaited, nothing is left early, and nothing will be awaited. -/
theorem handleAll_idle {fs : List Frame} (hidle : h.waitCnt = 0) :
    (h.handleAll fs).2 = (fs, false) ∧ (h.handleAll fs).1.waitCnt = 0 := by
  have hexit := (handleAll_wait h fs).1
  rw [hidle, givesUp_zero] at hexit
  refine ⟨Prod.ext (handleAll_dispatched h hexit) hexit, ?_⟩
  clear hexit
  induction fs generalizing h with
  | nil => exact hidle
  | cons f fs ih =>
      have hnot : ¬ 0 < h.waitCnt := by rw [hidle]; decide
      rcases handle_cases f h with ⟨-, -, heq⟩ | ⟨-, -, heq | heq⟩ | ⟨-, hw, -, -⟩ |
        ⟨-, hw, -, -, -⟩ | ⟨-, hw, -, -, -⟩ | ⟨-, -, heq⟩
      · rw [handleAll_cons heq]; exact ih _ hidle
      · rw [handleAll_cons heq]; exact ih _ hidle
      · obtain ⟨_, _, _, hcounts⟩ := countsFrame_keeps f h
        rw [handleAll_cons heq, hcounts]
        exact ih _ hidle
      · exact absurd hw hnot
      · exact absurd hw hnot
      · exact absurd hw hnot
      · rw [handleAll_cons heq]; exact ih _ hidle

/-! ## Consuming frames -/

/-- A frame at the front is dispatched, and with it what follows unless the next size byte
is too large. -/
theorem consume_bytes_append (tail : List UInt8) :
    consume (f.bytes ++ tail) =
      if maxBlkCnt < (tail.headD 0).toNat then ([f], [])
      else (f :: (consume tail).1, (consume tail).2) := by
  have hhead : Frame.ofHead f.size f.cmd (f.payload ++ tail) = f := by
    ext1 <;> simp [Frame.ofHead]
  have hle : f.size.toNat ≤ (f.payload ++ tail).length := by simp
  have hdrop : (f.payload ++ tail).drop f.size.toNat = tail := by simp
  rw [Frame.bytes, List.cons_append, List.cons_append, consume, if_pos hle, hhead, hdrop]

theorem consume_bytes : consume f.bytes = ([f], []) := by
  have h := consume_bytes_append f []
  rw [List.append_nil] at h
  rw [h]
  simp [consume]

/-- The bytes of a call that receives one frame behind nothing. -/
theorem frames_bytes (hsize : f.payload.length ≤ maxBlkCnt) :
    frames [] f.bytes = [f] ∧ kept [] f.bytes = [] := by
  have hhead : ¬ maxBlkCnt < (([] ++ f.bytes).headD 0).toNat := by
    simpa [Frame.bytes] using hsize
  rw [frames, kept, if_neg hhead, if_neg hhead, List.nil_append, consume_bytes]
  exact ⟨rfl, rfl⟩

/-! ## Calls -/

/-- What lies behind a call in which the wait does not give up. -/
structure Received (chunk : Chunk) : Prop where
  dispatched : (h.receive chunk).2 = frames (h.base chunk) chunk.1
  pend : (h.receive chunk).1.pend = kept (h.base chunk) chunk.1
  samples : ((h.receive chunk).1.bufsmp, (h.receive chunk).1.ismptx) =
    storeAll h.workAdc h.samplesEna (frames (h.base chunk) chunk.1) (h.bufsmp, h.ismptx)
  settings : SameSettings h (h.receive chunk).1

theorem receive_stays {chunk : Chunk} (hne : chunk.1 ≠ [])
    (hstay : givesUp h.workAdc h.waitId h.waitCnt (frames (h.base chunk) chunk.1) = false) :
    Received h chunk := by
  obtain ⟨hout, mem, idx, heq, -, hkept⟩ := receive_eq hne h
  rw [← (handleAll_wait h _).1] at hstay
  have hset := handleAll_settings h (frames (h.base chunk) chunk.1)
  refine ⟨hout.trans (handleAll_dispatched h hstay), ?_, ?_, ?_⟩
  · rw [heq]
    exact hkept hstay
  · rw [heq]
    exact handleAll_samples h hstay
  · rw [heq]
    exact ⟨hset.workAdc, hset.samplesEna, hset.purgeCom, hset.lentx, hset.ismprx⟩

/-- The call that awaits nothing. -/
theorem receive_idle {chunk : Chunk} (hne : chunk.1 ≠ []) (hidle : h.waitCnt = 0) :
    Received h chunk ∧ (h.receive chunk).1.waitCnt = 0 := by
  obtain ⟨-, mem, idx, heq, -, -⟩ := receive_eq hne h
  refine ⟨receive_stays h hne (by rw [hidle]; exact givesUp_zero _ _ _), ?_⟩
  rw [heq]
  exact (handleAll_idle h hidle).2

end Host
