-- SUMMARY: What the sample ring holds of the samples accepted since its last reset, however often the interrupt has gone around it.
import PowerProfiler.Firmware.DriverInvariant

/-!
# The history of the sample ring

The ring never tells how often the interrupt has gone around it. `History` relates it
to the list of all samples accepted since the pointers were last at zero: the ring is
what is left of writing that list around it.
-/

open Runs

/-- The ring holds what is left of `accepted`, all samples stored since the last reset. -/
structure History (d : Device) (accepted : List UInt32) : Prop where
  buffer : ∃ mem, d.dataBuffer = Circular.fill mem dataBufCnt 0 accepted
  wr : d.dataBufferWrPtr = accepted.length % dataBufCnt

namespace History

variable {d d' : Device} {accepted : List UInt32}

/-- A reset starts the history again. -/
theorem of_zero (h : d.dataBufferWrPtr = 0) : History d [] := ⟨⟨d.dataBuffer, rfl⟩, h⟩

theorem of_same (h : History d accepted) (hbuffer : d'.dataBuffer = d.dataBuffer)
    (hwr : d'.dataBufferWrPtr = d.dataBufferWrPtr) : History d' accepted :=
  ⟨by rw [hbuffer]; exact h.buffer, by rw [hwr]; exact h.wr⟩

/-- The interrupt adds its block to the history. -/
theorem isr (h : History d accepted) (hs : SampleInv d) (hacc : d.Accepting) (rx : RxBuffer) :
    History (dmaI2sIsr rx d) (accepted ++ rx.1) := by
  obtain ⟨mem, hmem⟩ := h.buffer
  rw [dmaI2sIsr_accepting hs hacc]
  refine ⟨⟨mem, ?_⟩, ?_⟩
  · rw [hmem, h.wr, Circular.fill_append, Nat.zero_add]
    exact Circular.fill_congr_start _ (by simp) _
  · simp [h.wr, rx.2]

/-- A sample is in its slot as long as the interrupt has not gone past it. -/
theorem get (h : History d accepted) {j : Nat} (hj : j < accepted.length)
    (hlast : accepted.length ≤ j + dataBufCnt) :
    d.dataBuffer (j % dataBufCnt) = accepted[j] := by
  obtain ⟨mem, hmem⟩ := h.buffer
  have hhold := Circular.holds_fill_drop mem hj.le hlast 0 (by simpa using hj)
  rw [hmem]
  simpa [Circular.slot] using hhold

/-- A slot that was written since the reset holds a sample of the history whose position
agrees with the slot. -/
theorem get_slot (h : History d accepted) {a : Nat} (ha : a < dataBufCnt)
    (hwritten : a < accepted.length) :
    ∃ j, j % dataBufCnt = a ∧ accepted[j]? = some (d.dataBuffer a) := by
  simp only [dataBufCnt] at ha
  -- The last position of the list that went to the slot.
  have hj : ∃ j, j % 1024 = a ∧ j < accepted.length ∧ accepted.length ≤ j + 1024 :=
    ⟨a + (accepted.length - 1 - a) / 1024 * 1024, by omega, by omega, by omega⟩
  obtain ⟨j, rfl, hlt, hlast⟩ := hj
  exact ⟨j, rfl, by rw [List.getElem?_eq_getElem hlt, ← h.get hlt hlast]; rfl⟩

/-- The block at a read pointer that the interrupt has not gone past is the next stretch
of the history. -/
theorem blockSamples (h : History d accepted) {n : Nat}
    (hrd : d.dataBufferRdPtr = n % dataBufCnt) (hle : n + data24BlkCnt ≤ accepted.length)
    (hlast : accepted.length ≤ n + dataBufCnt) :
    d.blockSamples = (accepted.drop n).take data24BlkCnt := by
  apply List.ext_getElem
  · simp only [Device.blockSamples, List.length_map, length_blockSlots, List.length_take,
      List.length_drop]
    omega
  · intro k hk _
    simp only [Device.blockSamples, List.length_map, length_blockSlots] at hk
    have hget := h.get (j := n + k) (by omega) (by omega)
    simp only [Device.blockSamples, blockSlots, List.getElem_map, List.getElem_range,
      Circular.slot, hrd, Nat.mod_add_mod, hget, List.getElem_take, List.getElem_drop]

end History

/-! ## The samples since the last reset -/

/-- The samples accepted since the last reset of the pointers, behind one more step. -/
def sinceReset (op : SampleOp) (d : Device) (accepted : List UInt32) : List UInt32 :=
  match op with
  | .isr rx => if d.Accepting then accepted ++ rx.1 else accepted
  | .task => accepted
  | .start channels freq => if d.i2s0 ∧ d.Reinit channels freq then [] else accepted
  | .stop => if d.i2s0 then [] else accepted
  | .sleep => if d.i2s0 then [] else accepted
  | .wakeUp => if d.i2s0 then accepted else []

/-- The machine with the accepted samples beside the device. -/
def historyStep (op : SampleOp) (s : Device × List UInt32) : Device × List UInt32 :=
  (sampleStep op s.1, sinceReset op s.1 s.2)

theorem run_historyStep_fst (ops : List SampleOp) (s : Device × List UInt32) :
    (run historyStep ops s).1 = run sampleStep ops s.1 := by
  induction ops generalizing s with
  | nil => rfl
  | cons op ops ih => exact ih _

/-- The read pointer only meets slots written since the reset: until the interrupt has
gone around once, it stays behind the write pointer. -/
structure HistoryInv (s : Device × List UInt32) : Prop where
  sample : SampleInv s.1
  history : History s.1 s.2
  behind : s.2.length < dataBufCnt → s.1.dataBufferRdPtr ≤ s.2.length
  blocks : i2sRxBufLen ∣ s.2.length

namespace HistoryInv

variable {s : Device × List UInt32}

theorem boot (memory : UInt32 → UInt32) : HistoryInv (Device.boot memory, []) :=
  ⟨.boot memory, .of_zero rfl, fun _ => Nat.zero_le _, dvd_zero _⟩

/-- A step that resets both pointers. -/
theorem of_zero {d d' : Device} (hs : SampleInv d') (hz : ZeroPtrs d d') : HistoryInv (d', []) :=
  ⟨hs, .of_zero hz.wr, fun _ => by simp [hz.rd], dvd_zero _⟩

/-- A step that keeps the ring. -/
theorem of_same {d' : Device} (h : HistoryInv s) (hs : SampleInv d') (hp : SamePtrs s.1 d')
    (hbuffer : d'.dataBuffer = s.1.dataBuffer) : HistoryInv (d', s.2) :=
  ⟨hs, h.history.of_same hbuffer hp.wr, fun hlt => by rw [hp.rd]; exact h.behind hlt, h.blocks⟩

theorem isr (h : HistoryInv s) (rx : RxBuffer) : HistoryInv (historyStep (.isr rx) s) := by
  have hs := dmaI2sIsr_sampleInv h.sample rx
  by_cases hacc : s.1.Accepting
  · have hstep : historyStep (.isr rx) s = (dmaI2sIsr rx s.1, s.2 ++ rx.1) := by
      simp [historyStep, sampleStep, sinceReset, hacc]
    have hlen : (s.2 ++ rx.1).length = s.2.length + 32 := by
      rw [List.length_append, rx.2]
      rfl
    have hrd : (dmaI2sIsr rx s.1).dataBufferRdPtr = s.1.dataBufferRdPtr := by
      rw [dmaI2sIsr_accepting h.sample hacc]
    have hblocks := h.blocks
    rw [hstep]
    refine ⟨hs, h.history.isr h.sample hacc rx, ?_, ?_⟩
    · dsimp only
      rw [hlen, hrd]
      intro hlt
      have := h.behind (by omega)
      omega
    · dsimp only
      rw [hlen]
      simp only [i2sRxBufLen] at hblocks ⊢
      omega
  · have hstep : historyStep (.isr rx) s = (dmaI2sIsr rx s.1, s.2) := by
      simp [historyStep, sampleStep, sinceReset, hacc]
    obtain ⟨hp, hbuffer, -⟩ := dmaI2sIsr_discard hacc rx
    rw [hstep]
    exact h.of_same hs hp hbuffer

theorem sendBlock_dataBuffer (samples : List UInt32) (d : Device) :
    (sendBlock samples d).dataBuffer = d.dataBuffer := by
  simp only [sendBlock]
  split <;> rfl

theorem task (h : HistoryInv s) : HistoryInv (historyStep .task s) := by
  have hs := taskDataOut_sampleInv h.sample
  show HistoryInv ((taskDataOut s.1).1, s.2)
  rw [taskDataOut_eq h.sample] at hs ⊢
  by_cases hp : data24BlkCnt ≤ pending s.1.dataBufferRdPtr s.1.dataBufferWrPtr
  · rw [if_pos hp] at hs ⊢
    have hsame := sendBlock_same s.1.blockSamples s.1.popBlock
    refine ⟨hs, h.history.of_same ?_ hsame.wr, fun hlt => ?_, h.blocks⟩
    · exact sendBlock_dataBuffer _ _
    · -- The ring has not wrapped, so the block lies below the write pointer.
      dsimp only at hlt ⊢
      have hbehind := h.behind hlt
      have hwr := h.history.wr
      have hrd : (sendBlock s.1.blockSamples s.1.popBlock).dataBufferRdPtr =
          (s.1.dataBufferRdPtr + 40) % 1024 := hsame.rd
      rw [hrd]
      simp only [pending, data24BlkCnt, data8BlkCnt, dataBufCnt] at hp hlt hwr
      rw [Nat.mod_eq_of_lt hlt] at hwr
      omega
  · rw [if_neg hp] at hs ⊢
    exact h.of_same hs (.refl _) rfl

theorem i2sStart_dataBuffer (channels : UInt8) (freq : UInt32) (d : Device) :
    (i2sStart channels freq d).dataBuffer = d.dataBuffer := by
  rw [i2sStart]
  split
  · dsimp only
    split <;> rfl
  · rfl

theorem step (h : HistoryInv s) (op : SampleOp) : HistoryInv (historyStep op s) := by
  have hs := sampleStep_sampleInv op h.sample
  cases op with
  | isr rx => exact h.isr rx
  | task => exact h.task
  | start channels freq =>
      have hp := i2sStart_ptrs s.1 channels freq
      have hbuffer := i2sStart_dataBuffer channels freq s.1
      by_cases hre : s.1.i2s0 ∧ s.1.Reinit channels freq
      · rw [if_pos hre] at hp
        rw [historyStep, sinceReset, if_pos hre]
        exact of_zero hs hp
      · rw [if_neg hre] at hp
        rw [historyStep, sinceReset, if_neg hre]
        exact h.of_same hs hp hbuffer
  | stop =>
      have hp := i2sStop_ptrs s.1
      by_cases hdev : s.1.i2s0
      · rw [if_pos hdev] at hp
        rw [historyStep, sinceReset, if_pos hdev]
        exact of_zero hs hp
      · have hkeep : sampleStep .stop s.1 = s.1 := by rw [sampleStep, i2sStop, if_neg hdev]
        rw [historyStep, sinceReset, if_neg hdev, hkeep]
        exact h
  | sleep =>
      have hp := i2sSleep_ptrs s.1
      by_cases hdev : s.1.i2s0
      · rw [if_pos hdev] at hp
        rw [historyStep, sinceReset, if_pos hdev]
        exact of_zero hs hp
      · have hkeep : sampleStep .sleep s.1 = s.1 := by rw [sampleStep, i2sSleep, if_neg hdev]
        rw [historyStep, sinceReset, if_neg hdev, hkeep]
        exact h
  | wakeUp =>
      have hp := i2sWakeUp_ptrs s.1
      by_cases hdev : s.1.i2s0
      · have hkeep : sampleStep .wakeUp s.1 = s.1 := by rw [sampleStep, i2sWakeUp, if_pos hdev]
        rw [historyStep, sinceReset, if_pos hdev, hkeep]
        exact h
      · rw [if_neg hdev] at hp
        rw [historyStep, sinceReset, if_neg hdev]
        exact of_zero hs hp

/-- Each sample of a block is a sample of the history, at a position of the same parity
as its place in the block. -/
theorem sample_parity (h : HistoryInv s) {samples : List UInt32}
    (hb : (taskDataOut s.1).2 = some samples) {k : Nat} {w : UInt32}
    (hk : samples[k]? = some w) : ∃ j, j % 2 = k % 2 ∧ s.2[j]? = some w := by
  rw [taskDataOut_eq h.sample] at hb
  split at hb
  next hp =>
    cases hb
    obtain ⟨hklt, hw⟩ := List.getElem?_eq_some_iff.mp hk
    have hk40 : k < 40 := by
      rw [Device.blockSamples, List.length_map, length_blockSlots] at hklt
      exact hklt
    have hslot : w = s.1.dataBuffer ((s.1.dataBufferRdPtr + k) % 1024) := by
      rw [← hw]
      simp [Device.blockSamples, blockSlots, Circular.slot, dataBufCnt]
    -- The slot was written: below the write pointer, or anywhere behind the first round.
    have hwritten : (s.1.dataBufferRdPtr + k) % 1024 < s.2.length := by
      by_cases hlt : s.2.length < 1024
      · have hbehind := h.behind hlt
        have hwr := h.history.wr
        simp only [pending, data24BlkCnt, data8BlkCnt, dataBufCnt] at hp hwr
        omega
      · omega
    obtain ⟨j, hj, hget⟩ := h.history.get_slot (Nat.mod_lt _ (by decide)) hwritten
    have hrd := h.sample.rd_dvd
    simp only [dataBufCnt] at hj
    exact ⟨j, by omega, by rw [hslot]; exact hget⟩
  · cases hb

end HistoryInv

theorem run_historyInv (memory : UInt32 → UInt32) (ops : List SampleOp) :
    HistoryInv (run historyStep ops (Device.boot memory, [])) :=
  run_invariant (I := HistoryInv) (P := fun _ _ => True) (fun op _ h _ => h.step op)
    (HistoryInv.boot memory) (along_true _ _)

/-! ## Runs of interrupts alone -/

/-- While it wakes up, the interrupt only counts. -/
theorem iterate_discard (rx : RxBuffer) {d : Device} (hstart : d.i2sCfg.start ≠ 0) {n : Nat}
    (hn : n ≤ d.i2sCfg.wakeupcnt.toNat) :
    (dmaI2sIsr rx)^[n] d =
      { d with i2sCfg :=
        { d.i2sCfg with wakeupcnt := UInt32.ofNat (d.i2sCfg.wakeupcnt.toNat - n) } } := by
  induction n with
  | zero => simp
  | succ n ih =>
      have hlt := d.i2sCfg.wakeupcnt.toNat_lt
      have hcount : (UInt32.ofNat (d.i2sCfg.wakeupcnt.toNat - n)).toNat =
          d.i2sCfg.wakeupcnt.toNat - n := Nat.mod_eq_of_lt (by omega)
      have hne : UInt32.ofNat (d.i2sCfg.wakeupcnt.toNat - n) ≠ 0 := by
        rw [← UInt32.toNat_inj.ne, hcount]
        simp
        omega
      have hsub : UInt32.ofNat (d.i2sCfg.wakeupcnt.toNat - n) - 1 =
          UInt32.ofNat (d.i2sCfg.wakeupcnt.toNat - (n + 1)) := by
        rw [← UInt32.toNat_inj, UInt32.toNat_sub_of_le _ _ (by
          rw [UInt32.le_iff_toNat_le, hcount]; simp; omega), hcount]
        simp
        omega
      rw [Function.iterate_succ_apply', ih (by omega), dmaI2sIsr, if_neg hstart, if_pos hne]
      simp only [hsub]

theorem iterate_sampleInv (rx : RxBuffer) {d : Device} (hs : SampleInv d) (n : Nat) :
    SampleInv ((dmaI2sIsr rx)^[n] d) := by
  induction n with
  | zero => exact hs
  | succ n ih =>
      rw [Function.iterate_succ_apply']
      exact dmaI2sIsr_sampleInv ih rx

/-- Behind the discard, interrupts write their blocks around the ring. -/
theorem iterate_accept (rx : RxBuffer) {d : Device} (hs : SampleInv d) (hacc : d.Accepting)
    (n : Nat) :
    (dmaI2sIsr rx)^[n] d =
      { d with
        dataBuffer := Circular.fill d.dataBuffer dataBufCnt d.dataBufferWrPtr
          (List.replicate n rx.1).flatten
        dataBufferWrPtr := (d.dataBufferWrPtr + i2sRxBufLen * n) % dataBufCnt } := by
  induction n with
  | zero => simp [Nat.mod_eq_of_lt hs.wr_lt]
  | succ n ih =>
      have hinv := iterate_sampleInv rx hs n
      have hlen : (List.replicate n rx.1).flatten.length = i2sRxBufLen * n := by
        simp [rx.2, Nat.mul_comm]
      rw [ih] at hinv
      rw [Function.iterate_succ_apply', ih, dmaI2sIsr_accepting hinv hacc]
      have hfill : Circular.fill (Circular.fill d.dataBuffer dataBufCnt d.dataBufferWrPtr
            (List.replicate n rx.1).flatten) dataBufCnt
            ((d.dataBufferWrPtr + i2sRxBufLen * n) % dataBufCnt) rx.1 =
          Circular.fill d.dataBuffer dataBufCnt d.dataBufferWrPtr
            (List.replicate (n + 1) rx.1).flatten := by
        rw [List.replicate_succ', List.flatten_append, Circular.fill_append, hlen]
        simp only [List.flatten_cons, List.flatten_nil, List.append_nil]
        exact Circular.fill_congr_start _ (by simp) _
      simp only [hfill, Nat.mod_add_mod, Nat.mul_succ, Nat.add_assoc]

/-- Behind a start, 512 blocks are discarded and the others accepted. -/
theorem iterate_started (rx : RxBuffer) {d : Device} (hs : SampleInv d)
    (hstart : d.i2sCfg.start ≠ 0) (hwake : d.i2sCfg.wakeupcnt = 512)
    (hptrs : d.dataBufferWrPtr = 0 ∧ d.dataBufferRdPtr = 0) (n : Nat) :
    ((dmaI2sIsr rx)^[512] d).Accepting ∧
      History ((dmaI2sIsr rx)^[n] ((dmaI2sIsr rx)^[512] d)) (List.replicate n rx.1).flatten ∧
      ((dmaI2sIsr rx)^[n] ((dmaI2sIsr rx)^[512] d)).dataBufferRdPtr = 0 := by
  have hdiscard := iterate_discard rx (d := d) (n := 512) hstart (by rw [hwake]; decide)
  have hacc : ((dmaI2sIsr rx)^[512] d).Accepting := by
    rw [hdiscard]
    exact ⟨hstart, by rw [hwake]; rfl⟩
  refine ⟨hacc, ?_⟩
  rw [iterate_accept rx (iterate_sampleInv rx hs 512) hacc n, hdiscard]
  dsimp only
  rw [hptrs.1]
  exact ⟨⟨⟨_, rfl⟩, by simp [rx.2, Nat.mul_comm]⟩, hptrs.2⟩
