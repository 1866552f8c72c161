-- SUMMARY: Blocks keep left and right samples apart and carry nothing from before the last reset, also when the interrupt laps the reader.
import PowerProfiler.Firmware.SampleHistory

/-!
# Channel alignment

The converter delivers left and right samples in turn. Every DMA block has an even
number of them and every block of the task starts at an even slot, so a lost round of
the ring never swaps the channels.
-/

open Runs

/-- Left and right samples in turn, starting with left. -/
def Alternates (left right : UInt32 → Prop) (ws : List UInt32) : Prop :=
  ∀ i w, ws[i]? = some w → if i % 2 = 0 then left w else right w

variable {left right : UInt32 → Prop}

theorem Alternates.append {xs ys : List UInt32} (hx : Alternates left right xs)
    (hlen : 2 ∣ xs.length) (hy : Alternates left right ys) : Alternates left right (xs ++ ys) := by
  intro i w hi
  by_cases hlt : i < xs.length
  · rw [List.getElem?_append_left hlt] at hi
    exact hx i w hi
  · rw [List.getElem?_append_right (not_lt.mp hlt)] at hi
    have hpar : (i - xs.length) % 2 = i % 2 := by omega
    rw [← hpar]
    exact hy _ w hi

/-- The DMA block of an interrupt alternates. -/
def AlternatesOp (left right : UInt32 → Prop) : SampleOp → Prop
  | .isr rx => Alternates left right rx.1
  | _ => True

/-- The samples accepted since the last reset alternate. -/
theorem historyStep_alternates {op : SampleOp} {s : Device × List UInt32} (h : HistoryInv s)
    (hs : Alternates left right s.2) (hop : AlternatesOp left right op) :
    Alternates left right (historyStep op s).2 := by
  have hnil : Alternates left right [] := fun i w hi => by simp at hi
  cases op with
  | isr rx =>
      simp only [historyStep, sinceReset]
      split
      · exact hs.append (Dvd.dvd.trans (by decide) h.blocks) hop
      · exact hs
  | task => exact hs
  | start channels freq =>
      simp only [historyStep, sinceReset]
      split
      · exact hnil
      · exact hs
  | stop | sleep =>
      simp only [historyStep, sinceReset]
      split
      · exact hnil
      · exact hs
  | wakeUp =>
      simp only [historyStep, sinceReset]
      split
      · exact hs
      · exact hnil

theorem run_alternates (memory : UInt32 → UInt32) {ops : List SampleOp}
    (h : ∀ op ∈ ops, AlternatesOp left right op) :
    Alternates left right (run historyStep ops (Device.boot memory, [])).2 := by
  induction ops using List.reverseRecOn with
  | nil => exact fun i w hi => by simp at hi
  | append_singleton ops op ih =>
      rw [run_snoc]
      exact historyStep_alternates (run_historyInv memory ops)
        (ih fun op' hmem => h op' (List.mem_append_left _ hmem)) (h op (by simp))

/-- After every order of the operations, with DMA blocks that alternate: in the block that
`task_data_out` builds, samples at even places are left ones, samples at odd places right
ones, and each was accepted since the last reset, at a position of the same parity. -/
theorem channelAlignment (memory : UInt32 → UInt32) (ops : List SampleOp)
    (hdma : ∀ rx, .isr rx ∈ ops → Alternates left right rx.1) {samples : List UInt32}
    (hb : (taskDataOut (run sampleStep ops (Device.boot memory))).2 = some samples)
    {k : Nat} {w : UInt32} (hk : samples[k]? = some w) :
    (if k % 2 = 0 then left w else right w) ∧
      ∃ j, j % 2 = k % 2 ∧ (run historyStep ops (Device.boot memory, [])).2[j]? = some w := by
  have hops : ∀ op ∈ ops, AlternatesOp left right op := by
    intro op hmem
    cases op with
    | isr rx => exact hdma rx hmem
    | _ => trivial
  have hinv := run_historyInv memory ops
  rw [← run_historyStep_fst ops (Device.boot memory, [])] at hb
  obtain ⟨j, hj, hget⟩ := hinv.sample_parity hb hk
  refine ⟨?_, j, hj, hget⟩
  rw [← hj]
  exact run_alternates memory hops j w hget

/-- A DMA block of zeros on the left and ones on the right. -/
def stereoBlock : RxBuffer :=
  ⟨(List.replicate 16 [0, 1]).flatten, by decide⟩

/-- Wake up, start, discard 512 blocks and accept two. -/
def stereoRun : List SampleOp :=
  [.wakeUp, .start 3 24576000] ++
    (List.replicate 512 (.isr stereoBlock) ++ List.replicate 2 (.isr stereoBlock))

theorem stereoRun_built (memory : UInt32 → UInt32) :
    (taskDataOut (run sampleStep stereoRun (Device.boot memory))).2 =
      some (List.replicate 20 [0, 1]).flatten := by
  have hs := sampleRun_sampleInv memory [.wakeUp, .start 3 24576000]
  obtain ⟨-, hhistory, hrd⟩ := iterate_started stereoBlock hs (show (1 : UInt8) ≠ 0 by decide)
    rfl ⟨rfl, rfl⟩ 2
  have hinv := iterate_sampleInv stereoBlock (iterate_sampleInv stereoBlock hs 512) 2
  have hrun : run sampleStep stereoRun (Device.boot memory) =
      (dmaI2sIsr stereoBlock)^[2] ((dmaI2sIsr stereoBlock)^[512]
        (run sampleStep [.wakeUp, .start 3 24576000] (Device.boot memory))) := by
    simp only [stereoRun, run_append, run_replicate]
    rfl
  have hblock := hhistory.blockSamples (n := 0) hrd (by decide) (by decide)
  rw [hrun, taskDataOut_eq hinv, hrd, hhistory.wr, if_pos (by decide), hblock]
  rfl

/-- The second sample of the first block is a right one. -/
theorem channelAlignment_stereoRun :
    (if 1 % 2 = 0 then (1 : UInt32) = 0 else (1 : UInt32) = 1) ∧
      ∃ j, j % 2 = 1 % 2 ∧
        (run historyStep stereoRun (Device.boot (fun _ => 0), [])).2[j]? = some 1 := by
  refine @channelAlignment (· = 0) (· = 1) (fun _ => 0) stereoRun ?_ _ (stereoRun_built _) _ _ rfl
  intro rx hrx
  obtain rfl : rx = stereoBlock := by
    simp only [stereoRun, List.mem_append, List.mem_cons, List.mem_replicate] at hrx
    simpa using hrx
  intro i w hi
  have hlt : i < 32 := (List.getElem?_eq_some_iff.mp hi).1
  have hall : ∀ i < 32, ∀ w, stereoBlock.1[i]? = some w → if i % 2 = 0 then w = 0 else w = 1 := by
    intro i hi
    interval_cases i <;> simp [stereoBlock, List.replicate]
  exact hall i hlt w hi
