-- SUMMARY: The pointers of the sample ring stay in range and aligned under every order of its operations, and the block law.
import PowerProfiler.Firmware.System

/-!
# The invariant of the sample ring

The write pointer moves in steps of 32 and the read pointer in steps of 40, both
around 1024 slots, and every reset puts them at zero. So the write pointer is a
multiple of 32 and the read pointer of 8, which keeps the unmasked loops in bounds.
-/

/-- The pointers are in range and aligned and nothing has left `data_buffer`. -/
structure SampleInv (d : Device) : Prop where
  wr_lt : d.dataBufferWrPtr < dataBufCnt
  wr_dvd : i2sRxBufLen ∣ d.dataBufferWrPtr
  rd_lt : d.dataBufferRdPtr < dataBufCnt
  rd_dvd : 8 ∣ d.dataBufferRdPtr
  fault : d.fault = false

/-- `d'` has the pointers of `d`. -/
structure SamePtrs (d d' : Device) : Prop where
  wr : d'.dataBufferWrPtr = d.dataBufferWrPtr
  rd : d'.dataBufferRdPtr = d.dataBufferRdPtr
  fault : d'.fault = d.fault

/-- `d'` has both pointers at zero. -/
structure ZeroPtrs (d d' : Device) : Prop where
  wr : d'.dataBufferWrPtr = 0
  rd : d'.dataBufferRdPtr = 0
  fault : d'.fault = d.fault

theorem SamePtrs.refl (d : Device) : SamePtrs d d := ⟨rfl, rfl, rfl⟩

namespace SampleInv

variable {d d' : Device}

theorem boot (memory : UInt32 → UInt32) : SampleInv (Device.boot memory) := by
  constructor <;> simp [Device.boot, dataBufCnt]

theorem of_same (h : SampleInv d) (hs : SamePtrs d d') : SampleInv d' where
  wr_lt := by rw [hs.wr]; exact h.wr_lt
  wr_dvd := by rw [hs.wr]; exact h.wr_dvd
  rd_lt := by rw [hs.rd]; exact h.rd_lt
  rd_dvd := by rw [hs.rd]; exact h.rd_dvd
  fault := by rw [hs.fault]; exact h.fault

theorem of_zero (h : SampleInv d) (hz : ZeroPtrs d d') : SampleInv d' where
  wr_lt := by rw [hz.wr]; decide
  wr_dvd := by rw [hz.wr]; exact dvd_zero _
  rd_lt := by rw [hz.rd]; decide
  rd_dvd := by rw [hz.rd]; exact dvd_zero _
  fault := by rw [hz.fault]; exact h.fault

end SampleInv

/-! ## The I2S driver -/

section I2s

variable (d : Device) (channels : UInt8) (freq : UInt32)

/-- A start resets the pointers when it initialises the unit again, and not otherwise. -/
theorem i2sStart_ptrs :
    if d.i2s0 ∧ d.Reinit channels freq then ZeroPtrs d (i2sStart channels freq d)
    else SamePtrs d (i2sStart channels freq d) := by
  by_cases hdev : d.i2s0
  · by_cases hre : d.Reinit channels freq
    · rw [if_pos ⟨hdev, hre⟩, i2sStart, if_pos hdev, if_pos hre]
      exact ⟨rfl, rfl, rfl⟩
    · rw [if_neg (fun h => hre h.2), i2sStart, if_pos hdev, if_neg hre]
      exact ⟨rfl, rfl, rfl⟩
  · rw [if_neg (fun h => hdev h.1), i2sStart, if_neg hdev]
    exact .refl d

theorem i2sStop_ptrs : if d.i2s0 then ZeroPtrs d (i2sStop d) else SamePtrs d (i2sStop d) := by
  by_cases hdev : d.i2s0
  · rw [if_pos hdev, i2sStop, if_pos hdev]
    exact ⟨rfl, rfl, rfl⟩
  · rw [if_neg hdev, i2sStop, if_neg hdev]
    exact .refl d

theorem i2sSleep_ptrs : if d.i2s0 then ZeroPtrs d (i2sSleep d) else SamePtrs d (i2sSleep d) := by
  by_cases hdev : d.i2s0
  · rw [if_pos hdev, i2sSleep, if_pos hdev]
    exact ⟨rfl, rfl, rfl⟩
  · rw [if_neg hdev, i2sSleep, if_neg hdev]
    exact .refl d

theorem i2sWakeUp_ptrs : if d.i2s0 then SamePtrs d (i2sWakeUp d) else ZeroPtrs d (i2sWakeUp d) := by
  by_cases hdev : d.i2s0
  · rw [if_pos hdev, i2sWakeUp, if_pos hdev]
    exact .refl d
  · rw [if_neg hdev, i2sWakeUp, if_neg hdev]
    exact ⟨rfl, rfl, rfl⟩

end I2s

section Steps

variable {d : Device} (h : SampleInv d)

include h

theorem i2sStart_sampleInv (channels : UInt8) (freq : UInt32) :
    SampleInv (i2sStart channels freq d) := by
  have hp := i2sStart_ptrs d channels freq
  split at hp
  · exact h.of_zero hp
  · exact h.of_same hp

theorem i2sStop_sampleInv : SampleInv (i2sStop d) := by
  have hp := i2sStop_ptrs d
  split at hp
  · exact h.of_zero hp
  · exact h.of_same hp

theorem i2sSleep_sampleInv : SampleInv (i2sSleep d) := by
  have hp := i2sSleep_ptrs d
  split at hp
  · exact h.of_zero hp
  · exact h.of_same hp

theorem i2sWakeUp_sampleInv : SampleInv (i2sWakeUp d) := by
  have hp := i2sWakeUp_ptrs d
  split at hp
  · exact h.of_same hp
  · exact h.of_zero hp

/-! ## The interrupt and the task -/

/-- What the interrupt does in an aligned ring. -/
theorem dmaI2sIsr_accepting (hacc : d.Accepting) (rx : RxBuffer) :
    dmaI2sIsr rx d =
      { d with
        dataBuffer := Circular.fill d.dataBuffer dataBufCnt d.dataBufferWrPtr rx.1
        dataBufferWrPtr := (d.dataBufferWrPtr + i2sRxBufLen) % dataBufCnt } := by
  rw [dmaI2sIsr, if_neg hacc.1, if_neg (not_not.mpr hacc.2), dmaStore_eq h.wr_lt h.wr_dvd]

omit h in
/-- Before sampling starts and while it wakes up the interrupt stores nothing. -/
theorem dmaI2sIsr_discard (hacc : ¬ d.Accepting) (rx : RxBuffer) :
    SamePtrs d (dmaI2sIsr rx d) ∧ (dmaI2sIsr rx d).dataBuffer = d.dataBuffer ∧
      (dmaI2sIsr rx d).usbTxRb = d.usbTxRb := by
  rw [dmaI2sIsr]
  by_cases hstart : d.i2sCfg.start = 0
  · rw [if_pos hstart]
    exact ⟨.refl d, rfl, rfl⟩
  · have hwake : d.i2sCfg.wakeupcnt ≠ 0 := fun hw => hacc ⟨hstart, hw⟩
    rw [if_neg hstart, if_pos hwake]
    exact ⟨⟨rfl, rfl, rfl⟩, rfl, rfl⟩

theorem dmaI2sIsr_sampleInv (rx : RxBuffer) : SampleInv (dmaI2sIsr rx d) := by
  by_cases hacc : d.Accepting
  · have hdvd := h.wr_dvd
    rw [dmaI2sIsr_accepting h hacc]
    refine ⟨Nat.mod_lt _ (by decide), ?_, h.rd_lt, h.rd_dvd, h.fault⟩
    simp only [i2sRxBufLen, dataBufCnt] at hdvd ⊢
    omega
  · exact h.of_same (dmaI2sIsr_discard hacc rx).1

omit h in
theorem sendBlock_same (samples : List UInt32) (d : Device) :
    SamePtrs d (sendBlock samples d) := by
  simp only [sendBlock]
  split <;> exact ⟨rfl, rfl, rfl⟩

/-- The samples of the block that starts at the read pointer. -/
def Device.blockSamples (d : Device) : List UInt32 :=
  (blockSlots d.dataBufferRdPtr).map d.dataBuffer

/-- The read pointer moves on behind the block. -/
def Device.popBlock (d : Device) : Device :=
  { d with dataBufferRdPtr := (d.dataBufferRdPtr + data24BlkCnt) % dataBufCnt }

/-- `task_data_out` builds a block exactly when 40 samples are pending, and otherwise
changes nothing. -/
theorem taskDataOut_eq :
    taskDataOut d =
      if data24BlkCnt ≤ pending d.dataBufferRdPtr d.dataBufferWrPtr then
        (sendBlock d.blockSamples d.popBlock, some d.blockSamples)
      else (d, none) := by
  have hbound : (blockSlots d.dataBufferRdPtr).any (fun i => decide (dataBufCnt ≤ i)) = false := by
    rw [List.any_eq_false]
    intro i hi
    simpa using lt_of_mem_blockSlots hi
  rw [taskDataOut, blockIndices_eq h.rd_lt h.wr_lt]
  by_cases hp : data24BlkCnt ≤ pending d.dataBufferRdPtr d.dataBufferWrPtr
  · simp only [if_pos hp, takeSamples, length_blockSlots, and_mask, hbound, Bool.or_false]
    rfl
  · simp only [if_neg hp]

theorem popBlock_sampleInv : SampleInv d.popBlock := by
  have hdvd := h.rd_dvd
  refine ⟨h.wr_lt, h.wr_dvd, Nat.mod_lt _ (by decide), ?_, h.fault⟩
  simp only [Device.popBlock, dataBufCnt, data24BlkCnt, data8BlkCnt] at hdvd ⊢
  omega

theorem taskDataOut_sampleInv : SampleInv (taskDataOut d).1 := by
  rw [taskDataOut_eq h]
  split
  · exact (popBlock_sampleInv h).of_same (sendBlock_same _ _)
  · exact h

end Steps

/-! ## Every order of the operations -/

/-- The functions that touch the sample ring, each taken as one step. -/
inductive SampleOp where
  | isr (rx : RxBuffer)
  | task
  | start (channels : UInt8) (freq : UInt32)
  | stop
  | sleep
  | wakeUp

def sampleStep : SampleOp → Device → Device
  | .isr rx, d => dmaI2sIsr rx d
  | .task, d => (taskDataOut d).1
  | .start channels freq, d => i2sStart channels freq d
  | .stop, d => i2sStop d
  | .sleep, d => i2sSleep d
  | .wakeUp, d => i2sWakeUp d

theorem sampleStep_sampleInv (op : SampleOp) {d : Device} (h : SampleInv d) :
    SampleInv (sampleStep op d) := by
  cases op with
  | isr rx => exact dmaI2sIsr_sampleInv h rx
  | task => exact taskDataOut_sampleInv h
  | start channels freq => exact i2sStart_sampleInv h channels freq
  | stop => exact i2sStop_sampleInv h
  | sleep => exact i2sSleep_sampleInv h
  | wakeUp => exact i2sWakeUp_sampleInv h

theorem sampleRun_sampleInv (memory : UInt32 → UInt32) (ops : List SampleOp) :
    SampleInv (Runs.run sampleStep ops (Device.boot memory)) :=
  Runs.run_invariant (P := fun _ _ => True) (fun op _ h _ => sampleStep_sampleInv op h)
    (SampleInv.boot memory) (Runs.along_true _ _)

/-- The two bytes of the head and the three bytes of each pending sample, oldest first. -/
def pendingBlock (d : Device) : List UInt8 :=
  120 :: 0x3A :: (List.range 40).flatMap
    (fun k => sampleBytes (d.dataBuffer ((d.dataBufferRdPtr + k) % 1024)))

theorem dataBlkOut_blockSamples (d : Device) : dataBlkOut d.blockSamples = pendingBlock d := by
  have hslots : (blockSlots d.dataBufferRdPtr) =
      (List.range 40).map (fun k => (d.dataBufferRdPtr + k) % 1024) := rfl
  rw [dataBlkOut, Device.blockSamples, hslots, pendingBlock, List.map_map, List.flatMap_map]
  rfl

/-- After every order of the operations the pointers are in range and aligned, nothing
has left `data_buffer`, and `task_data_out` obeys the block law. -/
theorem sampleRing_law (memory : UInt32 → UInt32) (ops : List SampleOp) :
    let d := Runs.run sampleStep ops (Device.boot memory)
    d.dataBufferWrPtr < 1024 ∧ 32 ∣ d.dataBufferWrPtr ∧ d.dataBufferRdPtr < 1024 ∧
      8 ∣ d.dataBufferRdPtr ∧ d.fault = false ∧
      if 40 ≤ (d.dataBufferWrPtr + 1024 - d.dataBufferRdPtr) % 1024 then
        (taskDataOut d).2.map dataBlkOut = some (pendingBlock d) ∧
          (pendingBlock d).length = 122 ∧
          (taskDataOut d).1.dataBufferRdPtr = (d.dataBufferRdPtr + 40) % 1024
      else taskDataOut d = (d, none) := by
  intro d
  have h := sampleRun_sampleInv memory ops
  refine ⟨h.wr_lt, h.wr_dvd, h.rd_lt, h.rd_dvd, h.fault, ?_⟩
  have hlaw := taskDataOut_eq h
  by_cases hp : 40 ≤ (d.dataBufferWrPtr + 1024 - d.dataBufferRdPtr) % 1024
  · rw [if_pos (show data24BlkCnt ≤ pending d.dataBufferRdPtr d.dataBufferWrPtr from hp)] at hlaw
    rw [if_pos hp, hlaw]
    refine ⟨congrArg some (dataBlkOut_blockSamples d), ?_, (sendBlock_same _ _).rd⟩
    rw [← dataBlkOut_blockSamples, length_dataBlkOut, Device.blockSamples, List.length_map,
      length_blockSlots]
    rfl
  · rw [if_neg (show ¬ data24BlkCnt ≤ pending d.dataBufferRdPtr d.dataBufferWrPtr from hp)] at hlaw
    rw [if_neg hp, hlaw]
