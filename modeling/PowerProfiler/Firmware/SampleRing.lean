-- SUMMARY: The sample ring between the DMA interrupt and task_data_out: both functions, the block law, and its index arithmetic.
import PowerProfiler.Firmware.Device
import PowerProfiler.Lib.Framing

/-!
# The sample ring

The DMA interrupt appends 32 samples at `data_buffer_wr_ptr`; `task_data_out` takes
40 from `data_buffer_rd_ptr`, in one of two branches with three copy loops, and
hands a data block to the output FIFO. `blockIndices_eq` states both branches as one
law.
-/

/-! ## The interrupt -/

/-- `i2s_rx_buffer` when the DMA interrupt runs. -/
abbrev RxBuffer := { ws : List UInt32 // ws.length = i2sRxBufLen }

namespace Device

/-- One round of the copy loop: the store at `data_buffer_wr_ptr++`. -/
def storeSample (d : Device) (w : UInt32) : Device :=
  { d with
    dataBuffer := Function.update d.dataBuffer d.dataBufferWrPtr w
    dataBufferWrPtr := d.dataBufferWrPtr + 1
    fault := d.fault || decide (dataBufCnt ≤ d.dataBufferWrPtr) }

def maskWrPtr (d : Device) : Device :=
  { d with dataBufferWrPtr := d.dataBufferWrPtr &&& (dataBufCnt - 1) }

end Device

/-- The branch of `dma_i2s_isr` behind the wake-up discard. -/
def dmaStore (rx : RxBuffer) (d : Device) : Device :=
  (rx.1.foldl Device.storeSample d.maskWrPtr).maskWrPtr

/-- `dma_i2s_isr` -/
def dmaI2sIsr (rx : RxBuffer) (d : Device) : Device :=
  if d.i2sCfg.start = 0 then d
  else if d.i2sCfg.wakeupcnt ≠ 0 then
    { d with i2sCfg := { d.i2sCfg with wakeupcnt := d.i2sCfg.wakeupcnt - 1 } }
  else dmaStore rx d

/-- The interrupt stores its samples in the ring. -/
def Device.Accepting (d : Device) : Prop := d.i2sCfg.start ≠ 0 ∧ d.i2sCfg.wakeupcnt = 0

instance (d : Device) : Decidable d.Accepting := inferInstanceAs (Decidable (_ ∧ _))

/-! ## The block -/

/-- The indices visited by `for(int i = prd; i < DATA_BUF_CNT && size; i++)`, and what is
left of `size`. -/
def loopToEnd : Nat → Nat → List Nat × Nat
  | _, 0 => ([], 0)
  | i, size + 1 =>
      if i < dataBufCnt then (i :: (loopToEnd (i + 1) size).1, (loopToEnd (i + 1) size).2)
      else ([], size + 1)

/-- The indices visited by a loop from `i` that runs until `size` is used up. -/
def loopFrom : Nat → Nat → List Nat
  | _, 0 => []
  | i, size + 1 => i :: loopFrom (i + 1) size

/-- The indices of `data_buffer` that `task_data_out` copies, in order, or nothing when
it returns. -/
def blockIndices (prd pwr : Nat) : Option (List Nat) :=
  if pwr < prd then
    if data24BlkCnt ≤ add32 (sub32 dataBufCnt prd) pwr then
      some ((loopToEnd prd data24BlkCnt).1 ++ loopFrom 0 (loopToEnd prd data24BlkCnt).2)
    else none
  else if prd < pwr then
    if data24BlkCnt ≤ sub32 pwr prd then some (loopFrom prd data24BlkCnt) else none
  else none

/-- `data_blk_out` with the three bytes of each sample. -/
def dataBlkOut (samples : List UInt32) : List UInt8 :=
  UInt8.ofNat data8BlkCnt :: cmdDevEadc :: samples.flatMap sampleBytes

/-- The end of `task_data_out`: the block goes to the FIFO, and a counter records
whether all of it did. -/
def sendBlock (samples : List UInt32) (d : Device) : Device :=
  let out := d.usbTxRb.write (dataBlkOut samples)
  if out.2 = data8BlkCnt + 2 then
    { d with usbTxRb := out.1, blkReadCount := d.blkReadCount + 1 }
  else
    { d with usbTxRb := out.1, blkOverflowCnt := d.blkOverflowCnt + 1 }

/-- The loops read `data_buffer` at the given indices and the read pointer moves on by
one for each. -/
def takeSamples (prd : Nat) (is : List Nat) (d : Device) : Device :=
  { d with
    dataBufferRdPtr := (prd + is.length) &&& (dataBufCnt - 1)
    fault := d.fault || is.any (fun i => decide (dataBufCnt ≤ i)) }

/-- `task_data_out`, together with the samples of the block it built. -/
def taskDataOut (d : Device) : Device × Option (List UInt32) :=
  match blockIndices d.dataBufferRdPtr d.dataBufferWrPtr with
  | none => (d, none)
  | some is =>
      let samples := is.map d.dataBuffer
      (sendBlock samples (takeSamples d.dataBufferRdPtr is d), some samples)

/-! ## The block law -/

theorem loopFrom_eq (i size : Nat) : loopFrom i size = List.range' i size := by
  induction size generalizing i with
  | zero => rfl
  | succ size ih => rw [loopFrom, ih, List.range'_succ]

theorem loopToEnd_eq {i : Nat} (hi : i ≤ dataBufCnt) (size : Nat) :
    loopToEnd i size =
      (List.range' i (min size (dataBufCnt - i)), size - (dataBufCnt - i)) := by
  induction size generalizing i with
  | zero => simp [loopToEnd]
  | succ size ih =>
      by_cases hlt : i < dataBufCnt
      · have hmin : min (size + 1) (dataBufCnt - i) = min size (dataBufCnt - (i + 1)) + 1 := by
          omega
        rw [loopToEnd, if_pos hlt, ih hlt, hmin, List.range'_succ]
        simp only [Prod.mk.injEq, true_and]
        omega
      · have heq : dataBufCnt - i = 0 := by omega
        simp [loopToEnd, hlt, heq]

/-- The slots of the block that starts at `prd`. -/
def blockSlots (prd : Nat) : List Nat :=
  (List.range data24BlkCnt).map (Circular.slot dataBufCnt prd)

theorem length_blockSlots (prd : Nat) : (blockSlots prd).length = data24BlkCnt := by
  simp [blockSlots]

theorem lt_of_mem_blockSlots {prd i : Nat} (h : i ∈ blockSlots prd) : i < dataBufCnt := by
  simp only [blockSlots, List.mem_map] at h
  obtain ⟨k, -, rfl⟩ := h
  exact Circular.slot_lt (by decide) _ _

/-- Up to the end of the ring and on from its start, a window is two runs of indices. -/
theorem blockSlots_wrap {prd : Nat} (h : prd ≤ dataBufCnt) (h' : dataBufCnt < prd + data24BlkCnt) :
    blockSlots prd = List.range' prd (dataBufCnt - prd) ++
      List.range' 0 (data24BlkCnt - (dataBufCnt - prd)) := by
  simp only [dataBufCnt, data24BlkCnt, data8BlkCnt] at h h'
  apply List.ext_getElem
  · simp [blockSlots, dataBufCnt, data24BlkCnt, data8BlkCnt]
    omega
  · intro i hi _
    simp only [length_blockSlots, data24BlkCnt, data8BlkCnt] at hi
    by_cases hlt : i < 1024 - prd
    · rw [List.getElem_append_left (by simpa [dataBufCnt] using hlt)]
      simp [blockSlots, Circular.slot, dataBufCnt]
      omega
    · rw [List.getElem_append_right (by simp [dataBufCnt]; omega)]
      simp [blockSlots, Circular.slot, dataBufCnt]
      omega

theorem blockSlots_straight {prd : Nat} (h : prd + data24BlkCnt ≤ dataBufCnt) :
    blockSlots prd = List.range' prd data24BlkCnt := by
  simp only [dataBufCnt, data24BlkCnt, data8BlkCnt] at h
  apply List.ext_getElem
  · simp [blockSlots]
  · intro i hi _
    simp only [length_blockSlots, data24BlkCnt, data8BlkCnt] at hi
    simp [blockSlots, Circular.slot, dataBufCnt]
    omega

/-- How many samples the ring counts as pending. -/
def pending (prd pwr : Nat) : Nat := (pwr + dataBufCnt - prd) % dataBufCnt

/-- Both branches of `task_data_out` are one law. -/
theorem blockIndices_eq {prd pwr : Nat} (hrd : prd < dataBufCnt) (hwr : pwr < dataBufCnt) :
    blockIndices prd pwr =
      if data24BlkCnt ≤ pending prd pwr then some (blockSlots prd) else none := by
  have hwrap : pwr < prd → add32 (sub32 dataBufCnt prd) pwr = pending prd pwr := by
    intro h
    simp only [add32, sub32, pending, dataBufCnt] at hrd hwr ⊢
    omega
  have hstraight : prd ≤ pwr → sub32 pwr prd = pending prd pwr := by
    intro h
    simp only [sub32, pending, dataBufCnt] at hrd hwr ⊢
    omega
  rw [blockIndices]
  by_cases hlt : pwr < prd
  · rw [if_pos hlt, hwrap hlt, loopToEnd_eq hrd.le, loopFrom_eq]
    by_cases hfit : prd + data24BlkCnt ≤ dataBufCnt
    · have hmin : min data24BlkCnt (dataBufCnt - prd) = data24BlkCnt := by omega
      have hrest : data24BlkCnt - (dataBufCnt - prd) = 0 := by omega
      simp only [hmin, hrest, List.range'_zero, List.append_nil, blockSlots_straight hfit]
    · have hmin : min data24BlkCnt (dataBufCnt - prd) = dataBufCnt - prd := by omega
      simp only [hmin, blockSlots_wrap hrd.le (by omega)]
  · rw [if_neg hlt]
    by_cases hgt : prd < pwr
    · rw [if_pos hgt, hstraight hgt.le, loopFrom_eq]
      by_cases hlen : data24BlkCnt ≤ pending prd pwr
      · have hfit : prd + data24BlkCnt ≤ dataBufCnt := by
          simp only [pending, dataBufCnt, data24BlkCnt, data8BlkCnt] at hlen hrd hwr ⊢
          omega
        rw [if_pos hlen, if_pos hlen, blockSlots_straight hfit]
      · rw [if_neg hlen, if_neg hlen]
    · have hzero : pending prd pwr = 0 := by
        simp only [pending, dataBufCnt] at hrd hwr ⊢
        omega
      rw [if_neg hgt, hzero, if_neg (by decide)]

/-! ## Frame facts -/

namespace Device

variable (d : Device) (ws : List UInt32)

/-- The copy loop of the interrupt stores its words one behind the other. -/
theorem foldl_storeSample : ws.foldl storeSample d =
    { d with
      dataBuffer := Circular.copyTo d.dataBuffer d.dataBufferWrPtr ws
      dataBufferWrPtr := d.dataBufferWrPtr + ws.length
      fault := d.fault || decide (ws ≠ [] ∧ dataBufCnt < d.dataBufferWrPtr + ws.length) } := by
  induction ws generalizing d with
  | nil => simp
  | cons w ws ih =>
      rw [List.foldl_cons, ih]
      simp only [storeSample, Circular.copyTo, List.length_cons, Nat.add_assoc, Nat.add_comm 1,
        Device.mk.injEq, true_and, Bool.or_assoc, ← Bool.decide_or]
      refine congrArg _ (decide_eq_decide.mpr ?_)
      cases ws with
      | nil => simp
      | cons w' ws =>
          simp [dataBufCnt]
          omega

end Device

theorem and_mask (n : Nat) : n &&& (dataBufCnt - 1) = n % dataBufCnt :=
  Nat.and_two_pow_sub_one_eq_mod n 10

/-- From an aligned write pointer the interrupt fills the next 32 slots of the ring. -/
theorem dmaStore_eq {rx : RxBuffer} {d : Device} (hlt : d.dataBufferWrPtr < dataBufCnt)
    (halign : i2sRxBufLen ∣ d.dataBufferWrPtr) :
    dmaStore rx d =
      { d with
        dataBuffer := Circular.fill d.dataBuffer dataBufCnt d.dataBufferWrPtr rx.1
        dataBufferWrPtr := (d.dataBufferWrPtr + i2sRxBufLen) % dataBufCnt } := by
  have hlen := rx.2
  have hfit : d.dataBufferWrPtr + rx.1.length ≤ dataBufCnt := by
    simp only [dataBufCnt, i2sRxBufLen] at hlt halign hlen ⊢
    omega
  have hmask : d.maskWrPtr = d := by
    rw [Device.maskWrPtr, and_mask, Nat.mod_eq_of_lt hlt]
  rw [dmaStore, hmask, Device.foldl_storeSample, Device.maskWrPtr, and_mask,
    Circular.fill_eq_copyTo d.dataBuffer hfit, hlen]
  have hfault : ¬ (rx.1 ≠ [] ∧ dataBufCnt < d.dataBufferWrPtr + i2sRxBufLen) := by
    rw [hlen] at hfit
    omega
  simp [hfault]

@[simp] theorem length_dataBlkOut (samples : List UInt32) :
    (dataBlkOut samples).length = 3 * samples.length + 2 := by
  simp [dataBlkOut, List.length_flatMap, Nat.mul_comm]
