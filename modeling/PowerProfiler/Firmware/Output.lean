-- SUMMARY: What each step does to the output side: the variables it leaves alone, the writes as frames, and the bytes through the FIFO.
import PowerProfiler.Firmware.System

/-!
# The output side

Only a data block and a reply write `usb_tx_rb`, each as one frame, and only the
drain reads it. `fifo_step` accounts for every byte: what a step hands over and what
the FIFO holds behind it is what the FIFO held before it and as much of the write as
fits.
-/

open Framing

/-- `d'` has the output FIFO, the transmit buffer, the busy flag and the endpoint of
`d`. -/
structure SameOutput (d d' : Device) : Prop where
  usbTxRb : d'.usbTxRb = d.usbTxRb
  writeBuffer : d'.writeBuffer = d.writeBuffer
  busy : d'.epTxBusyFlag = d.epTxBusyFlag
  inEp : d'.inEp = d.inEp

namespace SameOutput

variable {d d' d'' : Device}

theorem refl (d : Device) : SameOutput d d := ⟨rfl, rfl, rfl, rfl⟩

theorem trans (h : SameOutput d d') (h' : SameOutput d' d'') : SameOutput d d'' where
  usbTxRb := h'.usbTxRb.trans h.usbTxRb
  writeBuffer := h'.writeBuffer.trans h.writeBuffer
  busy := h'.busy.trans h.busy
  inEp := h'.inEp.trans h.inEp

end SameOutput

/-! ## Sampling and decoding leave the output alone -/

theorem i2sStart_output (channels : UInt8) (freq : UInt32) (d : Device) :
    SameOutput d (i2sStart channels freq d) := by
  rw [i2sStart]
  by_cases hdev : d.i2s0
  · by_cases hre : d.Reinit channels freq
    · rw [if_pos hdev, if_pos hre]
      exact ⟨rfl, rfl, rfl, rfl⟩
    · rw [if_pos hdev, if_neg hre]
      exact ⟨rfl, rfl, rfl, rfl⟩
  · rw [if_neg hdev]
    exact .refl d

theorem i2sStop_output (d : Device) : SameOutput d (i2sStop d) := by
  rw [i2sStop]
  split <;> exact ⟨rfl, rfl, rfl, rfl⟩

theorem i2sSleep_output (d : Device) : SameOutput d (i2sSleep d) := by
  rw [i2sSleep]
  split <;> exact ⟨rfl, rfl, rfl, rfl⟩

theorem i2sWakeUp_output (d : Device) : SameOutput d (i2sWakeUp d) := by
  rw [i2sWakeUp]
  split <;> exact ⟨rfl, rfl, rfl, rfl⟩

theorem usbdCdcAcmSetDtr_output (dtr : Bool) (d : Device) :
    SameOutput d (usbdCdcAcmSetDtr dtr d) := by
  have hwake := i2sWakeUp_output d
  have hsleep := i2sSleep_output d
  cases dtr <;> cases hdtr : d.dtrEnable <;> simp only [usbdCdcAcmSetDtr, hdtr]
  · exact ⟨rfl, rfl, rfl, rfl⟩
  · exact ⟨hsleep.1, hsleep.2, hsleep.3, hsleep.4⟩
  · exact ⟨hwake.1, hwake.2, hwake.3, hwake.4⟩
  · exact ⟨rfl, rfl, rfl, rfl⟩

theorem cmdCad_output (data : List UInt8) (d : Device) : SameOutput d (cmdCad data d) := by
  cases data with
  | nil => exact .refl d
  | cons enable data =>
      simp only [cmdCad]
      have hcfg (cfg : DevAdcCfg) : SameOutput d { d with cfgAdc := cfg } := ⟨rfl, rfl, rfl, rfl⟩
      split
      · exact (hcfg _).trans (i2sStart_output _ _ _)
      · exact (hcfg _).trans (i2sStop_output _)

theorem cmdDbg_output (cmd : UInt8) (data : List UInt8) (d : Device) :
    SameOutput d (cmdDbg cmd data d).1 := by
  unfold cmdDbg
  split <;> exact ⟨rfl, rfl, rfl, rfl⟩

theorem cmdDecode_output (req : Frame) (d : Device) : SameOutput d (cmdDecode req d).1 := by
  rw [cmdDecode]
  by_cases hver : req.cmd = cmdDevVer
  · rw [if_pos hver]
    exact .refl d
  by_cases hcad : req.cmd = cmdDevCad
  · rw [if_neg hver, if_pos hcad]
    exact cmdCad_output _ _
  by_cases hsta : req.cmd = cmdDevSta
  · rw [if_neg hver, if_neg hcad, if_pos hsta]
    exact .refl d
  by_cases hdbg : req.cmd = cmdDevDbg
  · rw [if_neg hver, if_neg hcad, if_neg hsta, if_pos hdbg]
    exact cmdDbg_output _ _ _
  · rw [if_neg hver, if_neg hcad, if_neg hsta, if_neg hdbg]
    exact .refl d

theorem decodePacket_output (readBuffer : List UInt8) (d : Device) :
    SameOutput d (decodePacket readBuffer d).1 := by
  rw [decodePacket]
  split
  · exact .refl d
  · exact cmdDecode_output _ _

theorem dmaI2sIsr_output (rx : RxBuffer) (d : Device) : SameOutput d (dmaI2sIsr rx d) := by
  rw [dmaI2sIsr]
  split
  · exact .refl d
  split
  · exact ⟨rfl, rfl, rfl, rfl⟩
  · rw [dmaStore, Device.foldl_storeSample]
    exact ⟨rfl, rfl, rfl, rfl⟩

/-! ## Writes -/

/-- A request packet with a reply puts the whole reply into `Ring_Buffer_Write`. -/
theorem usbdCdcAcmBulkOut_usbTxRb (readBuffer : List UInt8) (d : Device) :
    (usbdCdcAcmBulkOut readBuffer d).usbTxRb =
      match (decodePacket readBuffer d).2 with
      | none => d.usbTxRb
      | some reply => (d.usbTxRb.write reply.bytes).1 := by
  have h := (decodePacket_output readBuffer d).usbTxRb
  rw [usbdCdcAcmBulkOut]
  generalize decodePacket readBuffer d = out at h ⊢
  rcases out with ⟨d', _ | reply⟩
  · exact h
  · exact congrArg (fun rb => (RingBuffer.write rb reply.bytes).1) h

theorem sendBlock_usbTxRb (samples : List UInt32) (d : Device) :
    (sendBlock samples d).usbTxRb = (d.usbTxRb.write (dataBlkOut samples)).1 := by
  simp only [sendBlock]
  split <;> rfl

/-- A block that finds room is counted as read, not as overflown. -/
theorem sendBlock_fits {d : Device} {xs : List UInt8} (h : d.usbTxRb.Repr xs)
    {samples : List UInt32} (hlen : samples.length = data24BlkCnt)
    (hroom : xs.length + (data8BlkCnt + 2) ≤ d.usbTxRb.size) :
    sendBlock samples d =
      { d with
        usbTxRb := d.usbTxRb.pushed (dataBlkOut samples)
        blkReadCount := d.blkReadCount + 1 } := by
  have hblk : (dataBlkOut samples).length = data8BlkCnt + 2 := by
    rw [length_dataBlkOut, hlen]
    rfl
  have hwrite : d.usbTxRb.write (dataBlkOut samples) =
      (d.usbTxRb.pushed (dataBlkOut samples), data8BlkCnt + 2) := by
    rw [h.write, List.take_of_length_le (by omega), min_eq_left (by omega), hblk]
  simp only [sendBlock, hwrite, if_true]

theorem taskDataOut_usbTxRb (d : Device) :
    (taskDataOut d).1.usbTxRb =
      match (taskDataOut d).2 with
      | none => d.usbTxRb
      | some samples => (d.usbTxRb.write (dataBlkOut samples)).1 := by
  rw [taskDataOut]
  split
  · rfl
  · rw [sendBlock_usbTxRb]
    rfl

theorem length_loopToEnd (i size : Nat) :
    (loopToEnd i size).1.length + (loopToEnd i size).2 = size := by
  induction size generalizing i with
  | zero => rfl
  | succ size ih =>
      rw [loopToEnd]
      split
      · have := ih (i + 1)
        simp only [List.length_cons]
        omega
      · simp

/-- Every block has 40 samples. -/
theorem length_of_blockIndices {prd pwr : Nat} {is : List Nat}
    (h : blockIndices prd pwr = some is) : is.length = data24BlkCnt := by
  rw [blockIndices] at h
  have hend := length_loopToEnd prd data24BlkCnt
  split at h
  · split at h
    · cases h
      rw [List.length_append, loopFrom_eq, List.length_range', hend]
    · cases h
  · split at h
    · split at h
      · cases h
        rw [loopFrom_eq, List.length_range']
      · cases h
    · cases h

theorem length_of_taskDataOut {d : Device} {samples : List UInt32}
    (h : (taskDataOut d).2 = some samples) : samples.length = data24BlkCnt := by
  rw [taskDataOut] at h
  split at h
  · cases h
  next is his =>
    cases h
    rw [List.length_map, length_of_blockIndices his]

/-- The data block with 40 samples as a frame. -/
def blockFrame (samples : List UInt32) (h : samples.length = data24BlkCnt) : Frame where
  cmd := cmdDevEadc
  payload := samples.flatMap sampleBytes
  fits := by
    simp [List.length_flatMap, h, data24BlkCnt, data8BlkCnt]

theorem blockFrame_bytes {samples : List UInt32} (h : samples.length = data24BlkCnt) :
    (blockFrame samples h).bytes = dataBlkOut samples := by
  have hsize : (blockFrame samples h).size = UInt8.ofNat data8BlkCnt := by
    rw [Frame.size, blockFrame]
    simp [List.length_flatMap, h, data24BlkCnt, data8BlkCnt]
  rw [Frame.bytes, hsize]
  rfl

/-- Every write to the FIFO is asked for as one whole frame. -/
theorem writeOf_frame {e : Event} {d : Device} {bytes : List UInt8} (h : bytes ∈ writeOf e d) :
    ∃ f : Frame, bytes = f.bytes := by
  match e with
  | .task =>
      simp only [writeOf, Option.mem_def, Option.map_eq_some_iff] at h
      obtain ⟨samples, hs, rfl⟩ := h
      exact ⟨_, (blockFrame_bytes (length_of_taskDataOut hs)).symm⟩
  | .irq (.bulkOut readBuffer) =>
      simp only [writeOf, Option.mem_def, Option.map_eq_some_iff] at h
      obtain ⟨reply, -, rfl⟩ := h
      exact ⟨reply, rfl⟩
  | .drain | .irq (.dma _) | .irq .bulkIn | .irq (.setDtr _) | .irq .busReset | .irq .configure =>
      simp [writeOf] at h

/-! ## The bytes through the FIFO -/

theorem usbdEpStartWrite_usbTxRb (data : Bool) (len : Nat) (d : Device) :
    (usbdEpStartWrite data len d).1.usbTxRb = d.usbTxRb := by
  rw [usbdEpStartWrite]
  split
  · rfl
  split <;> rfl

theorem usbdCdcAcmBulkIn_usbTxRb (nbytes : Nat) (d : Device) :
    (usbdCdcAcmBulkIn nbytes d).usbTxRb = d.usbTxRb := by
  rw [usbdCdcAcmBulkIn]
  split
  · exact usbdEpStartWrite_usbTxRb _ _ _
  · rfl

theorem inComplete_usbTxRb (d : Device) : (inComplete d).usbTxRb = d.usbTxRb := by
  rw [inComplete]
  split
  · rfl
  · exact usbdCdcAcmBulkIn_usbTxRb _ _

/-- A drain hands over the oldest bytes of the FIFO, at most 2047. -/
theorem usbDcSend_repr {d : Device} {xs : List UInt8} (h : d.usbTxRb.Repr xs) :
    (usbDcSend d).1.usbTxRb = d.usbTxRb.popped (min (usbdTxBufSize - 1) xs.length) ∧
      (usbDcSend d).2 =
        if xs = [] then none else some (xs.take (min (usbdTxBufSize - 1) xs.length)) := by
  have hread : (ringBufferRead (usbdTxBufSize - 1)).run { rb := d.usbTxRb, dest := d.writeBuffer } =
      _ := ringBufferRead_repr h _
  have hlen : (xs.take (min (usbdTxBufSize - 1) xs.length)).length =
      min (usbdTxBufSize - 1) xs.length := by
    simp
  simp only [usbDcSend, hread]
  by_cases hnil : xs = []
  · subst hnil
    simp
  · have hpos : min (usbdTxBufSize - 1) xs.length ≠ 0 := by
      have := List.length_pos_iff.mpr hnil
      simp only [usbdTxBufSize]
      omega
    rw [if_pos hpos, if_neg hnil]
    refine ⟨usbdEpStartWrite_usbTxRb _ _ _, congrArg some ?_⟩
    apply List.ext_getElem
    · rw [List.length_map, List.length_range, hlen]
    · intro i hi hi'
      rw [List.getElem_map, List.getElem_range]
      simpa using @Circular.copyTo_get _ d.writeBuffer 0 i _ hi'

/-- Every byte of a step is accounted for. -/
theorem fifo_step {e : Event} {d : Device} {xs : List UInt8} (h : d.usbTxRb.Repr xs) :
    ∃ ys, (step e d).usbTxRb.Repr ys ∧ (step e d).usbTxRb.size = d.usbTxRb.size ∧
      handedOf e d ++ ys =
        xs ++ ((writeOf e d).getD []).take (d.usbTxRb.size - xs.length) := by
  have hwrite : ∀ bytes, (d.usbTxRb.write bytes).1.Repr
      (xs ++ bytes.take (d.usbTxRb.size - xs.length)) ∧
        (d.usbTxRb.write bytes).1.size = d.usbTxRb.size := by
    intro bytes
    have := h.length_le
    rw [h.write]
    exact ⟨h.pushed (by simp; omega), rfl⟩
  have hkept : ∀ d' : Device, d'.usbTxRb = d.usbTxRb → d'.usbTxRb.Repr xs ∧
      d'.usbTxRb.size = d.usbTxRb.size := by
    intro d' heq
    rw [heq]
    exact ⟨h, rfl⟩
  match e with
  | .task =>
      have hring := taskDataOut_usbTxRb d
      rcases hs : (taskDataOut d).2 with _ | samples
      · rw [hs] at hring
        exact ⟨xs, (hkept _ hring).1, (hkept _ hring).2, by simp [writeOf, handedOf, hs]⟩
      · rw [hs] at hring
        refine ⟨_, ?_, ?_, by simp [writeOf, handedOf, hs]; rfl⟩
        · rw [step, hring]
          exact (hwrite _).1
        · rw [step, hring]
          exact (hwrite _).2
  | .drain =>
      by_cases hbusy : d.epTxBusyFlag
      · have hstep : step .drain d = d := by rw [step, usbDcSendFromRingbuffer, if_pos hbusy]
        have hhanded : handedOf .drain d = [] := by
          rw [handedOf, usbDcSendFromRingbuffer, if_pos hbusy]
          rfl
        exact ⟨xs, by rw [hstep]; exact h, by rw [hstep], by simp [hhanded, writeOf]⟩
      · obtain ⟨hring, hout⟩ := usbDcSend_repr h
        refine ⟨xs.drop (min (usbdTxBufSize - 1) xs.length), ?_, ?_, ?_⟩
        · rw [step, usbDcSendFromRingbuffer, if_neg hbusy, hring]
          exact h.popped (min_le_right _ _)
        · rw [step, usbDcSendFromRingbuffer, if_neg hbusy, hring]
          rfl
        · rw [handedOf, usbDcSendFromRingbuffer, if_neg hbusy, hout]
          by_cases hnil : xs = [] <;> simp [hnil, writeOf]
  | .irq (.dma rx) =>
      obtain ⟨hr, hs⟩ := hkept _ (dmaI2sIsr_output rx d).usbTxRb
      exact ⟨xs, hr, hs, by simp [writeOf, handedOf]⟩
  | .irq (.bulkOut readBuffer) =>
      have hring := usbdCdcAcmBulkOut_usbTxRb readBuffer d
      rcases hs : (decodePacket readBuffer d).2 with _ | reply
      · rw [hs] at hring
        exact ⟨xs, (hkept _ hring).1, (hkept _ hring).2, by simp [writeOf, handedOf, hs]⟩
      · rw [hs] at hring
        refine ⟨_, ?_, ?_, by simp [writeOf, handedOf, hs]; rfl⟩
        · rw [step, irqStep, hring]
          exact (hwrite _).1
        · rw [step, irqStep, hring]
          exact (hwrite _).2
  | .irq .bulkIn =>
      obtain ⟨hr, hs⟩ := hkept _ (inComplete_usbTxRb d)
      exact ⟨xs, hr, hs, by simp [writeOf, handedOf]⟩
  | .irq (.setDtr dtr) =>
      obtain ⟨hr, hs⟩ := hkept _ (usbdCdcAcmSetDtr_output dtr d).usbTxRb
      exact ⟨xs, hr, hs, by simp [writeOf, handedOf]⟩
  | .irq .busReset => exact ⟨xs, h, rfl, by simp [writeOf, handedOf]⟩
  | .irq .configure => exact ⟨xs, h, rfl, by simp [writeOf, handedOf]⟩

theorem boot_repr (memory : UInt32 → UInt32) : (Device.boot memory).usbTxRb.Repr [] :=
  RingBuffer.Repr.init (by decide) (by decide)

/-- The bytes handed to the IN endpoint during the run, followed by those the FIFO
still holds. -/
def outputStream (es : List Event) (d : Device) : List UInt8 :=
  Runs.trace step handedOf es d ++ (Runs.run step es d).usbTxRb.contents

/-- In a run the FIFO stays well formed, and each step adds to the output stream what
fits of its write. -/
theorem outputStream_snoc {es : List Event} {d : Device} {xs : List UInt8} (e : Event)
    (h : (Runs.run step es d).usbTxRb.Repr xs) :
    outputStream (es ++ [e]) d = outputStream es d ++
      ((writeOf e (Runs.run step es d)).getD []).take
        ((Runs.run step es d).usbTxRb.size - xs.length) := by
  obtain ⟨ys, hys, -, hbytes⟩ := fifo_step (e := e) h
  rw [outputStream, outputStream, Runs.trace_snoc, Runs.run_snoc, hys.contents_eq, h.contents_eq,
    List.append_assoc, List.append_assoc, hbytes]

theorem run_repr (memory : UInt32 → UInt32) (es : List Event) :
    ∃ xs, (Runs.run step es (Device.boot memory)).usbTxRb.Repr xs ∧
      (Runs.run step es (Device.boot memory)).usbTxRb.size = usbTxRingBufferSize := by
  induction es using List.reverseRecOn with
  | nil => exact ⟨[], boot_repr memory, rfl⟩
  | append_singleton es e ih =>
      obtain ⟨xs, hxs, hsize⟩ := ih
      obtain ⟨ys, hys, hsize', -⟩ := fifo_step (e := e) hxs
      rw [Runs.run_snoc]
      exact ⟨ys, hys, hsize'.trans hsize⟩
