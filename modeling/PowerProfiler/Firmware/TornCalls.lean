-- SUMMARY: When a reset of the sample ring holds: what interrupts do to the ring, the invariant of the split task, and a stale block.
import PowerProfiler.Firmware.InterruptedTask

/-!
# Torn calls

A call of `task_data_out` that a reset tears may store a read pointer from before the reset.
As long as it is harmless the slots below the accepted samples are all that later calls take;
otherwise a stopped device goes on to send what the ring held before.
-/

open Framing Runs

/-! ## What an interrupt does to the ring -/

/-- Both pointers are put at zero and the slots stay as they are. -/
structure ResetsRing (d d' : Device) : Prop where
  ptrs : ZeroPtrs d d'
  buffer : d'.dataBuffer = d.dataBuffer

/-- The ring is left alone, and sampling is stopped when it was. -/
structure KeepsRing (d d' : Device) : Prop where
  ptrs : SamePtrs d d'
  buffer : d'.dataBuffer = d.dataBuffer
  stopped : d'.i2sCfg.start = 0 ↔ d.i2sCfg.start = 0

/-- The ring is reset or left alone. -/
def RingStep : Bool → Device → Device → Prop
  | true => ResetsRing
  | false => KeepsRing

section RingStep

variable {d d' d'' : Device}

theorem KeepsRing.refl (d : Device) : KeepsRing d d := ⟨.refl d, rfl, Iff.rfl⟩

theorem KeepsRing.trans (h : KeepsRing d d') (h' : KeepsRing d' d'') : KeepsRing d d'' where
  ptrs := ⟨h'.ptrs.wr.trans h.ptrs.wr, h'.ptrs.rd.trans h.ptrs.rd, h'.ptrs.fault.trans h.ptrs.fault⟩
  buffer := h'.buffer.trans h.buffer
  stopped := h'.stopped.trans h.stopped

/-- What keeps the ring may come before or behind. -/
theorem RingStep.keep {resets : Bool} (h : RingStep resets d d') (h' : KeepsRing d' d'') :
    RingStep resets d d'' := by
  cases resets with
  | false => exact KeepsRing.trans h h'
  | true =>
      obtain ⟨hptrs, hbuffer⟩ := h
      exact ⟨⟨h'.ptrs.wr.trans hptrs.wr, h'.ptrs.rd.trans hptrs.rd, h'.ptrs.fault.trans hptrs.fault⟩,
        h'.buffer.trans hbuffer⟩

theorem KeepsRing.step {resets : Bool} (h : KeepsRing d d') (h' : RingStep resets d' d'') :
    RingStep resets d d'' := by
  cases resets with
  | false => exact h.trans h'
  | true =>
      obtain ⟨hptrs, hbuffer⟩ := h'
      exact ⟨⟨hptrs.wr, hptrs.rd, hptrs.fault.trans h.ptrs.fault⟩, hbuffer.trans h.buffer⟩

theorem RingStep.buffer {resets : Bool} (h : RingStep resets d d') :
    d'.dataBuffer = d.dataBuffer := by
  cases resets with
  | false => exact KeepsRing.buffer h
  | true => exact ResetsRing.buffer h

end RingStep

section I2s

variable (d : Device)

theorem i2sStart_ring (channels : UInt8) (freq : UInt32) :
    RingStep (d.i2s0 && decide (d.Reinit channels freq)) d (i2sStart channels freq d) := by
  have hptrs := i2sStart_ptrs d channels freq
  have hbuffer := HistoryInv.i2sStart_dataBuffer channels freq d
  by_cases hon : d.i2s0 ∧ d.Reinit channels freq
  · rw [if_pos hon] at hptrs
    simp only [hon.1, hon.2, decide_true, Bool.and_true]
    exact ⟨hptrs, hbuffer⟩
  · rw [if_neg hon] at hptrs
    have hnone : (d.i2s0 && decide (d.Reinit channels freq)) = false := by
      simpa using hon
    rw [hnone]
    refine ⟨hptrs, hbuffer, ?_⟩
    rw [i2sStart]
    split
    next hdev =>
      have hre : ¬ d.Reinit channels freq := fun hre => hon ⟨hdev, hre⟩
      have hstart : d.i2sCfg.start ≠ 0 := fun hstop => hre (.inl hstop)
      simp [hstart]
    · exact Iff.rfl

theorem i2sStop_ring : RingStep d.i2s0 d (i2sStop d) := by
  rw [i2sStop]
  cases d.i2s0
  · exact .refl d
  · exact ⟨⟨rfl, rfl, rfl⟩, rfl⟩

theorem i2sSleep_ring : RingStep d.i2s0 d (i2sSleep d) := by
  rw [i2sSleep]
  cases d.i2s0
  · exact .refl d
  · exact ⟨⟨rfl, rfl, rfl⟩, rfl⟩

theorem i2sWakeUp_ring : RingStep (!d.i2s0) d (i2sWakeUp d) := by
  rw [i2sWakeUp]
  cases d.i2s0
  · exact ⟨⟨rfl, rfl, rfl⟩, rfl⟩
  · exact .refl d

end I2s

theorem cmdCad_ring (data : List UInt8) (d : Device) :
    RingStep (cadResets data d) d (cmdCad data d) := by
  cases data with
  | nil => exact .refl d
  | cons enable data =>
      have hmerged : KeepsRing d (d.merged (enable :: data)) := ⟨⟨rfl, rfl, rfl⟩, rfl, Iff.rfl⟩
      by_cases hzero : enable = 0
      · have hresets : cadResets (enable :: data) d = d.i2s0 := by
          simp [cadResets, hzero]
        have hstop : cmdCad (enable :: data) d = i2sStop (d.merged (enable :: data)) :=
          if_neg (not_not.mpr hzero)
        rw [hresets, hstop]
        exact hmerged.step (i2sStop_ring (d.merged (enable :: data)))
      · have hresets : cadResets (enable :: data) d =
            (d.i2s0 && decide (d.Reinit (d.cfgAdc.memcpy (enable :: data)).chnl
              (d.cfgAdc.memcpy (enable :: data)).freq)) := by
          simp [cadResets, beq_eq_false_iff_ne.mpr hzero]
        have hstart : cmdCad (enable :: data) d = i2sStart (d.cfgAdc.memcpy (enable :: data)).chnl
            (d.cfgAdc.memcpy (enable :: data)).freq (d.merged (enable :: data)) := if_pos hzero
        rw [hresets, hstart]
        exact hmerged.step (i2sStart_ring (d.merged (enable :: data)) _ _)

theorem bulkOut_ring (packet : List UInt8) (d : Device) :
    RingStep (Irq.resets (.bulkOut packet) d) d (usbdCdcAcmBulkOut packet d) := by
  rcases usbdCdcAcmBulkOut_cases packet d with ⟨req, hreq, heq⟩ | ⟨hnone, heq⟩
  · have hresets : Irq.resets (.bulkOut packet) d =
        (req.cmd == cmdDevCad && cadResets req.payload d) := by
      simp only [Irq.resets, hreq]
    have hreply : KeepsRing (cmdDecode req d).1 (usbdCdcAcmBulkOut packet d) := by
      rw [heq]
      exact ⟨⟨rfl, rfl, rfl⟩, rfl, Iff.rfl⟩
    rw [hresets]
    rcases cmdDecode_cases req d with ⟨hcad, hdec⟩ | ⟨hother, memory, hdec⟩
    · have hring := cmdCad_ring req.payload d
      rw [← hdec] at hring
      simpa [hcad] using hring.keep hreply
    · have hkeep : KeepsRing d (cmdDecode req d).1 := by
        rw [hdec]
        exact ⟨⟨rfl, rfl, rfl⟩, rfl, Iff.rfl⟩
      rw [beq_eq_false_iff_ne.mpr hother, Bool.false_and]
      exact hkeep.trans hreply
  · have hresets : Irq.resets (.bulkOut packet) d = false := by
      simp only [Irq.resets, hnone]
    rw [hresets, heq]
    exact .refl d

/-- A change of DTR wakes the unit up or puts it to sleep. -/
theorem setDtr_ring (dtr : Bool) (d : Device) :
    RingStep (Irq.resets (.setDtr dtr) d) d (usbdCdcAcmSetDtr dtr d) := by
  have hline : ∀ d' : Device, KeepsRing d' { d' with dtrEnable := dtr } :=
    fun _ => ⟨⟨rfl, rfl, rfl⟩, rfl, Iff.rfl⟩
  have hsleep := (i2sSleep_ring d).keep (hline _)
  have hwake := (i2sWakeUp_ring d).keep (hline _)
  cases hdtr : d.dtrEnable <;> cases dtr <;> simp only [Irq.resets, usbdCdcAcmSetDtr, hdtr]
  · exact hline d
  · simpa using hwake
  · simpa using hsleep
  · exact hline d

/-- All that an interrupt can do to the ring: append samples, reset it, or leave it alone. -/
theorem irq_ring (i : Irq) (d : Device) :
    (∃ rx, i = .dma rx ∧ d.Accepting) ∨
      (acceptedOf (.irq i) d = [] ∧ RingStep (i.resets d) d (irqStep i d)) := by
  cases i with
  | dma rx =>
      by_cases hacc : d.Accepting
      · exact .inl ⟨rx, rfl, hacc⟩
      · obtain ⟨hptrs, hbuffer, -⟩ := dmaI2sIsr_discard hacc rx
        refine .inr ⟨if_neg hacc, hptrs, hbuffer, ?_⟩
        rw [irqStep, dmaI2sIsr]
        split
        · exact Iff.rfl
        next hrun =>
          split
          · exact Iff.rfl
          next hwake => exact absurd ⟨hrun, not_not.mp hwake⟩ hacc
  | bulkOut packet => exact .inr ⟨rfl, bulkOut_ring packet d⟩
  | setDtr dtr => exact .inr ⟨rfl, setDtr_ring dtr d⟩
  | bulkIn =>
      obtain ⟨busy, ep, heq⟩ := inComplete_withOutput d
      refine .inr ⟨rfl, ?_⟩
      show KeepsRing d (inComplete d)
      rw [heq]
      exact ⟨⟨rfl, rfl, rfl⟩, rfl, Iff.rfl⟩
  | busReset => exact .inr ⟨rfl, ⟨rfl, rfl, rfl⟩, rfl, Iff.rfl⟩
  | configure => exact .inr ⟨rfl, ⟨rfl, rfl, rfl⟩, rfl, Iff.rfl⟩

/-! ## The ring -/

/-- The slots below the accepted samples hold them, and a stopped device has none. The read
pointer is not ahead of them, or it has too little before it for a block. -/
structure RingInv (s : Split) : Prop where
  sample : SampleInv s.device
  history : History s.device s.accepted
  behind : s.accepted.length < dataBufCnt → s.device.dataBufferRdPtr ≤ s.accepted.length ∨
    (s.device.i2sCfg.start = 0 ∧ dataBufCnt - data24BlkCnt < s.device.dataBufferRdPtr)
  stopped : s.device.i2sCfg.start = 0 → s.accepted = []

theorem acceptedBy_accepting {s : Split} (h : s.device.Accepting) (rx : RxBuffer) :
    s.acceptedBy (.dma rx) = s.accepted ++ rx.1 := by
  have hnone : Irq.resets (.dma rx) s.device = false := rfl
  rw [Split.acceptedBy, hnone, acceptedOf, if_pos h]
  rfl

theorem acceptedBy_none {s : Split} {i : Irq} (h : acceptedOf (.irq i) s.device = []) :
    s.acceptedBy i = if i.resets s.device then [] else s.accepted := by
  rw [Split.acceptedBy, h, List.append_nil]

namespace RingInv

variable {s : Split}

theorem boot (memory : UInt32 → UInt32) : RingInv (.boot memory) :=
  ⟨.boot memory, .of_zero rfl, fun _ => .inl (Nat.zero_le _), fun _ => rfl⟩

/-- A step of the main loop that keeps the ring. -/
theorem of_keep (h : RingInv s) {d : Device} (hkeep : KeepsRing s.device d) (point : TaskPoint) :
    RingInv ⟨d, point, s.accepted⟩ := by
  refine ⟨h.sample.of_same hkeep.ptrs, h.history.of_same hkeep.buffer hkeep.ptrs.wr, ?_,
    fun hstart => h.stopped (hkeep.stopped.mp hstart)⟩
  intro hlt
  have hbehind := h.behind hlt
  rwa [← hkeep.ptrs.rd, ← hkeep.stopped] at hbehind

theorem irq (h : RingInv s) (i : Irq) : RingInv (splitStep (.irq i) s) := by
  rcases irq_ring i s.device with ⟨rx, rfl, hacc⟩ | ⟨hnone, hring⟩
  · have hlen : (s.accepted ++ rx.1).length = s.accepted.length + i2sRxBufLen := by
      rw [List.length_append, rx.2]
    have hrd : (dmaI2sIsr rx s.device).dataBufferRdPtr = s.device.dataBufferRdPtr := by
      rw [dmaI2sIsr_accepting h.sample hacc]
    have hstart : (dmaI2sIsr rx s.device).i2sCfg = s.device.i2sCfg := by
      rw [dmaI2sIsr_accepting h.sample hacc]
    rw [splitStep, acceptedBy_accepting hacc]
    refine ⟨dmaI2sIsr_sampleInv h.sample rx, h.history.isr h.sample hacc rx, fun hlt => ?_, fun hstop => ?_⟩
    · dsimp only at hlt ⊢
      rw [hlen] at hlt ⊢
      have hbehind := (h.behind (by omega)).resolve_right (fun hstop => hacc.1 hstop.1)
      rw [irqStep, hrd]
      exact .inl (hbehind.trans (Nat.le_add_right _ _))
    · rw [irqStep, hstart] at hstop
      exact absurd hstop hacc.1
  · rw [splitStep, acceptedBy_none hnone]
    cases hreset : i.resets s.device with
    | true =>
        rw [hreset] at hring
        obtain ⟨hptrs, -⟩ := hring
        exact ⟨h.sample.of_zero hptrs, .of_zero hptrs.wr, fun _ => .inl hptrs.rd.le, fun _ => rfl⟩
    | false =>
        rw [hreset] at hring
        exact h.of_keep hring _

end RingInv

/-! ## The call -/

/-- The forty slots behind the read pointer of the call, up to the end of the ring, are among
the first `n`. -/
def Call.Covered (c : Call) (n : Nat) : Prop := min (c.rd + data24BlkCnt) dataBufCnt ≤ n

/-- The read pointer that the call stores is not ahead of `n` samples. -/
def Call.Landed (c : Call) (n : Nat) : Prop :=
  (c.rd + data24BlkCnt) % dataBufCnt ≤ n ∨ dataBufCnt ≤ n

theorem Call.Covered.landed {c : Call} {n : Nat} (h : c.Covered n) : c.Landed n := by
  simp only [Covered, Landed, dataBufCnt, data24BlkCnt, data8BlkCnt] at h ⊢
  omega

theorem Call.Covered.lt {c : Call} {n i : Nat} (h : c.Covered n) (hi : i ∈ blockSlots c.rd) :
    i < n := by
  simp only [blockSlots, List.mem_map, List.mem_range, Circular.slot] at hi
  obtain ⟨k, hk, rfl⟩ := hi
  simp only [Covered, dataBufCnt, data24BlkCnt, data8BlkCnt] at h hk ⊢
  omega

/-- What a call relies on: all that was accepted since the last reset is fresh for it, and so
are the slots written since the last reset before it. -/
structure CallInv (s : Split) (c : Call) : Prop where
  rd_lt : c.rd < dataBufCnt
  rd_dvd : 8 ∣ c.rd
  accepted : ∀ w ∈ s.accepted, w ∈ c.fresh
  length : s.accepted.length ≤ c.written
  slots : ∀ i, i < dataBufCnt → i < c.written → s.device.dataBuffer i ∈ c.fresh

namespace CallInv

variable {s : Split} {c : Call}

theorem begun (h : RingInv s) : CallInv s s.begun := by
  refine ⟨h.sample.rd_lt, h.sample.rd_dvd, fun _ hw => hw, le_refl _, fun i hi hwritten => ?_⟩
  obtain ⟨j, -, hget⟩ := h.history.get_slot hi hwritten
  exact List.mem_of_getElem? hget

/-- A step that leaves the slots and the accepted samples alone. -/
theorem of_same (h : CallInv s c) {s' : Split} (hbuffer : s'.device.dataBuffer = s.device.dataBuffer)
    (haccepted : s'.accepted = s.accepted) : CallInv s' c := by
  refine ⟨h.rd_lt, h.rd_dvd, ?_, ?_, ?_⟩
  · rw [haccepted]
    exact h.accepted
  · rw [haccepted]
    exact h.length
  · rw [hbuffer]
    exact h.slots

theorem irq (h : CallInv s c) (hring : RingInv s) (i : Irq) :
    CallInv (splitStep (.irq i) s) (c.after i s) := by
  have hring' := hring.irq i
  rcases irq_ring i s.device with ⟨rx, rfl, hacc⟩ | ⟨hnone, hstep⟩
  · have hlen : (s.accepted ++ rx.1).length = s.accepted.length + i2sRxBufLen := by
      rw [List.length_append, rx.2]
    have hfresh : (c.after (.dma rx) s).fresh = c.fresh ++ rx.1 := by
      rw [Call.after, acceptedOf, if_pos hacc]
    have hwritten : (c.after (.dma rx) s).written = max c.written (s.accepted ++ rx.1).length := by
      rw [Call.after, acceptedBy_accepting hacc]
    have hall : ∀ w ∈ (splitStep (.irq (.dma rx)) s).accepted, w ∈ (c.after (.dma rx) s).fresh := by
      intro w hw
      rw [splitStep, acceptedBy_accepting hacc] at hw
      rw [hfresh]
      rcases List.mem_append.mp hw with hw | hw
      · exact List.mem_append_left _ (h.accepted w hw)
      · exact List.mem_append_right _ hw
    refine ⟨h.rd_lt, h.rd_dvd, hall, ?_, fun i hi hlt => ?_⟩
    · rw [hwritten, splitStep, acceptedBy_accepting hacc]
      exact le_max_right _ _
    · rw [hwritten] at hlt
      by_cases hnew : i < (splitStep (.irq (.dma rx)) s).accepted.length
      · obtain ⟨j, -, hget⟩ := hring'.history.get_slot hi hnew
        exact hall _ (List.mem_of_getElem? hget)
      · -- The interrupt has not got to this slot.
        rw [splitStep, acceptedBy_accepting hacc, hlen] at hnew
        rw [hlen] at hlt
        have hframe : (dmaI2sIsr rx s.device).dataBuffer i = s.device.dataBuffer i := by
          rw [dmaI2sIsr_accepting hring.sample hacc]
          apply Circular.fill_frame
          intro k hk
          rw [rx.2] at hk
          rw [hring.history.wr, Circular.slot]
          simp only [dataBufCnt, i2sRxBufLen] at hi hnew hk ⊢
          omega
        show (dmaI2sIsr rx s.device).dataBuffer i ∈ _
        rw [hframe, hfresh]
        exact List.mem_append_left _ (h.slots i hi (by omega))
  · have hfresh : (c.after i s).fresh = c.fresh := by
      rw [Call.after, hnone, List.append_nil]
    have hsub : (s.acceptedBy i).length ≤ s.accepted.length ∧ ∀ w ∈ s.acceptedBy i, w ∈ s.accepted := by
      rw [acceptedBy_none hnone]
      cases i.resets s.device with
      | true => exact ⟨Nat.zero_le _, fun w hw => absurd hw List.not_mem_nil⟩
      | false => exact ⟨le_refl _, fun _ hw => hw⟩
    have hwritten : (c.after i s).written = c.written := max_eq_left (hsub.1.trans h.length)
    refine ⟨h.rd_lt, h.rd_dvd, fun w hw => ?_, ?_, fun j hj hlt => ?_⟩
    · rw [hfresh]
      exact h.accepted w (hsub.2 w hw)
    · rw [hwritten]
      exact hsub.1.trans h.length
    · rw [hwritten] at hlt
      have hbuffer : (splitStep (.irq i) s).device.dataBuffer = s.device.dataBuffer := hstep.buffer
      rw [hfresh, hbuffer]
      exact h.slots j hj hlt

end CallInv

/-! ## The points of the task -/

/-- What holds at a point of the task. A call that no reset has torn is as one step would
be. -/
def PointInv (s : Split) : TaskPoint → Prop
  | .ready => True
  | .loaded c => CallInv s c ∧ (c.torn = false → s.device.dataBufferRdPtr = c.rd)
  | .decided c wr =>
      CallInv s c ∧ wr < dataBufCnt ∧
        (c.torn = false → data24BlkCnt ≤ pending c.rd wr → c.Covered s.accepted.length)
  | .copied c samples =>
      CallInv s c ∧ samples.length = data24BlkCnt ∧ (∀ w ∈ samples, w ∈ c.fresh) ∧
        (c.torn = false → c.Landed s.accepted.length)
  | .stored c samples => ∀ w ∈ samples, w ∈ c.fresh

structure SplitInv (s : Split) : Prop where
  ring : RingInv s
  point : PointInv s s.point

namespace SplitInv

variable {s : Split}

theorem boot (memory : UInt32 → UInt32) : SplitInv (.boot memory) := ⟨.boot memory, trivial⟩

/-- Behind the load of both pointers the slots that seem pending are. -/
theorem covered (h : RingInv s) {c : Call} (hrd : s.device.dataBufferRdPtr = c.rd)
    (hpend : data24BlkCnt ≤ pending c.rd s.device.dataBufferWrPtr) :
    c.Covered s.accepted.length := by
  have hbehind := h.behind
  have hwr := h.history.wr
  rw [hrd] at hbehind
  simp only [Call.Covered, pending, dataBufCnt, data24BlkCnt, data8BlkCnt] at hbehind hwr hpend ⊢
  rcases Nat.lt_or_ge s.accepted.length 1024 with hlt | hge
  · rcases hbehind hlt with hle | ⟨hstop, hahead⟩
    · omega
    · have hempty := congrArg List.length (h.stopped hstop)
      rw [List.length_nil] at hempty
      omega
  · omega

theorem task (h : SplitInv s) (hok : Harmless .task s) : SplitInv s.task := by
  obtain ⟨d, point, accepted⟩ := s
  obtain ⟨hring, hpoint⟩ := h
  cases point with
  | ready => exact ⟨hring.of_keep (.refl _) _, (CallInv.begun hring).of_same rfl rfl, fun _ => rfl⟩
  | loaded c =>
      obtain ⟨hc, hrd⟩ := hpoint
      exact ⟨hring.of_keep (.refl _) _, hc.of_same rfl rfl, hring.sample.wr_lt,
        fun htorn => covered hring (hrd htorn)⟩
  | decided c wr =>
      obtain ⟨hc, hwr, hcov⟩ := hpoint
      have hindices := blockIndices_eq hc.rd_lt hwr
      by_cases hpend : data24BlkCnt ≤ pending c.rd wr
      · rw [if_pos hpend] at hindices
        rw [task_copies _ _ _ hindices]
        have hwritten : c.Covered c.written := by
          cases htorn : c.torn with
          | false => exact (hcov htorn hpend).trans hc.length
          | true => exact hok htorn hpend
        have hbound : (blockSlots c.rd).any (fun i => decide (dataBufCnt ≤ i)) = false := by
          rw [List.any_eq_false]
          intro i hi
          simpa using lt_of_mem_blockSlots hi
        have hkeep : KeepsRing d { d with
            fault := d.fault || (blockSlots c.rd).any (fun i => decide (dataBufCnt ≤ i)) } := by
          rw [hbound]
          exact ⟨⟨rfl, rfl, Bool.or_false _⟩, rfl, Iff.rfl⟩
        refine ⟨hring.of_keep hkeep _, hc.of_same rfl rfl, ?_, fun w hw => ?_,
          fun htorn => (hcov htorn hpend).landed⟩
        · rw [List.length_map, length_blockSlots]
        · obtain ⟨i, hi, rfl⟩ := List.mem_map.mp hw
          exact hc.slots i (lt_of_mem_blockSlots hi) (hwritten.lt hi)
      · rw [if_neg hpend] at hindices
        rw [task_returns _ _ _ hindices]
        exact ⟨hring.of_keep (.refl _) _, trivial⟩
  | copied c samples =>
      obtain ⟨hc, hlen, hfresh, hland⟩ := hpoint
      have hland' : c.Landed accepted.length ∨ (d.i2sCfg.start = 0 ∧
          dataBufCnt - data24BlkCnt < (c.rd + data24BlkCnt) % dataBufCnt) := by
        cases htorn : c.torn with
        | false => exact .inl (hland htorn)
        | true => exact or_assoc.mpr (hok htorn)
      rw [task_stores, hlen, and_mask]
      obtain ⟨hsample, hhistory, -, hstopped⟩ := hring
      have hdvd := hc.rd_dvd
      refine ⟨⟨⟨hsample.wr_lt, hsample.wr_dvd, Nat.mod_lt _ (by decide), ?_, hsample.fault⟩,
        hhistory.of_same rfl rfl, fun hlt => ?_, hstopped⟩, hfresh⟩
      · simp only [dataBufCnt, data24BlkCnt, data8BlkCnt]
        omega
      · exact hland'.imp_left fun hl => hl.resolve_right (Nat.not_le.mpr hlt)
  | stored c samples =>
      have hkeep : KeepsRing d (sendBlock samples d) := by
        refine ⟨sendBlock_same _ _, HistoryInv.sendBlock_dataBuffer _ _, ?_⟩
        rw [sendBlock]
        split <;> exact Iff.rfl
      exact ⟨hring.of_keep hkeep _, trivial⟩

theorem drain (h : SplitInv s) : SplitInv (splitStep .drain s) := by
  rw [splitStep]
  split
  next hready =>
    obtain ⟨rb, buffer, busy, ep, heq⟩ := usbDcSendFromRingbuffer_withOutput s.device
    have hkeep : KeepsRing s.device (step .drain s.device) := by
      show KeepsRing s.device (usbDcSendFromRingbuffer s.device).1
      rw [heq]
      exact ⟨⟨rfl, rfl, rfl⟩, rfl, Iff.rfl⟩
    refine ⟨h.ring.of_keep hkeep _, ?_⟩
    rw [hready]
    trivial
  · exact h

theorem mem_after {i : Irq} {c : Call} {w : UInt32} (hw : w ∈ c.fresh) :
    w ∈ (c.after i s).fresh := List.mem_append_left _ hw

/-- An interrupt that does not tear a call. -/
theorem of_untorn {i : Irq} {c : Call} (h : (c.after i s).torn = false) :
    c.torn = false ∧ i.resets s.device = false := Bool.or_eq_false_iff.mp h

theorem length_acceptedBy {i : Irq} (h : i.resets s.device = false) :
    s.accepted.length ≤ (s.acceptedBy i).length := by
  rw [Split.acceptedBy, h, if_neg Bool.false_ne_true, List.length_append]
  exact Nat.le_add_right _ _

theorem rd_irq (h : RingInv s) {i : Irq} (hno : i.resets s.device = false) :
    (irqStep i s.device).dataBufferRdPtr = s.device.dataBufferRdPtr := by
  rcases irq_ring i s.device with ⟨rx, rfl, hacc⟩ | ⟨-, hstep⟩
  · rw [irqStep, dmaI2sIsr_accepting h.sample hacc]
  · rw [hno] at hstep
    exact KeepsRing.ptrs hstep |>.rd

theorem irq (h : SplitInv s) (i : Irq) : SplitInv (splitStep (.irq i) s) := by
  refine ⟨h.ring.irq i, ?_⟩
  have hpoint := h.point
  have hcall : ∀ c, CallInv s c → CallInv (splitStep (.irq i) s) (c.after i s) :=
    fun c hc => hc.irq h.ring i
  show PointInv (splitStep (.irq i) s) (s.point.after i s)
  cases hp : s.point with
  | ready => trivial
  | loaded c =>
      rw [hp] at hpoint
      obtain ⟨hc, hrd⟩ := hpoint
      refine ⟨hcall c hc, fun htorn => ?_⟩
      obtain ⟨hold, hno⟩ := of_untorn htorn
      exact (rd_irq h.ring hno).trans (hrd hold)
  | decided c wr =>
      rw [hp] at hpoint
      obtain ⟨hc, hwr, hcov⟩ := hpoint
      refine ⟨hcall c hc, hwr, fun htorn hpend => ?_⟩
      obtain ⟨hold, hno⟩ := of_untorn htorn
      exact (hcov hold hpend).trans (length_acceptedBy hno)
  | copied c samples =>
      rw [hp] at hpoint
      obtain ⟨hc, hlen, hfresh, hland⟩ := hpoint
      refine ⟨hcall c hc, hlen, fun w hw => mem_after (hfresh w hw), fun htorn => ?_⟩
      obtain ⟨hold, hno⟩ := of_untorn htorn
      exact (hland hold).imp (fun hle => hle.trans (length_acceptedBy hno))
        (fun hle => hle.trans (length_acceptedBy hno))
  | stored c samples =>
      rw [hp] at hpoint
      exact fun w hw => mem_after (hpoint w hw)

theorem step (e : Event) (h : SplitInv s) (hok : Harmless e s) : SplitInv (splitStep e s) := by
  cases e with
  | task => exact h.task hok
  | drain => exact h.drain
  | irq i => exact h.irq i

/-- A block that is emitted is fresh. -/
theorem emitsFresh (h : SplitInv s) (e : Event) : EmitsFresh e s := by
  intro c samples _ hp
  have hpoint := h.point
  rw [hp] at hpoint
  exact hpoint

end SplitInv

/-! ## A stopped device -/

/-- The call that is under way. -/
def TaskPoint.call : TaskPoint → Option Call
  | .ready => none
  | .loaded c | .decided c _ | .copied c _ | .stored c _ => some c

/-- Sampling is stopped before the step. -/
def Stopped (_ : Event) (s : Split) : Prop := s.device.i2sCfg.start = 0

/-- A call under way has nothing that is fresh. -/
structure Silent (s : Split) : Prop where
  inv : SplitInv s
  fresh : ∀ c ∈ s.point.call, c.fresh = []

namespace Silent

variable {s : Split}

theorem task (h : Silent s) (hstop : s.device.i2sCfg.start = 0) :
    ∀ c ∈ s.task.point.call, c.fresh = [] := by
  obtain ⟨d, point, accepted⟩ := s
  obtain ⟨⟨hring, -⟩, hfresh⟩ := h
  cases point with
  | ready =>
      intro c hc
      obtain rfl : _ = c := Option.some.inj hc
      exact hring.stopped hstop
  | loaded c => exact hfresh
  | decided c wr =>
      cases his : blockIndices c.rd wr with
      | none =>
          rw [task_returns _ _ _ his]
          exact fun _ hc => nomatch hc
      | some is =>
          rw [task_copies _ _ _ his]
          exact hfresh
  | copied c samples => exact hfresh
  | stored c samples => exact fun _ hc => nomatch hc

theorem step (e : Event) (h : Silent s) (hok : Harmless e s) (hstop : Stopped e s) :
    Silent (splitStep e s) := by
  refine ⟨h.inv.step e hok, ?_⟩
  cases e with
  | task => exact h.task hstop
  | drain =>
      rw [splitStep]
      split
      · exact h.fresh
      · exact h.fresh
  | irq i =>
      have hnone : acceptedOf (.irq i) s.device = [] := by
        rcases irq_ring i s.device with ⟨rx, -, hacc⟩ | ⟨hnone, -⟩
        · exact absurd hstop hacc.1
        · exact hnone
      have hafter : ∀ c : Call, c.fresh = [] → (c.after i s).fresh = [] := by
        intro c hc
        rw [Call.after, hnone, List.append_nil]
        exact hc
      intro c hc
      have hfresh := h.fresh
      replace hc : c ∈ (s.point.after i s).call := hc
      cases hp : s.point <;> rw [hp] at hc hfresh
      · cases hc
      all_goals
        obtain rfl : _ = c := Option.some.inj hc
        exact hafter _ (hfresh _ rfl)

theorem emits_nothing (h : Silent s) (e : Event) : emitted e s = [] := by
  unfold emitted
  split
  next c samples hp =>
    have hfresh := h.inv.emitsFresh .task c samples rfl hp
    rw [h.fresh c (by rw [hp]; rfl)] at hfresh
    exact List.eq_nil_iff_forall_not_mem.mpr fun w hw =>
      List.not_mem_nil (hfresh w hw)
  · rfl

end Silent

/-! ## Runs -/

/-- Along the run every block that is emitted is fresh for its call, and calls that begin while
sampling is stopped emit nothing until it is started again. -/
structure ResetsHold (memory : UInt32 → UInt32) (es : List Event) : Prop where
  fresh : Along splitStep EmitsFresh es (.boot memory)
  silent : ∀ es₁ es₂, es = es₁ ++ es₂ → (run splitStep es₁ (.boot memory)).point = .ready →
    Along splitStep Stopped es₂ (run splitStep es₁ (.boot memory)) →
      trace splitStep emitted es₂ (run splitStep es₁ (.boot memory)) = []

/-- Over every run in which torn calls are harmless no reset is undone. -/
theorem resetsHold_of_harmless (memory : UInt32 → UInt32) (es : List Event)
    (h : Along splitStep Harmless es (.boot memory)) : ResetsHold memory es := by
  refine ⟨?_, fun es₁ es₂ heq hready hstop => ?_⟩
  · exact along_invariant (I := SplitInv) (fun e _ hs hok => hs.step e hok)
      (fun e _ hs _ => hs.emitsFresh e) (.boot memory) h
  · rw [heq, along_append] at h
    have hinv : SplitInv (run splitStep es₁ (.boot memory)) :=
      run_invariant (fun e _ hs hok => hs.step e hok) (.boot memory) h.1
    have hsilent : Silent (run splitStep es₁ (.boot memory)) := by
      refine ⟨hinv, ?_⟩
      rw [hready]
      exact fun _ hc => nomatch hc
    exact trace_eq_nil (along_invariant (I := Silent)
      (fun e _ hs hok => hs.step e hok.1 hok.2) (fun e _ hs _ => hs.emits_nothing e) hsilent
      (h.2.and hstop))

/-- DMA blocks of one sample value. -/
def blocksOf (n : Nat) (w : UInt32) : List Event :=
  List.replicate n (.irq (.dma ⟨List.replicate i2sRxBufLen w, List.length_replicate⟩))

/-- A call loads both pointers, a start with another rate resets the ring, two blocks are
accepted behind it, and the call copies its block. -/
def tornRestart : List Event :=
  [.irq (.setDtr true), .irq (.bulkOut [6, 0x38, 1, 3, 0, 0, 0x77, 1])] ++ blocksOf 514 7 ++
    ([.task, .task, .irq (.bulkOut [6, 0x38, 1, 3, 0, 0x80, 0xbb, 0])] ++ blocksOf 514 8 ++ [.task])

/-- The call stores its pointer and emits, and behind another block so does the next call. -/
def tornRestartCalls : List Event :=
  [.task, .task] ++ blocksOf 1 9 ++ List.replicate 5 .task

/-- A torn call that copies and stores harmlessly: its block and the next one are of samples
that were accepted behind the restart. -/
theorem resetsHold_tornRestart :
    ResetsHold (fun _ => 0) (tornRestart ++ tornRestartCalls) ∧
      (run splitStep tornRestart (.boot fun _ => 0)).point.call.map Call.torn = some true ∧
      trace splitStep emitted (tornRestart ++ tornRestartCalls) (.boot fun _ => 0) =
        List.replicate 64 8 ++ List.replicate 16 9 :=
  ⟨resetsHold_of_harmless (fun _ => 0) (tornRestart ++ tornRestartCalls) (by decide +kernel),
    by decide +kernel, by decide +kernel⟩

/-! ## A stop that is undone -/

theorem task_i2sCfg (s : Split) : s.task.device.i2sCfg = s.device.i2sCfg := by
  obtain ⟨d, point, accepted⟩ := s
  cases point with
  | ready | loaded | copied => rfl
  | decided c wr =>
      cases his : blockIndices c.rd wr with
      | none => rw [task_returns _ _ _ his]
      | some is => rw [task_copies _ _ _ his]
  | stored c samples =>
      rw [task_emits, sendBlock]
      split <;> rfl

/-- The main loop does not start sampling. -/
theorem stopped_tasks {s : Split} (h : s.device.i2sCfg.start = 0) (n : Nat) :
    Along splitStep Stopped (List.replicate n .task) s := by
  induction n generalizing s with
  | zero => trivial
  | succ n ih =>
      have hnext : (splitStep .task s).device.i2sCfg.start = 0 :=
        (congrArg I2sCfg.start (task_i2sCfg s)).trans h
      exact ⟨h, ih hnext⟩

/-- What an undisturbed call emits. -/
theorem trace_call {d : Device} {is : List Nat} (accepted : List UInt32)
    (his : blockIndices d.dataBufferRdPtr d.dataBufferWrPtr = some is) :
    trace splitStep emitted (List.replicate 5 .task) ⟨d, .ready, accepted⟩ =
      is.map d.dataBuffer := by
  have hload : ∃ c : Call, c.rd = d.dataBufferRdPtr ∧
      splitStep .task (splitStep .task ⟨d, .ready, accepted⟩) =
        ⟨d, .decided c d.dataBufferWrPtr, accepted⟩ := ⟨_, rfl, rfl⟩
  obtain ⟨c, hrd, hload⟩ := hload
  have hcopy := task_copies d accepted c (by rw [hrd, his])
  show [] ++ ([] ++ trace splitStep emitted (List.replicate 3 .task) _) = _
  rw [hload]
  show [] ++ ([] ++ ([] ++ trace splitStep emitted (List.replicate 2 .task) (Split.task _))) = _
  rw [hcopy]
  exact List.append_nil _

/-- While sampling is stopped the condition on the store is exact: behind a store that is not
harmless the next call emits a block, though nothing was accepted. -/
theorem emits_of_harmful {s : Split} (h : SplitInv s) {c : Call} {samples : List UInt32}
    (hp : s.point = .copied c samples) (hstop : s.device.i2sCfg.start = 0)
    (hharm : ¬ Harmless .task s) :
    (s.task.task).point = .ready ∧ (s.task.task).accepted = [] ∧
      trace splitStep emitted (List.replicate 5 .task) s.task.task ≠ [] := by
  obtain ⟨d, point, accepted⟩ := s
  obtain rfl : point = .copied c samples := hp
  obtain ⟨hring, -, hlen, -, -⟩ := h
  obtain rfl : accepted = [] := hring.stopped hstop
  obtain ⟨-, hnot⟩ := Classical.not_imp.mp hharm
  obtain ⟨hahead, hnot⟩ := not_or.mp hnot
  have hroom : ¬ dataBufCnt - data24BlkCnt < (c.rd + data24BlkCnt) % dataBufCnt :=
    fun hlt => (not_or.mp hnot).2 ⟨hstop, hlt⟩
  have hwr : d.dataBufferWrPtr = 0 := hring.history.wr
  rw [task_stores, task_emits, hlen, and_mask]
  refine ⟨rfl, rfl, ?_⟩
  have hsame := sendBlock_same samples
    { d with dataBufferRdPtr := (c.rd + data24BlkCnt) % dataBufCnt }
  have hindices : blockIndices
      (sendBlock samples { d with
        dataBufferRdPtr := (c.rd + data24BlkCnt) % dataBufCnt }).dataBufferRdPtr
      (sendBlock samples { d with
        dataBufferRdPtr := (c.rd + data24BlkCnt) % dataBufCnt }).dataBufferWrPtr =
      some (blockSlots ((c.rd + data24BlkCnt) % dataBufCnt)) := by
    rw [hsame.rd, hsame.wr]
    dsimp only
    rw [hwr, blockIndices_eq (Nat.mod_lt _ (by decide)) (by decide), if_pos]
    simp only [pending, dataBufCnt, data24BlkCnt, data8BlkCnt, List.length_nil] at hahead hroom ⊢
    omega
  rw [trace_call [] hindices]
  intro hnil
  have hzero := congrArg List.length hnil
  rw [List.length_map, length_blockSlots] at hzero
  exact absurd hzero (by decide)

/-- A block of samples with the value 7. -/
def sevens : RxBuffer := ⟨List.replicate i2sRxBufLen 7, rfl⟩

/-- Two blocks arrive behind a start; a stop comes between the load of the write pointer and
the copy. -/
def tornStop : List Event :=
  [.irq (.setDtr true), .irq (.bulkOut [6, 0x38, 1, 3, 0, 0, 0x77, 1])] ++
    List.replicate 514 (.irq (.dma sevens)) ++
      [.task, .task, .irq (.bulkOut [1, 0x38, 0]), .task, .task, .task]

theorem ready_of_call {p : TaskPoint} (h : p.call.isNone = true) : p = .ready := by
  cases p with
  | ready => rfl
  | loaded | decided | copied | stored => cases h

/-- The next call of the stopped device emits a block. -/
theorem stop_undone : ¬ ∀ (memory : UInt32 → UInt32) (es : List Event), ResetsHold memory es := by
  intro hall
  have hready : (run splitStep tornStop (.boot fun _ => 0)).point = .ready :=
    ready_of_call (by decide +kernel)
  have hstop : (run splitStep tornStop (.boot fun _ => 0)).device.i2sCfg.start = 0 := by
    decide +kernel
  have hblock : (trace splitStep emitted (List.replicate 5 .task)
      (run splitStep tornStop (.boot fun _ => 0))).length = 40 := by
    decide +kernel
  have hsilent := (hall (fun _ => 0) (tornStop ++ List.replicate 5 .task)).silent tornStop
    (List.replicate 5 .task) rfl hready (stopped_tasks hstop 5)
  rw [hsilent] at hblock
  cases hblock
