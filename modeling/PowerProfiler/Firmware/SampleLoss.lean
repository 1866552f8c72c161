-- SUMMARY: Which accepted samples reach data blocks: all of them, in order, while every DMA block finds room in the sample ring.
import PowerProfiler.Firmware.SampleHistory
import PowerProfiler.Firmware.Reachable

/-!
# Sample loss

The interrupt never compares its pointer with the reader's. While every DMA block finds
more than 32 free slots, the blocks built carry the accepted samples one behind the
other; a block that fills the ring makes it look empty, and everything pending is lost
without a count.
-/

open Framing Runs

/-- The event neither starts nor stops sampling nor sends the driver to sleep. -/
def Continues : Event → Device → Prop
  | .irq (.bulkOut packet), _ => ∀ req ∈ request packet, req.cmd = cmdDevCad → req.payload = []
  | .irq (.setDtr dtr), d => dtr = false → d.dtrEnable = false
  | _, _ => True

/-- A DMA block that is accepted finds more free slots than it has samples. -/
def RoomForBlock : Event → Device → Prop
  | .irq (.dma _), d => d.Accepting → pending d.dataBufferRdPtr d.dataBufferWrPtr < 992
  | _, _ => True

instance : ∀ (e : Event) (d : Device), Decidable (Continues e d)
  | .irq (.bulkOut packet), _ => inferInstanceAs (Decidable (∀ req ∈ request packet, _))
  | .irq (.setDtr _), _ => inferInstanceAs (Decidable (_ → _))
  | .task, _ | .drain, _ | .irq (.dma _), _ | .irq .bulkIn, _ | .irq .busReset, _
  | .irq .configure, _ => .isTrue trivial

instance : ∀ (e : Event) (d : Device), Decidable (RoomForBlock e d)
  | .irq (.dma _), _ => inferInstanceAs (Decidable (_ → _))
  | .task, _ | .drain, _ | .irq (.bulkOut _), _ | .irq .bulkIn, _ | .irq (.setDtr _), _
  | .irq .busReset, _ | .irq .configure, _ => .isTrue trivial

/-! ## Events that keep away from the ring -/

/-- `d'` has the sample ring of `d`, and the driver is as awake as before. -/
structure SameRing (d d' : Device) : Prop where
  ptrs : SamePtrs d d'
  buffer : d'.dataBuffer = d.dataBuffer
  i2s0 : d'.i2s0 = d.i2s0

theorem SameRing.refl (d : Device) : SameRing d d := ⟨.refl d, rfl, rfl⟩

variable {d : Device}

/-- In an awake driver, an event that continues sampling and is neither a DMA block nor a
call of the task keeps the ring. -/
theorem step_sameRing {e : Event} (hdev : d.i2s0 = true) (hc : Continues e d)
    (htask : e ≠ .task) (hdma : ∀ rx, e ≠ .irq (.dma rx)) : SameRing d (step e d) := by
  cases e with
  | task => exact absurd rfl htask
  | drain =>
      obtain ⟨rb, buffer, busy, ep, heq⟩ := usbDcSendFromRingbuffer_withOutput d
      rw [step, heq]
      exact ⟨⟨rfl, rfl, rfl⟩, rfl, rfl⟩
  | irq i =>
      cases i with
      | dma rx => exact absurd rfl (hdma rx)
      | bulkOut packet =>
          rw [step, irqStep]
          rcases usbdCdcAcmBulkOut_cases packet d with ⟨req, hreq, heq⟩ | ⟨-, heq⟩
          · rw [heq]
            rcases cmdDecode_cases req d with ⟨hcad, hdec⟩ | ⟨-, memory, hdec⟩
            · have hnil := hc req hreq hcad
              rw [hdec, hnil]
              exact ⟨⟨rfl, rfl, rfl⟩, rfl, rfl⟩
            · rw [hdec]
              exact ⟨⟨rfl, rfl, rfl⟩, rfl, rfl⟩
          · rw [heq]
            exact .refl d
      | bulkIn =>
          obtain ⟨busy, ep, heq⟩ := inComplete_withOutput d
          rw [step, irqStep, heq]
          exact ⟨⟨rfl, rfl, rfl⟩, rfl, rfl⟩
      | setDtr dtr =>
          have hsame : (if dtr then (if d.dtrEnable then d else i2sWakeUp d)
              else (if d.dtrEnable then i2sSleep d else d)) = d := by
            cases dtr with
            | true => simp [i2sWakeUp, hdev]
            | false => simp [hc rfl]
          rw [step, irqStep, usbdCdcAcmSetDtr, hsame]
          exact ⟨⟨rfl, rfl, rfl⟩, rfl, rfl⟩
      | busReset => exact ⟨⟨rfl, rfl, rfl⟩, rfl, rfl⟩
      | configure => exact ⟨⟨rfl, rfl, rfl⟩, rfl, rfl⟩

/-! ## Conservation -/

/-- The blocks built so far carry the first of the accepted samples, and the ring has the
rest pending. -/
structure NoLoss (d : Device) (accepted built : List UInt32) : Prop where
  sample : SampleInv d
  awake : d.i2s0 = true
  history : History d accepted
  rd : d.dataBufferRdPtr = built.length % dataBufCnt
  isPrefix : built <+: accepted
  lt : accepted.length < built.length + dataBufCnt

namespace NoLoss

variable {accepted built : List UInt32}

/-- The ring counts as pending what is accepted and not yet built. -/
theorem pending_eq (h : NoLoss d accepted built) :
    pending d.dataBufferRdPtr d.dataBufferWrPtr = accepted.length - built.length := by
  have hwr := h.history.wr
  have hrd := h.rd
  have hle := h.isPrefix.length_le
  have hlt := h.lt
  simp only [pending, dataBufCnt] at *
  omega

theorem of_sameRing {d' : Device} (h : NoLoss d accepted built) (hs : SameRing d d') :
    NoLoss d' accepted built where
  sample := h.sample.of_same hs.ptrs
  awake := hs.i2s0.trans h.awake
  history := h.history.of_same hs.buffer hs.ptrs.wr
  rd := hs.ptrs.rd.trans h.rd
  isPrefix := h.isPrefix
  lt := h.lt

/-- Behind a start both lists are empty. -/
theorem start (hs : SampleInv d) (hdev : d.i2s0 = true) {channels : UInt8} {freq : UInt32}
    (hre : d.Reinit channels freq) : NoLoss (i2sStart channels freq d) [] [] := by
  have hinv := i2sStart_sampleInv hs channels freq
  rw [i2sStart_reinit hdev hre] at hinv ⊢
  exact ⟨hinv, rfl, .of_zero rfl, rfl, List.prefix_refl _, by decide⟩

theorem dma (h : NoLoss d accepted built) (rx : RxBuffer) (hroom : RoomForBlock (.irq (.dma rx)) d) :
    NoLoss (dmaI2sIsr rx d) (accepted ++ acceptedOf (.irq (.dma rx)) d) built := by
  have hs := dmaI2sIsr_sampleInv h.sample rx
  by_cases hacc : d.Accepting
  · have hp := hroom hacc
    rw [h.pending_eq] at hp
    have hhistory := h.history.isr h.sample hacc rx
    have hlen : (accepted ++ rx.1).length = accepted.length + 32 := by
      rw [List.length_append, rx.2]
      rfl
    rw [acceptedOf, if_pos hacc]
    refine ⟨hs, ?_, hhistory, ?_, h.isPrefix.trans (List.prefix_append _ _), ?_⟩
    · rw [dmaI2sIsr_accepting h.sample hacc]
      exact h.awake
    · rw [dmaI2sIsr_accepting h.sample hacc]
      exact h.rd
    · rw [hlen]
      simp only [dataBufCnt]
      omega
  · obtain ⟨hp, hbuffer, -⟩ := dmaI2sIsr_discard hacc rx
    rw [acceptedOf, if_neg hacc, List.append_nil]
    refine h.of_sameRing ⟨hp, hbuffer, ?_⟩
    rw [dmaI2sIsr]
    split
    · rfl
    · split
      · rfl
      next hstart hwake => exact absurd ⟨hstart, not_not.mp hwake⟩ hacc

/-- A block carries the next 40 of the accepted samples. -/
theorem task (h : NoLoss d accepted built) :
    NoLoss (taskDataOut d).1 accepted (built ++ builtOf .task d) := by
  have hs := taskDataOut_sampleInv h.sample
  have hpending := h.pending_eq
  have hle := h.isPrefix.length_le
  have hlt := h.lt
  rw [builtOf]
  rw [taskDataOut_eq h.sample] at hs ⊢
  by_cases hp : data24BlkCnt ≤ pending d.dataBufferRdPtr d.dataBufferWrPtr
  · have hblock := h.history.blockSamples h.rd (by
      rw [hpending] at hp
      simp only [data24BlkCnt, data8BlkCnt] at hp ⊢
      omega) hlt.le
    have hsame := sendBlock_same d.blockSamples d.popBlock
    have hbuffer : (sendBlock d.blockSamples d.popBlock).dataBuffer = d.dataBuffer :=
      HistoryInv.sendBlock_dataBuffer _ _
    have hdev := (sendBlock_i2s d.blockSamples d.popBlock).2.1
    have hlen : (built ++ d.blockSamples).length = built.length + 40 := by
      rw [List.length_append, Device.blockSamples, List.length_map, length_blockSlots]
      rfl
    simp only [if_pos hp] at hs ⊢
    rw [Option.getD_some]
    refine ⟨hs, hdev.trans h.awake, h.history.of_same hbuffer hsame.wr, ?_, ?_, ?_⟩
    · rw [hsame.rd, hlen]
      have hrd := h.rd
      simp only [Device.popBlock, data24BlkCnt, data8BlkCnt, dataBufCnt] at hrd ⊢
      omega
    · rw [hblock]
      obtain ⟨rest, rfl⟩ := h.isPrefix
      rw [List.drop_left]
      exact (List.prefix_append_right_inj built).mpr (List.take_prefix _ _)
    · rw [hlen]
      omega
  · simp only [if_neg hp] at hs ⊢
    rw [Option.getD_none, List.append_nil]
    exact h

/-- One step, with what it accepts and what it builds. -/
theorem step (h : NoLoss d accepted built) {e : Event} (hc : Continues e d)
    (hroom : RoomForBlock e d) :
    NoLoss (step e d) (accepted ++ acceptedOf e d) (built ++ builtOf e d) := by
  by_cases htask : e = .task
  · rw [htask, show acceptedOf .task d = [] from rfl, List.append_nil]
    exact h.task
  by_cases hdma : ∃ rx, e = .irq (.dma rx)
  · obtain ⟨rx, rfl⟩ := hdma
    rw [show builtOf (.irq (.dma rx)) d = [] from rfl, List.append_nil]
    exact h.dma rx hroom
  · have hdma : ∀ rx, e ≠ .irq (.dma rx) := fun rx heq => hdma ⟨rx, heq⟩
    have hnone : acceptedOf e d = [] ∧ builtOf e d = [] := by
      match e with
      | .task => exact absurd rfl htask
      | .irq (.dma rx) => exact absurd rfl (hdma rx)
      | .drain | .irq (.bulkOut _) | .irq .bulkIn | .irq (.setDtr _) | .irq .busReset
      | .irq .configure => exact ⟨rfl, rfl⟩
    rw [hnone.1, hnone.2, List.append_nil, List.append_nil]
    exact h.of_sameRing (step_sameRing h.awake hc htask hdma)

end NoLoss

/-- Along a run that continues sampling with room for every block, nothing is lost. -/
theorem run_noLoss {es : List Event} (h : NoLoss d [] [])
    (hrun : Along step (fun e d => Continues e d ∧ RoomForBlock e d) es d) :
    NoLoss (run step es d) (trace step acceptedOf es d) (trace step builtOf es d) := by
  induction es using List.reverseRecOn with
  | nil => exact h
  | append_singleton es e ih =>
      obtain ⟨hbefore, hc, hroom⟩ := (along_snoc es e d).mp hrun
      rw [run_snoc, trace_snoc, trace_snoc]
      exact (ih hbefore).step hc hroom

/-! ## No silent loss -/

/-- Unless the run counts a block as overflown, the samples of its data blocks are a prefix
of those the interrupt accepted. -/
def NoSilentLoss (es : List Event) (d : Device) : Prop :=
  Along step (fun e d => (step e d).blkOverflowCnt = d.blkOverflowCnt) es d →
    trace step builtOf es d <+: trace step acceptedOf es d

/-- From a start that initialises the driver, in a run that continues sampling and in which
every accepted DMA block finds fewer than 992 samples pending, there is no silent loss: what
is accepted is what the blocks carry, followed by as many samples as the ring counts. -/
theorem noSilentLoss_of_room (memory : UInt32 → UInt32) (before es : List Event)
    (channels : UInt8) (freq : UInt32)
    (hdev : (run step before (Device.boot memory)).i2s0 = true)
    (hre : (run step before (Device.boot memory)).Reinit channels freq)
    (hrun : Along step (fun e d => Continues e d ∧ RoomForBlock e d) es
      (i2sStart channels freq (run step before (Device.boot memory)))) :
    let d := i2sStart channels freq (run step before (Device.boot memory))
    NoSilentLoss es d ∧ (trace step acceptedOf es d).length =
      (trace step builtOf es d).length +
        pending (run step es d).dataBufferRdPtr (run step es d).dataBufferWrPtr := by
  have h := run_noLoss (NoLoss.start (run_sound memory before).sample hdev hre) hrun
  refine ⟨fun _ => h.isPrefix, ?_⟩
  have hle := h.isPrefix.length_le
  rw [h.pending_eq]
  omega

/-- A DMA block of consecutive samples. -/
def rampBlock (k : Nat) : RxBuffer :=
  ⟨(List.range i2sRxBufLen).map fun i => UInt32.ofNat (k * i2sRxBufLen + i), by simp⟩

/-- The discarded blocks, four blocks that are accepted, and two blocks built between them,
with a status request in between. -/
def steadyRun : List Event :=
  List.replicate 512 (.irq (.dma (rampBlock 0))) ++
    [.irq (.dma (rampBlock 0)), .task, .irq (.dma (rampBlock 1)), .task, .drain,
      .irq (.bulkOut [0, 7]), .irq .bulkIn, .irq (.dma (rampBlock 2)), .task, .drain,
      .irq (.dma (rampBlock 3))]

/-- Two blocks carry the first 80 of 128 accepted samples, and the ring has the rest. -/
theorem noSilentLoss_steadyRun :
    let d := i2sStart 3 24576000 (run step [.irq (.setDtr true)] (Device.boot fun _ => 0))
    (NoSilentLoss steadyRun d ∧ (trace step acceptedOf steadyRun d).length =
      (trace step builtOf steadyRun d).length +
        pending (run step steadyRun d).dataBufferRdPtr (run step steadyRun d).dataBufferWrPtr) ∧
      (trace step acceptedOf steadyRun d).length = 128 ∧
      trace step builtOf steadyRun d = (List.range 80).map UInt32.ofNat :=
  ⟨noSilentLoss_of_room (fun _ => 0) [.irq (.setDtr true)] steadyRun 3 24576000 (by decide)
    (.inl (by decide)) (by decide +kernel), by decide +kernel, by decide +kernel⟩

/-! ## A silent loss -/

/-- A DMA block of one word. -/
def constBlock (w : UInt32) : RxBuffer := ⟨List.replicate i2sRxBufLen w, by simp⟩

/-- The discarded blocks, 32 blocks of zeros that fill the ring, two blocks of ones, and one
call of the task. -/
def lappingRun : List Event :=
  List.replicate 512 (.irq (.dma (constBlock 0))) ++
    (List.replicate 32 (.irq (.dma (constBlock 0))) ++
      (List.replicate 2 (.irq (.dma (constBlock 1))) ++ [.task]))

theorem dmaI2sIsr_blkOverflowCnt (rx : RxBuffer) (d : Device) :
    (dmaI2sIsr rx d).blkOverflowCnt = d.blkOverflowCnt := by
  rw [dmaI2sIsr]
  split
  · rfl
  · split
    · rfl
    · rw [dmaStore, Device.foldl_storeSample]
      rfl

section DmaRuns

variable (rx : RxBuffer)

theorem run_dma (n : Nat) (d : Device) :
    run step (List.replicate n (.irq (.dma rx))) d = (dmaI2sIsr rx)^[n] d :=
  run_replicate n _ d

theorem length_flatten_blocks (n : Nat) : (List.replicate n rx.1).flatten.length = n * 32 := by
  simp [rx.2, i2sRxBufLen]

theorem trace_builtOf_dma (n : Nat) (d : Device) :
    trace step builtOf (List.replicate n (.irq (.dma rx))) d = [] := by
  have hnone : ∀ i < n, builtOf (.irq (.dma rx)) ((step (.irq (.dma rx)))^[i] d) = [] :=
    fun _ _ => rfl
  rw [trace_replicate_const hnone, List.flatten_replicate_nil]

theorem trace_acceptedOf_discard {d : Device} (hstart : d.i2sCfg.start ≠ 0) {n : Nat}
    (hn : n ≤ d.i2sCfg.wakeupcnt.toNat) :
    trace step acceptedOf (List.replicate n (.irq (.dma rx))) d = [] := by
  have hnone : ∀ i < n, acceptedOf (.irq (.dma rx)) ((step (.irq (.dma rx)))^[i] d) = [] := by
    intro i hi
    have hlt := d.i2sCfg.wakeupcnt.toNat_lt
    show (if ((dmaI2sIsr rx)^[i] d).Accepting then rx.1 else []) = []
    rw [iterate_discard rx hstart (n := i) (by omega), if_neg]
    rintro ⟨-, hzero⟩
    rw [← UInt32.toNat_inj] at hzero
    simp at hzero
    omega
  rw [trace_replicate_const hnone, List.flatten_replicate_nil]

/-- Behind the discard every interrupt is accepted. -/
theorem iterate_accepting {d : Device} (hs : SampleInv d) (hacc : d.Accepting) (n : Nat) :
    ((dmaI2sIsr rx)^[n] d).Accepting := by
  rw [iterate_accept rx hs hacc n]
  exact hacc

theorem trace_acceptedOf_dma {d : Device} (hs : SampleInv d) (hacc : d.Accepting) (n : Nat) :
    trace step acceptedOf (List.replicate n (.irq (.dma rx))) d = (List.replicate n rx.1).flatten :=
  trace_replicate_const fun i _ => if_pos (iterate_accepting rx hs hacc i)

theorem iterate_dataBufferRdPtr {d : Device} (hs : SampleInv d) (hacc : d.Accepting) (n : Nat) :
    ((dmaI2sIsr rx)^[n] d).dataBufferRdPtr = d.dataBufferRdPtr := by
  rw [iterate_accept rx hs hacc n]

theorem iterate_usbTxRb (d : Device) (n : Nat) :
    ((dmaI2sIsr rx)^[n] d).usbTxRb = d.usbTxRb := by
  induction n with
  | zero => rfl
  | succ n ih =>
      rw [Function.iterate_succ_apply', (dmaI2sIsr_output rx _).usbTxRb, ih]

theorem History.iterate {d : Device} {accepted : List UInt32} (h : History d accepted)
    (hs : SampleInv d) (hacc : d.Accepting) (n : Nat) :
    History ((dmaI2sIsr rx)^[n] d) (accepted ++ (List.replicate n rx.1).flatten) := by
  induction n with
  | zero => simpa using h
  | succ n ih =>
      rw [Function.iterate_succ_apply', List.replicate_succ', List.flatten_append,
        ← List.append_assoc]
      simpa using ih.isr (iterate_sampleInv rx hs n) (iterate_accepting rx hs hacc n) rx

end DmaRuns

/-- The first block behind a start carries the ones, although 1024 zeros were accepted
before them. -/
theorem lappingRun_block {d : Device} (hs : SampleInv d) (hstart : d.i2sCfg.start ≠ 0)
    (hwake : d.i2sCfg.wakeupcnt = 512)
    (hptrs : d.dataBufferWrPtr = 0 ∧ d.dataBufferRdPtr = 0) :
    trace step acceptedOf lappingRun d =
        (List.replicate 32 (constBlock 0).1).flatten ++ (List.replicate 2 (constBlock 1).1).flatten ∧
      trace step builtOf lappingRun d = List.replicate 40 1 := by
  obtain ⟨hacc, hhistory, hrd⟩ := iterate_started (constBlock 0) hs hstart hwake hptrs 32
  have hs₁ := iterate_sampleInv (constBlock 0) hs 512
  have hs₂ := iterate_sampleInv (constBlock 0) hs₁ 32
  have hs₃ := iterate_sampleInv (constBlock 1) hs₂ 2
  have hacc₂ := iterate_accepting (constBlock 0) hs₁ hacc 32
  have hhistory₃ := hhistory.iterate (constBlock 1) hs₂ hacc₂ 2
  have hrd₃ := (iterate_dataBufferRdPtr (constBlock 1) hs₂ hacc₂ 2).trans hrd
  have hlen := length_flatten_blocks (constBlock 0) 32
  have hlen' := length_flatten_blocks (constBlock 1) 2
  have hones : (List.replicate 2 (constBlock 1).1).flatten = List.replicate 64 1 :=
    List.flatten_replicate_replicate
  simp only [lappingRun, trace_append, run_dma]
  generalize (dmaI2sIsr (constBlock 0))^[512] d = d₁ at *
  constructor
  · have hdiscard := trace_acceptedOf_discard (constBlock 0) hstart (n := 512)
      (by rw [hwake]; decide)
    have hzeros := trace_acceptedOf_dma (constBlock 0) hs₁ hacc 32
    have hones := trace_acceptedOf_dma (constBlock 1) hs₂ hacc₂ 2
    rw [hdiscard, hzeros, hones, List.nil_append]
    exact congrArg _ (List.append_nil _)
  · generalize (dmaI2sIsr (constBlock 1))^[2] ((dmaI2sIsr (constBlock 0))^[32] d₁) = d₃ at *
    generalize (List.replicate 32 (constBlock 0).1).flatten = zeros at *
    have hblock := hhistory₃.blockSamples (n := 1024) hrd₃ (by
      rw [List.length_append, hlen, hlen']
      decide) (by
      rw [List.length_append, hlen, hlen']
      decide)
    have hwr := hhistory₃.wr
    rw [List.length_append, hlen, hlen'] at hwr
    rw [List.drop_left' hlen, hones, List.take_replicate] at hblock
    rw [trace_builtOf_dma, trace_builtOf_dma, trace_builtOf_dma]
    simp only [List.nil_append, trace_cons, trace_nil, List.append_nil, builtOf]
    rw [taskDataOut_eq hs₃, hrd₃, hwr, if_pos (by decide), hblock]
    rfl

/-- The call of the task behind it finds an empty FIFO, so nothing counts as overflown. -/
theorem lappingRun_counts {d : Device} (hs : SampleInv d) (hfifo : d.usbTxRb.Repr [])
    (hsize : data8BlkCnt + 2 ≤ d.usbTxRb.size) :
    Along step (fun e d => (step e d).blkOverflowCnt = d.blkOverflowCnt) lappingRun d := by
  have hdma : ∀ (n : Nat) (rx : RxBuffer) (d : Device),
      Along step (fun e d => (step e d).blkOverflowCnt = d.blkOverflowCnt)
        (List.replicate n (.irq (.dma rx))) d := by
    intro n rx
    refine along_of_forall fun e he d => ?_
    rw [(List.mem_replicate.mp he).2]
    exact dmaI2sIsr_blkOverflowCnt rx d
  simp only [lappingRun, along_append, run_dma]
  refine ⟨hdma _ _ _, hdma _ _ _, hdma _ _ _, ?_, trivial⟩
  have hs₃ := iterate_sampleInv (constBlock 1)
    (iterate_sampleInv (constBlock 0) (iterate_sampleInv (constBlock 0) hs 512) 32) 2
  have hring := ((iterate_usbTxRb (constBlock 1) ((dmaI2sIsr (constBlock 0))^[32]
    ((dmaI2sIsr (constBlock 0))^[512] d)) 2).trans (iterate_usbTxRb (constBlock 0) _ 32)).trans
      (iterate_usbTxRb (constBlock 0) d 512)
  generalize (dmaI2sIsr (constBlock 1))^[2] ((dmaI2sIsr (constBlock 0))^[32]
    ((dmaI2sIsr (constBlock 0))^[512] d)) = d₃ at *
  show (taskDataOut d₃).1.blkOverflowCnt = _
  rw [taskDataOut_eq hs₃]
  split
  · have hempty : d₃.popBlock.usbTxRb.Repr [] := by
      show d₃.usbTxRb.Repr []
      rwa [hring]
    rw [sendBlock_fits hempty
      (by rw [Device.blockSamples, List.length_map, length_blockSlots])
      (by show _ ≤ d₃.usbTxRb.size; rw [hring]; simpa using hsize)]
    rfl
  · rfl

/-- The ring filled once over is lost without a count. -/
theorem lappingRun_silentLoss :
    ¬ ∀ (memory : UInt32 → UInt32) (before es : List Event) (channels : UInt8) (freq : UInt32),
      (run step before (Device.boot memory)).i2s0 = true →
      (run step before (Device.boot memory)).Reinit channels freq →
      Along step Continues es (i2sStart channels freq (run step before (Device.boot memory))) →
      NoSilentLoss es (i2sStart channels freq (run step before (Device.boot memory))) := by
  intro h
  have hs : SampleInv (i2sStart 3 24576000 (run step [.irq (.setDtr true)] (Device.boot fun _ => 0))) :=
    i2sStart_sampleInv (run_sound _ _).sample _ _
  have hfifo : (i2sStart 3 24576000
      (run step [.irq (.setDtr true)] (Device.boot fun _ => 0))).usbTxRb =
        (Device.boot fun _ => 0).usbTxRb :=
    (i2sStart_output _ _ _).usbTxRb.trans (usbdCdcAcmSetDtr_output true _).usbTxRb
  obtain ⟨haccepted, hbuilt⟩ := lappingRun_block hs (show (1 : UInt8) ≠ 0 by decide) rfl ⟨rfl, rfl⟩
  have hcontinues : Along step Continues lappingRun
      (i2sStart 3 24576000 (run step [.irq (.setDtr true)] (Device.boot fun _ => 0))) := by
    refine along_of_forall (fun e he d => ?_) _
    simp only [lappingRun, List.mem_append, List.mem_replicate, List.mem_singleton] at he
    rcases he with ⟨-, rfl⟩ | ⟨-, rfl⟩ | ⟨-, rfl⟩ | rfl <;> trivial
  have hinit := h (fun _ => 0) [.irq (.setDtr true)] lappingRun 3 24576000 (by decide)
    (.inl (by decide)) hcontinues
    (lappingRun_counts hs (by rw [hfifo]; exact boot_repr _) (by rw [hfifo]; decide))
  -- The first sample of the block is a one, the first one accepted a zero.
  have hzeros : (List.replicate 32 (constBlock 0).1).flatten = List.replicate 1024 0 :=
    List.flatten_replicate_replicate
  rw [haccepted, hbuilt, hzeros, List.replicate_succ (n := 39), List.replicate_succ (n := 1023),
    List.cons_append, List.cons_prefix_cons] at hinit
  exact absurd hinit.1 (by decide)
