-- SUMMARY: The invariants of the sample ring and of the I2S driver under every event of the firmware.
import PowerProfiler.Firmware.DriverInvariant
import PowerProfiler.Firmware.Requests

/-!
# Reachable states

The invariants of the sample ring and of the I2S driver hold in every state that the
events of the firmware reach: a request or a change of DTR calls the functions of the
driver, and every other event keeps away from its state.
-/

open Framing Runs

/-! ## Keeping the invariants -/

/-- The two invariants together. -/
structure Sound (d : Device) : Prop where
  sample : SampleInv d
  driver : DriverInv d

namespace Sound

variable {d d' : Device}

theorem boot (memory : UInt32 → UInt32) : Sound (Device.boot memory) :=
  ⟨.boot memory, .boot memory⟩

theorem of_same (h : Sound d) (hcfg : d'.i2sCfg = d.i2sCfg) (hdev : d'.i2s0 = d.i2s0)
    (hpll : d'.audioPll = d.audioPll) (hptrs : SamePtrs d d') : Sound d' :=
  ⟨h.sample.of_same hptrs, h.driver.of_same hcfg hdev hpll hptrs⟩

theorem sampleStep (h : Sound d) (op : SampleOp) : Sound (sampleStep op d) :=
  ⟨sampleStep_sampleInv op h.sample, sampleStep_driverInv op h.driver h.sample⟩

end Sound

/-! ## Requests -/

/-- A decoded request is a configuration request, or it changes at most the memory. -/
theorem cmdDecode_cases (req : Frame) (d : Device) :
    (req.cmd = cmdDevCad ∧ (cmdDecode req d).1 = cmdCad req.payload d) ∨
      (req.cmd ≠ cmdDevCad ∧ ∃ memory, (cmdDecode req d).1 = { d with memory := memory }) := by
  by_cases hcad : req.cmd = cmdDevCad
  · exact .inl ⟨hcad, cmdDecode_cad hcad d⟩
  · refine .inr ⟨hcad, ?_⟩
    rw [cmdDecode]
    by_cases hver : req.cmd = cmdDevVer
    · rw [if_pos hver]
      exact ⟨d.memory, rfl⟩
    by_cases hsta : req.cmd = cmdDevSta
    · rw [if_neg hver, if_neg hcad, if_pos hsta]
      exact ⟨d.memory, rfl⟩
    by_cases hdbg : req.cmd = cmdDevDbg
    · rw [if_neg hver, if_neg hcad, if_neg hsta, if_pos hdbg]
      unfold cmdDbg
      split
      · exact ⟨_, rfl⟩
      · exact ⟨d.memory, rfl⟩
    · rw [if_neg hver, if_neg hcad, if_neg hsta, if_neg hdbg]
      exact ⟨d.memory, rfl⟩

theorem cmdCad_sound {d : Device} (h : Sound d) (data : List UInt8) : Sound (cmdCad data d) := by
  cases data with
  | nil => exact h
  | cons enable data =>
      have hmerged : Sound (d.merged (enable :: data)) := h.of_same rfl rfl rfl ⟨rfl, rfl, rfl⟩
      rw [cmdCad_cons (by simp)]
      dsimp only
      split
      · exact hmerged.sampleStep (.start _ _)
      · exact hmerged.sampleStep .stop

theorem cmdDecode_sound {d : Device} (h : Sound d) (req : Frame) :
    Sound (cmdDecode req d).1 := by
  rcases cmdDecode_cases req d with ⟨-, heq⟩ | ⟨-, memory, heq⟩
  · rw [heq]
    exact cmdCad_sound h _
  · rw [heq]
    exact h.of_same rfl rfl rfl ⟨rfl, rfl, rfl⟩

/-- A packet decodes its request and offers the reply, or it changes nothing. -/
theorem usbdCdcAcmBulkOut_cases (packet : List UInt8) (d : Device) :
    (∃ req, request packet = some req ∧
      usbdCdcAcmBulkOut packet d = sendReply (cmdDecode req d).2 (cmdDecode req d).1) ∨
      (request packet = none ∧ usbdCdcAcmBulkOut packet d = d) := by
  rcases hreq : request packet with _ | req
  · exact .inr ⟨rfl, by rw [usbdCdcAcmBulkOut, decodePacket, hreq]⟩
  · exact .inl ⟨req, rfl, by rw [usbdCdcAcmBulkOut, decodePacket, hreq]⟩

theorem usbdCdcAcmBulkOut_sound {d : Device} (h : Sound d) (packet : List UInt8) :
    Sound (usbdCdcAcmBulkOut packet d) := by
  rcases usbdCdcAcmBulkOut_cases packet d with ⟨req, -, heq⟩ | ⟨-, heq⟩
  · rw [heq]
    exact (cmdDecode_sound h req).of_same rfl rfl rfl ⟨rfl, rfl, rfl⟩
  · rw [heq]
    exact h

/-! ## The other events -/

theorem usbdCdcAcmSetDtr_sound {d : Device} (h : Sound d) (dtr : Bool) :
    Sound (usbdCdcAcmSetDtr dtr d) := by
  have hi2s : Sound (if dtr then (if d.dtrEnable then d else i2sWakeUp d)
      else (if d.dtrEnable then i2sSleep d else d)) := by
    split
    · split
      · exact h
      · exact h.sampleStep .wakeUp
    · split
      · exact h.sampleStep .sleep
      · exact h
  exact hi2s.of_same rfl rfl rfl ⟨rfl, rfl, rfl⟩

/-- The state that the IN endpoint and the drain work on; the rest is as it was. -/
def Device.withOutput (d : Device) (rb : RingBuffer) (buffer : Nat → UInt8) (busy : Bool)
    (ep : InEp) : Device :=
  { d with usbTxRb := rb, writeBuffer := buffer, epTxBusyFlag := busy, inEp := ep }

theorem usbdEpStartWrite_withOutput (data : Bool) (len : Nat) (d : Device) :
    ∃ ep, (usbdEpStartWrite data len d).1 =
      d.withOutput d.usbTxRb d.writeBuffer d.epTxBusyFlag ep := by
  rw [usbdEpStartWrite]
  split
  · exact ⟨d.inEp, rfl⟩
  · split
    · exact ⟨d.inEp, rfl⟩
    · exact ⟨_, rfl⟩

theorem inComplete_withOutput (d : Device) :
    ∃ busy ep, inComplete d = d.withOutput d.usbTxRb d.writeBuffer busy ep := by
  rw [inComplete]
  split
  · exact ⟨d.epTxBusyFlag, d.inEp, rfl⟩
  next len rest _ =>
    rw [usbdCdcAcmBulkIn]
    split
    · obtain ⟨ep, hep⟩ := usbdEpStartWrite_withOutput false 0
        { d with inEp := { d.inEp with inflight := rest } }
      exact ⟨d.epTxBusyFlag, ep, hep⟩
    · exact ⟨false, _, rfl⟩

theorem usbDcSendFromRingbuffer_withOutput (d : Device) :
    ∃ rb buffer busy ep, (usbDcSendFromRingbuffer d).1 = d.withOutput rb buffer busy ep := by
  rw [usbDcSendFromRingbuffer]
  split
  · exact ⟨d.usbTxRb, d.writeBuffer, d.epTxBusyFlag, d.inEp, rfl⟩
  · simp only [usbDcSend]
    split
    · obtain ⟨ep, hep⟩ := usbdEpStartWrite_withOutput true _ { d with
        epTxBusyFlag := true
        usbTxRb := ((ringBufferRead (usbdTxBufSize - 1)).run
          { rb := d.usbTxRb, dest := d.writeBuffer }).1.rb
        writeBuffer := ((ringBufferRead (usbdTxBufSize - 1)).run
          { rb := d.usbTxRb, dest := d.writeBuffer }).1.dest }
      exact ⟨_, _, true, ep, hep⟩
    · exact ⟨_, _, false, d.inEp, rfl⟩

theorem Sound.withOutput {d : Device} (h : Sound d) (rb : RingBuffer) (buffer : Nat → UInt8)
    (busy : Bool) (ep : InEp) : Sound (d.withOutput rb buffer busy ep) :=
  h.of_same rfl rfl rfl ⟨rfl, rfl, rfl⟩

/-! ## Every event -/

theorem irqStep_sound {d : Device} (h : Sound d) (i : Irq) : Sound (irqStep i d) := by
  cases i with
  | dma rx => exact h.sampleStep (.isr rx)
  | bulkOut packet => exact usbdCdcAcmBulkOut_sound h packet
  | bulkIn =>
      obtain ⟨busy, ep, heq⟩ := inComplete_withOutput d
      show Sound (inComplete d)
      rw [heq]
      exact h.withOutput _ _ _ _
  | setDtr dtr => exact usbdCdcAcmSetDtr_sound h dtr
  | busReset => exact h.withOutput d.usbTxRb d.writeBuffer d.epTxBusyFlag {}
  | configure => exact h.withOutput d.usbTxRb d.writeBuffer d.epTxBusyFlag _

theorem step_sound {d : Device} (h : Sound d) (e : Event) : Sound (step e d) := by
  cases e with
  | task => exact h.sampleStep .task
  | drain =>
      obtain ⟨rb, buffer, busy, ep, heq⟩ := usbDcSendFromRingbuffer_withOutput d
      show Sound (usbDcSendFromRingbuffer d).1
      rw [heq]
      exact h.withOutput _ _ _ _
  | irq i => exact irqStep_sound h i

theorem run_sound (memory : UInt32 → UInt32) (es : List Event) :
    Sound (run step es (Device.boot memory)) :=
  run_invariant (I := Sound) (P := fun _ _ => True) (fun e _ h _ => step_sound h e)
    (Sound.boot memory) (along_true _ _)
