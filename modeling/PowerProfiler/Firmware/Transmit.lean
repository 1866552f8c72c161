-- SUMMARY: The drain of the main loop access by access against the interrupts, and who may touch the transmit buffer when.
import PowerProfiler.Firmware.Output
import PowerProfiler.Firmware.Reachable

/-!
# The transmit buffer and its busy flag

`usb_dc_send_from_ringbuffer` takes the busy flag, moves bytes into `write_buffer` one
access at a time, and starts a transfer that the completion callback answers later,
perhaps after a zero-length transfer. `Transmit.Owned` says who has the flag and the
buffer at each point of the main loop.
-/

open Framing Runs Prog

/-! ## The drain, access by access -/

/-- The output ring and the transmit buffer of the device. -/
def Device.ringIo : Lens Device RingIo where
  get d := { rb := d.usbTxRb, dest := d.writeBuffer }
  put io d := { d with usbTxRb := io.rb, writeBuffer := io.dest }
  get_put _ _ := rfl
  put_get _ := rfl
  put_put _ _ _ := rfl

/-- Where the main loop is: behind a number of calls of `task_data_out`, and behind four
of them in the wait for the busy flag; past the wait; or in `Ring_Buffer_Read` with
what is left of it. -/
inductive Point where
  | away (calls : Nat)
  | claim
  | reading (rest : Prog RingIo Nat)

structure Transmit where
  device : Device
  point : Point

namespace Transmit

def boot (memory : UInt32 → UInt32) : Transmit where
  device := Device.boot memory
  point := .away 0

/-- The next step of the main loop. Behind the last access of `Ring_Buffer_Read` the
transfer is started, or the flag given back. -/
def main (t : Transmit) : Transmit :=
  match t.point with
  | .away calls =>
      if calls < 4 then { device := (taskDataOut t.device).1, point := .away (calls + 1) }
      else if t.device.epTxBusyFlag then t
      else { t with point := .claim }
  | .claim =>
      { device := { t.device with epTxBusyFlag := true }
        point := .reading (ringBufferRead (usbdTxBufSize - 1)) }
  | .reading (.step next cont) =>
      { device := Device.ringIo.put (next (Device.ringIo.get t.device)) t.device
        point := .reading (cont (Device.ringIo.get t.device)) }
  | .reading (.done len) =>
      if len ≠ 0 then { device := (usbdEpStartWrite true len t.device).1, point := .away 0 }
      else { device := { t.device with epTxBusyFlag := false }, point := .away 0 }

end Transmit

def transmitStep (e : LoopEvent) (t : Transmit) : Transmit :=
  match e with
  | .main => t.main
  | .irq i => { t with device := irqStep i t.device }

/-- The length that the step passes to `usbd_ep_start_write`, if it calls it. -/
def writeCall (e : LoopEvent) (t : Transmit) : Option Nat :=
  match e, t.point with
  | .main, .reading (.done len) => if len ≠ 0 then some len else none
  | .irq .bulkIn, _ =>
      match t.device.inEp.inflight with
      | [] => none
      | len :: _ => if len % cdcMaxMps = 0 ∧ len ≠ 0 then some 0 else none
  | _, _ => none

/-- The lengths of the transfers that the step starts. -/
def startedOf (e : LoopEvent) (t : Transmit) : List Nat :=
  if t.device.inEp.epEnable then (writeCall e t).toList else []

/-! ## The drain as one step -/

/-- What is left of `Ring_Buffer_Read`, step by step, is its run. -/
theorem transmit_read (p : Prog RingIo Nat) (d : Device) :
    Transmit.main^[p.length (Device.ringIo.get d)] { device := d, point := .reading p } =
      { device := Device.ringIo.put (p.run (Device.ringIo.get d)).1 d
        point := .reading (.done (p.run (Device.ringIo.get d)).2) } := by
  induction p generalizing d with
  | done len => rfl
  | step next cont ih =>
      have h := ih (Device.ringIo.get d) (Device.ringIo.put (next (Device.ringIo.get d)) d)
      rw [Lens.get_put, Lens.put_put] at h
      exact h

/-- Undisturbed, the steps of the drain amount to `usbDcSendFromRingbuffer`. -/
theorem transmit_drain {d : Device} (h : d.epTxBusyFlag = false) :
    Transmit.main^[(ringBufferRead (usbdTxBufSize - 1)).length (Device.ringIo.get d) + 3]
        { device := d, point := .away 4 } =
      { device := (usbDcSendFromRingbuffer d).1, point := .away 0 } := by
  have hwait : Transmit.main { device := d, point := .away 4 } = { device := d, point := .claim } := by
    unfold Transmit.main
    simp [h]
  have hclaim : Transmit.main { device := d, point := .claim } =
      { device := { d with epTxBusyFlag := true }
        point := .reading (ringBufferRead (usbdTxBufSize - 1)) } := rfl
  have hread := transmit_read (ringBufferRead (usbdTxBufSize - 1)) { d with epTxBusyFlag := true }
  rw [Function.iterate_succ_apply, hwait, Function.iterate_succ_apply, hclaim,
    Function.iterate_succ_apply']
  refine (congrArg Transmit.main hread).trans ?_
  unfold usbDcSendFromRingbuffer usbDcSend
  rw [if_neg (by simp [h])]
  rcases hout : (ringBufferRead (usbdTxBufSize - 1)).run
    { rb := d.usbTxRb, dest := d.writeBuffer } with ⟨io, len⟩
  have hget : Device.ringIo.get { d with epTxBusyFlag := true } =
      { rb := d.usbTxRb, dest := d.writeBuffer } := rfl
  rw [hget, hout]
  cases len with
  | zero => rfl
  | succ len => rfl

/-! ## Steps that keep away from the endpoint -/

/-- `d'` has the transmit buffer, the busy flag and the endpoint of `d`. -/
structure SameEndpoint (d d' : Device) : Prop where
  writeBuffer : d'.writeBuffer = d.writeBuffer
  busy : d'.epTxBusyFlag = d.epTxBusyFlag
  inEp : d'.inEp = d.inEp

theorem SameOutput.endpoint {d d' : Device} (h : SameOutput d d') : SameEndpoint d d' :=
  ⟨h.writeBuffer, h.busy, h.inEp⟩

theorem sendBlock_endpoint (samples : List UInt32) (d : Device) :
    SameEndpoint d (sendBlock samples d) := by
  simp only [sendBlock]
  split <;> exact ⟨rfl, rfl, rfl⟩

theorem taskDataOut_endpoint (d : Device) : SameEndpoint d (taskDataOut d).1 := by
  unfold taskDataOut
  split
  · exact ⟨rfl, rfl, rfl⟩
  next is _ =>
    obtain ⟨hbuffer, hbusy, hep⟩ := sendBlock_endpoint (is.map d.dataBuffer)
      (takeSamples d.dataBufferRdPtr is d)
    exact ⟨hbuffer, hbusy, hep⟩

theorem usbdCdcAcmBulkOut_endpoint (packet : List UInt8) (d : Device) :
    SameEndpoint d (usbdCdcAcmBulkOut packet d) := by
  rcases usbdCdcAcmBulkOut_cases packet d with ⟨req, -, heq⟩ | ⟨-, heq⟩
  · rw [heq]
    obtain ⟨hbuffer, hbusy, hep⟩ := (cmdDecode_output req d).endpoint
    exact ⟨hbuffer, hbusy, hep⟩
  · rw [heq]
    exact ⟨rfl, rfl, rfl⟩

/-- The interrupts that do not concern the IN endpoint. -/
def Irq.Foreign : Irq → Prop
  | .dma _ | .bulkOut _ | .setDtr _ => True
  | .bulkIn | .busReset | .configure => False

theorem irqStep_endpoint {i : Irq} (h : i.Foreign) (d : Device) : SameEndpoint d (irqStep i d) := by
  cases i with
  | dma rx => exact (dmaI2sIsr_output rx d).endpoint
  | bulkOut packet => exact usbdCdcAcmBulkOut_endpoint packet d
  | setDtr dtr => exact (usbdCdcAcmSetDtr_output dtr d).endpoint
  | bulkIn => cases h
  | busReset => cases h
  | configure => cases h

theorem writeCall_foreign {i : Irq} (h : i.Foreign) (t : Transmit) : writeCall (.irq i) t = none := by
  cases i with
  | dma rx => rfl
  | bulkOut packet => rfl
  | setDtr dtr => rfl
  | bulkIn => cases h
  | busReset => cases h
  | configure => cases h

/-! ## Who has the flag and the buffer -/

namespace Device

/-- No transfer is outstanding and the flag is clear. -/
def Free (d : Device) : Prop := d.epTxBusyFlag = false ∧ d.inEp.inflight = []

/-- The main loop has the flag. -/
def Claimed (d : Device) : Prop := d.epTxBusyFlag = true ∧ d.inEp.inflight = []

/-- One transfer is outstanding and its completion has the flag. -/
def Sending (len : Nat) (d : Device) : Prop := d.epTxBusyFlag = true ∧ d.inEp.inflight = [len]

end Device

/-- The flag and the endpoint at each point of the main loop. -/
def Transmit.Owned (t : Transmit) : Prop :=
  match t.point with
  | .away calls => calls ≤ 4 ∧ (t.device.Free ∨ ∃ len, t.device.Sending len)
  | .claim => t.device.Free
  | .reading _ => t.device.Claimed

namespace SameEndpoint

variable {d d' : Device}

theorem free (h : SameEndpoint d d') (hd : d.Free) : d'.Free :=
  ⟨h.busy.trans hd.1, (congrArg InEp.inflight h.inEp).trans hd.2⟩

theorem claimed (h : SameEndpoint d d') (hd : d.Claimed) : d'.Claimed :=
  ⟨h.busy.trans hd.1, (congrArg InEp.inflight h.inEp).trans hd.2⟩

theorem sending {len : Nat} (h : SameEndpoint d d') (hd : d.Sending len) : d'.Sending len :=
  ⟨h.busy.trans hd.1, (congrArg InEp.inflight h.inEp).trans hd.2⟩

theorem owned (h : SameEndpoint d d') {p : Point} (hd : Transmit.Owned ⟨d, p⟩) :
    Transmit.Owned ⟨d', p⟩ := by
  cases p with
  | away calls =>
      obtain ⟨hcalls, hfree | ⟨len, hsend⟩⟩ := hd
      · exact ⟨hcalls, .inl (h.free hfree)⟩
      · exact ⟨hcalls, .inr ⟨len, h.sending hsend⟩⟩
  | claim => exact h.free hd
  | reading rest => exact h.claimed hd

end SameEndpoint

/-- Only outside of the drain is a transfer outstanding. -/
theorem Transmit.Owned.away {t : Transmit} (h : t.Owned) (hout : t.device.inEp.inflight ≠ []) :
    ∃ calls len, t.point = .away calls ∧ calls ≤ 4 ∧ t.device.Sending len := by
  unfold Transmit.Owned at h
  split at h
  next calls hp =>
    obtain ⟨hcalls, hfree | ⟨len, hsend⟩⟩ := h
    · exact absurd hfree.2 hout
    · exact ⟨calls, len, hp, hcalls, hsend⟩
  next => exact absurd h.2 hout
  next => exact absurd h.2 hout

/-! ## Conditions on a step -/

/-- Every call of `usbd_ep_start_write` finds the endpoint enabled. -/
def Enabled (e : LoopEvent) (t : Transmit) : Prop :=
  ∀ len ∈ writeCall e t, t.device.inEp.epEnable = true

/-- The endpoint is not reset under a transfer, and every transfer starts. -/
def Served (e : LoopEvent) (t : Transmit) : Prop :=
  (e = .irq .busReset → t.device.inEp.inflight = []) ∧ Enabled e t

/-- What the completion of a transfer starts. -/
def zlpAfter (len : Nat) : List Nat := if len % cdcMaxMps = 0 ∧ len ≠ 0 then [0] else []

/-- A transfer with what follows it. -/
def withZlp (len : Nat) : List Nat := len :: zlpAfter len

/-- The zero-length transfers that the outstanding transfers still start. -/
def Device.owed (d : Device) : List Nat := d.inEp.inflight.flatMap zlpAfter

/-- The transfers that carry data. -/
def dataOf (lens : List Nat) : List Nat := lens.filter (· ≠ 0)

/-- What one step does: the flag stays with its owner, and each data transfer is
followed by what its length asks for. -/
structure Served.Step (e : LoopEvent) (t : Transmit) : Prop where
  owned : (transmitStep e t).Owned
  started : startedOf e t ++ (transmitStep e t).device.owed =
    t.device.owed ++ (dataOf (startedOf e t)).flatMap withZlp

theorem startedOf_none {e : LoopEvent} {t : Transmit} (h : writeCall e t = none) :
    startedOf e t = [] := by
  unfold startedOf
  rw [h]
  split <;> rfl

/-- A step that starts nothing and leaves the outstanding transfers alone. -/
theorem Served.Step.quiet {e : LoopEvent} {t : Transmit} (hcall : writeCall e t = none)
    (hown : (transmitStep e t).Owned)
    (hout : (transmitStep e t).device.owed = t.device.owed) : Served.Step e t where
  owned := hown
  started := by
    rw [startedOf_none hcall, hout]
    simp [dataOf]

theorem SameEndpoint.owed {d d' : Device} (h : SameEndpoint d d') : d'.owed = d.owed := by
  unfold Device.owed
  rw [h.inEp]

theorem Device.Sending.owed {d : Device} {len : Nat} (h : d.Sending len) :
    d.owed = zlpAfter len := by
  unfold Device.owed
  rw [h.2]
  simp

/-! ## Completion -/

/-- A completion without a transfer is no event. -/
theorem inComplete_idle {d : Device} (h : d.inEp.inflight = []) : inComplete d = d := by
  unfold inComplete
  rw [h]

/-- A transfer that asks for no zero-length transfer gives the flag back. -/
theorem inComplete_last {d : Device} {len : Nat} (h : d.Sending len)
    (hlen : ¬ (len % cdcMaxMps = 0 ∧ len ≠ 0)) : (inComplete d).Free := by
  unfold inComplete
  rw [h.2]
  unfold usbdCdcAcmBulkIn
  dsimp only
  rw [if_neg hlen]
  exact ⟨rfl, rfl⟩

/-- On an enabled endpoint the zero-length transfer takes the place of its transfer. -/
theorem inComplete_zlp {d : Device} {len : Nat} (h : d.Sending len)
    (hlen : len % cdcMaxMps = 0 ∧ len ≠ 0) (hep : d.inEp.epEnable = true) :
    (inComplete d).Sending 0 := by
  unfold inComplete
  rw [h.2]
  unfold usbdCdcAcmBulkIn usbdEpStartWrite
  dsimp only
  rw [if_pos hlen, if_neg (by simp), if_neg (by simp [hep])]
  exact ⟨h.1, rfl⟩

/-- On a disabled endpoint it is lost, and the flag stays set. -/
theorem inComplete_lost {d : Device} {len : Nat} (h : d.Sending len)
    (hlen : len % cdcMaxMps = 0 ∧ len ≠ 0) (hep : d.inEp.epEnable = false) :
    (inComplete d).Claimed := by
  unfold inComplete
  rw [h.2]
  unfold usbdCdcAcmBulkIn usbdEpStartWrite
  dsimp only
  rw [if_pos hlen, if_neg (by simp), if_pos hep]
  exact ⟨h.1, rfl⟩

theorem writeCall_bulkIn {t : Transmit} {len : Nat} (h : t.device.Sending len) :
    writeCall (.irq .bulkIn) t = if len % cdcMaxMps = 0 ∧ len ≠ 0 then some 0 else none := by
  unfold writeCall
  dsimp only
  rw [h.2]

theorem Device.owed_nil {d : Device} (h : d.inEp.inflight = []) : d.owed = [] := by
  unfold Device.owed
  rw [h]
  rfl

theorem startedOf_some {e : LoopEvent} {t : Transmit} {len : Nat} (h : writeCall e t = some len)
    (hep : t.device.inEp.epEnable = true) : startedOf e t = [len] := by
  unfold startedOf
  rw [h, if_pos hep]
  rfl

theorem bulkIn_step {t : Transmit} (h : t.Owned) (hen : Enabled (.irq .bulkIn) t) :
    Served.Step (.irq .bulkIn) t := by
  obtain ⟨d, p⟩ := t
  by_cases hidle : d.inEp.inflight = []
  · have hsame : transmitStep (.irq .bulkIn) ⟨d, p⟩ = ⟨d, p⟩ :=
      congrArg (Transmit.mk · p) (inComplete_idle hidle)
    have hcall : writeCall (.irq .bulkIn) ⟨d, p⟩ = none := by
      unfold writeCall
      dsimp only
      rw [hidle]
    apply Served.Step.quiet hcall
    · rw [hsame]
      exact h
    · rw [hsame]
  · obtain ⟨calls, len, rfl, hcalls, hsend⟩ := h.away hidle
    have hcall := writeCall_bulkIn (t := ⟨d, .away calls⟩) hsend
    by_cases hzlp : len % cdcMaxMps = 0 ∧ len ≠ 0
    · rw [if_pos hzlp] at hcall
      have hep : d.inEp.epEnable = true := hen 0 hcall
      have hnext := inComplete_zlp hsend hzlp hep
      constructor
      · exact ⟨hcalls, .inr ⟨0, hnext⟩⟩
      · have howed : (transmitStep (.irq .bulkIn) ⟨d, .away calls⟩).device.owed = zlpAfter 0 :=
          hnext.owed
        rw [startedOf_some hcall hep, howed, hsend.owed]
        unfold zlpAfter
        rw [if_pos hzlp]
        rfl
    · rw [if_neg hzlp] at hcall
      have hnext := inComplete_last hsend hzlp
      apply Served.Step.quiet hcall
      · exact ⟨hcalls, .inl hnext⟩
      · rw [hsend.owed]
        unfold zlpAfter
        rw [if_neg hzlp]
        exact Device.owed_nil hnext.2

/-! ## The steps of the main loop -/

/-- A read touches neither the flag nor the endpoint. -/
theorem readStep_claimed {d : Device} (io : RingIo) (h : d.Claimed) :
    (Device.ringIo.put io d).Claimed := h

theorem startWrite_sending (len : Nat) {d : Device} (h : d.Claimed)
    (hep : d.inEp.epEnable = true) : (usbdEpStartWrite true len d).1.Sending len := by
  unfold usbdEpStartWrite
  rw [if_neg (by simp), if_neg (by simp [hep])]
  refine ⟨h.1, ?_⟩
  show d.inEp.inflight ++ [len] = [len]
  rw [h.2]
  rfl

theorem startWrite_lost (len : Nat) {d : Device} (hep : d.inEp.epEnable = false) :
    (usbdEpStartWrite true len d).1 = d := by
  unfold usbdEpStartWrite
  rw [if_neg (by simp), if_pos hep]

theorem main_step {t : Transmit} (h : t.Owned) (hen : Enabled .main t) : Served.Step .main t := by
  obtain ⟨d, p⟩ := t
  match p, h with
  | .away calls, ⟨hcalls, hown⟩ =>
      have hcall : writeCall .main ⟨d, .away calls⟩ = none := rfl
      by_cases hlt : calls < 4
      · have hmain : transmitStep .main ⟨d, .away calls⟩ =
            ⟨(taskDataOut d).1, .away (calls + 1)⟩ := if_pos hlt
        have hsame := taskDataOut_endpoint d
        apply Served.Step.quiet hcall
        · rw [hmain]
          exact hsame.owned (p := .away (calls + 1)) ⟨hlt, hown⟩
        · rw [hmain]
          exact hsame.owed
      · cases hbusy : d.epTxBusyFlag with
        | true =>
            have hmain : transmitStep .main ⟨d, .away calls⟩ = ⟨d, .away calls⟩ :=
              (if_neg hlt).trans (if_pos hbusy)
            apply Served.Step.quiet hcall
            · rw [hmain]
              exact ⟨hcalls, hown⟩
            · rw [hmain]
        | false =>
            have hmain : transmitStep .main ⟨d, .away calls⟩ = ⟨d, .claim⟩ :=
              (if_neg hlt).trans (if_neg (by simp [hbusy]))
            apply Served.Step.quiet hcall
            · rw [hmain]
              rcases hown with hfree | ⟨len, hsend⟩
              · exact hfree
              · rw [hsend.1] at hbusy
                cases hbusy
            · rw [hmain]
  | .claim, hfree => exact .quiet rfl ⟨rfl, hfree.2⟩ rfl
  | .reading (.step next cont), hclaimed =>
      exact .quiet rfl (readStep_claimed (d := d) _ hclaimed) rfl
  | .reading (.done 0), hclaimed =>
      exact .quiet rfl ⟨Nat.zero_le _, .inl ⟨rfl, hclaimed.2⟩⟩ rfl
  | .reading (.done (len + 1)), hclaimed =>
      have hcall : writeCall .main ⟨d, .reading (.done (len + 1))⟩ = some (len + 1) := rfl
      have hep : d.inEp.epEnable = true := hen _ hcall
      have hnext := startWrite_sending (len + 1) hclaimed hep
      constructor
      · exact ⟨Nat.zero_le _, .inr ⟨len + 1, hnext⟩⟩
      · have howed : (transmitStep .main ⟨d, .reading (.done (len + 1))⟩).device.owed =
            zlpAfter (len + 1) := hnext.owed
        rw [startedOf_some hcall hep, howed, Device.owed_nil (d := d) hclaimed.2]
        simp [dataOf, withZlp]

/-! ## Every step -/

theorem transmitStep_served {e : LoopEvent} {t : Transmit} (h : t.Owned) (hs : Served e t) :
    Served.Step e t := by
  cases e with
  | main => exact main_step h hs.2
  | irq i =>
      have hforeign : i.Foreign → Served.Step (.irq i) t := by
        intro hi
        have hsame := irqStep_endpoint hi t.device
        exact .quiet (writeCall_foreign hi t) (hsame.owned h) hsame.owed
      cases i with
      | dma rx => exact hforeign trivial
      | bulkOut packet => exact hforeign trivial
      | setDtr dtr => exact hforeign trivial
      | bulkIn => exact bulkIn_step h hs.2
      | busReset =>
          have hidle := hs.1 rfl
          apply Served.Step.quiet rfl
          · obtain ⟨d, p⟩ := t
            match p, h with
            | .away calls, ⟨hcalls, .inl hfree⟩ => exact ⟨hcalls, .inl ⟨hfree.1, rfl⟩⟩
            | .away calls, ⟨hcalls, .inr ⟨len, hsend⟩⟩ =>
                have hcons : d.inEp.inflight = [len] := hsend.2
                rw [hidle] at hcons
                cases hcons
            | .claim, hfree => exact ⟨hfree.1, rfl⟩
            | .reading rest, hclaimed => exact ⟨hclaimed.1, rfl⟩
          · exact (Device.owed_nil rfl).trans (Device.owed_nil hidle).symm
      | configure =>
          apply Served.Step.quiet rfl
          · obtain ⟨d, p⟩ := t
            match p, h with
            | .away calls, hown => exact hown
            | .claim, hfree => exact hfree
            | .reading rest, hclaimed => exact hclaimed
          · rfl

theorem boot_owned (memory : UInt32 → UInt32) : (Transmit.boot memory).Owned :=
  ⟨Nat.zero_le _, .inl ⟨rfl, rfl⟩⟩

/-- In a run whose transfers are served, the flag stays with its owner. -/
theorem run_owned {memory : UInt32 → UInt32} {es : List LoopEvent}
    (h : Along transmitStep Served es (Transmit.boot memory)) :
    (run transmitStep es (Transmit.boot memory)).Owned :=
  run_invariant (I := Transmit.Owned) (fun _ _ hown hs => (transmitStep_served hown hs).owned) (boot_owned memory) h

/-! ## A configured endpoint -/
