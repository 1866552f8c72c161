-- SUMMARY: The firmware with its bulk endpoints packet by packet, and its simulation by the machine of whole transfers.
import PowerProfiler.Firmware.Transmit
import PowerProfiler.Firmware.UsbDriver

/-!
# Packets on the bus

Here the driver's endpoint records take the place of the list of outstanding transfers:
the host takes one packet of an IN transfer after the other and sends one packet of an OUT
transfer after the other, and only the last of them reaches a callback. `usb_simulated`
maps every run of this machine to a run of the one whose interrupts are whole transfers.
-/

open Framing Runs Prog Window

/-! ## The machine -/

/-- `USBD_RXBUFSIZE` -/
def usbdRxBufSize : Nat := 2048

/-- A packet of a bulk endpoint. -/
abbrev UsbPacket := {packet : List UInt8 // packet.length ≤ cdcMaxMps}

/-- The main loop takes its next step, an interrupt of the other units runs, the host takes
the packet of the IN endpoint or sends one to the OUT endpoint, or the bus is reset or
configured. A token for an endpoint that is not ready is refused and no event. -/
inductive UsbEvent where
  | main
  | dma (rx : RxBuffer)
  | setDtr (dtr : Bool)
  | inToken
  | outToken (packet : UsbPacket)
  | busReset
  | configure

/-- The device, whose own endpoint record is not used here, with the driver's records and
`read_buffer`. `overrun` records a store behind the end of `read_buffer`. -/
structure UsbMachine where
  device : Device
  point : Point
  bulkIn : BulkIn
  bulkOut : BulkOut
  readBuffer : Nat → UInt8
  overrun : Bool

namespace UsbMachine

def boot (memory : UInt32 → UInt32) : UsbMachine where
  device := Device.boot memory
  point := .away 0
  bulkIn := {}
  bulkOut := {}
  readBuffer _ := 0
  overrun := false

/-- The next step of the main loop: `usbd_ep_start_write` loads the first packet. -/
def main (m : UsbMachine) : UsbMachine :=
  match m.point with
  | .reading (.done len) =>
      if len ≠ 0 then
        { m with bulkIn := (m.bulkIn.startWrite (some m.device.writeBuffer) len).1, point := .away 0 }
      else { m with device := { m.device with epTxBusyFlag := false }, point := .away 0 }
  | _ =>
      let t := Transmit.main { device := m.device, point := m.point }
      { m with device := t.device, point := t.point }

/-- `usbd_cdc_acm_bulk_in` -/
def bulkInCallback (nbytes : Nat) (m : UsbMachine) : UsbMachine :=
  if nbytes % cdcMaxMps = 0 ∧ nbytes ≠ 0 then { m with bulkIn := (m.bulkIn.startWrite none 0).1 }
  else { m with device := { m.device with epTxBusyFlag := false } }

/-- `usbd_cdc_acm_bulk_out` -/
def bulkOutCallback (nbytes : Nat) (m : UsbMachine) : UsbMachine :=
  { m with
    device := usbdCdcAcmBulkOut (read m.readBuffer 0 nbytes) m.device
    bulkOut := (m.bulkOut.startRead usbdRxBufSize).1 }

/-- The host takes the packet of the IN endpoint. -/
def inToken (m : UsbMachine) : UsbMachine :=
  if m.bulkIn.ready then
    let done := m.bulkIn.inDone m.device.writeBuffer
    match done.2 with
    | none => { m with bulkIn := done.1 }
    | some nbytes => bulkInCallback nbytes { m with bulkIn := done.1 }
  else m

/-- A packet of the host is copied into `read_buffer`. -/
def store (packet : UsbPacket) (m : UsbMachine) : UsbMachine :=
  { m with
    bulkOut := (m.bulkOut.outDone packet.1 m.readBuffer).1
    readBuffer := (m.bulkOut.outDone packet.1 m.readBuffer).2.1
    overrun := m.overrun || decide (usbdRxBufSize < m.bulkOut.ep.xferBuf + packet.1.length) }

/-- The host sends a packet to the OUT endpoint. -/
def outToken (packet : UsbPacket) (m : UsbMachine) : UsbMachine :=
  if m.bulkOut.ready then
    match (m.bulkOut.outDone packet.1 m.readBuffer).2.2 with
    | none => m.store packet
    | some nbytes => bulkOutCallback nbytes (m.store packet)
  else m

/-- The bus reset of `USBD_IRQHandler`. -/
def busReset (m : UsbMachine) : UsbMachine := { m with bulkIn := {}, bulkOut := {} }

/-- `SET_CONFIGURATION` opens both endpoints; `usbd_configure_done_callback` starts a read. -/
def configure (m : UsbMachine) : UsbMachine :=
  { m with
    bulkIn := { m.bulkIn with ep := usbdEpOpen cdcMaxMps m.bulkIn.ep }
    bulkOut :=
      (BulkOut.startRead usbdRxBufSize
        { m.bulkOut with ep := usbdEpOpen cdcMaxMps m.bulkOut.ep }).1 }

end UsbMachine

def usbStep (e : UsbEvent) (m : UsbMachine) : UsbMachine :=
  match e with
  | .main => m.main
  | .dma rx => { m with device := dmaI2sIsr rx m.device }
  | .setDtr dtr => { m with device := usbdCdcAcmSetDtr dtr m.device }
  | .inToken => m.inToken
  | .outToken packet => m.outToken packet
  | .busReset => m.busReset
  | .configure => m.configure

/-! ## Steps that do not see the endpoint -/

/-- The device with another record of the IN endpoint. -/
def Device.withInEp (e : InEp) (d : Device) : Device := { d with inEp := e }

section

variable (e : InEp) (d : Device)

theorem i2sStart_withInEp (channels : UInt8) (freq : UInt32) :
    i2sStart channels freq (d.withInEp e) = (i2sStart channels freq d).withInEp e := by
  have hdev : (d.withInEp e).i2s0 = d.i2s0 := rfl
  by_cases hre : d.Reinit channels freq
  · have hre' : (d.withInEp e).Reinit channels freq := hre
    unfold i2sStart
    rw [hdev, if_pos hre, if_pos hre']
    split <;> rfl
  · have hre' : ¬ (d.withInEp e).Reinit channels freq := hre
    unfold i2sStart
    rw [hdev, if_neg hre, if_neg hre']
    split <;> rfl

theorem i2sStop_withInEp : i2sStop (d.withInEp e) = (i2sStop d).withInEp e := by
  unfold i2sStop Device.withInEp
  dsimp only
  split <;> rfl

theorem i2sSleep_withInEp : i2sSleep (d.withInEp e) = (i2sSleep d).withInEp e := by
  unfold i2sSleep Device.withInEp
  dsimp only
  split <;> rfl

theorem i2sWakeUp_withInEp : i2sWakeUp (d.withInEp e) = (i2sWakeUp d).withInEp e := by
  unfold i2sWakeUp Device.withInEp
  dsimp only
  split <;> rfl

theorem usbdCdcAcmSetDtr_withInEp (dtr : Bool) :
    usbdCdcAcmSetDtr dtr (d.withInEp e) = (usbdCdcAcmSetDtr dtr d).withInEp e := by
  have hdtr : (d.withInEp e).dtrEnable = d.dtrEnable := rfl
  unfold usbdCdcAcmSetDtr
  rw [hdtr, i2sWakeUp_withInEp, i2sSleep_withInEp]
  split <;> split <;> rfl

theorem cmdCad_withInEp (data : List UInt8) :
    cmdCad data (d.withInEp e) = (cmdCad data d).withInEp e := by
  cases data with
  | nil => rfl
  | cons enable rest =>
      have hcfg (cfg : DevAdcCfg) :
          { d.withInEp e with cfgAdc := cfg } = Device.withInEp e { d with cfgAdc := cfg } := rfl
      unfold cmdCad
      dsimp only
      rw [hcfg]
      split
      · exact i2sStart_withInEp e _ _ _
      · exact i2sStop_withInEp e _

theorem cmdDbg_withInEp (cmd : UInt8) (data : List UInt8) :
    cmdDbg cmd data (d.withInEp e) = ((cmdDbg cmd data d).1.withInEp e, (cmdDbg cmd data d).2) := by
  unfold cmdDbg
  split <;> rfl

theorem cmdDecode_withInEp (req : Frame) :
    cmdDecode req (d.withInEp e) = ((cmdDecode req d).1.withInEp e, (cmdDecode req d).2) := by
  unfold cmdDecode
  simp only [cmdCad_withInEp, cmdDbg_withInEp]
  by_cases hver : req.cmd = cmdDevVer
  · rw [if_pos hver, if_pos hver]
  by_cases hcad : req.cmd = cmdDevCad
  · rw [if_neg hver, if_neg hver, if_pos hcad, if_pos hcad]
    rfl
  by_cases hsta : req.cmd = cmdDevSta
  · rw [if_neg hver, if_neg hver, if_neg hcad, if_neg hcad, if_pos hsta, if_pos hsta]
    rfl
  by_cases hdbg : req.cmd = cmdDevDbg
  · rw [if_neg hver, if_neg hver, if_neg hcad, if_neg hcad, if_neg hsta, if_neg hsta, if_pos hdbg,
      if_pos hdbg]
  · rw [if_neg hver, if_neg hver, if_neg hcad, if_neg hcad, if_neg hsta, if_neg hsta, if_neg hdbg,
      if_neg hdbg]

theorem usbdCdcAcmBulkOut_withInEp (readBuffer : List UInt8) :
    usbdCdcAcmBulkOut readBuffer (d.withInEp e) = (usbdCdcAcmBulkOut readBuffer d).withInEp e := by
  unfold usbdCdcAcmBulkOut decodePacket
  cases request readBuffer with
  | none => rfl
  | some req =>
      dsimp only
      rw [cmdDecode_withInEp]
      rfl

theorem dmaI2sIsr_withInEp (rx : RxBuffer) :
    dmaI2sIsr rx (d.withInEp e) = (dmaI2sIsr rx d).withInEp e := by
  unfold dmaI2sIsr Device.withInEp
  dsimp only
  split
  · rfl
  split
  · rfl
  · rw [dmaStore, dmaStore, Device.foldl_storeSample, Device.foldl_storeSample]
    rfl

theorem sendBlock_withInEp (samples : List UInt32) :
    sendBlock samples (d.withInEp e) = (sendBlock samples d).withInEp e := by
  unfold sendBlock Device.withInEp
  dsimp only
  split <;> rfl

theorem taskDataOut_withInEp :
    taskDataOut (d.withInEp e) = ((taskDataOut d).1.withInEp e, (taskDataOut d).2) := by
  have hrd : (d.withInEp e).dataBufferRdPtr = d.dataBufferRdPtr := rfl
  have hwr : (d.withInEp e).dataBufferWrPtr = d.dataBufferWrPtr := rfl
  unfold taskDataOut
  rw [hrd, hwr]
  split
  · rfl
  · next is _ =>
    exact congrArg (·, some (is.map d.dataBuffer))
      (sendBlock_withInEp e (takeSamples d.dataBufferRdPtr is d) (is.map d.dataBuffer))

end

/-! ## The transfers behind the packets -/

/-- The transfers that the driver's record of an IN endpoint stands for. -/
def BulkIn.inEp (u : BulkIn) : InEp where
  epEnable := u.ep.epEnable
  inflight := if u.ready then [u.ep.actualXferLen + u.ep.xferLen] else []

namespace UsbMachine

/-- The machine of whole transfers that the packets amount to. -/
def transfers (m : UsbMachine) : Transmit where
  device := m.device.withInEp m.bulkIn.inEp
  point := m.point

/-- The packet would be the last of its transfer. -/
def completesIn (m : UsbMachine) : Bool :=
  m.bulkIn.ready && (m.bulkIn.inDone m.device.writeBuffer).2.isSome

/-- What the packet completes. -/
def completesOut (packet : UsbPacket) (m : UsbMachine) : Option (List UInt8) :=
  if m.bulkOut.ready then
    (m.bulkOut.outDone packet.1 m.readBuffer).2.2.map (read (m.store packet).readBuffer 0)
  else none

end UsbMachine

/-- The events of the machine of whole transfers that a packet event amounts to. -/
def transferEvents (e : UsbEvent) (m : UsbMachine) : List LoopEvent :=
  match e with
  | .main => [.main]
  | .dma rx => [.irq (.dma rx)]
  | .setDtr dtr => [.irq (.setDtr dtr)]
  | .inToken => if m.completesIn then [.irq .bulkIn] else []
  | .outToken packet => (m.completesOut packet).toList.map fun bytes => .irq (.bulkOut bytes)
  | .busReset => [.irq .busReset]
  | .configure => [.irq .configure]

namespace BulkIn

variable {u : BulkIn}

theorem inEp_idle (h : u.ready = false) : u.inEp = { epEnable := u.ep.epEnable, inflight := [] } := by
  unfold inEp
  rw [h]
  rfl

/-- On an idle endpoint both descriptions of `usbd_ep_start_write` agree. -/
theorem startWrite_inEp (h : u.ready = false) (data : Option (Nat → UInt8)) (len : Nat)
    (d : Device) :
    (usbdEpStartWrite data.isSome len (d.withInEp u.inEp)).1 =
      d.withInEp (u.startWrite data len).1.inEp := by
  have hnull : (data.isSome = false ∧ len ≠ 0) ↔ (data.isNone = true ∧ len ≠ 0) := by
    cases data <;> simp
  unfold usbdEpStartWrite startWrite
  simp only [hnull]
  split
  · rfl
  cases hen : u.ep.epEnable with
  | false =>
      have hdis : (d.withInEp u.inEp).inEp.epEnable = false := hen
      rw [if_pos hdis, if_pos rfl]
  | true =>
      have hena : ¬ (d.withInEp u.inEp).inEp.epEnable = false := by
        show ¬ u.ep.epEnable = false
        simp [hen]
      rw [if_neg hena, if_neg (by simp)]
      show d.withInEp { epEnable := u.ep.epEnable, inflight := u.inEp.inflight ++ [len] } = _
      rw [inEp_idle h]
      show _ = d.withInEp { epEnable := u.ep.epEnable, inflight := [0 + len] }
      rw [Nat.zero_add]
      rfl

/-- A packet inside of a transfer leaves what is outstanding. -/
theorem inDone_inEp {mem : Nat → UInt8} (h : u.ready = true) (hmore : (u.inDone mem).2 = none) :
    (u.inDone mem).1.inEp = u.inEp := by
  unfold inDone at hmore ⊢
  dsimp only at hmore ⊢
  split at hmore
  · cases hmore
  · next hne =>
    rw [if_neg hne]
    unfold inEp load BlEpState.advance
    dsimp only
    rw [h, if_pos rfl, if_pos rfl]
    have : min u.ep.xferLen u.ep.epMps ≤ u.ep.xferLen := min_le_left _ _
    congr 2
    omega

/-- The last packet completes it with the length that is outstanding. -/
theorem inDone_completes {mem : Nat → UInt8} {nbytes : Nat} (h : u.ready = true)
    (hlast : (u.inDone mem).2 = some nbytes) :
    u.inEp.inflight = [nbytes] ∧ (u.inDone mem).1.ready = false ∧
      (u.inDone mem).1.ep.epEnable = u.ep.epEnable := by
  unfold inDone at hlast ⊢
  dsimp only at hlast ⊢
  split at hlast
  · next heq =>
    rw [if_pos heq]
    refine ⟨?_, rfl, rfl⟩
    unfold inEp
    rw [h, if_pos rfl, ← Option.some.inj hlast]
    unfold BlEpState.advance at heq ⊢
    dsimp only at heq ⊢
    congr 1
    omega
  · cases hlast

end BulkIn

namespace UsbMachine

variable {m m' : UsbMachine}

/-! ## A packet taken by the host -/

theorem inToken_idle (h : m.bulkIn.ready = false) : m.inToken = m := by
  unfold inToken
  rw [if_neg (by simp [h])]

theorem inToken_more (h : m.bulkIn.ready = true)
    (hmore : (m.bulkIn.inDone m.device.writeBuffer).2 = none) :
    m.inToken = { m with bulkIn := (m.bulkIn.inDone m.device.writeBuffer).1 } := by
  unfold inToken
  rw [if_pos h]
  dsimp only
  rw [hmore]

theorem inToken_last {nbytes : Nat} (h : m.bulkIn.ready = true)
    (hlast : (m.bulkIn.inDone m.device.writeBuffer).2 = some nbytes) :
    m.inToken =
      bulkInCallback nbytes { m with bulkIn := (m.bulkIn.inDone m.device.writeBuffer).1 } := by
  unfold inToken
  rw [if_pos h]
  dsimp only
  rw [hlast]

/-! ## A packet sent by the host -/

theorem outToken_idle (packet : UsbPacket) (h : m.bulkOut.ready = false) :
    m.outToken packet = m := by
  unfold outToken
  rw [if_neg (by simp [h])]

theorem outToken_more {packet : UsbPacket} (h : m.bulkOut.ready = true)
    (hmore : (m.bulkOut.outDone packet.1 m.readBuffer).2.2 = none) :
    m.outToken packet = m.store packet := by
  unfold outToken
  rw [if_pos h, hmore]

theorem outToken_last {packet : UsbPacket} {nbytes : Nat} (h : m.bulkOut.ready = true)
    (hlast : (m.bulkOut.outDone packet.1 m.readBuffer).2.2 = some nbytes) :
    m.outToken packet = bulkOutCallback nbytes (m.store packet) := by
  unfold outToken
  rw [if_pos h, hlast]

theorem completesOut_of_ready {packet : UsbPacket} {done : Option Nat}
    (h : m.bulkOut.ready = true)
    (hdone : (m.bulkOut.outDone packet.1 m.readBuffer).2.2 = done) :
    m.completesOut packet = done.map (read (m.store packet).readBuffer 0) := by
  unfold completesOut
  rw [if_pos h, hdone]

/-! ## The flag covers what is on its way -/

/-- While the endpoint has something to send the flag is set, and the main loop is not
inside of the drain. -/
def Guarded (m : UsbMachine) : Prop :=
  match m.point with
  | .away _ => m.bulkIn.ready = true → m.device.epTxBusyFlag = true
  | .claim => m.bulkIn.ready = false
  | .reading _ => m.bulkIn.ready = false ∧ m.device.epTxBusyFlag = true

theorem Guarded.congr (h : m.Guarded) (hpoint : m'.point = m.point)
    (hready : m'.bulkIn.ready = true → m.bulkIn.ready = true)
    (hbusy : m'.device.epTxBusyFlag = m.device.epTxBusyFlag) : m'.Guarded := by
  have hidle : m.bulkIn.ready = false → m'.bulkIn.ready = false := by
    intro h0
    cases h1 : m'.bulkIn.ready with
    | false => rfl
    | true =>
        rw [hready h1] at h0
        cases h0
  unfold Guarded at h ⊢
  rw [hpoint]
  split at h
  · exact fun h1 => hbusy.trans (h (hready h1))
  · exact hidle h
  · exact ⟨hidle h.1, hbusy.trans h.2⟩

/-- What is on its way is on its way outside of the drain. -/
theorem Guarded.away (h : m.Guarded) (hready : m.bulkIn.ready = true) :
    ∃ calls, m.point = .away calls ∧ m.device.epTxBusyFlag = true := by
  unfold Guarded at h
  split at h
  · next calls hpoint => exact ⟨calls, hpoint, h hready⟩
  · rw [h] at hready
    cases hready
  · rw [h.1] at hready
    cases hready

theorem Guarded.main (h : m.Guarded) : m.main.Guarded := by
  obtain ⟨d, p, bulkIn, bulkOut, readBuffer, overrun⟩ := m
  cases p with
  | away calls =>
      have hflag : bulkIn.ready = true → d.epTxBusyFlag = true := h
      unfold UsbMachine.main Transmit.main
      dsimp only
      split
      · intro hready
        exact (taskDataOut_endpoint d).busy.trans (hflag hready)
      split
      · exact hflag
      · next hbusy =>
        show bulkIn.ready = false
        cases hready : bulkIn.ready with
        | false => rfl
        | true => exact absurd (hflag hready) hbusy
  | claim =>
      have hidle : bulkIn.ready = false := h
      exact ⟨hidle, rfl⟩
  | reading rest =>
      have hclaimed : bulkIn.ready = false ∧ d.epTxBusyFlag = true := h
      cases rest with
      | step next cont => exact hclaimed
      | done len =>
          unfold UsbMachine.main
          dsimp only
          split
          · exact fun _ => hclaimed.2
          · intro hready
            have hidle : bulkIn.ready = false := hclaimed.1
            rw [show bulkIn.ready = true from hready] at hidle
            cases hidle

theorem guarded_away {calls : Nat} (hpoint : m.point = .away calls)
    (h : m.bulkIn.ready = true → m.device.epTxBusyFlag = true) : m.Guarded := by
  unfold Guarded
  rw [hpoint]
  exact h

theorem Guarded.inToken (h : m.Guarded) : m.inToken.Guarded := by
  cases hready : m.bulkIn.ready with
  | false =>
      rw [inToken_idle hready]
      exact h
  | true =>
      obtain ⟨calls, hpoint, hflag⟩ := h.away hready
      cases hdone : (m.bulkIn.inDone m.device.writeBuffer).2 with
      | none =>
          rw [inToken_more hready hdone]
          exact guarded_away hpoint fun _ => hflag
      | some nbytes =>
          rw [inToken_last hready hdone]
          unfold bulkInCallback
          split
          · exact guarded_away hpoint fun _ => hflag
          · refine guarded_away hpoint fun hready' => ?_
            have hidle := (BulkIn.inDone_completes hready hdone).2.1
            rw [show (m.bulkIn.inDone m.device.writeBuffer).1.ready = true from hready'] at hidle
            cases hidle

theorem Guarded.outToken (packet : UsbPacket) (h : m.Guarded) : (m.outToken packet).Guarded := by
  unfold UsbMachine.outToken
  split
  · split
    · exact h.congr rfl id rfl
    · exact h.congr rfl id (usbdCdcAcmBulkOut_endpoint _ _).busy
  · exact h

theorem Guarded.step (e : UsbEvent) (h : m.Guarded) : (usbStep e m).Guarded := by
  cases e with
  | main => exact h.main
  | dma rx => exact h.congr rfl id (dmaI2sIsr_output rx m.device).busy
  | setDtr dtr => exact h.congr rfl id (usbdCdcAcmSetDtr_output dtr m.device).busy
  | inToken => exact h.inToken
  | outToken packet => exact h.outToken packet
  | busReset => exact h.congr rfl nofun rfl
  | configure => exact h.congr rfl id rfl

theorem boot_guarded (memory : UInt32 → UInt32) : (boot memory).Guarded := nofun

/-! ## The simulation -/

/-- Outside of the drain's last step the main loop does not see the endpoint. -/
theorem main_transfers (h : m.Guarded) : m.transfers.main = m.main.transfers := by
  obtain ⟨d, p, bulkIn, bulkOut, readBuffer, overrun⟩ := m
  cases p with
  | away calls =>
      unfold transfers UsbMachine.main Transmit.main
      dsimp only
      rw [taskDataOut_withInEp]
      split
      · rfl
      · have hbusy : (d.withInEp bulkIn.inEp).epTxBusyFlag = d.epTxBusyFlag := rfl
        rw [hbusy]
        split <;> rfl
  | claim => rfl
  | reading rest =>
      have hclaimed : bulkIn.ready = false ∧ d.epTxBusyFlag = true := h
      cases rest with
      | step next cont => rfl
      | done len =>
          unfold transfers UsbMachine.main Transmit.main
          dsimp only
          split
          · have hstart := BulkIn.startWrite_inEp hclaimed.1 (some d.writeBuffer) len d
            exact congrArg (Transmit.mk · (.away 0)) hstart
          · rfl

theorem bulkInCallback_transfers (h : m.bulkIn.ready = false) (nbytes : Nat) :
    (bulkInCallback nbytes m).transfers =
      { device := usbdCdcAcmBulkIn nbytes m.transfers.device, point := m.point } := by
  unfold bulkInCallback usbdCdcAcmBulkIn
  split
  · exact congrArg (Transmit.mk · m.point) (BulkIn.startWrite_inEp h none 0 m.device).symm
  · rfl

/-- The last packet of a transfer is its completion, the others are no event. -/
theorem inToken_transfers :
    run transmitStep (transferEvents .inToken m) m.transfers = m.inToken.transfers := by
  unfold transferEvents completesIn
  cases hready : m.bulkIn.ready with
  | false =>
      rw [inToken_idle hready]
      rfl
  | true =>
      cases hdone : (m.bulkIn.inDone m.device.writeBuffer).2 with
      | none =>
          rw [inToken_more hready hdone]
          unfold transfers
          dsimp only
          rw [BulkIn.inDone_inEp hready hdone]
          rfl
      | some nbytes =>
          obtain ⟨hlen, hidle, hen⟩ := BulkIn.inDone_completes hready hdone
          have hcomplete : inComplete m.transfers.device =
              usbdCdcAcmBulkIn nbytes
                (m.device.withInEp (m.bulkIn.inDone m.device.writeBuffer).1.inEp) := by
            rw [BulkIn.inEp_idle hidle, hen]
            unfold inComplete
            rw [show m.transfers.device.inEp.inflight = [nbytes] from hlen]
            rfl
          rw [inToken_last hready hdone, bulkInCallback_transfers hidle]
          exact congrArg (Transmit.mk · m.point) hcomplete

/-- A packet that completes a request runs the callback, the others only fill the buffer. -/
theorem outToken_transfers (packet : UsbPacket) :
    run transmitStep (transferEvents (.outToken packet) m) m.transfers =
      (m.outToken packet).transfers := by
  unfold transferEvents
  dsimp only
  cases hready : m.bulkOut.ready with
  | false =>
      unfold completesOut
      rw [outToken_idle packet hready, hready]
      rfl
  | true =>
      cases hdone : (m.bulkOut.outDone packet.1 m.readBuffer).2.2 with
      | none =>
          rw [outToken_more hready hdone, completesOut_of_ready hready hdone]
          rfl
      | some nbytes =>
          rw [outToken_last hready hdone, completesOut_of_ready hready hdone]
          have hframe := usbdCdcAcmBulkOut_withInEp m.bulkIn.inEp m.device
            (read (m.store packet).readBuffer 0 nbytes)
          exact congrArg (Transmit.mk · m.point) hframe

/-- What the packets of a step amount to is what they do. -/
theorem transfers_step (e : UsbEvent) (h : m.Guarded) :
    run transmitStep (transferEvents e m) m.transfers = (usbStep e m).transfers := by
  cases e with
  | main => exact main_transfers h
  | dma rx => exact congrArg (Transmit.mk · m.point) (dmaI2sIsr_withInEp m.bulkIn.inEp m.device rx)
  | setDtr dtr =>
      exact congrArg (Transmit.mk · m.point)
        (usbdCdcAcmSetDtr_withInEp m.bulkIn.inEp m.device dtr)
  | inToken => exact inToken_transfers
  | outToken packet => exact outToken_transfers packet
  | busReset => rfl
  | configure => rfl

/-- A run of the packets is a run of the whole transfers, from any state that is guarded. -/
theorem run_transfers {m : UsbMachine} (h : m.Guarded) (es : List UsbEvent) :
    (run usbStep es m).transfers =
      run transmitStep (trace usbStep transferEvents es m) m.transfers :=
  (run_simulated (I := UsbMachine.Guarded) (fun e _ h => h.step e)
    (fun e _ h => UsbMachine.transfers_step e h) es h).symm

end UsbMachine

/-- Every run of packets, tokens, resets and interrupts is a run of the machine whose
interrupts are whole transfers: packets inside of a transfer are no event there, its last
one is the completion of the transfer, and the last of a request hands the request over. -/
theorem usb_simulated (memory : UInt32 → UInt32) (es : List UsbEvent) :
    (run usbStep es (UsbMachine.boot memory)).transfers =
      run transmitStep (trace usbStep transferEvents es (UsbMachine.boot memory))
        (Transmit.boot memory) :=
  UsbMachine.run_transfers (UsbMachine.boot_guarded memory) es
