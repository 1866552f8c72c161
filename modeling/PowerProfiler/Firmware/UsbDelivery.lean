-- SUMMARY: What the packets carry: every transfer whole and in order, or dropped by a reset; every request as it was sent; all stores inside the buffers.
import PowerProfiler.Firmware.UsbPackets

/-!
# Delivery by packets

`packets_step` accounts for the packets of each step: those taken by the host, those that
a bus reset drops and those still to be taken are the packets of the transfers handed
over. On the way out, `requests_step` does the same for the bytes of the packets received
and the requests they make up.
-/

open Framing Runs Prog Window Packets

/-! ## The drain stays inside of the transmit buffer -/

/-- A step of a read into the first `n` bytes of the destination. -/
def WritesBelow (n : Nat) (io io' : RingIo) : Prop := ∀ i, n ≤ i → io'.dest i = io.dest i

theorem ringBufferReadCopy_always {n : Nat} (src dest k : Nat) (h : dest + k ≤ n) :
    (ringBufferReadCopy src dest k).Always (WritesBelow n) fun _ => True := by
  induction k generalizing src dest with
  | zero => trivial
  | succ k ih =>
      rw [ringBufferReadCopy]
      apply Always.bind
      · apply always_store
        intro io i hi
        exact Function.update_of_ne (by omega) _ _
      · intro _ _
        exact ih (src + 1) (dest + 1) (by omega)

section

variable {n : Nat}

theorem ringBufferReadStraight_always {length : Nat} (h : length ≤ n) :
    (ringBufferReadStraight length).Always (WritesBelow n) (· ≤ n) := by
  unfold ringBufferReadStraight
  refine (always_load (fun _ _ _ => rfl) _).bind fun src _ => ?_
  refine (ringBufferReadCopy_always src 0 length (by omega)).bind fun _ _ => ?_
  refine (always_load (fun _ _ _ => rfl) _).bind fun readIndex _ => ?_
  exact (always_store fun _ _ _ => rfl).bind fun _ _ => h

theorem ringBufferReadDivided_always {front back : Nat} (h : front + back ≤ n) :
    (ringBufferReadDivided front back).Always (WritesBelow n) (· ≤ n) := by
  have hsides : (ringBufferReadSides front back).Always (WritesBelow n) fun _ => True := by
    unfold ringBufferReadSides
    refine (always_load (fun _ _ _ => rfl) _).bind fun src _ => ?_
    refine (ringBufferReadCopy_always src 0 front (by omega)).bind fun _ _ => ?_
    exact ringBufferReadCopy_always 0 front back h
  unfold ringBufferReadDivided
  refine hsides.bind fun _ _ => ?_
  refine (always_store fun _ _ _ => rfl).bind fun _ _ => ?_
  refine (always_load (fun _ _ _ => rfl) _).bind fun readMirror _ => ?_
  exact (always_store fun _ _ _ => rfl).bind fun _ _ => h

theorem ringBufferGetLength_always :
    ringBufferGetLength.Always (fun _ _ => True) fun _ => True := by
  unfold ringBufferGetLength
  refine (always_load (fun _ => trivial) _).bind fun readMirror _ => ?_
  refine (always_load (fun _ => trivial) _).bind fun writeMirror _ => ?_
  refine (always_load (fun _ => trivial) _).bind fun readIndex _ => ?_
  refine (always_load (fun _ => trivial) _).bind fun writeIndex _ => ?_
  exact (always_load (fun _ => trivial) _).bind fun size _ => trivial

/-- Whatever an interrupt does to the ring between two accesses, a read of at most `n` bytes
copies into the first `n` bytes of its destination and returns at most `n`. -/
theorem ringBufferRead_always (n : Nat) :
    (ringBufferRead n).Always (WritesBelow n) (· ≤ n) := by
  have hdata (length : Nat) (h : length ≤ n) :
      (ringBufferReadData length).Always (WritesBelow n) (· ≤ n) := by
    unfold ringBufferReadData
    refine (always_load (fun _ _ _ => rfl) _).bind fun size _ => ?_
    refine (always_load (fun _ _ _ => rfl) _).bind fun readIndex _ => ?_
    dsimp only
    split
    · exact ringBufferReadStraight_always h
    · exact ringBufferReadDivided_always (by omega)
  unfold ringBufferRead
  refine (ringBufferGetLength_always.focus fun rb io _ => ?_).bind fun size _ => ?_
  · exact fun _ _ => rfl
  · split
    · exact Nat.zero_le n
    · exact hdata _ (min_le_left _ _)

end

/-- The transmit buffer behind its first 2047 bytes is as at start-up, and what is left of a
drain keeps it so. -/
structure Transmit.Bounded (t : Transmit) : Prop where
  kept : ∀ i, usbdTxBufSize - 1 ≤ i → t.device.writeBuffer i = Device.initialWriteBuffer i
  rest : ∀ p, t.point = .reading p →
    p.Always (WritesBelow (usbdTxBufSize - 1)) (· ≤ usbdTxBufSize - 1)

namespace Transmit

variable {t : Transmit}

theorem Bounded.main (h : t.Bounded) : t.main.Bounded := by
  obtain ⟨d, p⟩ := t
  obtain ⟨hkept, hrest⟩ := h
  cases p with
  | away calls =>
      unfold Transmit.main
      dsimp only
      split
      · constructor
        · intro i hi
          rw [(taskDataOut_endpoint d).writeBuffer]
          exact hkept i hi
        · nofun
      split <;> exact ⟨hkept, nofun⟩
  | claim =>
      constructor
      · exact hkept
      · rintro p ⟨⟩
        exact ringBufferRead_always _
  | reading rest =>
      have hnow := hrest rest rfl
      cases rest with
      | step next cont =>
          constructor
          · intro i hi
            exact ((hnow (Device.ringIo.get d)).1 i hi).trans (hkept i hi)
          · rintro p ⟨⟩
            exact (hnow (Device.ringIo.get d)).2
      | done len =>
          unfold Transmit.main
          dsimp only
          split
          · have hsame : (usbdEpStartWrite true len d).1.writeBuffer = d.writeBuffer := by
              obtain ⟨ep, hep⟩ := usbdEpStartWrite_withOutput true len d
              rw [hep]
              rfl
            exact ⟨fun i hi => (congrFun hsame i).trans (hkept i hi), nofun⟩
          · exact ⟨hkept, nofun⟩

theorem irqStep_writeBuffer (i : Irq) (d : Device) :
    (irqStep i d).writeBuffer = d.writeBuffer := by
  cases i with
  | dma rx => exact (irqStep_endpoint (i := .dma rx) trivial d).writeBuffer
  | bulkOut packet => exact (irqStep_endpoint (i := .bulkOut packet) trivial d).writeBuffer
  | setDtr dtr => exact (irqStep_endpoint (i := .setDtr dtr) trivial d).writeBuffer
  | bulkIn =>
      obtain ⟨busy, ep, heq⟩ := inComplete_withOutput d
      show (inComplete d).writeBuffer = d.writeBuffer
      rw [heq]
      rfl
  | busReset => rfl
  | configure => rfl

theorem Bounded.step (e : LoopEvent) (h : t.Bounded) : (transmitStep e t).Bounded := by
  cases e with
  | main => exact h.main
  | irq i =>
      constructor
      · intro j hj
        exact (congrFun (irqStep_writeBuffer i t.device) j).trans (h.kept j hj)
      · exact h.rest

theorem boot_bounded (memory : UInt32 → UInt32) : (boot memory).Bounded :=
  ⟨fun _ _ => rfl, nofun⟩

theorem run_bounded (memory : UInt32 → UInt32) (es : List LoopEvent) :
    (run transmitStep es (boot memory)).Bounded :=
  run_invariant (P := fun _ _ => True) (fun e _ h _ => h.step e) (boot_bounded memory)
    (along_true es _)

end Transmit

/-! ## Packets to the host -/

namespace UsbMachine

/-- The transfer that the step hands to the IN endpoint. -/
def handed (e : UsbEvent) (m : UsbMachine) : List (List UInt8) :=
  match e, m.point with
  | .main, .reading (.done len) =>
      if len ≠ 0 ∧ m.bulkIn.ep.epEnable = true then [read m.device.writeBuffer 0 len] else []
  | _, _ => []

/-- The packet that the host takes. -/
def taken (e : UsbEvent) (m : UsbMachine) : List (List UInt8) :=
  match e with
  | .inToken => if m.bulkIn.ready then [m.bulkIn.fifo] else []
  | _ => []

/-- The packets that the IN endpoint has still to send. -/
def pending (m : UsbMachine) : List (List UInt8) :=
  if m.bulkIn.ready then
    packetize cdcMaxMps (read m.device.writeBuffer m.bulkIn.ep.xferBuf m.bulkIn.ep.xferLen)
  else []

/-- The packets that a bus reset drops. -/
def dropped (e : UsbEvent) (m : UsbMachine) : List (List UInt8) :=
  match e with
  | .busReset => m.pending
  | _ => []

/-- The packets that leave the endpoint. -/
def leaving (e : UsbEvent) (m : UsbMachine) : List (List UInt8) := taken e m ++ dropped e m

/-- The IN endpoint: as wide as configured, and idle or inside of a transfer. -/
structure Sends (m : UsbMachine) : Prop where
  guarded : m.Guarded
  mps : m.bulkIn.ep.epEnable = true → m.bulkIn.ep.epMps = cdcMaxMps
  state : m.bulkIn.Idle ∨ ∃ len rest, m.bulkIn.Transfers m.device.writeBuffer len rest

/-- What one step does to the packets. -/
structure PacketStep (e : UsbEvent) (m : UsbMachine) : Prop where
  sends : (usbStep e m).Sends
  packets : leaving e m ++ (usbStep e m).pending =
    m.pending ++ (handed e m).flatMap (packetize cdcMaxMps)

variable {m m' : UsbMachine}

theorem pending_idle (h : m.bulkIn.ready = false) : m.pending = [] := by
  unfold pending
  rw [if_neg (by simp [h])]

theorem pending_transfers {mem : Nat → UInt8} {len : Nat} {rest : List UInt8}
    (hmem : m.device.writeBuffer = mem) (h : m.bulkIn.Transfers mem len rest) :
    m.pending = packetize cdcMaxMps rest := by
  unfold pending
  rw [if_pos h.ready, hmem, h.rest_eq]

/-- A step that leaves the IN endpoint and its buffer alone. -/
theorem Sends.quiet {e : UsbEvent} (h : m.Sends) (hguarded : (usbStep e m).Guarded)
    (hbulk : (usbStep e m).bulkIn = m.bulkIn)
    (hmem : m.bulkIn.ready = true → (usbStep e m).device.writeBuffer = m.device.writeBuffer)
    (hleaving : leaving e m = []) (hhanded : handed e m = []) : PacketStep e m := by
  constructor
  · constructor
    · exact hguarded
    · rw [hbulk]
      exact h.mps
    · rw [hbulk]
      rcases h.state with hidle | ⟨len, rest, htrans⟩
      · exact .inl hidle
      · rw [hmem htrans.ready]
        exact .inr ⟨len, rest, htrans⟩
  · rw [hleaving, hhanded]
    unfold pending
    rw [hbulk]
    split
    · next hready =>
      rw [hmem hready]
      simp
    · rfl

theorem Sends.idle (h : m.Sends) (hready : m.bulkIn.ready = false) : m.bulkIn.Idle := by
  rcases h.state with hidle | ⟨len, rest, htrans⟩
  · exact hidle
  · rw [htrans.ready] at hready
    cases hready

/-- The start of a transfer turns all of its bytes into packets to be taken. -/
theorem Sends.start {d : Device} {len : Nat} {bulkIn : BulkIn} {bulkOut : BulkOut}
    {readBuffer : Nat → UInt8} {overrun : Bool}
    (h : Sends ⟨d, .reading (.done len), bulkIn, bulkOut, readBuffer, overrun⟩) :
    PacketStep .main ⟨d, .reading (.done len), bulkIn, bulkOut, readBuffer, overrun⟩ := by
  have hguarded := h.guarded.step .main
  have hready : bulkIn.ready = false := h.guarded.1
  by_cases hlen : len = 0
  · subst hlen
    exact h.quiet hguarded rfl (fun _ => rfl) rfl rfl
  have hmain : usbStep .main ⟨d, .reading (.done len), bulkIn, bulkOut, readBuffer, overrun⟩ =
      ⟨d, .away 0, (bulkIn.startWrite (some d.writeBuffer) len).1, bulkOut, readBuffer, overrun⟩ :=
    if_pos hlen
  cases hen : bulkIn.ep.epEnable with
  | false =>
      have hlost := BulkIn.startWrite_disabled (some d.writeBuffer) len hen
      have hhanded : handed .main ⟨d, .reading (.done len), bulkIn, bulkOut, readBuffer, overrun⟩ =
          [] := by
        unfold handed
        dsimp only
        rw [if_neg (by simp [hen])]
      refine h.quiet hguarded ?_ (fun _ => ?_) rfl hhanded
      · rw [hmain]
        exact hlost
      · rw [hmain]
  | true =>
      have hstart : (bulkIn.startWrite (some d.writeBuffer) len).1.Transfers d.writeBuffer len
          (read d.writeBuffer 0 len) := BulkIn.startWrite_transfers (h.idle hready) hen
      have hhanded : handed .main ⟨d, .reading (.done len), bulkIn, bulkOut, readBuffer, overrun⟩ =
          [read d.writeBuffer 0 len] := by
        unfold handed
        dsimp only
        rw [if_pos ⟨hlen, hen⟩]
      constructor
      · rw [hmain] at hguarded ⊢
        refine ⟨hguarded, fun _ => ?_, .inr ⟨_, _, hstart⟩⟩
        have hmps : (bulkIn.startWrite (some d.writeBuffer) len).1.ep.epMps = bulkIn.ep.epMps := by
          unfold BulkIn.startWrite
          rw [if_neg (by simp), if_neg (by simp [hen])]
          rfl
        exact hmps.trans (h.mps hen)
      · have hnone :
            pending ⟨d, .reading (.done len), bulkIn, bulkOut, readBuffer, overrun⟩ = [] :=
          pending_idle hready
        rw [hhanded, hnone, hmain, pending_transfers rfl hstart]
        simp [leaving, taken, dropped]

theorem Sends.main (h : m.Sends) : PacketStep .main m := by
  have hguarded := h.guarded.step .main
  obtain ⟨d, p, bulkIn, bulkOut, readBuffer, overrun⟩ := m
  cases p with
  | away calls =>
      refine h.quiet hguarded rfl (fun _ => ?_) rfl rfl
      show (Transmit.main { device := d, point := .away calls }).device.writeBuffer = d.writeBuffer
      unfold Transmit.main
      dsimp only
      split
      · exact (taskDataOut_endpoint d).writeBuffer
      split <;> rfl
  | claim => exact h.quiet hguarded rfl (fun _ => rfl) rfl rfl
  | reading rest =>
      cases rest with
      | step next cont =>
          refine h.quiet hguarded rfl (fun hready => ?_) rfl rfl
          have hidle : bulkIn.ready = false := h.guarded.1
          rw [show bulkIn.ready = true from hready] at hidle
          cases hidle
      | done len => exact h.start

/-- Of the packets still to be sent the host takes the first. -/
theorem Sends.inToken (h : m.Sends) : PacketStep .inToken m := by
  have hguarded := h.guarded.step .inToken
  rcases h.state with hidle | ⟨len, rest, htrans⟩
  · have hnone : leaving .inToken m = [] := by
      unfold leaving taken
      dsimp only
      rw [hidle.ready]
      rfl
    have hsame : usbStep .inToken m = m := inToken_idle hidle.ready
    exact h.quiet hguarded (by rw [hsame]) (fun _ => by rw [hsame]) hnone rfl
  · have hmps := h.mps htrans.enable
    have hpending := pending_transfers rfl htrans
    have htaken : leaving .inToken m = [rest.take cdcMaxMps] := by
      unfold leaving taken
      dsimp only
      rw [if_pos htrans.ready, htrans.fifo, hmps]
      rfl
    have hhanded : handed .inToken m = [] := by
      unfold handed
      rfl
    by_cases hmore : cdcMaxMps < rest.length
    · obtain ⟨hnone, hmps', htrans'⟩ := BulkIn.inDone_more htrans (by rwa [hmps])
      have hstep : usbStep .inToken m =
          { m with bulkIn := (m.bulkIn.inDone m.device.writeBuffer).1 } :=
        inToken_more htrans.ready hnone
      constructor
      · rw [hstep] at hguarded ⊢
        exact ⟨hguarded, fun _ => hmps'.trans hmps, .inr ⟨_, _, htrans'⟩⟩
      · rw [hstep, htaken, hpending, hhanded, pending_transfers rfl htrans', hmps,
          packetize_full (by decide) hmore.le]
        simp
    · have hle : rest.length ≤ cdcMaxMps := Nat.le_of_not_lt hmore
      obtain ⟨hsome, hidle', hmps', hen'⟩ := BulkIn.inDone_last htrans (by rwa [hmps])
      have hstep : usbStep .inToken m =
          bulkInCallback len { m with bulkIn := (m.bulkIn.inDone m.device.writeBuffer).1 } :=
        inToken_last htrans.ready hsome
      have hmod : len % cdcMaxMps = rest.length % cdcMaxMps := hmps ▸ htrans.mod_eq
      have hzero : len = 0 ↔ rest.length = 0 :=
        htrans.len_eq_zero_iff.trans List.length_eq_zero_iff.symm
      -- The zero-length transfer follows exactly the transfers that end in a full packet.
      by_cases hzlp : len % cdcMaxMps = 0 ∧ len ≠ 0
      · have hfull : rest.length = cdcMaxMps := by
          unfold cdcMaxMps at *
          omega
        have hnext := BulkIn.startWrite_zlp hidle' hen' m.device.writeBuffer
        have hnextMps : ((m.bulkIn.inDone m.device.writeBuffer).1.startWrite none 0).1.ep.epMps =
            cdcMaxMps := by
          rw [← hmps, ← hmps']
          unfold BulkIn.startWrite
          rw [if_neg (by simp), if_neg (by simp [hen'])]
          rfl
        unfold bulkInCallback at hstep
        rw [if_pos hzlp] at hstep
        constructor
        · rw [hstep] at hguarded ⊢
          exact ⟨hguarded, fun _ => hnextMps, .inr ⟨_, _, hnext⟩⟩
        · rw [hstep, htaken, hpending, hhanded, pending_transfers rfl hnext,
            packetize_full (by decide) hfull.ge, List.drop_of_length_le hle]
          simp
      · have hshort : rest.length < cdcMaxMps := by
          unfold cdcMaxMps at *
          omega
        unfold bulkInCallback at hstep
        rw [if_neg hzlp] at hstep
        constructor
        · rw [hstep] at hguarded ⊢
          exact ⟨hguarded, fun _ => hmps'.trans hmps, .inl hidle'⟩
        · rw [hstep, htaken, hpending, hhanded, pending_idle hidle'.ready, packetize_short hshort,
            List.take_of_length_le hle]
          simp

theorem usbdEpOpen_same {mps : Nat} {ep : BlEpState} (hen : ep.epEnable = true)
    (hmps : ep.epMps = mps) : usbdEpOpen mps ep = ep := by
  obtain ⟨epMps, epEnable, xferBuf, xferLen, actualXferLen⟩ := ep
  subst hen hmps
  rfl

theorem Sends.configure (h : m.Sends) : PacketStep .configure m := by
  have hguarded := h.guarded.step .configure
  rcases h.state with hidle | ⟨len, rest, htrans⟩
  · constructor
    · exact ⟨hguarded, fun _ => rfl, .inl ⟨hidle.ready, hidle.fifo⟩⟩
    · rw [pending_idle hidle.ready, pending_idle (m := usbStep .configure m) hidle.ready]
      rfl
  · have hsame : (usbStep .configure m).bulkIn = m.bulkIn := by
      show { m.bulkIn with ep := usbdEpOpen cdcMaxMps m.bulkIn.ep } = m.bulkIn
      rw [usbdEpOpen_same htrans.enable (h.mps htrans.enable)]
    exact h.quiet hguarded hsame (fun _ => rfl) rfl rfl

theorem outToken_sameIn (packet : UsbPacket) :
    (m.outToken packet).bulkIn = m.bulkIn ∧
      (m.outToken packet).device.writeBuffer = m.device.writeBuffer := by
  unfold outToken
  split
  · split
    · exact ⟨rfl, rfl⟩
    · exact ⟨rfl, (usbdCdcAcmBulkOut_endpoint _ _).writeBuffer⟩
  · exact ⟨rfl, rfl⟩

/-- Every packet of a step is accounted for. -/
theorem packets_step (e : UsbEvent) (h : m.Sends) : PacketStep e m := by
  have hguarded := h.guarded.step e
  cases e with
  | main => exact h.main
  | dma rx =>
      exact h.quiet hguarded rfl (fun _ => (dmaI2sIsr_output rx m.device).writeBuffer) rfl rfl
  | setDtr dtr =>
      exact h.quiet hguarded rfl (fun _ => (usbdCdcAcmSetDtr_output dtr m.device).writeBuffer) rfl rfl
  | inToken => exact h.inToken
  | outToken packet =>
      obtain ⟨hbulk, hbuffer⟩ := outToken_sameIn (m := m) packet
      exact h.quiet hguarded hbulk (fun _ => hbuffer) rfl rfl
  | busReset =>
      constructor
      · exact ⟨hguarded, nofun, .inl ⟨rfl, rfl⟩⟩
      · rw [pending_idle (m := usbStep .busReset m) rfl]
        simp [leaving, taken, dropped, handed]
  | configure => exact h.configure

theorem boot_sends (memory : UInt32 → UInt32) : (boot memory).Sends :=
  ⟨boot_guarded memory, nofun, .inl ⟨rfl, rfl⟩⟩

theorem run_packets {es : List UsbEvent} (h : m.Sends) :
    trace usbStep leaving es m ++ (run usbStep es m).pending =
      m.pending ++ (trace usbStep handed es m).flatMap (packetize cdcMaxMps) := by
  induction es generalizing m with
  | nil => simp
  | cons e es ih =>
      have hstep := packets_step e h
      rw [trace_cons, run_cons, List.append_assoc, ih hstep.sends, ← List.append_assoc,
        hstep.packets, trace_cons, List.flatMap_append, List.append_assoc]

/-- A step hands over what it starts on the machine of whole transfers. -/
theorem handed_length {e : UsbEvent} {bytes : List UInt8} (h : m.transfers.Bounded)
    (hbytes : bytes ∈ handed e m) : bytes.length ≤ usbdTxBufSize - 1 := by
  unfold handed at hbytes
  split at hbytes
  · next len hpoint =>
    split at hbytes
    · rw [List.mem_singleton.mp hbytes, length_read]
      exact h.rest _ hpoint
    · cases hbytes
  · cases hbytes

theorem run_transfers_bounded (memory : UInt32 → UInt32) (es : List UsbEvent) :
    (run usbStep es (boot memory)).transfers.Bounded := by
  rw [run_transfers (boot_guarded memory)]
  exact Transmit.run_bounded memory _

theorem trace_handed_length (memory : UInt32 → UInt32) (es : List UsbEvent) :
    ∀ bytes ∈ trace usbStep handed es (boot memory), bytes.length ≤ usbdTxBufSize - 1 := by
  induction es using List.reverseRecOn with
  | nil => simp
  | append_singleton es e ih =>
      intro bytes hbytes
      rw [trace_snoc, List.mem_append] at hbytes
      rcases hbytes with hbytes | hbytes
      · exact ih bytes hbytes
      · exact handed_length (run_transfers_bounded memory es) hbytes

end UsbMachine

/-- In every run: the packets that the host takes or a bus reset drops, followed by those
still to be taken, are the packets of the transfers handed over, in order; each transfer
is cut into full packets and a shorter last one, which may be empty. -/
theorem usb_packets (memory : UInt32 → UInt32) (es : List UsbEvent) :
    trace usbStep UsbMachine.leaving es (UsbMachine.boot memory) ++
        (run usbStep es (UsbMachine.boot memory)).pending =
      (trace usbStep UsbMachine.handed es (UsbMachine.boot memory)).flatMap
        (packetize cdcMaxMps) := by
  have h := @UsbMachine.run_packets _ es (UsbMachine.boot_sends memory)
  rwa [UsbMachine.pending_idle (m := UsbMachine.boot memory) rfl, List.nil_append] at h

/-- The bus is not reset while a packet waits for the host. -/
def Undisturbed (e : UsbEvent) (m : UsbMachine) : Prop := e = .busReset → m.bulkIn.ready = false

/-- Without such a reset, a host with room for the largest transfer puts the packets that it
takes together to exactly the transfers handed over, up to the one under way. -/
theorem usb_reassembled (memory : UInt32 → UInt32) (es : List UsbEvent)
    (h : Along usbStep Undisturbed es (UsbMachine.boot memory)) :
    receive cdcMaxMps usbdTxBufSize []
        (trace usbStep UsbMachine.taken es (UsbMachine.boot memory) ++
          (run usbStep es (UsbMachine.boot memory)).pending) =
      (trace usbStep UsbMachine.handed es (UsbMachine.boot memory), []) := by
  have hkept : Along usbStep (fun e m => UsbMachine.taken e m = UsbMachine.leaving e m) es
      (UsbMachine.boot memory) := by
    apply h.mono
    intro e m hreset
    unfold UsbMachine.leaving UsbMachine.dropped
    split
    · rw [UsbMachine.pending_idle (hreset rfl), List.append_nil]
    · rw [List.append_nil]
  rw [trace_congr hkept, usb_packets]
  apply receive_transfers (by decide)
  intro bytes hbytes
  exact Nat.lt_of_le_of_lt (UsbMachine.trace_handed_length memory es bytes hbytes) (by decide)

/-- A version request on a configured device, and its reply taken by the host. -/
def versionPackets : List UsbEvent :=
  [.configure, .outToken ⟨[0, 0], by decide⟩] ++ List.replicate 30 .main ++ [.inToken]

theorem usb_reassembled_version :
    receive cdcMaxMps usbdTxBufSize []
        (trace usbStep UsbMachine.taken versionPackets (UsbMachine.boot fun _ => 0) ++
          (run usbStep versionPackets (UsbMachine.boot fun _ => 0)).pending) =
      (trace usbStep UsbMachine.handed versionPackets (UsbMachine.boot fun _ => 0), []) :=
  usb_reassembled _ versionPackets (along_of_forall (fun e hmem _ he => by
    subst he
    simp [versionPackets] at hmem) _)

/-! ## Packets from the host -/

namespace UsbMachine

/-- The packet that the OUT endpoint accepts. -/
def received (e : UsbEvent) (m : UsbMachine) : List (List UInt8) :=
  match e with
  | .outToken packet => if m.bulkOut.ready then [packet.1] else []
  | _ => []

/-- What the step passes to `usbd_cdc_acm_bulk_out`. -/
def requests (e : UsbEvent) (m : UsbMachine) : List (List UInt8) :=
  match e with
  | .outToken packet => (m.completesOut packet).toList
  | _ => []

/-- The bytes of an unfinished request. -/
def buffered (m : UsbMachine) : List UInt8 := read m.readBuffer 0 m.bulkOut.ep.xferBuf

/-- The OUT endpoint: as wide as configured, then inside of a read of the whole buffer, and
nothing was stored behind its end. -/
structure Listens (m : UsbMachine) : Prop where
  mps : m.bulkOut.ep.epEnable = true → m.bulkOut.ep.epMps = cdcMaxMps
  state : m.bulkOut.ep.epEnable = true → ∃ acc, m.bulkOut.Receives m.readBuffer usbdRxBufSize acc
  closed : m.bulkOut.ep.epEnable = false → m.bulkOut.ready = false
  bounds : m.overrun = false

variable {m m' : UsbMachine}

theorem buffered_receives {mem : Nat → UInt8} {size : Nat} {acc : List UInt8}
    (hmem : m.readBuffer = mem) (h : m.bulkOut.Receives mem size acc) : m.buffered = acc := by
  unfold buffered
  rw [h.buf, hmem, h.acc_eq]

theorem Listens.congr (h : m.Listens) (hbulk : m'.bulkOut = m.bulkOut)
    (hmem : m'.readBuffer = m.readBuffer) (hover : m'.overrun = m.overrun) : m'.Listens := by
  constructor
  · rw [hbulk]
    exact h.mps
  · rw [hbulk, hmem]
    exact h.state
  · rw [hbulk]
    exact h.closed
  · rw [hover]
    exact h.bounds

/-- Behind `usbd_ep_start_read` an enabled endpoint waits for a request. -/
theorem listens_startRead {u : BulkOut} (hen : u.ep.epEnable = true) (hmps : u.ep.epMps = cdcMaxMps)
    (hbulk : m.bulkOut = (u.startRead usbdRxBufSize).1) (hover : m.overrun = false) :
    m.Listens ∧ m.buffered = [] := by
  obtain ⟨hrec, hmps'⟩ := @BulkOut.startRead_receives u usbdRxBufSize hen (by decide) (by decide)
    m.readBuffer
  rw [← hbulk] at hrec hmps'
  refine ⟨⟨fun _ => hmps'.trans hmps, fun _ => ⟨[], hrec⟩, fun hdis => ?_, hover⟩,
    buffered_receives rfl hrec⟩
  rw [hrec.enable] at hdis
  cases hdis

/-- What one step does to the bytes received. -/
structure RequestStep (e : UsbEvent) (m : UsbMachine) : Prop where
  listens : (usbStep e m).Listens
  requests : e ≠ .busReset → e ≠ .configure →
    receive cdcMaxMps usbdRxBufSize m.buffered (received e m) =
      (requests e m, (usbStep e m).buffered)

theorem Listens.quiet {e : UsbEvent} (h : m.Listens) (hbulk : (usbStep e m).bulkOut = m.bulkOut)
    (hmem : (usbStep e m).readBuffer = m.readBuffer) (hover : (usbStep e m).overrun = m.overrun)
    (hreceived : received e m = []) (hrequests : UsbMachine.requests e m = []) :
    RequestStep e m := by
  refine ⟨h.congr hbulk hmem hover, fun _ _ => ?_⟩
  rw [hreceived, hrequests]
  unfold buffered
  rw [hbulk, hmem]
  rfl

/-- A packet goes behind what is there; a short one, or one that fills the buffer, makes
all of it the next request. -/
theorem Listens.outToken (packet : UsbPacket) (h : m.Listens) :
    RequestStep (.outToken packet) m := by
  cases hen : m.bulkOut.ep.epEnable with
  | false =>
      have hready := h.closed hen
      have hsame : usbStep (.outToken packet) m = m := outToken_idle packet hready
      have hreceived : received (.outToken packet) m = [] := by
        unfold received
        dsimp only
        rw [if_neg (by simp [hready])]
      have hrequests : UsbMachine.requests (.outToken packet) m = [] := by
        unfold UsbMachine.requests completesOut
        dsimp only
        rw [if_neg (by simp [hready])]
        rfl
      exact h.quiet (by rw [hsame]) (by rw [hsame]) (by rw [hsame]) hreceived hrequests
  | true =>
      obtain ⟨acc, hrec⟩ := h.state hen
      have hmps := h.mps hen
      have hsize := packet.2
      have hroom := hrec.room (by rw [hmps]; decide)
      rw [hmps] at hroom
      have hfit : acc.length + packet.1.length ≤ usbdRxBufSize := by omega
      have hbounds : (m.store packet).overrun = false := by
        show (m.overrun || decide (usbdRxBufSize < m.bulkOut.ep.xferBuf + packet.1.length)) = false
        rw [h.bounds, hrec.buf, Bool.false_or, decide_eq_false (by omega)]
      have hreceived : received (.outToken packet) m = [packet.1] := by
        unfold received
        dsimp only
        rw [if_pos hrec.ready]
      by_cases hlast : packet.1.length < cdcMaxMps ∨ acc.length + packet.1.length = usbdRxBufSize
      · obtain ⟨hsome, hread, hmps', hen'⟩ := hrec.outDone_last hfit (by rwa [hmps])
        have hstep : usbStep (.outToken packet) m =
            bulkOutCallback (acc ++ packet.1).length (m.store packet) :=
          outToken_last hrec.ready hsome
        obtain ⟨hlistens, hnone⟩ := listens_startRead
          (m := bulkOutCallback (acc ++ packet.1).length (m.store packet)) hen'
          (hmps'.trans hmps) rfl hbounds
        have hrequests : UsbMachine.requests (.outToken packet) m = [acc ++ packet.1] := by
          show (m.completesOut packet).toList = _
          rw [completesOut_of_ready hrec.ready hsome]
          exact congrArg (fun bytes => [bytes]) hread
        constructor
        · rw [hstep]
          exact hlistens
        · intro _ _
          rw [buffered_receives rfl hrec, hreceived, hrequests, hstep, hnone, receive,
            if_pos hlast]
          rfl
      · have hmore : acc.length + packet.1.length < usbdRxBufSize := by omega
        obtain ⟨hnone, hmps', hrec'⟩ := hrec.outDone_more (by omega) hmore
        have hstep : usbStep (.outToken packet) m = m.store packet :=
          outToken_more hrec.ready hnone
        have hrequests : UsbMachine.requests (.outToken packet) m = [] := by
          show (m.completesOut packet).toList = _
          rw [completesOut_of_ready hrec.ready hnone]
          rfl
        have hlistens : (m.store packet).Listens := by
          have hen' : (m.store packet).bulkOut.ep.epEnable = true := hrec'.enable
          refine ⟨fun _ => hmps'.trans hmps, fun _ => ⟨_, hrec'⟩, fun hdis => ?_, hbounds⟩
          rw [hen'] at hdis
          cases hdis
        constructor
        · rw [hstep]
          exact hlistens
        · intro _ _
          rw [buffered_receives rfl hrec, hreceived, hrequests, hstep,
            buffered_receives (m := m.store packet) rfl hrec', receive, if_neg hlast]
          rfl

theorem main_sameOut : m.main.bulkOut = m.bulkOut ∧ m.main.readBuffer = m.readBuffer ∧
    m.main.overrun = m.overrun := by
  unfold main
  split
  · split <;> exact ⟨rfl, rfl, rfl⟩
  · exact ⟨rfl, rfl, rfl⟩

theorem inToken_sameOut : m.inToken.bulkOut = m.bulkOut ∧ m.inToken.readBuffer = m.readBuffer ∧
    m.inToken.overrun = m.overrun := by
  unfold inToken
  split
  · dsimp only
    split
    · exact ⟨rfl, rfl, rfl⟩
    · unfold bulkInCallback
      split <;> exact ⟨rfl, rfl, rfl⟩
  · exact ⟨rfl, rfl, rfl⟩

theorem Listens.configure (h : m.Listens) : m.configure.Listens ∧ m.configure.buffered = [] :=
  listens_startRead (m := m.configure)
    (u := { m.bulkOut with ep := usbdEpOpen cdcMaxMps m.bulkOut.ep }) rfl rfl rfl h.bounds

theorem requests_step (e : UsbEvent) (h : m.Listens) : RequestStep e m := by
  cases e with
  | main =>
      obtain ⟨hbulk, hmem, hover⟩ := main_sameOut (m := m)
      exact h.quiet hbulk hmem hover rfl rfl
  | dma rx => exact h.quiet rfl rfl rfl rfl rfl
  | setDtr dtr => exact h.quiet rfl rfl rfl rfl rfl
  | inToken =>
      obtain ⟨hbulk, hmem, hover⟩ := inToken_sameOut (m := m)
      exact h.quiet hbulk hmem hover rfl rfl
  | outToken packet => exact h.outToken packet
  | busReset => exact ⟨⟨nofun, nofun, fun _ => rfl, h.bounds⟩, fun hne => absurd rfl hne⟩
  | configure => exact ⟨h.configure.1, fun _ hne => absurd rfl hne⟩

theorem boot_listens (memory : UInt32 → UInt32) : (boot memory).Listens :=
  ⟨nofun, nofun, fun _ => rfl, rfl⟩

theorem run_listens (memory : UInt32 → UInt32) (es : List UsbEvent) :
    (run usbStep es (boot memory)).Listens :=
  run_invariant (I := Listens) (P := fun _ _ => True) (fun e _ h _ => (requests_step e h).listens)
    (boot_listens memory) (along_true es _)

/-- Between resets and configurations the packets make up the requests. -/
theorem run_requests {es : List UsbEvent} (h : m.Listens)
    (hes : ∀ e ∈ es, e ≠ .busReset ∧ e ≠ .configure) :
    receive cdcMaxMps usbdRxBufSize m.buffered (trace usbStep received es m) =
      (trace usbStep UsbMachine.requests es m, (run usbStep es m).buffered) := by
  induction es generalizing m with
  | nil => rfl
  | cons e es ih =>
      have hstep := requests_step e h
      have hone := hstep.requests (hes e List.mem_cons_self).1 (hes e List.mem_cons_self).2
      have hrest := ih hstep.listens fun e' he' => hes e' (List.mem_cons_of_mem _ he')
      rw [trace_cons, receive_append, hone, hrest]
      rfl

end UsbMachine

/-- Behind a configuration, until the next one or a reset: the requests that reach the
decoder are the packets sent put together, and a sender that cuts requests of less than
2048 bytes into packets has every one of them decoded as it was sent. -/
theorem usb_requests (memory : UInt32 → UInt32) (es es' : List UsbEvent)
    (h : ∀ e ∈ es', e ≠ .busReset ∧ e ≠ .configure) :
    let m := run usbStep (es ++ [.configure]) (UsbMachine.boot memory)
    receive cdcMaxMps usbdRxBufSize [] (trace usbStep UsbMachine.received es' m) =
        (trace usbStep UsbMachine.requests es' m, (run usbStep es' m).buffered) ∧
      ∀ reqs : List (List UInt8), (∀ req ∈ reqs, req.length < usbdRxBufSize) →
        trace usbStep UsbMachine.received es' m = reqs.flatMap (packetize cdcMaxMps) →
        trace usbStep UsbMachine.requests es' m = reqs := by
  have hlistens := UsbMachine.run_listens memory (es ++ [.configure])
  have hnone : (run usbStep (es ++ [.configure]) (UsbMachine.boot memory)).buffered = [] := by
    rw [run_snoc]
    exact (UsbMachine.run_listens memory es).configure.2
  have hall := UsbMachine.run_requests hlistens h
  rw [hnone] at hall
  refine ⟨hall, fun reqs hfit hsent => ?_⟩
  rw [hsent, receive_transfers (by decide) hfit] at hall
  exact (congrArg Prod.fst hall).symm

theorem usb_requests_version :
    let m := run usbStep [.configure] (UsbMachine.boot fun _ => 0)
    receive cdcMaxMps usbdRxBufSize [] (trace usbStep UsbMachine.received versionPackets.tail m) =
        (trace usbStep UsbMachine.requests versionPackets.tail m,
          (run usbStep versionPackets.tail m).buffered) ∧
      ∀ reqs : List (List UInt8), (∀ req ∈ reqs, req.length < usbdRxBufSize) →
        trace usbStep UsbMachine.received versionPackets.tail m =
          reqs.flatMap (packetize cdcMaxMps) →
        trace usbStep UsbMachine.requests versionPackets.tail m = reqs :=
  usb_requests (fun _ => 0) [] versionPackets.tail (by
    intro e he
    constructor
    · rintro rfl
      simp [versionPackets] at he
    · rintro rfl
      simp [versionPackets] at he)

/-- In every run, the main loop taken access by access: no packet is stored behind the end
of `read_buffer`, the drain leaves `write_buffer` behind its first 2047 bytes alone, no
transfer is longer than they are, and an enabled OUT endpoint is always ready. -/
theorem usb_bounds (memory : UInt32 → UInt32) (es : List UsbEvent) :
    let m := run usbStep es (UsbMachine.boot memory)
    m.overrun = false ∧
      (∀ i, usbdTxBufSize - 1 ≤ i → m.device.writeBuffer i = Device.initialWriteBuffer i) ∧
      (∀ bytes ∈ trace usbStep UsbMachine.handed es (UsbMachine.boot memory),
        bytes.length ≤ usbdTxBufSize - 1) ∧
      (m.bulkOut.ep.epEnable = true → m.bulkOut.ready = true) := by
  have hlistens := UsbMachine.run_listens memory es
  refine ⟨hlistens.bounds, (UsbMachine.run_transfers_bounded memory es).kept,
    UsbMachine.trace_handed_length memory es, fun hen => ?_⟩
  obtain ⟨acc, hrec⟩ := hlistens.state hen
  exact hrec.ready
