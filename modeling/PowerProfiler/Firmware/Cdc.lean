-- SUMMARY: The CDC callbacks of cdc_acm_template.c, the drain of the output FIFO, and the driver calls under them.
import PowerProfiler.Firmware.CmdDecode

/-!
# The USB callbacks

Requests of the host arrive in `usbd_cdc_acm_bulk_out`, completions of IN transfers
in `usbd_cdc_acm_bulk_in`. The main loop drains the FIFO into IN transfers. A bus
reset clears the driver's endpoint state and drops what is outstanding without a
callback.
-/

open Framing

/-! ## The driver -/

/-- `usbd_ep_start_write` on the IN endpoint; `data` tells a buffer from NULL. -/
def usbdEpStartWrite (data : Bool) (dataLen : Nat) (d : Device) : Device × Int :=
  if data = false ∧ dataLen ≠ 0 then (d, -1)
  else if d.inEp.epEnable = false then (d, -2)
  else ({ d with inEp := { d.inEp with inflight := d.inEp.inflight ++ [dataLen] } }, 0)

/-- The bus reset of `USBD_IRQHandler`. -/
def usbBusReset (d : Device) : Device := { d with inEp := {} }

/-- `SET_CONFIGURATION` opens the endpoints; `usbd_configure_done_callback` then only
starts a read. -/
def usbConfigure (d : Device) : Device := { d with inEp := { d.inEp with epEnable := true } }

/-! ## The callbacks -/

/-- `usbd_cdc_acm_bulk_in` -/
def usbdCdcAcmBulkIn (nbytes : Nat) (d : Device) : Device :=
  if nbytes % cdcMaxMps = 0 ∧ nbytes ≠ 0 then (usbdEpStartWrite false 0 d).1
  else { d with epTxBusyFlag := false }

/-- The oldest outstanding IN transfer completes with its full length. -/
def inComplete (d : Device) : Device :=
  match d.inEp.inflight with
  | [] => d
  | len :: rest => usbdCdcAcmBulkIn len { d with inEp := { d.inEp with inflight := rest } }

/-- The request that a received packet carries, if it is long enough for its size byte. -/
def request : List UInt8 → Option Frame
  | size :: cmd :: rest => if size.toNat ≤ rest.length then some (Frame.ofHead size cmd rest) else none
  | _ => none

/-- The reply to a received packet and the state behind decoding it. -/
def decodePacket (readBuffer : List UInt8) (d : Device) : Device × Option Frame :=
  match request readBuffer with
  | none => (d, none)
  | some req => ((cmdDecode req d).1, some (cmdDecode req d).2)

/-- Put a reply into the output FIFO. -/
def sendReply (reply : Frame) (d : Device) : Device :=
  { d with usbTxRb := (d.usbTxRb.write reply.bytes).1 }

/-- `usbd_cdc_acm_bulk_out` -/
def usbdCdcAcmBulkOut (readBuffer : List UInt8) (d : Device) : Device :=
  match decodePacket readBuffer d with
  | (d, none) => d
  | (d, some reply) => sendReply reply d

/-- `usbd_cdc_acm_set_dtr` -/
def usbdCdcAcmSetDtr (dtr : Bool) (d : Device) : Device :=
  let d :=
    if dtr then (if d.dtrEnable then d else i2sWakeUp d)
    else (if d.dtrEnable then i2sSleep d else d)
  { d with dtrEnable := dtr }

/-! ## The drain -/

/-- What `usb_dc_send_from_ringbuffer` does once the busy flag is clear, with the bytes
it passes to `usbd_ep_start_write`. -/
def usbDcSend (d : Device) : Device × Option (List UInt8) :=
  let out := (ringBufferRead (usbdTxBufSize - 1)).run { rb := d.usbTxRb, dest := d.writeBuffer }
  let d := { d with epTxBusyFlag := true, usbTxRb := out.1.rb, writeBuffer := out.1.dest }
  if out.2 ≠ 0 then
    ((usbdEpStartWrite true out.2 d).1, some ((List.range out.2).map d.writeBuffer))
  else ({ d with epTxBusyFlag := false }, none)

/-- `usb_dc_send_from_ringbuffer` in one step: it waits while the flag is set. -/
def usbDcSendFromRingbuffer (d : Device) : Device × Option (List UInt8) :=
  if d.epTxBusyFlag then (d, none) else usbDcSend d
