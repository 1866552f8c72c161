-- SUMMARY: The main loop's calls on the output ring under one reply of the USB interrupt: the points at which the outcome is serial, and one at which it is not.
import PowerProfiler.Firmware.InterruptedRead

/-!
# Two producers and one consumer

`task_data_out` writes `usb_tx_rb` and `usb_dc_send_from_ringbuffer` reads it in the main
loop, without a lock. `usbd_cdc_acm_bulk_out` writes a reply into it from the USB
interrupt, between any two of their accesses.
-/

open Prog Circular

/-- With room for both, a write or a read of the main loop and the reply that interrupts it
have the outcome of one call after the other exactly at the safe points. -/
theorem interruptedCall_serial_iff {rb : RingBuffer} {xs reply : List UInt8} (h : rb.Repr xs)
    (hreply : reply ≠ []) (n : Nat) :
    (∀ data, data ≠ [] → xs.length + data.length + reply.length ≤ rb.size →
      ((∀ mem, ({ rb with pointer := mem } : RingBuffer).Repr xs →
        (ringBufferWrite data).Serial (ringIsr reply) RingBuffer.Same n { rb with pointer := mem }) ↔
          rb.WriteSafe data.length reply.length n)) ∧
    (∀ dest R, 0 < R → R ≤ 2147483648 → reply.length < rb.size →
      xs.length + reply.length ≤ rb.size →
      ((ringBufferRead R).Serial (ringIsrIo reply) RingIo.Same n { rb := rb, dest := dest } ↔
        rb.ReadSafe xs.length R reply.length n)) := by
  constructor
  · intro data hdata hroom
    exact ringBufferWrite_serial_iff h hdata hreply hroom n
  · intro dest R hpos hR hM hroom
    exact @ringBufferRead_serial_iff { rb := rb, dest := dest } xs reply R h hpos hR hreply hM hroom n

/-- The output ring behind its initialisation. -/
def emptyRing : RingBuffer := ringBufferInit (fun _ => 0) 4096

theorem emptyRing_repr : emptyRing.Repr [] := .init (by decide) (by decide)

/-- The reply to an unknown command. -/
def shortReply : List UInt8 := [0, 0xFF]

/-- A ring of 16 bytes that holds seven of them across its end. -/
def crossingRing : RingBuffer :=
  (((ringBufferInit (fun _ => 0) 16).pushed (List.replicate 12 9)).popped 12).pushed
    [1, 2, 3, 4, 5, 6, 7]

theorem crossingRing_repr : crossingRing.Repr [1, 2, 3, 4, 5, 6, 7] := by
  have hempty : (ringBufferInit (fun _ => 0) 16).Repr [] := .init (by decide) (by decide)
  have hwritten : ((ringBufferInit (fun _ => 0) 16).pushed (List.replicate 12 9)).Repr
      (List.replicate 12 9) := hempty.pushed (by decide)
  have hread : (((ringBufferInit (fun _ => 0) 16).pushed (List.replicate 12 9)).popped 12).Repr [] :=
    hwritten.popped (by decide)
  exact hread.pushed (by decide)

/-- A reply that arrives behind the second load of `writeIndex`, or within the copy of a read. -/
theorem interruptedCall_serial_crossingRing :
    (∀ mem, ({ crossingRing with pointer := mem } : RingBuffer).Repr [1, 2, 3, 4, 5, 6, 7] →
      (ringBufferWrite [21, 22, 23, 24]).Serial (ringIsr shortReply) RingBuffer.Same 8
        { crossingRing with pointer := mem }) ∧
      (ringBufferRead 5).Serial (ringIsrIo shortReply) RingIo.Same 8
        { rb := crossingRing, dest := fun _ => 0 } := by
  obtain ⟨hwrite, hread⟩ := interruptedCall_serial_iff crossingRing_repr
    (show shortReply ≠ [] by decide) 8
  exact ⟨(hwrite [21, 22, 23, 24] (by decide) (by decide)).mpr (by decide),
    (hread (fun _ => 0) 5 (by decide) (by decide) (by decide) (by decide)).mpr (by decide)⟩

/-- A block of equal samples. -/
def blockBytes : List UInt8 := [0x78, 0x3A] ++ List.replicate 120 7

theorem length_blockBytes : blockBytes.length = 122 := by simp [blockBytes]

theorem blockBytes_ne_nil : blockBytes ≠ [] := List.cons_ne_nil _ _

theorem getLast_blockBytes : blockBytes.getLast blockBytes_ne_nil = 7 := by
  have htail : List.replicate 120 (7 : UInt8) ≠ [] := by simp
  exact (List.getLast_append_of_ne_nil _ htail).trans (List.getLast_replicate htail)

/-- A reply that arrives when a block has begun to be copied is mixed with it. -/
theorem interruptedWrite_mixed :
    ¬ ∀ (rb : RingBuffer) (xs data reply : List UInt8) (n : Nat), rb.Repr xs → data ≠ [] →
      reply ≠ [] → xs.length + data.length + reply.length ≤ rb.size →
      (ringBufferWrite data).Serial (ringIsr reply) RingBuffer.Same n rb := by
  intro hall
  have hreply : shortReply ≠ [] := by decide
  have hroom : ([] : List UInt8).length + blockBytes.length + shortReply.length ≤ emptyRing.size := by
    rw [length_blockBytes]
    decide
  have hunsafe : ¬ emptyRing.WriteSafe blockBytes.length shortReply.length 10 := by
    rw [length_blockBytes]
    decide
  have hserial := hall emptyRing [] blockBytes shortReply 10 emptyRing_repr blockBytes_ne_nil hreply
    hroom
  refine ringBufferWrite_not_serial emptyRing_repr blockBytes_ne_nil hreply hroom hunsafe ⟨?_, ?_⟩
    hserial
  · rw [getLast_blockBytes]
    exact show (0 : UInt8) ≠ 7 by decide
  · exact show (0 : UInt8) ≠ 0xFF by decide
