-- SUMMARY: The bulk endpoints of bflb_usb_v1.c: transfers sent and received packet by packet, and what one interrupt does to them.
import PowerProfiler.Firmware.Device
import PowerProfiler.Lib.Packets
import PowerProfiler.Lib.Window

/-!
# The endpoints of the USB driver

The driver keeps a pointer and two lengths for each endpoint. `usbd_ep_start_write` fills
the endpoint's FIFO with the first packet; each further packet is copied from the caller's
buffer when the host has taken the one before. `usbd_ep_start_read` only notes where the
bytes of the packets to come should go. Pointers are offsets into the caller's buffer.
-/

open Circular Window Packets

/-- `struct bl_ep_state`, as far as the driver reads it. -/
structure BlEpState where
  epMps : Nat := 0
  epEnable : Bool := false
  xferBuf : Nat := 0
  xferLen : Nat := 0
  actualXferLen : Nat := 0

/-- `usbd_ep_open` on the driver's record. -/
def usbdEpOpen (mps : Nat) (ep : BlEpState) : BlEpState := { ep with epMps := mps, epEnable := true }

/-- The record behind the start of a transfer. -/
def BlEpState.start (dataLen : Nat) (ep : BlEpState) : BlEpState :=
  { ep with xferBuf := 0, xferLen := dataLen, actualXferLen := 0 }

/-- The record behind a packet of `count` bytes that leaves `left` of the transfer. -/
def BlEpState.advance (count left : Nat) (ep : BlEpState) : BlEpState :=
  { ep with
    xferBuf := ep.xferBuf + count
    xferLen := left
    actualXferLen := ep.actualXferLen + count }

/-! ## IN -/

/-- An IN endpoint: the driver's record, the bytes in its FIFO, and the bit that lets the
host take them. -/
structure BulkIn where
  ep : BlEpState := {}
  fifo : List UInt8 := []
  ready : Bool := false

namespace BulkIn

/-- `bflb_usb_mem2fifo`, then `bflb_usb_ep_set_ready`. -/
def load (mem : Nat → UInt8) (u : BulkIn) : BulkIn :=
  { u with
    fifo := u.fifo ++ read mem u.ep.xferBuf (min u.ep.xferLen u.ep.epMps)
    ready := true }

/-- `usbd_ep_start_write` on a bulk endpoint; `data` is the caller's buffer, or NULL. -/
def startWrite (data : Option (Nat → UInt8)) (dataLen : Nat) (u : BulkIn) : BulkIn × Int :=
  if data.isNone ∧ dataLen ≠ 0 then (u, -1)
  else if u.ep.epEnable = false then (u, -2)
  else (load (data.getD fun _ => 0) { u with ep := u.ep.start dataLen }, 0)

/-- The interrupt behind a packet that the host has taken, with the length of the transfer
when it is complete. -/
def inDone (mem : Nat → UInt8) (u : BulkIn) : BulkIn × Option Nat :=
  -- At most `xfer_len` is taken off it, so the subtraction cannot wrap around.
  let count := min u.ep.xferLen u.ep.epMps
  let u : BulkIn := { ep := u.ep.advance count (u.ep.xferLen - count), fifo := [], ready := false }
  if u.ep.xferLen = 0 then (u, some u.ep.actualXferLen) else (u.load mem, none)

/-- Nothing is on its way. -/
structure Idle (u : BulkIn) : Prop where
  ready : u.ready = false
  fifo : u.fifo = []

/-- A transfer of `len` bytes is under way: `rest` is still to be taken by the host, its
first packet lies in the FIFO, and the bytes taken so far were full packets. -/
structure Transfers (mem : Nat → UInt8) (len : Nat) (rest : List UInt8) (u : BulkIn) : Prop where
  ready : u.ready = true
  enable : u.ep.epEnable = true
  rest_eq : read mem u.ep.xferBuf u.ep.xferLen = rest
  fifo : u.fifo = rest.take u.ep.epMps
  total : u.ep.actualXferLen + u.ep.xferLen = len
  whole : u.ep.epMps ∣ u.ep.actualXferLen
  first : u.ep.xferLen = 0 → u.ep.actualXferLen = 0

variable {u : BulkIn} {mem : Nat → UInt8} {len : Nat} {rest : List UInt8}

namespace Transfers

theorem length_rest (h : u.Transfers mem len rest) : rest.length = u.ep.xferLen := by
  rw [← h.rest_eq, length_read]

/-- The end of a transfer has its remainder. -/
theorem mod_eq (h : u.Transfers mem len rest) : len % u.ep.epMps = rest.length % u.ep.epMps := by
  obtain ⟨k, hk⟩ := h.whole
  rw [h.length_rest, ← h.total, hk, Nat.mul_add_mod]

/-- A transfer with nothing left to be taken is the empty one. -/
theorem len_eq_zero_iff (h : u.Transfers mem len rest) : len = 0 ↔ rest = [] := by
  have htotal := h.total
  rw [← List.length_eq_zero_iff, h.length_rest]
  constructor
  · intro h0
    omega
  · intro h0
    have := h.first h0
    omega

end Transfers

/-- A transfer starts on an endpoint that is enabled and idle. -/
theorem startWrite_transfers (hidle : u.Idle) (hen : u.ep.epEnable = true) :
    (u.startWrite (some mem) len).1.Transfers mem len (read mem 0 len) := by
  unfold startWrite
  rw [if_neg (by simp), if_neg (by simp [hen])]
  have hfifo : u.fifo ++ read mem 0 (min len u.ep.epMps) = (read mem 0 len).take u.ep.epMps := by
    rw [hidle.fifo, List.nil_append, read_min]
  exact
    { ready := rfl
      enable := hen
      rest_eq := rfl
      fifo := hfifo
      total := Nat.zero_add len
      whole := Nat.dvd_zero _
      first := fun _ => rfl }

/-- The zero-length transfer: nothing is read from a buffer. -/
theorem startWrite_zlp (hidle : u.Idle) (hen : u.ep.epEnable = true) (mem : Nat → UInt8) :
    (u.startWrite none 0).1.Transfers mem 0 [] := by
  unfold startWrite
  rw [if_neg (by simp), if_neg (by simp [hen])]
  exact
    { ready := rfl
      enable := hen
      rest_eq := rfl
      fifo := by simp [load, BlEpState.start, hidle.fifo]
      total := rfl
      whole := Nat.dvd_zero _
      first := fun _ => rfl }

theorem startWrite_disabled (data : Option (Nat → UInt8)) (dataLen : Nat)
    (hen : u.ep.epEnable = false) : (u.startWrite data dataLen).1 = u := by
  unfold startWrite
  rw [if_pos hen]
  split <;> rfl

/-- With more than a packet left, the interrupt loads the next one. -/
theorem inDone_more (h : u.Transfers mem len rest) (hmore : u.ep.epMps < rest.length) :
    (u.inDone mem).2 = none ∧ (u.inDone mem).1.ep.epMps = u.ep.epMps ∧
      (u.inDone mem).1.Transfers mem len (rest.drop u.ep.epMps) := by
  have hlen := h.length_rest
  have htotal := h.total
  have hmin : min u.ep.xferLen u.ep.epMps = u.ep.epMps := by omega
  have hrest : read mem (u.ep.xferBuf + u.ep.epMps) (u.ep.xferLen - u.ep.epMps) =
      rest.drop u.ep.epMps := by
    rw [← h.rest_eq, drop_read (by omega)]
  have hleft : (u.ep.advance u.ep.epMps (u.ep.xferLen - u.ep.epMps)).xferLen ≠ 0 := by
    unfold BlEpState.advance
    dsimp only
    omega
  unfold inDone
  rw [hmin, if_neg hleft]
  refine ⟨rfl, rfl, ?_⟩
  exact
    { ready := rfl
      enable := h.enable
      rest_eq := hrest
      fifo := (read_min _ _ _ _).trans (congrArg (List.take u.ep.epMps) hrest)
      total := by
        unfold load BlEpState.advance
        dsimp only
        omega
      whole := (Nat.dvd_add_right h.whole).mpr (dvd_refl _)
      first := fun h0 => absurd h0 hleft }

/-- With at most a packet left, the transfer is complete. -/
theorem inDone_last (h : u.Transfers mem len rest) (hlast : rest.length ≤ u.ep.epMps) :
    (u.inDone mem).2 = some len ∧ (u.inDone mem).1.Idle ∧
      (u.inDone mem).1.ep.epMps = u.ep.epMps ∧ (u.inDone mem).1.ep.epEnable = true := by
  have hlen := h.length_rest
  have hmin : min u.ep.xferLen u.ep.epMps = u.ep.xferLen := by omega
  have hzero : u.ep.xferLen - u.ep.xferLen = 0 := Nat.sub_self _
  unfold inDone
  rw [hmin]
  dsimp only [BlEpState.advance]
  rw [if_pos hzero]
  exact ⟨congrArg some h.total, ⟨rfl, rfl⟩, rfl, h.enable⟩

end BulkIn

/-! ## OUT -/

/-- An OUT endpoint: the driver's record, and the bit that lets the host send. -/
structure BulkOut where
  ep : BlEpState := {}
  ready : Bool := false

namespace BulkOut

/-- `usbd_ep_start_read` into a buffer. -/
def startRead (dataLen : Nat) (u : BulkOut) : BulkOut × Int :=
  if u.ep.epEnable = false then (u, -2) else ({ ep := u.ep.start dataLen, ready := true }, 0)

/-- The interrupt behind a packet that the host has sent: the endpoint, the buffer, and the
length received when the transfer is complete. -/
def outDone (packet : List UInt8) (mem : Nat → UInt8) (u : BulkOut) :
    BulkOut × (Nat → UInt8) × Option Nat :=
  let mem := copyTo mem u.ep.xferBuf packet
  let left := sub32 u.ep.xferLen packet.length
  let u : BulkOut := { ep := u.ep.advance packet.length left, ready := false }
  if packet.length < u.ep.epMps ∨ u.ep.xferLen = 0 then (u, mem, some u.ep.actualXferLen)
  else ({ u with ready := true }, mem, none)

/-- A read of `size` bytes has so far got the full packets `acc`. -/
structure Receives (mem : Nat → UInt8) (size : Nat) (acc : List UInt8) (u : BulkOut) : Prop where
  ready : u.ready = true
  enable : u.ep.epEnable = true
  small : size < 4294967296
  buf : u.ep.xferBuf = acc.length
  total : u.ep.actualXferLen = acc.length
  left : u.ep.xferLen + acc.length = size
  more : acc.length < size
  whole : u.ep.epMps ∣ acc.length
  acc_eq : read mem 0 acc.length = acc

variable {u : BulkOut} {mem : Nat → UInt8} {size : Nat} {acc packet : List UInt8}

theorem startRead_receives (hen : u.ep.epEnable = true) (hpos : 0 < size)
    (hsize : size < 4294967296) (mem : Nat → UInt8) :
    (u.startRead size).1.Receives mem size [] ∧ (u.startRead size).1.ep.epMps = u.ep.epMps := by
  unfold startRead
  rw [if_neg (by simp [hen])]
  exact ⟨⟨rfl, hen, hsize, rfl, rfl, rfl, hpos, Nat.dvd_zero _, rfl⟩, rfl⟩

/-- A read of whole packets has room for one more. -/
theorem Receives.room (h : u.Receives mem size acc) (hsize : u.ep.epMps ∣ size) :
    acc.length + u.ep.epMps ≤ size := by
  obtain ⟨k, hk⟩ := h.whole
  obtain ⟨m, rfl⟩ := hsize
  have hmore := h.more
  rw [hk] at hmore ⊢
  have hkm : k < m := Nat.lt_of_mul_lt_mul_left hmore
  calc u.ep.epMps * k + u.ep.epMps = u.ep.epMps * (k + 1) := by ring
    _ ≤ u.ep.epMps * m := Nat.mul_le_mul_left _ hkm

/-- Where the packet goes, and what is behind it. -/
theorem Receives.outDone_eq (h : u.Receives mem size acc) (hroom : acc.length + packet.length ≤ size) :
    u.outDone packet mem =
      if packet.length < u.ep.epMps ∨ acc.length + packet.length = size then
        ({ ep := u.ep.advance packet.length (size - (acc.length + packet.length)), ready := false },
          copyTo mem acc.length packet, some (acc.length + packet.length))
      else
        ({ ep := u.ep.advance packet.length (size - (acc.length + packet.length)), ready := true },
          copyTo mem acc.length packet, none) := by
  have hleft := h.left
  have hsmall := h.small
  have hsub : sub32 u.ep.xferLen packet.length = size - (acc.length + packet.length) := by
    unfold sub32
    omega
  have hzero : size - (acc.length + packet.length) = 0 ↔ acc.length + packet.length = size := by
    omega
  unfold outDone
  simp only [hsub, BlEpState.advance, hzero, h.total, h.buf]

theorem Receives.read_copyTo (h : u.Receives mem size acc) (packet : List UInt8) :
    read (copyTo mem acc.length packet) 0 (acc.length + packet.length) = acc ++ packet := by
  have happ := read_copyTo_append mem 0 acc.length packet
  rwa [Nat.zero_add, h.acc_eq] at happ

/-- A full packet that leaves room is kept and the endpoint listens on. -/
theorem Receives.outDone_more (h : u.Receives mem size acc)
    (hlen : packet.length = u.ep.epMps) (hmore : acc.length + packet.length < size) :
    (u.outDone packet mem).2.2 = none ∧ (u.outDone packet mem).1.ep.epMps = u.ep.epMps ∧
      (u.outDone packet mem).1.Receives (u.outDone packet mem).2.1 size (acc ++ packet) := by
  have hleft := h.left
  have hsmall := h.small
  rw [h.outDone_eq hmore.le, if_neg (by omega)]
  refine ⟨rfl, rfl, ?_⟩
  constructor
  · rfl
  · exact h.enable
  · exact hsmall
  · rw [List.length_append, ← h.buf]
    rfl
  · rw [List.length_append, ← h.total]
    rfl
  · rw [List.length_append]
    exact Nat.sub_add_cancel hmore.le
  · rwa [List.length_append]
  · rw [List.length_append, hlen]
    exact (Nat.dvd_add_right h.whole).mpr (dvd_refl _)
  · rw [List.length_append]
    exact h.read_copyTo packet

/-- A short packet, or one that fills the buffer, ends the read with all its bytes. -/
theorem Receives.outDone_last (h : u.Receives mem size acc)
    (hroom : acc.length + packet.length ≤ size)
    (hlast : packet.length < u.ep.epMps ∨ acc.length + packet.length = size) :
    (u.outDone packet mem).2.2 = some (acc ++ packet).length ∧
      read (u.outDone packet mem).2.1 0 (acc ++ packet).length = acc ++ packet ∧
      (u.outDone packet mem).1.ep.epMps = u.ep.epMps ∧
      (u.outDone packet mem).1.ep.epEnable = true := by
  rw [h.outDone_eq hroom, if_pos hlast, List.length_append]
  exact ⟨rfl, h.read_copyTo packet, rfl, h.enable⟩

end BulkOut
