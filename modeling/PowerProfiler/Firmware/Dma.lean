-- SUMMARY: The linked list items of bflb_dma.c: what bflb_dma_channel_lli_reload writes and what the channel then transfers.
import PowerProfiler.Lib.Chain

/-!
# DMA chains

A node of a chain transfers at most 4095 items. `bflb_dma_channel_lli_reload` cuts each
transfer into nodes and links them all; only the last node of a transfer raises an interrupt.
`bflb_dma_channel_lli_link_head` closes the chain.
-/

open Chain

namespace Dma

/-! ## Registers -/

/-- `DMA_DATA_WIDTH_8BIT` -/
def dmaDataWidth8Bit : Fin 4 := 0

/-- `DMA_DATA_WIDTH_16BIT` -/
def dmaDataWidth16Bit : Fin 4 := 1

/-- `DMA_DATA_WIDTH_32BIT` -/
def dmaDataWidth32Bit : Fin 4 := 2

/-- `union bflb_dma_lli_control_s`, as far as a chain depends on it. -/
structure LliControl where
  transferSize : Nat
  sWidth : Fin 4
  si : Bool
  di : Bool
  i : Bool
  deriving DecidableEq

/-- `struct bflb_dma_channel_lli_pool_s`; `nextlli` is the index of the node it points to. -/
structure LliNode where
  srcAddr : UInt32
  dstAddr : UInt32
  nextlli : Option Nat
  control : LliControl
  deriving DecidableEq

/-- `struct bflb_dma_channel_lli_transfer_s` -/
structure LliTransfer where
  srcAddr : UInt32
  dstAddr : UInt32
  nbytes : UInt32

/-- The pool of nodes and the registers of the channel. `fault` records a write to the pool
behind its last node. -/
structure DmaChannel where
  pool : Nat → LliNode
  regs : LliNode
  fault : Bool := false

/-! ## Writing the chain -/

/-- The variables of the loop in `bflb_dma_lli_config`. -/
structure ConfigLoop where
  pool : Nat → LliNode
  srcAddr : UInt32
  dstAddr : UInt32
  control : LliControl

/-- One round of that loop for the nodes from `base` on. -/
def lliConfigNode (base lliCount : Nat) (transferOffset : UInt32) (lastTransferLen : Nat)
    (s : ConfigLoop) (i : Nat) : ConfigLoop :=
  let node : LliNode :=
    { srcAddr := s.srcAddr, dstAddr := s.dstAddr, nextlli := none, control := (s.pool (base + i)).control }
  let pool := Function.update s.pool (base + i) node
  let control :=
    if i = lliCount - 1 then { s.control with transferSize := lastTransferLen % 4096, i := true }
    else s.control
  let pool :=
    if i ≠ 0 then
      Function.update pool (base + i - 1) { pool (base + i - 1) with nextlli := some (base + i) }
    else pool
  { pool := Function.update pool (base + i) { pool (base + i) with control := control }
    srcAddr := if control.si then s.srcAddr + transferOffset else s.srcAddr
    dstAddr := if control.di then s.dstAddr + transferOffset else s.dstAddr
    control := control }

/-- `bflb_dma_lli_config` -/
def lliConfig (control : LliControl) (base lliCount : Nat) (srcAddr dstAddr transferOffset : UInt32)
    (lastTransferLen : Nat) (pool : Nat → LliNode) : Nat → LliNode :=
  ((List.range lliCount).foldl (lliConfigNode base lliCount transferOffset lastTransferLen)
    { pool, srcAddr, dstAddr, control := { control with transferSize := 4064, i := false } }).pool

/-- `actual_transfer_offset` -/
def transferOffset (sWidth : Fin 4) : UInt32 :=
  match sWidth with
  | 0 => 4064
  | 1 => (4064 : UInt32) <<< 1
  | 2 => (4064 : UInt32) <<< 2
  | 3 => 0

/-- `actual_transfer_len`, when the length is a multiple of the width. -/
def transferLen (sWidth : Fin 4) (nbytes : UInt32) : Option Nat :=
  match sWidth with
  | 0 => some nbytes.toNat
  | 1 => if nbytes % 2 ≠ 0 then none else some (nbytes >>> 1).toNat
  | 2 => if nbytes % 4 ≠ 0 then none else some (nbytes >>> 2).toNat
  | 3 => some 0

/-- `current_lli_count` and `last_transfer_len` -/
def cut (len : Nat) : Nat × Nat :=
  let count := len / 4064 + 1
  let last := len % 4064
  -- The most that the last node can transfer is 4095.
  if 1 < count ∧ last < 4095 - 4064 then (count - 1, last + 4064) else (count, last)

/-- What the loop of `bflb_dma_channel_lli_reload` leaves: the pool and
`lli_count_used_offset`. -/
structure Reload where
  pool : Nat → LliNode
  used : Nat
  fault : Bool

/-- The nodes of one transfer go behind those in use, and the last of these is linked to
them. -/
def addTransfer (control : LliControl) (maxLliCount : Nat) (first : Bool) (t : LliTransfer)
    (len : Nat) (s : Reload) : Reload :=
  let (count, last) := cut len
  let pool := lliConfig control s.used count t.srcAddr t.dstAddr (transferOffset control.sWidth)
    last s.pool
  let pool :=
    if first then pool
    else Function.update pool (s.used - 1) { pool (s.used - 1) with nextlli := some s.used }
  { pool, used := s.used + count, fault := s.fault || decide (maxLliCount < s.used + count) }

/-- The loop of `bflb_dma_channel_lli_reload` with its result: -1 for a length that is no
multiple of the width, `-ENOMEM` for a pool that is too small. -/
def lliReloadLoop (control : LliControl) (maxLliCount : Nat) :
    Bool → List LliTransfer → Reload → Reload × Int
  | _, [], s => (s, s.used)
  | first, t :: ts, s =>
      match transferLen control.sWidth t.nbytes with
      | none => (s, -1)
      | some len =>
          let s := addTransfer control maxLliCount first t len s
          if maxLliCount < s.used then (s, -12) else lliReloadLoop control maxLliCount false ts s

/-- `bflb_dma_channel_lli_reload` -/
def lliReload (maxLliCount : Nat) (transfer : List LliTransfer) (d : DmaChannel) : DmaChannel × Int :=
  let r := lliReloadLoop d.regs.control maxLliCount true transfer
    { pool := d.pool, used := 0, fault := d.fault }
  ({ pool := r.1.pool
     regs := if r.2 < 0 then d.regs else r.1.pool 0
     fault := r.1.fault }, r.2)

/-- `bflb_dma_channel_lli_link_head` -/
def lliLinkHead (usedLliCount : Nat) (d : DmaChannel) : DmaChannel :=
  let pool := Function.update d.pool (usedLliCount - 1)
    { d.pool (usedLliCount - 1) with nextlli := some 0 }
  { d with pool := pool, regs := { d.regs with nextlli := (pool 0).nextlli } }

/-! ## The channel -/

/-- What the channel does: it moves an item, or raises the interrupt. -/
inductive Work where
  | move (src dst : UInt32)
  | irq
  deriving DecidableEq

/-- The bytes of an item. -/
def LliControl.width (c : LliControl) : Nat := 2 ^ c.sWidth.val

/-- Where the item `k` behind an address lies, if the address moves. -/
def itemAddr (width : Nat) (moves : Bool) (addr : UInt32) (k : Nat) : UInt32 :=
  if moves then addr + UInt32.ofNat (k * width) else addr

/-- So many items from the given addresses on. -/
def moves (c : LliControl) (src dst : UInt32) (n : Nat) : List Work :=
  (List.range n).map fun k =>
    .move (itemAddr c.width c.si src k) (itemAddr c.width c.di dst k)

/-- The work of a node. -/
def LliNode.work (n : LliNode) : List Work :=
  moves n.control n.srcAddr n.dstAddr n.control.transferSize ++ if n.control.i then [.irq] else []

/-- The work of the channel over so many nodes, the one in its registers first. -/
def DmaChannel.work (d : DmaChannel) (nodes : Nat) : List Work :=
  match nodes with
  | 0 => []
  | nodes + 1 => d.regs.work ++ walk LliNode.nextlli LliNode.work d.pool nodes d.regs.nextlli

/-- What a transfer asks for. -/
def LliTransfer.work (c : LliControl) (t : LliTransfer) : List Work :=
  moves c t.srcAddr t.dstAddr ((transferLen c.sWidth t.nbytes).getD 0) ++ [.irq]

end Dma
