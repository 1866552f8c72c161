-- SUMMARY: The DMA channel of the I2S driver: every interrupt finds the next 32 words of the converter in i2s_rx_buffer.
import PowerProfiler.Firmware.SampleRing
import PowerProfiler.Firmware.DmaChain

/-!
# The DMA channel of the I2S unit

`i2s_dma_init` gives the channel one transfer, the whole of `i2s_rx_buffer`, and links it to
itself. Each word that the channel reads from the receive register is the next one of the
converter. The interrupt copies the buffer before the channel writes to it again.
-/

open Dma

namespace I2sDma

/-- `DMA_ADDR_I2S_RDR` -/
def dmaAddrI2sRdr : UInt32 := 0x4000AA8C

/-- `rx_transfers`, for a buffer at the given address. -/
def rxTransfers (i2sRxBuffer : UInt32) : List LliTransfer :=
  [{ srcAddr := dmaAddrI2sRdr, dstAddr := i2sRxBuffer, nbytes := 4 * UInt32.ofNat i2sRxBufLen }]

/-- The channel as `bflb_dma_channel_init` leaves it for `rx_config`. -/
structure RxConfig (c : LliControl) : Prop where
  sWidth : c.sWidth = 2
  si : c.si = false
  di : c.di = true

/-- The end of `i2s_dma_init`, with a pool of one node. -/
def i2sDmaInit (i2sRxBuffer : UInt32) (d : DmaChannel) : DmaChannel :=
  let r := lliReload 1 (rxTransfers i2sRxBuffer) d
  lliLinkHead r.2.toNat r.1

/-- The buffer, the number of words read from the converter, and what the interrupts have
found so far. -/
structure Rx where
  i2sRxBuffer : Nat → UInt32
  wordsRead : Nat
  blocks : List RxBuffer

/-- What the interrupt finds in the buffer. -/
def Rx.block (s : Rx) : RxBuffer :=
  ⟨(List.range i2sRxBufLen).map s.i2sRxBuffer, by simp⟩

/-- The work of the channel, for a converter that delivers `samples` and a buffer at `base`. -/
def rxStep (samples : Nat → UInt32) (base : UInt32) (s : Rx) : Work → Rx
  | .move _ dst =>
      { s with
        i2sRxBuffer := Function.update s.i2sRxBuffer ((dst - base).toNat / 4) (samples s.wordsRead)
        wordsRead := s.wordsRead + 1 }
  | .irq => { s with blocks := s.blocks ++ [s.block] }

/-- The words from `start` on that fill the buffer. -/
def blockAt (samples : Nat → UInt32) (start : Nat) : RxBuffer :=
  ⟨(List.range i2sRxBufLen).map fun k => samples (start + k), by simp⟩

/-- What the transfer asks of the channel. -/
theorem work_rxTransfers {c : LliControl} (hc : RxConfig c) (base : UInt32) :
    (rxTransfers base).flatMap (LliTransfer.work c) =
      (List.range i2sRxBufLen).map (fun k => .move dmaAddrI2sRdr (base + UInt32.ofNat (k * 4))) ++
        [.irq] := by
  have hlen : (transferLen c.sWidth (4 * UInt32.ofNat i2sRxBufLen)).getD 0 = i2sRxBufLen := by
    rw [hc.sWidth]
    rfl
  have hwidth : c.width = 4 := by
    rw [LliControl.width, hc.sWidth]
    rfl
  simp only [rxTransfers, List.flatMap_singleton, LliTransfer.work, hlen, moves, itemAddr, hc.si,
    hc.di, hwidth, Bool.false_eq_true, if_false, if_true]

variable (samples : Nat → UInt32) (base : UInt32)

/-- The moves of a round fill the buffer in order. -/
theorem foldl_moves (m : Nat) (hm : m ≤ i2sRxBufLen) (s : Rx) :
    let s' := ((List.range m).map fun k =>
      Work.move dmaAddrI2sRdr (base + UInt32.ofNat (k * 4))).foldl (rxStep samples base) s
    s'.wordsRead = s.wordsRead + m ∧ s'.blocks = s.blocks ∧
      ∀ k < m, s'.i2sRxBuffer k = samples (s.wordsRead + k) := by
  induction m with
  | zero => exact ⟨rfl, rfl, fun k hk => absurd hk (Nat.not_lt_zero k)⟩
  | succ m ih =>
      obtain ⟨hread, hblocks, hbuffer⟩ := ih (by omega)
      have hslot : (base + UInt32.ofNat (m * 4) - base).toNat / 4 = m := by
        have hsub : base + UInt32.ofNat (m * 4) - base = UInt32.ofNat (m * 4) := by
          rw [UInt32.add_comm, UInt32.add_sub_cancel]
        have hsmall : m * 4 < 2 ^ 32 := by
          rw [i2sRxBufLen] at hm
          omega
        rw [hsub, UInt32.toNat_ofNat_of_lt' hsmall, Nat.mul_div_cancel _ (by decide)]
      rw [List.range_succ, List.map_append, List.foldl_append]
      refine ⟨congrArg (· + 1) hread, hblocks, fun k hk => ?_⟩
      show Function.update _ ((base + UInt32.ofNat (m * 4) - base).toNat / 4) _ k = _
      rw [hslot, hread]
      rcases Nat.lt_succ_iff_lt_or_eq.mp hk with hlt | rfl
      · rw [Function.update_of_ne hlt.ne]
        exact hbuffer k hlt
      · rw [Function.update_self]

/-- A round hands the interrupt the next words of the converter. -/
theorem round_block {c : LliControl} (hc : RxConfig c) (s : Rx) :
    let s' := ((rxTransfers base).flatMap (LliTransfer.work c)).foldl (rxStep samples base) s
    s'.wordsRead = s.wordsRead + i2sRxBufLen ∧
      s'.blocks = s.blocks ++ [blockAt samples s.wordsRead] := by
  obtain ⟨hread, hblocks, hbuffer⟩ := foldl_moves samples base i2sRxBufLen (le_refl _) s
  rw [work_rxTransfers hc, List.foldl_append]
  refine ⟨hread, ?_⟩
  show _ ++ [Rx.block _] = _
  rw [hblocks]
  refine congrArg (fun b => s.blocks ++ [b]) (Subtype.ext ?_)
  exact List.map_congr_left fun k hk => hbuffer k (List.mem_range.mp hk)

/-- The transfer has room in the pool of one node. -/
theorem reload_rxTransfers (d : DmaChannel) (hc : RxConfig d.regs.control) :
    (lliReload 1 (rxTransfers base) d).2 = 1 ∧
      (lliReload 1 (rxTransfers base) d).1.fault = d.fault := by
  have hlen : transferLen d.regs.control.sWidth (4 * UInt32.ofNat i2sRxBufLen) = some 32 := by
    rw [hc.sWidth]
    rfl
  have hcount : nodeCount d.regs.control (rxTransfers base) = 1 := by
    simp only [nodeCount, rxTransfers, List.map_cons, List.map_nil, hlen]
    rfl
  have haccepted : Accepted d.regs.control (rxTransfers base) := by
    simp only [Accepted, rxTransfers, List.mem_singleton, forall_eq, hlen, Option.isSome_some]
  obtain ⟨hok, hvalue, hfault⟩ := lliReloadLoop_result (c := d.regs.control) true (rxTransfers base)
    ⟨d.pool, 0, d.fault⟩ (Nat.zero_le 1)
  simp only [Nat.zero_add] at hok hvalue
  have hone : (lliReload 1 (rxTransfers base) d).2 = 1 := by
    have hresult := (hvalue (hok.mpr ⟨haccepted, hcount.le⟩)).1
    rw [hcount] at hresult
    exact hresult
  have hnot : ¬ (lliReload 1 (rxTransfers base) d).2 = -12 := by
    rw [hone]
    decide
  exact ⟨hone, Bool.eq_iff_iff.mpr (hfault.trans (or_iff_left hnot))⟩

/-- The channel does the transfer again and again. -/
theorem work_i2sDmaInit (d : DmaChannel) (hc : RxConfig d.regs.control) (rounds : Nat) :
    (i2sDmaInit base d).work rounds =
      (List.replicate rounds ((rxTransfers base).flatMap (LliTransfer.work d.regs.control))).flatten := by
  have hone := (reload_rxTransfers base d hc).1
  have hbytes : ∀ t ∈ rxTransfers base, t.nbytes ≠ 0 := by
    simp only [rxTransfers, List.mem_singleton, forall_eq]
    decide
  have hwidth : d.regs.control.sWidth ≠ 3 := by
    rw [hc.sWidth]
    decide
  have hpos : 0 ≤ (lliReload 1 (rxTransfers base) d).2 := by
    rw [hone]
    decide
  obtain ⟨hlinked, hwork, hregs, hresult⟩ := lliReload_chain 1 hbytes d hwidth hpos
  have hnodes : nodeCount d.regs.control (rxTransfers base) = 0 + 1 :=
    Int.ofNat.inj (hresult.symm.trans hone)
  rw [hnodes] at hlinked hwork
  have hrounds := lliLinkHead_rounds hlinked hwork hregs rounds
  have htotal : (lliReload 1 (rxTransfers base) d).2.toNat = 0 + 1 := by
    rw [hone]
    rfl
  rw [Nat.zero_add, Nat.mul_one] at hrounds
  unfold i2sDmaInit
  dsimp only
  rwa [htotal]

/-- Round after round, whatever was in the buffer: the interrupts find the words of the
converter in order, 32 in each block, without a gap and without a repetition. -/
theorem i2sDmaInit_blocks (d : DmaChannel) (hc : RxConfig d.regs.control) (s : Rx) (rounds : Nat) :
    (lliReload 1 (rxTransfers base) d).1.fault = d.fault ∧
      (((i2sDmaInit base d).work rounds).foldl (rxStep samples base) s).blocks =
        s.blocks ++ (List.range rounds).map fun i => blockAt samples (s.wordsRead + i2sRxBufLen * i) := by
  refine ⟨(reload_rxTransfers base d hc).2, ?_⟩
  rw [work_i2sDmaInit base d hc]
  induction rounds generalizing s with
  | zero => simp
  | succ rounds ih =>
      obtain ⟨hread, hblocks⟩ := round_block samples base hc s
      rw [List.replicate_succ, List.flatten_cons, List.foldl_append, ih, hread, hblocks,
        List.append_assoc, List.range_succ_eq_map, List.map_cons, List.map_map]
      refine congrArg _ (congrArg₂ List.cons rfl (List.map_congr_left fun i _ => ?_))
      simp only [Function.comp_apply, Nat.mul_succ]
      rw [Nat.add_assoc, Nat.add_comm i2sRxBufLen]

/-- The channel behind `bflb_dma_channel_init` and `bflb_dma_channel_irq_attach`. -/
def rxChannel : DmaChannel where
  pool _ := ⟨0, 0, none, ⟨0, dmaDataWidth8Bit, false, false, false⟩⟩
  regs := ⟨0, 0, none, ⟨0, dmaDataWidth32Bit, false, true, true⟩⟩

theorem i2sDmaInit_blocks_counting :
    (lliReload 1 (rxTransfers 0x42020000) rxChannel).1.fault = false ∧
      (((i2sDmaInit 0x42020000 rxChannel).work 2).foldl (rxStep UInt32.ofNat 0x42020000)
        ⟨fun _ => 7, 0, []⟩).blocks = [blockAt UInt32.ofNat 0, blockAt UInt32.ofNat 32] :=
  i2sDmaInit_blocks UInt32.ofNat 0x42020000 rxChannel ⟨rfl, rfl, rfl⟩ ⟨fun _ => 7, 0, []⟩ 2

end I2sDma
