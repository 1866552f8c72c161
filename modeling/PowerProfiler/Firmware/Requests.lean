-- SUMMARY: What every received packet does: the reply it gets, the configuration it merges, and the state it leaves alone.
import PowerProfiler.Firmware.Output

/-!
# Requests

A packet that is as long as its size byte says gets exactly one reply; any other
packet changes nothing. Only a configuration request with data reaches `cfg_adc` and
the I2S driver.
-/

open Framing

/-! ## Words and bytes -/

theorem u32Bytes_u32OfBytes (b0 b1 b2 b3 : UInt8) :
    u32Bytes (u32OfBytes b0 b1 b2 b3) = [b0, b1, b2, b3] := by
  have h0 := b0.toNat_lt; have h1 := b1.toNat_lt; have h2 := b2.toNat_lt; have h3 := b3.toNat_lt
  have hw : (u32OfBytes b0 b1 b2 b3).toNat =
      b0.toNat + 256 * b1.toNat + 65536 * b2.toNat + 16777216 * b3.toNat := by
    simp [u32OfBytes, UInt32.toNat_add, UInt32.toNat_shiftLeft, Nat.shiftLeft_eq]
    omega
  simp only [u32Bytes, List.cons.injEq, and_true, ← UInt8.toNat_inj]
  simp [hw, UInt32.toNat_shiftRight, Nat.shiftRight_eq_div_pow]
  omega

theorem u32OfBytes_u32Bytes (w : UInt32) :
    u32OfBytes w.toUInt8 (w >>> 8).toUInt8 (w >>> 16).toUInt8 (w >>> 24).toUInt8 = w := by
  have h := w.toNat_lt
  apply UInt32.toNat_inj.mp
  simp [u32OfBytes, UInt32.toNat_add, UInt32.toNat_shiftLeft, UInt32.toNat_shiftRight,
    Nat.shiftLeft_eq, Nat.shiftRight_eq_div_pow]
  omega

/-- A `memcpy` replaces the first bytes of the record, at most all six. -/
theorem DevAdcCfg.bytes_memcpy (cfg : DevAdcCfg) (data : List UInt8) :
    (cfg.memcpy data).bytes = data.take 6 ++ cfg.bytes.drop data.length := by
  have hlen : (data.take 6 ++ cfg.bytes.drop data.length).length = 6 := by
    rw [List.length_append, List.length_take, List.length_drop, length_bytes]
    omega
  rw [memcpy]
  generalize data.take 6 ++ cfg.bytes.drop data.length = bs at hlen ⊢
  match bs, hlen with
  | [enable, chnl, f0, f1, f2, f3], _ => simp [bytes, u32Bytes_u32OfBytes]

/-- The first byte copied is the enable byte. -/
theorem DevAdcCfg.memcpy_enable (cfg : DevAdcCfg) (enable : UInt8) (data : List UInt8) :
    (cfg.memcpy (enable :: data)).enable = enable := by
  have h := cfg.bytes_memcpy (enable :: data)
  simp only [bytes, List.take_succ_cons, List.cons_append, List.cons.injEq] at h
  exact h.1

/-! ## The configuration request -/

/-- `d'` has the configuration and the driver state of `d`. -/
structure SameDriver (d d' : Device) : Prop where
  cfgAdc : d'.cfgAdc = d.cfgAdc
  i2s0 : d'.i2s0 = d.i2s0
  i2sCfg : d'.i2sCfg = d.i2sCfg
  audioPll : d'.audioPll = d.audioPll
  ptrs : d'.dataBufferWrPtr = d.dataBufferWrPtr ∧ d'.dataBufferRdPtr = d.dataBufferRdPtr
  dataBuffer : d'.dataBuffer = d.dataBuffer
  counts : d'.blkReadCount = d.blkReadCount ∧ d'.blkOverflowCnt = d.blkOverflowCnt

theorem SameDriver.refl (d : Device) : SameDriver d d := ⟨rfl, rfl, rfl, rfl, ⟨rfl, rfl⟩, rfl, rfl, rfl⟩

theorem SameDriver.trans {d d' d'' : Device} (h : SameDriver d d') (h' : SameDriver d' d'') :
    SameDriver d d'' where
  cfgAdc := h'.cfgAdc.trans h.cfgAdc
  i2s0 := h'.i2s0.trans h.i2s0
  i2sCfg := h'.i2sCfg.trans h.i2sCfg
  audioPll := h'.audioPll.trans h.audioPll
  ptrs := ⟨h'.ptrs.1.trans h.ptrs.1, h'.ptrs.2.trans h.ptrs.2⟩
  dataBuffer := h'.dataBuffer.trans h.dataBuffer
  counts := ⟨h'.counts.1.trans h.counts.1, h'.counts.2.trans h.counts.2⟩

/-- `d` with the bytes of a request merged into `cfg_adc`. -/
def Device.merged (d : Device) (data : List UInt8) : Device :=
  { d with cfgAdc := d.cfgAdc.memcpy data }

/-- A configuration request with data merges it and starts or stops sampling as the
merged enable byte says, with the merged channel and frequency. -/
theorem cmdCad_cons {data : List UInt8} (h : data ≠ []) (d : Device) :
    cmdCad data d =
      let d := d.merged data
      if d.cfgAdc.enable ≠ 0 then i2sStart d.cfgAdc.chnl d.cfgAdc.freq d else i2sStop d := by
  cases data with
  | nil => exact absurd rfl h
  | cons enable data => simp only [cmdCad, Device.merged, DevAdcCfg.memcpy_enable]

/-- Every other request leaves the configuration and the driver alone. -/
theorem cmdDecode_sameDriver {req : Frame} (h : ¬ (req.cmd = cmdDevCad ∧ req.payload ≠ []))
    (d : Device) : SameDriver d (cmdDecode req d).1 := by
  rw [cmdDecode]
  by_cases hver : req.cmd = cmdDevVer
  · rw [if_pos hver]
    exact .refl d
  by_cases hcad : req.cmd = cmdDevCad
  · have hnil : req.payload = [] := by
      by_contra hne
      exact h ⟨hcad, hne⟩
    have hkeep : cmdCad req.payload d = d := by rw [hnil, cmdCad]
    rw [if_neg hver, if_pos hcad]
    show SameDriver d (cmdCad req.payload d)
    rw [hkeep]
    exact .refl d
  by_cases hsta : req.cmd = cmdDevSta
  · rw [if_neg hver, if_neg hcad, if_pos hsta]
    exact .refl d
  by_cases hdbg : req.cmd = cmdDevDbg
  · rw [if_neg hver, if_neg hcad, if_neg hsta, if_pos hdbg]
    unfold cmdDbg
    split <;> exact ⟨rfl, rfl, rfl, rfl, ⟨rfl, rfl⟩, rfl, rfl, rfl⟩
  · rw [if_neg hver, if_neg hcad, if_neg hsta, if_neg hdbg]
    exact .refl d

/-! ## The reply -/

/-- The command is none of the four known ones, or a debug request too short for its
count and address. -/
def Rejected (req : Frame) : Prop :=
  (req.cmd ≠ cmdDevVer ∧ req.cmd ≠ cmdDevCad ∧ req.cmd ≠ cmdDevSta ∧ req.cmd ≠ cmdDevDbg) ∨
    (req.cmd = cmdDevDbg ∧ req.payload.length < 6)

theorem length_cmdDbg (cmd : UInt8) (data : List UInt8) (d : Device) :
    (cmdDbg cmd data d).2.payload.length ≤ 232 := by
  unfold cmdDbg
  split
  · next c0 c1 a0 a1 a2 a3 words =>
    have : min (c0.toNat + 256 * c1.toNat) maxReadWords ≤ 58 := min_le_right _ _
    simp only [dataReply, length_readWords]
    omega
  · exact Nat.zero_le _

/-- A reply fits a packet of 234 bytes. -/
theorem length_cmdDecode (req : Frame) (d : Device) :
    (cmdDecode req d).2.payload.length ≤ 232 := by
  rw [cmdDecode]
  by_cases hver : req.cmd = cmdDevVer
  · rw [if_pos hver]
    exact show 4 ≤ 232 by decide
  by_cases hcad : req.cmd = cmdDevCad
  · rw [if_neg hver, if_pos hcad]
    exact (DevAdcCfg.length_bytes _).trans_le (by decide)
  by_cases hsta : req.cmd = cmdDevSta
  · rw [if_neg hver, if_neg hcad, if_pos hsta]
    exact show 8 ≤ 232 by decide
  by_cases hdbg : req.cmd = cmdDevDbg
  · rw [if_neg hver, if_neg hcad, if_neg hsta, if_pos hdbg]
    exact length_cmdDbg _ _ _
  · rw [if_neg hver, if_neg hcad, if_neg hsta, if_neg hdbg]
    exact Nat.zero_le _

theorem cmdDbg_cmd (cmd : UInt8) (data : List UInt8) (d : Device) :
    if data.length < 6 then (cmdDbg cmd data d).2 = errorReply cmd
    else (cmdDbg cmd data d).2.cmd = cmd := by
  match data with
  | c0 :: c1 :: a0 :: a1 :: a2 :: a3 :: words => simp [cmdDbg, dataReply]
  | [] | [_] | [_, _] | [_, _, _] | [_, _, _, _] | [_, _, _, _, _] => simp [cmdDbg]

/-- The reply to a rejected request is an error, and to any other one it carries the
request's command. -/
theorem cmdDecode_cmd (req : Frame) (d : Device) :
    (Rejected req → (cmdDecode req d).2 = errorReply req.cmd) ∧
      (¬ Rejected req → (cmdDecode req d).2.cmd = req.cmd) := by
  have hknown : cmdDevVer ≠ cmdDevDbg ∧ cmdDevCad ≠ cmdDevDbg ∧ cmdDevSta ≠ cmdDevDbg := by decide
  rw [cmdDecode]
  by_cases hver : req.cmd = cmdDevVer
  · rw [if_pos hver]
    exact ⟨fun h => absurd h (by simp [Rejected, hver, hknown]), fun _ => rfl⟩
  by_cases hcad : req.cmd = cmdDevCad
  · rw [if_neg hver, if_pos hcad]
    exact ⟨fun h => absurd h (by simp [Rejected, hcad, hknown]), fun _ => rfl⟩
  by_cases hsta : req.cmd = cmdDevSta
  · rw [if_neg hver, if_neg hcad, if_pos hsta]
    exact ⟨fun h => absurd h (by simp [Rejected, hsta, hknown]), fun _ => rfl⟩
  by_cases hdbg : req.cmd = cmdDevDbg
  · rw [if_neg hver, if_neg hcad, if_neg hsta, if_pos hdbg]
    have hreply := cmdDbg_cmd req.cmd req.payload d
    constructor
    · intro h
      have hlen : req.payload.length < 6 := by simpa [Rejected, hdbg] using h
      rwa [if_pos hlen] at hreply
    · intro h
      have hlen : ¬ req.payload.length < 6 := fun hlt => h (.inr ⟨hdbg, hlt⟩)
      rwa [if_neg hlen] at hreply
  · rw [if_neg hver, if_neg hcad, if_neg hsta, if_neg hdbg]
    exact ⟨fun _ => rfl, fun h => absurd (.inl ⟨hver, hcad, hsta, hdbg⟩) h⟩

/-- The error flag together with an empty payload marks exactly the rejected requests. -/
theorem cmdDecode_error_iff (req : Frame) (d : Device) :
    ((cmdDecode req d).2.cmd &&& cmdErrFlg ≠ 0 ∧ (cmdDecode req d).2.payload = []) ↔
      Rejected req := by
  obtain ⟨herr, hcmd⟩ := cmdDecode_cmd req d
  by_cases h : Rejected req
  · rw [herr h]
    have hflag : (req.cmd ||| cmdErrFlg) &&& cmdErrFlg ≠ 0 := by
      intro hzero
      have hbit := congrArg (fun b : UInt8 => b.toNat.testBit 7) hzero
      have hmask : cmdErrFlg.toNat.testBit 7 = true := by decide
      simp only [UInt8.toNat_and, UInt8.toNat_or, Nat.testBit_and, Nat.testBit_or, hmask,
        Bool.or_true, Bool.and_true, UInt8.toNat_zero, Nat.zero_testBit] at hbit
      exact absurd hbit (by decide)
    simp [errorReply, hflag, h]
  · rw [hcmd h]
    have hflag : req.cmd &&& cmdErrFlg = 0 := by
      simp only [Rejected, not_or, not_and, ne_eq] at h
      by_cases hver : req.cmd = cmdDevVer
      · rw [hver]; decide
      by_cases hcad : req.cmd = cmdDevCad
      · rw [hcad]; decide
      by_cases hsta : req.cmd = cmdDevSta
      · rw [hsta]; decide
      · have hdbg : req.cmd = cmdDevDbg := by
          by_contra hne
          exact h.1 hver hcad hsta hne
        rw [hdbg]; decide
    simp [hflag, h]

/-! ## Every packet -/

/-- A packet that holds its whole request offers one reply to the FIFO and passes the
request's effect on to the driver. -/
theorem usbdCdcAcmBulkOut_request {size cmd : UInt8} {rest : List UInt8}
    (h : size.toNat ≤ rest.length) (d : Device) :
    (request (size :: cmd :: rest)) = some (Frame.ofHead size cmd rest) ∧
      usbdCdcAcmBulkOut (size :: cmd :: rest) d =
        sendReply (cmdDecode (Frame.ofHead size cmd rest) d).2
          (cmdDecode (Frame.ofHead size cmd rest) d).1 := by
  have hreq : request (size :: cmd :: rest) = some (Frame.ofHead size cmd rest) := by
    rw [request, if_pos h]
  exact ⟨hreq, by rw [usbdCdcAcmBulkOut, decodePacket, hreq]⟩

theorem sendReply_sameDriver (reply : Frame) (d : Device) : SameDriver d (sendReply reply d) :=
  ⟨rfl, rfl, rfl, rfl, ⟨rfl, rfl⟩, rfl, rfl, rfl⟩

theorem cmdDecode_cad {req : Frame} (h : req.cmd = cmdDevCad) (d : Device) :
    (cmdDecode req d).1 = cmdCad req.payload d := by
  have hver : req.cmd ≠ cmdDevVer := by rw [h]; decide
  rw [cmdDecode, if_neg hver, if_pos h]

theorem i2sStart_cfgAdc (channels : UInt8) (freq : UInt32) (d : Device) :
    (i2sStart channels freq d).cfgAdc = d.cfgAdc := by
  rw [i2sStart]
  by_cases hdev : d.i2s0
  · by_cases hre : d.Reinit channels freq
    · rw [if_pos hdev, if_pos hre]
      rfl
    · rw [if_pos hdev, if_neg hre]
  · rw [if_neg hdev]

theorem i2sStop_cfgAdc (d : Device) : (i2sStop d).cfgAdc = d.cfgAdc := by
  rw [i2sStop]
  split <;> rfl

/-- The configuration behind a configuration request with data. -/
theorem cmdCad_cfgAdc {data : List UInt8} (h : data ≠ []) (d : Device) :
    (cmdCad data d).cfgAdc = (d.merged data).cfgAdc := by
  rw [cmdCad_cons h]
  dsimp only
  split
  · exact i2sStart_cfgAdc _ _ _
  · exact i2sStop_cfgAdc _

/-- What a packet of `nbytes` bytes does, by its length, its size byte and its command. -/
theorem usbdCdcAcmBulkOut_law (packet : List UInt8) (d : Device) :
    if 2 ≤ packet.length ∧ (packet.getD 0 0).toNat + 2 ≤ packet.length then
      ∃ reply : Frame,
        writeOf (.irq (.bulkOut packet)) d = some reply.bytes ∧
        (usbdCdcAcmBulkOut packet d).usbTxRb = (d.usbTxRb.write reply.bytes).1 ∧
        reply.bytes.length = reply.size.toNat + 2 ∧ reply.bytes.length ≤ 234 ∧
        (let cmd := packet.getD 1 0
          let data := (packet.drop 2).take (packet.getD 0 0).toNat
          let bad := (cmd ≠ cmdDevVer ∧ cmd ≠ cmdDevCad ∧ cmd ≠ cmdDevSta ∧ cmd ≠ cmdDevDbg) ∨
            (cmd = cmdDevDbg ∧ data.length < 6)
          (bad → reply.cmd = cmd ||| cmdErrFlg ∧ reply.payload = []) ∧
          (¬ bad → reply.cmd = cmd) ∧
          ((reply.cmd &&& cmdErrFlg ≠ 0 ∧ reply.payload = []) ↔ bad) ∧
          if cmd = cmdDevCad ∧ data ≠ [] then
            (d.merged data).cfgAdc.bytes = data.take 6 ++ d.cfgAdc.bytes.drop (min data.length 6) ∧
            SameDriver (if (d.merged data).cfgAdc.enable ≠ 0 then
                i2sStart (d.merged data).cfgAdc.chnl (d.merged data).cfgAdc.freq (d.merged data)
              else i2sStop (d.merged data)) (usbdCdcAcmBulkOut packet d) ∧
            (usbdCdcAcmBulkOut packet d).cfgAdc = (d.merged data).cfgAdc
          else SameDriver d (usbdCdcAcmBulkOut packet d))
    else writeOf (.irq (.bulkOut packet)) d = none ∧ usbdCdcAcmBulkOut packet d = d := by
  match packet with
  | [] => exact ⟨rfl, rfl⟩
  | [_] => exact ⟨rfl, rfl⟩
  | size :: cmd :: rest =>
      by_cases hlen : size.toNat ≤ rest.length
      · obtain ⟨hreq, hout⟩ := @usbdCdcAcmBulkOut_request size cmd rest hlen d
        have hwrite : writeOf (.irq (.bulkOut (size :: cmd :: rest))) d =
            some (cmdDecode (Frame.ofHead size cmd rest) d).2.bytes := by
          simp only [writeOf, decodePacket, hreq, Option.map_some]
        have hdata : (List.drop 2 (size :: cmd :: rest)).take size.toNat =
            (Frame.ofHead size cmd rest).payload := rfl
        have hcmd := cmdDecode_cmd (Frame.ofHead size cmd rest) d
        have hiff := cmdDecode_error_iff (Frame.ofHead size cmd rest) d
        have hmax := length_cmdDecode (Frame.ofHead size cmd rest) d
        rw [if_pos (by simpa using hlen)]
        refine ⟨(cmdDecode (Frame.ofHead size cmd rest) d).2, hwrite, ?_, ?_, ?_, ?_⟩
        · rw [hout, sendReply, (cmdDecode_output _ d).usbTxRb]
        · simp
        · simpa using hmax
        simp only [List.getD_cons_zero, List.getD_cons_succ, hdata]
        refine ⟨fun hbad => by rw [hcmd.1 hbad]; exact ⟨rfl, rfl⟩, hcmd.2, hiff, ?_⟩
        by_cases hcad : cmd = cmdDevCad ∧ (Frame.ofHead size cmd rest).payload ≠ []
        · have hdrop : ∀ n, (d.cfgAdc.bytes).drop n = d.cfgAdc.bytes.drop (min n 6) := by
            intro n
            by_cases hn : n ≤ 6
            · rw [min_eq_left hn]
            · rw [min_eq_right (by omega), List.drop_of_length_le (by simp; omega),
                List.drop_of_length_le (by simp)]
          rw [if_pos hcad, hout, cmdDecode_cad hcad.1, ← hdrop]
          refine ⟨DevAdcCfg.bytes_memcpy _ _, ?_, cmdCad_cfgAdc hcad.2 d⟩
          have hcons := cmdCad_cons hcad.2 d
          dsimp only at hcons
          rw [← hcons]
          exact sendReply_sameDriver _ _
        · rw [if_neg hcad, hout]
          exact (cmdDecode_sameDriver hcad d).trans (sendReply_sameDriver _ _)
      · have hreq : request (size :: cmd :: rest) = none := by rw [request, if_neg hlen]
        rw [if_neg (by simpa using hlen)]
        simp [writeOf, usbdCdcAcmBulkOut, decodePacket, hreq]
