-- SUMMARY: The commands of the user interface, the packets they become, and the device's replies as the host takes them.
import PowerProfiler.Firmware.Requests
import PowerProfiler.Host.Overflow
import PowerProfiler.Lib.Bytes

/-!
# Commands

`SendBlk` hands a packet in `buftx` to the communication thread and starts the wait for
the reply. The device takes the packet apart with a packed struct, the host the reply byte
by byte: both see the same configuration and the same counters.
-/

open Framing Circular

namespace Host

/-! ## Sending -/

/-- `ADC_DEVICE_ID` -/
def adcDeviceId : UInt8 := 0x23

/-- `SendBlk`, once `lentx` is zero. -/
def sendBlk (dataCount : UInt8) (h : Host) : Host :=
  { h with
    buftx := Function.update h.buftx 0 dataCount
    waitId := h.buftx 1
    waitCnt := 1
    lentx := dataCount.toNat + 2 }

/-- The bytes that `WriteFile` is given. -/
def packet (h : Host) : List UInt8 := Window.read h.buftx 0 h.lentx

/-- The request of `SetAdcIniCfg`. -/
def setAdcIniCfg (mode adcChannel : UInt8) (adcSmps : UInt32) (h : Host) : Host :=
  let freq := adcSmps * 512
  sendBlk 6 { h with
    buftx := copyTo h.buftx 0
      [6, cmdDevCad, mode, adcChannel, freq.toUInt8, (freq >>> 8).toUInt8, (freq >>> 16).toUInt8,
        (freq >>> 24).toUInt8] }

/-- The request of `ReadStatus`. -/
def askStatus (h : Host) : Host :=
  sendBlk 0 { h with buftx := Function.update h.buftx 1 cmdDevSta }

/-- The request of `GetDevVersion`. -/
def askVersion (h : Host) : Host :=
  sendBlk 0 { h with purgeCom := true, buftx := Function.update h.buftx 1 cmdDevVer }

/-! ## Reading -/

/-- What `ReadBlk` returns once `wait_cnt` is zero. -/
def readBlk (h : Host) : Bool := h.waitId &&& 0x80 == 0

/-- `ReadStatus` behind its request. -/
def readStatus (h : Host) : Host :=
  if h.readBlk ∧ h.lenrx = 8 then
    { h with devAllSendCount := dwordAt h.bufrx 0, devNotSendCount := dwordAt h.bufrx 4 }
  else h

/-- The device id that `GetDevVersion` takes from the reply, `devId` before it. -/
def devVersionId (devId : UInt8) (h : Host) : UInt8 :=
  if h.readBlk ∧ h.lenrx = 4 then h.bufrx 0 else devId

/-- A host that awaits the reply to a command, with nothing carried over. -/
structure Awaiting (id : UInt8) where
  host : Host
  waitId : host.waitId = id
  waitCnt : 0 < host.waitCnt
  idxBufcom : host.idxBufcom = 0

/-- The state behind a call of `QueryPort` that receives the reply. -/
def Awaiting.take {id : UInt8} (g : Awaiting id) (written : Option Nat) (reply : Chunk) : Host :=
  (g.host.queryPort written (some reply)).1

/-- A reply without the error flag ends the wait and is found in `bufrx`. -/
theorem Awaiting.take_reply {id : UInt8} (g : Awaiting id) (written : Option Nat) (f : Frame)
    (hcmd : f.cmd = id) (hlow : id &&& 0x80 = 0) (hid : id &&& 0x7F = id)
    (hdata : id &&& 0x7F ≠ cmdDevAdc) (hsize : f.payload.length ≤ bufrxSize)
    (hfits : f.bytes.length ≤ buffSize) :
    let got := g.take written ⟨f.bytes, hfits⟩
    got.waitCnt = 0 ∧ got.readBlk ∧ got.lenrx = f.payload.length ∧
      Window.read got.bufrx 0 f.payload.length = f.payload := by
  intro got
  obtain ⟨errtx, lentx, hcall⟩ := queryPort_chunk written ⟨f.bytes, hfits⟩ g.host
  have hpurge : g.host.purge.waitId = id ∧ 0 < g.host.purge.waitCnt ∧
      g.host.purge.idxBufcom = 0 := by
    unfold purge
    split
    · exact ⟨g.waitId, g.waitCnt, rfl⟩
    · exact ⟨g.waitId, g.waitCnt, g.idxBufcom⟩
  obtain ⟨hwaitId, hwait, hidx⟩ := hpurge
  obtain ⟨-, mem, idx, heq, -, -⟩ :=
    @receive_eq ⟨f.bytes, hfits⟩ (List.cons_ne_nil _ _)
      { g.host.purge with errtx := errtx, lentx := lentx }
  have hbase : ({ g.host.purge with errtx := errtx, lentx := lentx } : Host).base
      ⟨f.bytes, hfits⟩ = [] := base_of_empty hidx _
  rw [hbase, (frames_bytes f (hsize.trans (by decide))).1] at heq
  -- The frame is the awaited reply.
  have hhandle : ({ g.host.purge with errtx := errtx, lentx := lentx } : Host).handle f =
      (replyFrame f { g.host.purge with errtx := errtx, lentx := lentx }, false) := by
    have hnot : ¬ (({ g.host.purge with errtx := errtx, lentx := lentx } : Host).workAdc ∧
        f.cmd &&& 0x7F = cmdDevAdc) := by
      rw [hcmd]
      exact fun h => hdata h.2
    rw [handle, if_neg hnot, if_pos hwait, if_pos (by rw [hcmd, hid]; exact hwaitId.symm)]
  have hgot : got = (replyFrame f { g.host.purge with errtx := errtx, lentx := lentx }).setBuf
      mem idx := by
    have htake : got = (g.host.queryPort written (some ⟨f.bytes, hfits⟩)).1 := rfl
    rw [htake, hcall, heq, handleAll, hhandle]
    rfl
  have hkeep : (replyFrame f { g.host.purge with errtx := errtx, lentx := lentx }).waitId = id := by
    have hflag : ¬ f.cmd &&& 0x80 ≠ 0 := by
      rw [hcmd, not_not]
      exact hlow
    simp only [replyFrame, if_neg hflag, hwaitId]
  rw [hgot]
  refine ⟨rfl, ?_, rfl, Window.read_copyTo _ _ _⟩
  show ((replyFrame f { g.host.purge with errtx := errtx, lentx := lentx }).waitId &&& 0x80 == 0) =
    true
  rw [hkeep, hlow]
  rfl

/-! ## Both sides -/

/-- A double word that was written little end first. -/
theorem dwordAt_eq {mem : Nat → UInt8} {i : Nat} {w : UInt32}
    (hread : Window.read mem i 4 = u32Bytes w) : dwordAt mem i = w := by
  simp only [Window.read_succ, Window.read_zero, u32Bytes, List.cons.injEq, and_true] at hread
  obtain ⟨h0, h1, h2, h3⟩ := hread
  have hw := w.toNat_lt
  have hsum := Bytes.toNat_or4 w.toUInt8 (w >>> 8).toUInt8 (w >>> 16).toUInt8 (w >>> 24).toUInt8
  apply UInt32.toNat_inj.mp
  rw [dwordAt, h0, h1, h2, h3, hsum]
  simp [UInt32.toNat_shiftRight, Nat.shiftRight_eq_div_pow]
  omega

/-- The six configuration bytes fill `cfg_adc`. -/
theorem memcpy_six (cfg : DevAdcCfg) (mode adcChannel : UInt8) (freq : UInt32) :
    cfg.memcpy (mode :: adcChannel :: u32Bytes freq) =
      { enable := mode, chnl := adcChannel, freq := freq } := by
  rw [DevAdcCfg.memcpy]
  show ({ enable := mode, chnl := adcChannel, freq := u32OfBytes _ _ _ _ } : DevAdcCfg) = _
  rw [u32OfBytes_u32Bytes]

theorem packet_setAdcIniCfg (mode adcChannel : UInt8) {adcSmps freq : UInt32} (h : Host)
    (hfreq : freq = adcSmps * 512) :
    (h.setAdcIniCfg mode adcChannel adcSmps).packet =
      6 :: cmdDevCad :: mode :: adcChannel :: u32Bytes freq := by
  rw [hfreq]
  rfl

/-- What the decoder makes of a configuration request. -/
theorem cmdDecode_config (mode adcChannel : UInt8) (freq : UInt32) (d : Device) :
    let cfg : DevAdcCfg := { enable := mode, chnl := adcChannel, freq := freq }
    cmdDecode (Frame.ofHead 6 cmdDevCad (mode :: adcChannel :: u32Bytes freq)) d =
      (if mode ≠ 0 then i2sStart adcChannel freq { d with cfgAdc := cfg }
        else i2sStop { d with cfgAdc := cfg },
        dataReply cmdDevCad cfg.bytes (by rw [DevAdcCfg.length_bytes]; decide)) := by
  intro cfg
  have hcad : cmdCad (mode :: adcChannel :: u32Bytes freq) d =
      if mode ≠ 0 then i2sStart adcChannel freq { d with cfgAdc := cfg }
        else i2sStop { d with cfgAdc := cfg } := by
    rw [cmdCad, memcpy_six]
  have hcfg : (cmdCad (mode :: adcChannel :: u32Bytes freq) d).cfgAdc = cfg := by
    rw [cmdCad_cfgAdc (List.cons_ne_nil _ _)]
    exact memcpy_six d.cfgAdc mode adcChannel freq
  have hreply : cmdDecode (Frame.ofHead 6 cmdDevCad (mode :: adcChannel :: u32Bytes freq)) d =
      (cmdCad (mode :: adcChannel :: u32Bytes freq) d,
        dataReply cmdDevCad (cmdCad (mode :: adcChannel :: u32Bytes freq) d).cfgAdc.bytes
          (show 6 < 256 by decide)) := rfl
  rw [hreply, ← hcad]
  simp only [hcfg]

/-- What the device does with the configuration packet, and its reply. -/
theorem bulkOut_config (mode adcChannel : UInt8) (freq : UInt32) (d : Device) :
    let cfg : DevAdcCfg := { enable := mode, chnl := adcChannel, freq := freq }
    usbdCdcAcmBulkOut (6 :: cmdDevCad :: mode :: adcChannel :: u32Bytes freq) d =
      sendReply (dataReply cmdDevCad cfg.bytes (by rw [DevAdcCfg.length_bytes]; decide))
        (if mode ≠ 0 then i2sStart adcChannel freq { d with cfgAdc := cfg }
          else i2sStop { d with cfgAdc := cfg }) := by
  intro cfg
  have hlen : (6 : UInt8).toNat ≤ (mode :: adcChannel :: u32Bytes freq).length := le_refl 6
  obtain ⟨-, hout⟩ := @usbdCdcAcmBulkOut_request 6 cmdDevCad _ hlen d
  rw [hout, cmdDecode_config]

/-- What the device does with a packet that only asks, and its reply. -/
theorem bulkOut_ask {cmd : UInt8} {data : List UInt8} {hdata : data.length < 256} {d : Device}
    (hdecode : cmdDecode (Frame.ofHead 0 cmd []) d = (d, dataReply cmd data hdata)) :
    usbdCdcAcmBulkOut [0, cmd] d = sendReply (dataReply cmd data hdata) d := by
  obtain ⟨-, hout⟩ := @usbdCdcAcmBulkOut_request 0 cmd [] (le_refl 0) d
  rw [hout, hdecode]

/-- The device answers the packet and is then in state `d'` but for the queued reply; the
host that awaits the reply takes it without an error and then satisfies `P`. -/
def Exchanged (asked : Host) (d d' : Device) (P : Host → Prop) : Prop :=
  ∃ (reply : Frame) (hfits : reply.bytes.length ≤ buffSize),
    usbdCdcAcmBulkOut asked.packet d = sendReply reply d' ∧
    ∀ (g : Awaiting asked.waitId) (written : Option Nat),
      let got := g.take written ⟨reply.bytes, hfits⟩
      got.waitCnt = 0 ∧ got.readBlk ∧ P got

/-- A reply to a known command, taken whatever else the host is doing. -/
theorem Exchanged.intro {asked : Host} {d d' : Device} {P : Host → Prop} {reply : Frame}
    (hout : usbdCdcAcmBulkOut asked.packet d = sendReply reply d')
    (hid : asked.waitId = reply.cmd)
    (hknown : reply.cmd = cmdDevVer ∨ reply.cmd = cmdDevSta ∨ reply.cmd = cmdDevCad)
    (hsize : reply.payload.length ≤ bufrxSize)
    (hP : ∀ got : Host, got.readBlk → got.lenrx = reply.payload.length →
      Window.read got.bufrx 0 reply.payload.length = reply.payload → P got) :
    Exchanged asked d d' P := by
  have hbits : reply.cmd &&& 0x80 = 0 ∧ reply.cmd &&& 0x7F = reply.cmd ∧
      reply.cmd &&& 0x7F ≠ cmdDevAdc := by
    rcases hknown with hcmd | hcmd | hcmd <;> rw [hcmd] <;> decide
  obtain ⟨hlow, hseven, hdata⟩ := hbits
  have hfits : reply.bytes.length ≤ buffSize := by
    rw [Frame.length_bytes]
    exact (Nat.add_le_add_right hsize 2).trans (by decide)
  refine ⟨reply, hfits, hout, ?_⟩
  rw [hid]
  intro g written got
  obtain ⟨hwait, hread, hlen, hbuf⟩ := g.take_reply written reply rfl hlow hseven hdata hsize hfits
  exact ⟨hwait, hread, hP got hread hlen hbuf⟩

/-- The codecs of both sides agree on every configuration, counter and device id. -/
theorem codecs_agree (h : Host) (mode adcChannel devId : UInt8) (adcSmps : UInt32) (d : Device) :
    (let asked := h.setAdcIniCfg mode adcChannel adcSmps
      let freq := UInt32.ofNat (512 * adcSmps.toNat % 2 ^ 32)
      let d' := { d with cfgAdc := { enable := mode, chnl := adcChannel, freq := freq } }
      Exchanged asked d (if mode ≠ 0 then i2sStart adcChannel freq d' else i2sStop d') fun got =>
        got.lenrx = 6 ∧ Window.read got.bufrx 0 6 = Window.read asked.buftx 2 6) ∧
    Exchanged h.askStatus d d (fun got =>
      got.readStatus.devAllSendCount = d.blkReadCount ∧
        got.readStatus.devNotSendCount = d.blkOverflowCnt) ∧
    Exchanged h.askVersion d d (fun got =>
      got.lenrx = 4 ∧ got.devVersionId devId = adcDeviceId) := by
  refine ⟨?_, ?_, ?_⟩
  · intro asked freq d'
    have hfreq : freq = adcSmps * 512 := by
      apply UInt32.toNat_inj.mp
      simp [freq, Nat.mul_comm]
    have hout := bulkOut_config mode adcChannel freq d
    rw [← packet_setAdcIniCfg mode adcChannel h hfreq] at hout
    refine Exchanged.intro hout rfl (.inr (.inr rfl)) (show 6 ≤ bufrxSize by decide) ?_
    intro got _ hlen hbuf
    have hsent : Window.read asked.buftx 2 6 = mode :: adcChannel :: u32Bytes freq := by
      rw [hfreq]
      rfl
    exact ⟨hlen, hbuf.trans hsent.symm⟩
  · have hout := @bulkOut_ask cmdDevSta (u32Bytes d.blkReadCount ++ u32Bytes d.blkOverflowCnt)
      (show 8 < 256 by decide) d rfl
    refine Exchanged.intro hout rfl (.inr (.inl rfl)) (show 8 ≤ bufrxSize by decide) ?_
    intro got hread hlen hbuf
    have hbuf' : Window.read got.bufrx 0 (4 + 4) =
        u32Bytes d.blkReadCount ++ u32Bytes d.blkOverflowCnt := hbuf
    rw [Window.read_add] at hbuf'
    obtain ⟨hall, hnot⟩ := List.append_inj hbuf' (by simp)
    have hlen' : got.lenrx = 8 := hlen
    rw [readStatus, if_pos ⟨hread, hlen'⟩]
    exact ⟨dwordAt_eq hall, dwordAt_eq hnot⟩
  · have hout := @bulkOut_ask cmdDevVer (u16Bytes intDevId ++ u16Bytes intDevVer)
      (show 4 < 256 by decide) d rfl
    refine Exchanged.intro hout rfl (.inl rfl) (show 4 ≤ bufrxSize by decide) ?_
    intro got hread hlen hbuf
    have hlen' : got.lenrx = 4 := hlen
    have hbuf' : Window.read got.bufrx 0 (3 + 1) =
        u16Bytes intDevId ++ u16Bytes intDevVer := hbuf
    rw [Window.read_succ] at hbuf'
    refine ⟨hlen', ?_⟩
    rw [devVersionId, if_pos ⟨hread, hlen'⟩, (List.cons.inj hbuf').1]
    decide

end Host
