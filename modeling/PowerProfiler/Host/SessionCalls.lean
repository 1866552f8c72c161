-- SUMMARY: What a command can do to the host and its device, and what the procedures that send several of them leave.
import PowerProfiler.Firmware.ReadBack
import PowerProfiler.Host.Capture
import PowerProfiler.Host.Session

/-!
# Calls of a session

Whatever becomes of a command, it leaves the settings of the host and the line of the device,
and the device has worked on the whole packet or on none of it. A host that is told the truth
learns which.
-/

open Framing Circular Runs

namespace Session

/-! ## The device -/

/-- `d'` samples as `d` does. -/
structure SameSampling (d d' : Device) : Prop where
  cfgAdc : d'.cfgAdc = d.cfgAdc
  line : d'.dtrEnable = d.dtrEnable ∧ d'.i2s0 = d.i2s0
  start : d'.i2sCfg.start = d.i2sCfg.start
  channels : d'.i2sCfg.channels = d.i2sCfg.channels
  freq : d'.i2sCfg.freq = d.i2sCfg.freq
  audioPll : d'.audioPll = d.audioPll

namespace SameSampling

variable {d d' d'' : Device}

theorem refl (d : Device) : SameSampling d d := ⟨rfl, ⟨rfl, rfl⟩, rfl, rfl, rfl, rfl⟩

theorem trans (h : SameSampling d d') (h' : SameSampling d' d'') : SameSampling d d'' where
  cfgAdc := h'.cfgAdc.trans h.cfgAdc
  line := ⟨h'.line.1.trans h.line.1, h'.line.2.trans h.line.2⟩
  start := h'.start.trans h.start
  channels := h'.channels.trans h.channels
  freq := h'.freq.trans h.freq
  audioPll := h'.audioPll.trans h.audioPll

theorem withOutput (d : Device) (rb : RingBuffer) (buffer : Nat → UInt8) (busy : Bool) (ep : InEp) :
    SameSampling d (d.withOutput rb buffer busy ep) := ⟨rfl, ⟨rfl, rfl⟩, rfl, rfl, rfl, rfl⟩

end SameSampling

variable {d : Device}

/-- Without a request the device goes on as it is. -/
theorem step_unasked {e : Event} (h : Unasked e = true) (d : Device) : SameSampling d (step e d) := by
  cases e with
  | task =>
      show SameSampling d (taskDataOut d).1
      unfold taskDataOut
      split
      · exact .refl d
      · unfold sendBlock
        dsimp only
        split <;> exact ⟨rfl, ⟨rfl, rfl⟩, rfl, rfl, rfl, rfl⟩
  | drain =>
      obtain ⟨rb, buffer, busy, ep, heq⟩ := usbDcSendFromRingbuffer_withOutput d
      show SameSampling d (usbDcSendFromRingbuffer d).1
      rw [heq]
      exact .withOutput d rb buffer busy ep
  | irq i =>
      cases i with
      | dma rx =>
          show SameSampling d (dmaI2sIsr rx d)
          unfold dmaI2sIsr
          split
          · exact .refl d
          · split
            · exact ⟨rfl, ⟨rfl, rfl⟩, rfl, rfl, rfl, rfl⟩
            · unfold dmaStore
              rw [Device.foldl_storeSample]
              exact ⟨rfl, ⟨rfl, rfl⟩, rfl, rfl, rfl, rfl⟩
      | bulkOut packet => cases h
      | bulkIn =>
          obtain ⟨busy, ep, heq⟩ := inComplete_withOutput d
          show SameSampling d (inComplete d)
          rw [heq]
          exact .withOutput d _ _ _ _
      | setDtr dtr => cases h
      | busReset => exact ⟨rfl, ⟨rfl, rfl⟩, rfl, rfl, rfl, rfl⟩
      | configure => exact ⟨rfl, ⟨rfl, rfl⟩, rfl, rfl, rfl, rfl⟩

/-- The unit is there exactly while DTR is up. -/
theorem setDtr_line (h : d.i2s0 = d.dtrEnable) (dtr : Bool) :
    (usbdCdcAcmSetDtr dtr d).dtrEnable = dtr ∧ (usbdCdcAcmSetDtr dtr d).i2s0 = dtr := by
  refine ⟨rfl, ?_⟩
  cases dtr <;> cases hdtr : d.dtrEnable <;> rw [hdtr] at h <;>
    simp [usbdCdcAcmSetDtr, hdtr, h, i2sSleep, i2sWakeUp, i2sInit]

/-- DTR going up finds sampling off, or does nothing. -/
theorem setDtr_start (hs : Sound d) (h : d.i2s0 = d.dtrEnable) (dtr : Bool)
    (hoff : dtr = true → d.dtrEnable = false) : (usbdCdcAcmSetDtr dtr d).i2sCfg.start = 0 := by
  have hsound := usbdCdcAcmSetDtr_sound hs dtr
  cases dtr with
  | false => exact start_of_asleep hsound.driver (setDtr_line h false).2
  | true =>
      have hdtr := hoff rfl
      rw [hdtr] at h
      simp [usbdCdcAcmSetDtr, hdtr, i2sWakeUp, h, i2sInit]

theorem i2sStart_i2s0 (channels : UInt8) (freq : UInt32) (d : Device) :
    (i2sStart channels freq d).i2s0 = d.i2s0 ∧
      (i2sStart channels freq d).dtrEnable = d.dtrEnable := by
  cases hdev : d.i2s0
  · rw [i2sStart_asleep hdev]
    exact ⟨hdev, rfl⟩
  · unfold i2sStart
    rw [if_pos hdev]
    dsimp only
    split
    · exact ⟨rfl, rfl⟩
    · exact ⟨hdev, rfl⟩

theorem i2sStop_i2s0 (d : Device) :
    (i2sStop d).i2s0 = d.i2s0 ∧ (i2sStop d).dtrEnable = d.dtrEnable := by
  unfold i2sStop
  split <;> exact ⟨rfl, rfl⟩

/-- No packet changes the line. -/
theorem bulkOut_line (packet : List UInt8) (d : Device) :
    (usbdCdcAcmBulkOut packet d).i2s0 = d.i2s0 ∧
      (usbdCdcAcmBulkOut packet d).dtrEnable = d.dtrEnable := by
  rcases usbdCdcAcmBulkOut_cases packet d with ⟨req, -, heq⟩ | ⟨-, heq⟩
  · have hdecode : (cmdDecode req d).1.i2s0 = d.i2s0 ∧
        (cmdDecode req d).1.dtrEnable = d.dtrEnable := by
      rcases cmdDecode_cases req d with ⟨-, hcad⟩ | ⟨-, memory, hother⟩
      · rw [hcad]
        unfold cmdCad
        split
        · exact ⟨rfl, rfl⟩
        · dsimp only
          split
          · exact i2sStart_i2s0 _ _ _
          · exact i2sStop_i2s0 _
      · rw [hother]
        exact ⟨rfl, rfl⟩
    rw [heq]
    exact hdecode
  · rw [heq]
    exact ⟨rfl, rfl⟩

/-- A request of another kind leaves the device sampling as it did. -/
theorem bulkOut_other {n cmd : UInt8} {data : List UInt8} (hlen : n.toNat ≤ data.length)
    (hcmd : cmd ≠ cmdDevCad) (d : Device) :
    SameSampling d (usbdCdcAcmBulkOut (n :: cmd :: data) d) := by
  obtain ⟨-, hout⟩ := @usbdCdcAcmBulkOut_request n cmd data hlen d
  have hreq : (Frame.ofHead n cmd data).cmd ≠ cmdDevCad := hcmd
  rw [hout]
  rcases cmdDecode_cases (Frame.ofHead n cmd data) d with ⟨hcad, -⟩ | ⟨-, memory, hother⟩
  · exact absurd hcad hreq
  · rw [hother]
    exact ⟨rfl, ⟨rfl, rfl⟩, rfl, rfl, rfl, rfl⟩

theorem i2sStop_start (h : Sound d) : (i2sStop d).i2sCfg.start = 0 := by
  unfold i2sStop
  split
  · rfl
  next hasleep => exact start_of_asleep h.driver (by simpa using hasleep)

/-! ## Packets -/

/-- A packet that was cut short carries no request. -/
theorem request_cut {n cmd : UInt8} {data : List UInt8} (hlen : data.length = n.toNat) {k : Nat}
    (hk : k < n.toNat + 2) : request ((n :: cmd :: data).take k) = none := by
  match k with
  | 0 | 1 => rfl
  | k + 2 =>
      have hshort : ¬ n.toNat ≤ (data.take k).length := by
        rw [List.length_take, hlen]
        omega
      exact if_neg hshort

/-- What lies in `buftx` for a command. -/
def packetOf (n : UInt8) (buftx : Nat → UInt8) : List UInt8 :=
  n :: buftx 1 :: Window.read buftx 2 n.toNat

theorem packet_sendBlk (n : UInt8) (buftx : Nat → UInt8) (h : Host) :
    ({ h with buftx := buftx }.sendBlk n).packet = packetOf n buftx := by
  have hrest : Window.read (Function.update buftx 0 n) 2 n.toNat = Window.read buftx 2 n.toNat :=
    Window.read_congr fun i hi _ => Function.update_of_ne (by omega) _ _
  show Window.read (Function.update buftx 0 n) 0 (n.toNat + 2) = _
  rw [Window.read_succ, Window.read_succ, Function.update_self, hrest]
  rfl

/-- The device has received the packet as a whole, or the packet does nothing. -/
theorem bulkOut_take (n : UInt8) (buftx : Nat → UInt8) (k : Nat) (d : Device) :
    usbdCdcAcmBulkOut ((packetOf n buftx).take k) d =
      if n.toNat + 2 ≤ k then usbdCdcAcmBulkOut (packetOf n buftx) d else d := by
  have hlen : (Window.read buftx 2 n.toNat).length = n.toNat := by simp
  split
  next hall =>
    have hfull : (packetOf n buftx).length ≤ k := by
      rw [packetOf, List.length_cons, List.length_cons, Window.length_read]
      exact hall
    rw [List.take_of_length_le hfull]
  next hcut =>
    have hnone := @request_cut n (buftx 1) (Window.read buftx 2 n.toNat) hlen k (Nat.lt_of_not_le hcut)
    rcases usbdCdcAcmBulkOut_cases ((packetOf n buftx).take k) d with ⟨req, hreq, -⟩ | ⟨-, heq⟩
    · rw [packetOf, hnone] at hreq
      cases hreq
    · exact heq

/-! ## Commands -/

/-- What commands may change: the device as far as its line stays, what the communication
thread touches, and what is remembered. -/
structure Kept (s s' : Session) : Prop where
  rest : ∃ device host devId timerEnabled log, s' =
    { s with
      device := device
      app := { s.app with host := host }
      devId := devId
      timerEnabled := timerEnabled
      log := log }
  log : s.log <+: s'.log
  sound : Sound s.device → Sound s'.device
  line : s'.device.i2s0 = s.device.i2s0 ∧ s'.device.dtrEnable = s.device.dtrEnable
  samplesEna : s'.app.host.samplesEna = s.app.host.samplesEna
  workAdc : s'.app.host.workAdc = s.app.host.workAdc
  lentx : s.app.host.lentx = 0 → s'.app.host.lentx = 0

namespace Kept

variable {s s' s'' : Session}

theorem refl (s : Session) : Kept s s :=
  ⟨⟨_, _, _, _, _, rfl⟩, List.prefix_refl _, id, ⟨rfl, rfl⟩, rfl, rfl, id⟩

theorem trans (h : Kept s s') (h' : Kept s' s'') : Kept s s'' where
  rest := by
    obtain ⟨device, host, devId, timerEnabled, log, heq⟩ := h.rest
    obtain ⟨device', host', devId', timerEnabled', log', heq'⟩ := h'.rest
    exact ⟨device', host', devId', timerEnabled', log', by rw [heq', heq]⟩
  log := h.log.trans h'.log
  sound := h'.sound ∘ h.sound
  line := ⟨h'.line.1.trans h.line.1, h'.line.2.trans h.line.2⟩
  samplesEna := h'.samplesEna.trans h.samplesEna
  workAdc := h'.workAdc.trans h.workAdc
  lentx := h'.lentx ∘ h.lentx

theorem app (h : Kept s s') : s'.app.form = s.app.form ∧ s'.app.call = s.app.call := by
  obtain ⟨_, _, _, _, _, heq⟩ := h.rest
  rw [heq]
  exact ⟨rfl, rfl⟩

theorem port (h : Kept s s') : s'.flgComOpen = s.flgComOpen ∧ s'.commThread = s.commThread := by
  obtain ⟨_, _, _, _, _, heq⟩ := h.rest
  rw [heq]
  exact ⟨rfl, rfl⟩

theorem buttons (h : Kept s s') :
    s'.buttonStop = s.buttonStop ∧ s'.buttonStartADC = s.buttonStartADC ∧ s'.inTimer = s.inTimer := by
  obtain ⟨_, _, _, _, _, heq⟩ := h.rest
  rw [heq]
  exact ⟨rfl, rfl, rfl⟩

theorem settings (h : Kept s s') : s'.adcChannel = s.adcChannel ∧ s'.oldSps = s.oldSps := by
  obtain ⟨_, _, _, _, _, heq⟩ := h.rest
  rw [heq]
  exact ⟨rfl, rfl⟩

theorem cutShort (h : Kept s s') : s'.cutShort = s.cutShort := by
  obtain ⟨_, _, _, _, _, heq⟩ := h.rest
  rw [heq]

/-- A change of the host alone. -/
theorem onHost {f : Host → Host} (hset : (f s.app.host).samplesEna = s.app.host.samplesEna)
    (hwork : (f s.app.host).workAdc = s.app.host.workAdc)
    (hlen : (f s.app.host).lentx = s.app.host.lentx) : Kept s (s.onHost f) :=
  ⟨⟨_, _, _, _, _, rfl⟩, List.prefix_refl _, id, ⟨rfl, rfl⟩, hset, hwork, hlen.trans⟩

theorem purgeCom (s : Session) : Kept s s.purgeCom := .onHost rfl rfl rfl

/-- The timer switched on or off. -/
theorem timerEnabled (s : Session) (b : Bool) : Kept s { s with timerEnabled := b } :=
  ⟨⟨_, _, _, _, _, rfl⟩, List.prefix_refl _, id, ⟨rfl, rfl⟩, rfl, rfl, id⟩

end Kept

section Exchange

variable (x : Exchange) (n : UInt8) (buftx : Nat → UInt8) (accept : Nat → Bool) {s : Session}

/-- What a command leaves of the host. -/
theorem exchange_host (hthread : s.commThread = true) :
    let r := exchange x n buftx accept s
    r.1.app.host.samplesEna = s.app.host.samplesEna ∧ r.1.app.host.workAdc = s.app.host.workAdc ∧
      r.1.app.host.lentx = 0 := by
  intro r
  let asked := { s.app.host with buftx := buftx }.sendBlk n
  have hasked : asked.lentx ≠ 0 := Nat.succ_ne_zero _
  have hpurge : asked.purge.samplesEna = asked.samplesEna ∧ asked.purge.workAdc = asked.workAdc ∧
      asked.purge.lentx = asked.lentx := by
    unfold Host.purge
    split <;> exact ⟨rfl, rfl, rfl⟩
  have hwrite : (asked.purge.writeCommand x.written).samplesEna = asked.samplesEna ∧
      (asked.purge.writeCommand x.written).workAdc = asked.workAdc ∧
      (asked.purge.writeCommand x.written).lentx = 0 := by
    rw [← hpurge.2.2] at hasked
    unfold Host.writeCommand
    rw [if_pos hasked]
    exact ⟨hpurge.1, hpurge.2.1, rfl⟩
  have hframes := Host.handleAll_settings (asked.purge.writeCommand x.written) x.frames
  have hhost : r.1.app.host.samplesEna =
        ((asked.purge.writeCommand x.written).handleAll x.frames).1.samplesEna ∧
      r.1.app.host.workAdc =
        ((asked.purge.writeCommand x.written).handleAll x.frames).1.workAdc ∧
      r.1.app.host.lentx =
        ((asked.purge.writeCommand x.written).handleAll x.frames).1.lentx := by
    simp only [r, exchange, hthread, if_true, asked]
    split <;> exact ⟨rfl, rfl, rfl⟩
  exact ⟨hhost.1.trans (hframes.samplesEna.trans hwrite.1),
    hhost.2.1.trans (hframes.workAdc.trans hwrite.2.1),
    hhost.2.2.trans (hframes.lentx.trans hwrite.2.2)⟩

/-- A command is remembered with what became of it, and the device has worked on the packet
exactly when it has received all of it. -/
theorem exchange_spec (hthread : s.commThread = true) :
    let r := exchange x n buftx accept s
    ∃ taken, r.1.log = s.log ++ [⟨buftx 1, taken, r.2⟩] ∧
      r.1.device = if taken then usbdCdcAcmBulkOut (packetOf n buftx) s.device else s.device := by
  intro r
  refine ⟨x.written.any (n.toNat + 2 ≤ ·), ?_, ?_⟩
  · simp only [r, exchange, hthread, if_true]
    rfl
  · have hdevice : r.1.device = (x.written.map fun k =>
        usbdCdcAcmBulkOut ((packetOf n buftx).take k) s.device).getD s.device := by
      cases hwritten : x.written with
      | none => simp only [r, exchange, hthread, hwritten, if_true, Option.map, Option.getD]
      | some k =>
          simp only [r, exchange, hthread, hwritten, if_true, packet_sendBlk, Option.map,
            Option.getD]
    rw [hdevice]
    cases x.written with
    | none => rfl
    | some k =>
        show usbdCdcAcmBulkOut ((packetOf n buftx).take k) s.device = _
        rw [bulkOut_take]
        simp

theorem exchange_kept : Kept s (exchange x n buftx accept s).1 := by
  cases hthread : s.commThread
  · have hidle : (exchange x n buftx accept s).1 = s.onHost fun h => { h with buftx := buftx } := by
      simp only [exchange, hthread, Bool.false_eq_true, if_false]
    rw [hidle]
    exact .onHost rfl rfl rfl
  · obtain ⟨taken, hlog, hdevice⟩ := exchange_spec x n buftx accept hthread
    obtain ⟨hena, hwork, hlen⟩ := exchange_host x n buftx accept hthread
    refine ⟨?_, ?_, ?_, ?_, hena, hwork, fun _ => hlen⟩
    · simp only [exchange, hthread, if_true]
      exact ⟨_, _, _, _, _, rfl⟩
    · rw [hlog]
      exact List.prefix_append _ _
    · rw [hdevice]
      intro hs
      split
      · exact usbdCdcAcmBulkOut_sound hs _
      · exact hs
    · rw [hdevice]
      split
      · exact bulkOut_line _ _
      · exact ⟨rfl, rfl⟩

/-- A command touches neither the timer nor the device id. -/
theorem exchange_timer : (exchange x n buftx accept s).1.timerEnabled = s.timerEnabled ∧
    (exchange x n buftx accept s).1.devId = s.devId := by
  unfold exchange
  split <;> exact ⟨rfl, rfl⟩

/-- The device has worked on the packet, or it is as it was. -/
theorem exchange_device : (exchange x n buftx accept s).1.device = s.device ∨
    (exchange x n buftx accept s).1.device = usbdCdcAcmBulkOut (packetOf n buftx) s.device := by
  cases hthread : s.commThread
  · left
    simp only [exchange, hthread, Bool.false_eq_true, if_false]
    rfl
  · obtain ⟨taken, -, hdevice⟩ := exchange_spec x n buftx accept hthread
    rw [hdevice]
    cases taken
    · exact .inl rfl
    · exact .inr rfl

/-- The host was told of every command whether the device took it. -/
def Honest (log : List Verdict) : Prop := ∀ v ∈ log, v.said = v.taken

/-- Every command reached the device and was answered in time. -/
def Answered (log : List Verdict) : Prop := ∀ v ∈ log, v.said = true ∧ v.taken = true

theorem Answered.honest {log : List Verdict} (h : Answered log) : Honest log :=
  fun v hv => (h v hv).1.trans (h v hv).2.symm

/-- The result of a command tells what the device did. -/
theorem exchange_honest (h : Honest (exchange x n buftx accept s).1.log) :
    (exchange x n buftx accept s).1.device =
      if (exchange x n buftx accept s).2 then usbdCdcAcmBulkOut (packetOf n buftx) s.device
      else s.device := by
  cases hthread : s.commThread
  · simp only [exchange, hthread, Bool.false_eq_true, if_false]
    rfl
  · obtain ⟨taken, hlog, hdevice⟩ := exchange_spec x n buftx accept hthread
    rw [hlog] at h
    have hsaid := h _ (List.mem_append_right _ List.mem_cons_self)
    dsimp only at hsaid
    rw [hdevice, hsaid]

theorem exchange_answered (hthread : s.commThread = true)
    (h : Answered (exchange x n buftx accept s).1.log) : (exchange x n buftx accept s).2 = true := by
  obtain ⟨taken, hlog, -⟩ := exchange_spec x n buftx accept hthread
  rw [hlog] at h
  exact (h _ (List.mem_append_right _ List.mem_cons_self)).1

end Exchange

theorem Honest.before {log log' : List Verdict} (h : Honest log') (hpre : log <+: log') :
    Honest log :=
  fun v hv => h v (hpre.subset hv)

theorem Answered.before {log log' : List Verdict} (h : Answered log') (hpre : log <+: log') :
    Answered log :=
  fun v hv => h v (hpre.subset hv)

/-! ## ReadStatus -/

section Procedures

variable (x : Exchange) (o stops : Nat → Exchange) (s : Session)

theorem readStatus_kept : Kept s (s.readStatus x).1 ∧
    (s.readStatus x).1.timerEnabled = s.timerEnabled ∧ (s.readStatus x).1.devId = s.devId := by
  have hask := exchange_kept x 0 (Function.update s.app.host.buftx 1 cmdDevSta) (· == 8)
    (s := { s with timerEnabled := false })
  have hid := (exchange_timer x 0 (Function.update s.app.host.buftx 1 cmdDevSta) (· == 8)
    (s := { s with timerEnabled := false })).2
  refine ⟨(Kept.timerEnabled s false).trans (hask.trans ?_), rfl, ?_⟩
  · refine .trans ?_ (.timerEnabled _ _)
    split
    · refine .onHost ?_ ?_ ?_ <;> · unfold Host.readStatus; split <;> rfl
    · exact .refl _
  · unfold readStatus
    dsimp only
    split
    · exact hid
    · exact hid

/-- A status request leaves the device sampling as it did. -/
theorem readStatus_device : SameSampling s.device (s.readStatus x).1.device := by
  have hdevice : (s.readStatus x).1.device = s.device ∨ (s.readStatus x).1.device =
      usbdCdcAcmBulkOut (packetOf 0 (Function.update s.app.host.buftx 1 cmdDevSta)) s.device := by
    have hask := exchange_device x 0 (Function.update s.app.host.buftx 1 cmdDevSta) (· == 8)
      (s := { s with timerEnabled := false })
    unfold readStatus
    dsimp only
    split <;> exact hask
  rcases hdevice with heq | heq
  · rw [heq]
    exact .refl _
  · rw [heq]
    exact bulkOut_other (Nat.zero_le _) (by rw [Function.update_self]; decide) _

theorem readStatus_answered (hthread : s.commThread = true)
    (h : Answered (s.readStatus x).1.log) : (s.readStatus x).2 = true := by
  have hlog : (s.readStatus x).1.log = (exchange x 0
      (Function.update s.app.host.buftx 1 cmdDevSta) (· == 8) { s with timerEnabled := false }).1.log := by
    unfold readStatus
    dsimp only
    split <;> rfl
  rw [hlog] at h
  exact exchange_answered (s := { s with timerEnabled := false }) x 0 _ _ hthread h

/-! ## StopReadDevice -/

theorem stopTry_kept : Kept s (s.stopTry x).1 ∧
    (s.stopTry x).1.timerEnabled = s.timerEnabled ∧ (s.stopTry x).1.devId = s.devId :=
  ⟨(Kept.purgeCom s).trans (exchange_kept x 1 _ (6 ≤ ·)), exchange_timer x 1 _ (6 ≤ ·)⟩

/-- The packet of a round stops the device. -/
theorem bulkOut_stop (h : Sound d) (b : Nat → UInt8) :
    (usbdCdcAcmBulkOut (packetOf 1 (Function.update (Function.update b 1 cmdDevCad) 2 0))
      d).i2sCfg.start = 0 := by
  have hpacket : packetOf 1 (Function.update (Function.update b 1 cmdDevCad) 2 0) =
      [1, cmdDevCad, 0] := rfl
  obtain ⟨-, hout⟩ := @usbdCdcAcmBulkOut_request 1 cmdDevCad [0] (le_refl 1) d
  have hmerged : Sound (d.merged [0]) := h.of_same rfl rfl rfl ⟨rfl, rfl, rfl⟩
  rw [hpacket, hout]
  exact i2sStop_start hmerged

theorem stopTries_kept (n : Nat) : Kept s (stopTries o n s).1 ∧
    (stopTries o n s).1.timerEnabled = s.timerEnabled ∧ (stopTries o n s).1.devId = s.devId := by
  induction n generalizing s with
  | zero => exact ⟨.refl s, rfl, rfl⟩
  | succ n ih =>
      obtain ⟨hkept, htimer, hid⟩ := stopTry_kept (o n) s
      obtain ⟨hkept', htimer', hid'⟩ := ih (s.stopTry (o n)).1
      unfold stopTries
      dsimp only
      split
      · exact ⟨hkept.trans (.purgeCom _), htimer, hid⟩
      · exact ⟨hkept.trans hkept', htimer'.trans htimer, hid'.trans hid⟩

/-- A device that does not sample is not started. -/
theorem stopTries_start (n : Nat) (hs : Sound s.device) (h : s.device.i2sCfg.start = 0) :
    (stopTries o n s).1.device.i2sCfg.start = 0 := by
  induction n generalizing s with
  | zero => exact h
  | succ n ih =>
      have hsound := (stopTry_kept (o n) s).1.sound hs
      have hstart : (s.stopTry (o n)).1.device.i2sCfg.start = 0 := by
        rcases exchange_device (o n) 1 (Function.update (Function.update s.app.host.buftx 1
          cmdDevCad) 2 0) (6 ≤ ·) (s := s.purgeCom) with heq | heq
        · exact (congrArg (·.i2sCfg.start) heq).trans h
        · exact (congrArg (·.i2sCfg.start) heq).trans (bulkOut_stop hs _)
      unfold stopTries
      dsimp only
      split
      · exact hstart
      · exact ih _ hsound hstart

/-- A host that is told the truth learns whether the device stopped. -/
theorem stopTries_honest (n : Nat) (hs : Sound s.device) (h : Honest (stopTries o n s).1.log) :
    if (stopTries o n s).2 then (stopTries o n s).1.device.i2sCfg.start = 0
    else (stopTries o n s).1.device = s.device := by
  induction n generalizing s with
  | zero => rfl
  | succ n ih =>
      have hsound := (stopTry_kept (o n) s).1.sound hs
      have hrest := (stopTries_kept o (s.stopTry (o n)).1 n).1
      have htold : Honest (s.stopTry (o n)).1.log → (s.stopTry (o n)).1.device =
          if (s.stopTry (o n)).2 then usbdCdcAcmBulkOut (packetOf 1 (Function.update
            (Function.update s.app.host.buftx 1 cmdDevCad) 2 0)) s.device else s.device :=
        exchange_honest (o n) 1 _ (6 ≤ ·) (s := s.purgeCom)
      unfold stopTries at h ⊢
      cases hresult : (s.stopTry (o n)).2
      · simp only [hresult, Bool.false_eq_true, if_false] at h htold ⊢
        rw [← htold (h.before hrest.log)]
        exact ih _ hsound h
      · simp only [hresult, if_true] at h htold ⊢
        show (s.stopTry (o n)).1.device.i2sCfg.start = 0
        rw [htold h]
        exact bulkOut_stop hs _

theorem stopReadDevice_answered (hthread : s.commThread = true)
    (h : Answered (s.stopReadDevice o).1.log) : (s.stopReadDevice o).2 = true := by
  have hfirst : Answered (s.stopTry (o 5)).1.log → (s.stopTry (o 5)).2 = true :=
    exchange_answered (s := s.purgeCom) (o 5) 1 _ (6 ≤ ·) hthread
  unfold stopReadDevice stopTries at h ⊢
  cases hresult : (s.stopTry (o 5)).2
  · simp only [hresult, Bool.false_eq_true, if_false] at h
    have hrest := (stopTries_kept o (s.stopTry (o 5)).1 5).1
    rw [hfirst (h.before hrest.log)] at hresult
    cases hresult
  · simp only [hresult, if_true]

/-! ## GetDevVersion -/

theorem versionTry_kept : Kept s (s.versionTry x).1 ∧
    (s.versionTry x).1.timerEnabled = s.timerEnabled := by
  have hask := exchange_kept x 0 (Function.update s.app.host.buftx 1 cmdDevVer) (· == 4)
    (s := s.purgeCom)
  have htimer := (exchange_timer x 0 (Function.update s.app.host.buftx 1 cmdDevVer) (· == 4)
    (s := s.purgeCom)).1
  unfold versionTry
  dsimp only
  split
  · refine ⟨(Kept.purgeCom s).trans (hask.trans ?_), htimer⟩
    exact ⟨⟨_, _, _, _, _, rfl⟩, List.prefix_refl _, id, ⟨rfl, rfl⟩, rfl, rfl, id⟩
  · exact ⟨(Kept.purgeCom s).trans hask, htimer⟩

theorem versionTry_device : SameSampling s.device (s.versionTry x).1.device := by
  have hdevice : (s.versionTry x).1.device = s.device ∨ (s.versionTry x).1.device =
      usbdCdcAcmBulkOut (packetOf 0 (Function.update s.app.host.buftx 1 cmdDevVer)) s.device := by
    have hask := exchange_device x 0 (Function.update s.app.host.buftx 1 cmdDevVer) (· == 4)
      (s := s.purgeCom)
    unfold versionTry
    dsimp only
    split <;> exact hask
  rcases hdevice with heq | heq
  · rw [heq]
    exact .refl _
  · rw [heq]
    exact bulkOut_other (Nat.zero_le _) (by rw [Function.update_self]; decide) _

theorem versionTry_devId (h : (s.versionTry x).2 = true) :
    (s.versionTry x).1.devId = Host.adcDeviceId := by
  unfold versionTry at h ⊢
  dsimp only at h ⊢
  split
  next hsaid =>
    rw [if_pos hsaid] at h
    exact eq_of_beq h
  next hsaid =>
    rw [if_neg hsaid] at h
    cases h

/-- What `GetDevVersion` leaves, whatever becomes of its commands. -/
theorem versionTries_spec (n : Nat) :
    Kept s (versionTries o stops n s).1 ∧
      (versionTries o stops n s).1.timerEnabled = s.timerEnabled ∧
      ((versionTries o stops n s).2 = true →
        (versionTries o stops n s).1.devId = Host.adcDeviceId) ∧
      (Sound s.device → s.device.i2sCfg.start = 0 →
        (versionTries o stops n s).1.device.i2sCfg.start = 0) := by
  induction n generalizing s with
  | zero => exact ⟨.refl s, rfl, fun h => absurd h Bool.false_ne_true, fun _ h => h⟩
  | succ n ih =>
      obtain ⟨hkept, htimer⟩ := versionTry_kept (o n) s
      have hdevice := versionTry_device (o n) s
      unfold versionTries
      dsimp only
      split
      next hid =>
        obtain ⟨hstop, hstopTimer, hstopId⟩ := stopTries_kept stops (s.versionTry (o n)).1 6
        refine ⟨hkept.trans hstop, hstopTimer.trans htimer,
          fun _ => hstopId.trans (versionTry_devId (o n) s hid), fun hs hstart => ?_⟩
        exact stopTries_start stops _ 6 (hkept.sound hs) (hdevice.start.trans hstart)
      · obtain ⟨hkept', htimer', hid', hstart'⟩ := ih (s.versionTry (o n)).1
        exact ⟨hkept.trans hkept', htimer'.trans htimer, hid',
          fun hs hstart => hstart' (hkept.sound hs) (hdevice.start.trans hstart)⟩

/-! ## SetAdcIniCfg -/

/-- What `SetAdcIniCfg` asks the device for. -/
def asked (mode : UInt8) (s : Session) : DevAdcCfg where
  enable := mode
  chnl := s.adcChannel
  freq := UInt32.ofNat s.app.form.adcSmps * 512

/-- What `SetAdcIniCfg` puts into `buftx`. -/
def configTx (mode : UInt8) (s : Session) : Nat → UInt8 :=
  copyTo s.app.host.buftx 0 (6 :: cmdDevCad :: (s.asked mode).bytes)

theorem setAdcIniCfg_kept (mode : UInt8) : Kept s (s.setAdcIniCfg mode x).1 ∧
    (s.setAdcIniCfg mode x).1.timerEnabled = s.app.host.samplesEna ∧
    (s.setAdcIniCfg mode x).1.devId = s.devId := by
  have hask := exchange_kept x 6 (s.configTx mode) (6 ≤ ·) (s := { s with timerEnabled := false })
  have hid := exchange_timer x 6 (s.configTx mode) (6 ≤ ·) (s := { s with timerEnabled := false })
  exact ⟨(Kept.timerEnabled s false).trans (hask.trans (.timerEnabled _ _)), hask.samplesEna, hid.2⟩

/-- A host that is told the truth learns whether the device has taken the configuration. -/
theorem setAdcIniCfg_honest (mode : UInt8) (h : Honest (s.setAdcIniCfg mode x).1.log) :
    (s.setAdcIniCfg mode x).1.device =
      if (s.setAdcIniCfg mode x).2 then
        sendReply (dataReply cmdDevCad (s.asked mode).bytes (by rw [DevAdcCfg.length_bytes]; decide))
          (if mode ≠ 0 then
            i2sStart s.adcChannel (s.asked mode).freq { s.device with cfgAdc := s.asked mode }
          else i2sStop { s.device with cfgAdc := s.asked mode })
      else s.device := by
  have hpacket : packetOf 6 (s.configTx mode) =
      6 :: cmdDevCad :: mode :: s.adcChannel :: u32Bytes (s.asked mode).freq := rfl
  have hask := exchange_honest x 6 (s.configTx mode) (6 ≤ ·) (s := { s with timerEnabled := false }) h
  rw [hpacket, Host.bulkOut_config] at hask
  exact hask

theorem setAdcIniCfg_answered (mode : UInt8) (hthread : s.commThread = true)
    (h : Answered (s.setAdcIniCfg mode x).1.log) : (s.setAdcIniCfg mode x).2 = true :=
  exchange_answered (s := { s with timerEnabled := false }) x 6 _ (6 ≤ ·) hthread h

end Procedures

end Session
