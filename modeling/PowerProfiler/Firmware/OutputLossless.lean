-- SUMMARY: The main loop with its order of calls, and why it loses no byte while the replies between two drains stay within 1559 bytes.
import PowerProfiler.Firmware.Reachable
import PowerProfiler.Firmware.Output

/-!
# The output path under the order of the main loop

`main` calls `task_data_out` four times and then drains. A drain moves 2047 bytes, so
four blocks of 122 bytes leave 1559 for the replies of one round. `Budget` bounds what
the FIFO holds by what its round has written, and `loopStep_budget` is one step of it.
-/

open Framing Runs

/-! ## The main loop -/

/-- The device, the number of calls of `task_data_out` in the present round, and the
bytes of the replies enqueued since the last drain. -/
structure MainLoop where
  device : Device
  calls : Nat
  replies : Nat

namespace MainLoop

def boot (memory : UInt32 → UInt32) : MainLoop where
  device := Device.boot memory
  calls := 0
  replies := 0

/-- What the firmware does next. -/
def event (e : LoopEvent) (m : MainLoop) : Event :=
  match e with
  | .main => if m.calls < 4 then .task else .drain
  | .irq i => .irq i

/-- The bytes that the step passes to `Ring_Buffer_Write`, if it does. -/
def write (e : LoopEvent) (m : MainLoop) : Option (List UInt8) := writeOf (m.event e) m.device

def enqueued (e : LoopEvent) (m : MainLoop) : List UInt8 := (m.write e).getD []

def handed (e : LoopEvent) (m : MainLoop) : List UInt8 := handedOf (m.event e) m.device

/-- `usb_dc_send_from_ringbuffer` gets past its wait and returns in this step. -/
def Drains (e : LoopEvent) (m : MainLoop) : Prop :=
  e = .main ∧ 4 ≤ m.calls ∧ m.device.epTxBusyFlag = false

end MainLoop

/-- A round ends when its drain does. While the busy flag is set the drain waits. -/
def loopStep (e : LoopEvent) (m : MainLoop) : MainLoop :=
  let d := step (m.event e) m.device
  match e with
  | .main =>
      if m.calls < 4 then { m with device := d, calls := m.calls + 1 }
      else if m.device.epTxBusyFlag then { m with device := d }
      else { device := d, calls := 0, replies := 0 }
  | .irq _ => { m with device := d, replies := m.replies + (m.enqueued e).length }

/-- The replies since the last drain, with that of this step, leave room for the blocks. -/
def WithinBudget (e : LoopEvent) (m : MainLoop) : Prop := (loopStep e m).replies ≤ 1559

/-- What one step of a lossless run shows. -/
structure Lossless (e : LoopEvent) (m : MainLoop) : Prop where
  empties : m.Drains e → (loopStep e m).device.usbTxRb.contents = []
  stores : ∀ bytes ∈ m.write e, (m.device.usbTxRb.write bytes).2 = bytes.length
  counted : (loopStep e m).device.blkOverflowCnt ≤ m.device.blkOverflowCnt

theorem loopStep_device (e : LoopEvent) (m : MainLoop) :
    (loopStep e m).device = step (m.event e) m.device := by
  unfold loopStep
  cases e with
  | irq i => rfl
  | main =>
      dsimp only
      split
      · rfl
      · split <;> rfl

/-! ## The overflow counter -/

/-- An interrupt leaves the counter of lost blocks alone or clears it. -/
def OverflowKept (d d' : Device) : Prop :=
  d'.blkOverflowCnt = d.blkOverflowCnt ∨ d'.blkOverflowCnt = 0

theorem OverflowKept.le {d d' : Device} (h : OverflowKept d d') :
    d'.blkOverflowCnt ≤ d.blkOverflowCnt := by
  rcases h with h | h
  · exact UInt32.le_of_eq h
  · rw [h]
    exact UInt32.zero_le

theorem i2sStart_overflow (channels : UInt8) (freq : UInt32) (d : Device) :
    OverflowKept d (i2sStart channels freq d) := by
  unfold i2sStart
  split
  · exact .inr rfl
  · exact .inl rfl

theorem i2sStop_overflow (d : Device) : OverflowKept d (i2sStop d) := by
  unfold i2sStop
  split <;> exact .inl rfl

theorem i2sSleep_overflow (d : Device) : OverflowKept d (i2sSleep d) := by
  unfold i2sSleep
  split <;> exact .inl rfl

theorem i2sWakeUp_overflow (d : Device) : OverflowKept d (i2sWakeUp d) := by
  unfold i2sWakeUp
  split <;> exact .inl rfl

theorem cmdCad_overflow (data : List UInt8) (d : Device) : OverflowKept d (cmdCad data d) := by
  unfold cmdCad
  cases data with
  | nil => exact .inl rfl
  | cons enable data =>
      dsimp only
      split
      · exact i2sStart_overflow _ _ _
      · exact i2sStop_overflow _

theorem usbdCdcAcmBulkOut_overflow (packet : List UInt8) (d : Device) :
    OverflowKept d (usbdCdcAcmBulkOut packet d) := by
  rcases usbdCdcAcmBulkOut_cases packet d with ⟨req, -, heq⟩ | ⟨-, heq⟩
  · rw [heq]
    show OverflowKept d (cmdDecode req d).1
    rcases cmdDecode_cases req d with ⟨-, heq⟩ | ⟨-, memory, heq⟩
    · rw [heq]
      exact cmdCad_overflow _ _
    · rw [heq]
      exact .inl rfl
  · rw [heq]
    exact .inl rfl

theorem usbdCdcAcmSetDtr_overflow (dtr : Bool) (d : Device) :
    OverflowKept d (usbdCdcAcmSetDtr dtr d) := by
  show OverflowKept d (if dtr then (if d.dtrEnable then d else i2sWakeUp d)
    else (if d.dtrEnable then i2sSleep d else d))
  split
  · split
    · exact .inl rfl
    · exact i2sWakeUp_overflow d
  · split
    · exact i2sSleep_overflow d
    · exact .inl rfl

theorem irqStep_overflow (i : Irq) (d : Device) : OverflowKept d (irqStep i d) := by
  cases i with
  | dma rx =>
      left
      show (dmaI2sIsr rx d).blkOverflowCnt = _
      unfold dmaI2sIsr
      split
      · rfl
      · split
        · rfl
        · rw [dmaStore, Device.foldl_storeSample]
          rfl
  | bulkOut packet => exact usbdCdcAcmBulkOut_overflow packet d
  | bulkIn =>
      obtain ⟨busy, ep, heq⟩ := inComplete_withOutput d
      left
      show (inComplete d).blkOverflowCnt = d.blkOverflowCnt
      rw [heq]
      rfl
  | setDtr dtr => exact usbdCdcAcmSetDtr_overflow dtr d
  | busReset => exact .inl rfl
  | configure => exact .inl rfl

/-- The drain leaves the counter alone. -/
theorem usbDcSendFromRingbuffer_overflow (d : Device) :
    (usbDcSendFromRingbuffer d).1.blkOverflowCnt = d.blkOverflowCnt := by
  obtain ⟨rb, buffer, busy, ep, heq⟩ := usbDcSendFromRingbuffer_withOutput d
  rw [heq]
  rfl

/-- A call of `task_data_out` whose block finds room leaves the counter alone. -/
theorem taskDataOut_overflow {d : Device} {xs : List UInt8} (h : d.usbTxRb.Repr xs)
    (hroom : xs.length + (data8BlkCnt + 2) ≤ d.usbTxRb.size) :
    (taskDataOut d).1.blkOverflowCnt = d.blkOverflowCnt := by
  have hlen := @length_of_taskDataOut d
  unfold taskDataOut at hlen ⊢
  split at hlen
  next => rfl
  next is his =>
    have hring : (takeSamples d.dataBufferRdPtr is d).usbTxRb.Repr xs := h
    dsimp only
    rw [sendBlock_fits hring (hlen rfl) hroom]
    rfl

/-! ## The budget of a round -/

/-- The FIFO holds at most what the calls and the replies of its round have written. -/
structure Budget (m : MainLoop) (xs : List UInt8) : Prop where
  repr : m.device.usbTxRb.Repr xs
  size : m.device.usbTxRb.size = usbTxRingBufferSize
  calls_le : m.calls ≤ 4
  replies_le : m.replies ≤ 1559
  length_le : xs.length ≤ (data8BlkCnt + 2) * m.calls + m.replies

namespace Budget

variable {m : MainLoop} {xs : List UInt8}

theorem boot (memory : UInt32 → UInt32) : Budget (MainLoop.boot memory) [] where
  repr := boot_repr memory
  size := rfl
  calls_le := Nat.zero_le _
  replies_le := Nat.zero_le _
  length_le := Nat.zero_le _

/-- All that the FIFO holds goes into one drain. -/
theorem length_le_drain (h : Budget m xs) : xs.length ≤ usbdTxBufSize - 1 := by
  have hlen := h.length_le
  have := h.calls_le
  have := h.replies_le
  simp only [data8BlkCnt, usbdTxBufSize] at hlen ⊢
  omega

end Budget

/-- What `task_data_out` writes is one block. -/
theorem length_writeOf_task (d : Device) :
    ((writeOf .task d).getD []).length ≤ data8BlkCnt + 2 := by
  have hlen := @length_of_taskDataOut d
  show (((taskDataOut d).2.map dataBlkOut).getD []).length ≤ data8BlkCnt + 2
  cases hs : (taskDataOut d).2 with
  | none => exact Nat.zero_le _
  | some samples =>
      show (dataBlkOut samples).length ≤ data8BlkCnt + 2
      rw [length_dataBlkOut, hlen hs]
      rfl

/-- A write that fits stores its full length. -/
theorem write_stores {d : Device} {xs bytes : List UInt8} (h : d.usbTxRb.Repr xs)
    (hroom : xs.length + bytes.length ≤ d.usbTxRb.size) :
    (d.usbTxRb.write bytes).2 = bytes.length := by
  rw [h.write]
  exact min_eq_left (by omega)

/-- A step whose write fits, followed by what the FIFO then holds. -/
theorem fifo_step_fits {e : Event} {d : Device} {xs : List UInt8} (h : d.usbTxRb.Repr xs)
    (hroom : xs.length + ((writeOf e d).getD []).length ≤ d.usbTxRb.size) :
    ∃ ys, (step e d).usbTxRb.Repr ys ∧ (step e d).usbTxRb.size = d.usbTxRb.size ∧
      handedOf e d ++ ys = xs ++ (writeOf e d).getD [] := by
  obtain ⟨ys, hys, hsize, hbytes⟩ := fifo_step (e := e) h
  rw [List.take_of_length_le (by omega)] at hbytes
  exact ⟨ys, hys, hsize, hbytes⟩

/-- A drain that finds at most 2047 bytes empties the FIFO. -/
theorem usbDcSend_empties {d : Device} {xs : List UInt8} (h : d.usbTxRb.Repr xs)
    (hlen : xs.length ≤ usbdTxBufSize - 1) : (usbDcSend d).1.usbTxRb.Repr [] := by
  have hpop := h.popped (le_refl xs.length)
  rw [List.drop_length] at hpop
  rw [(usbDcSend_repr h).1, min_eq_right hlen]
  exact hpop

/-! ## One step of the main loop -/

variable {m : MainLoop} {xs : List UInt8}

/-- A step with its write in the FIFO shows no loss. -/
structure Kept (e : LoopEvent) (m : MainLoop) (xs ys : List UInt8) : Prop where
  budget : Budget (loopStep e m) ys
  bytes : m.handed e ++ ys = xs ++ m.enqueued e
  lossless : Lossless e m

theorem task_kept (h : Budget m xs) (hcalls : m.calls < 4) : ∃ ys, Kept .main m xs ys := by
  have hevent : m.event .main = .task := if_pos hcalls
  have hstep : loopStep .main m =
      { m with device := step .task m.device, calls := m.calls + 1 } := by
    unfold loopStep
    rw [hevent]
    exact if_pos hcalls
  have hwrite := length_writeOf_task m.device
  have hlen := h.length_le
  have hreplies := h.replies_le
  have hsize := h.size
  have hroom : xs.length + (data8BlkCnt + 2) ≤ m.device.usbTxRb.size := by
    simp only [data8BlkCnt, usbTxRingBufferSize] at hlen hsize ⊢
    omega
  obtain ⟨ys, hys, hsize', hbytes⟩ := fifo_step_fits (e := .task) h.repr (by omega)
  refine ⟨ys, ?_, ?_, ?_⟩
  · rw [hstep]
    refine ⟨hys, hsize'.trans hsize, hcalls, hreplies, ?_⟩
    have hcount := congrArg List.length hbytes
    simp only [handedOf, List.nil_append, List.length_append] at hcount
    show ys.length ≤ (data8BlkCnt + 2) * m.calls + (data8BlkCnt + 2) + m.replies
    omega
  · unfold MainLoop.handed MainLoop.enqueued MainLoop.write
    rw [hevent]
    exact hbytes
  · constructor
    · rintro ⟨-, hfour, -⟩
      omega
    · intro bytes hmem
      unfold MainLoop.write at hmem
      rw [hevent] at hmem
      rw [hmem] at hwrite
      exact write_stores h.repr ((Nat.add_le_add_left hwrite _).trans hroom)
    · rw [hstep]
      exact UInt32.le_of_eq (taskDataOut_overflow h.repr hroom)

/-- While the busy flag is set nothing happens at the drain. -/
theorem wait_kept (h : Budget m xs) (hcalls : ¬ m.calls < 4) (hbusy : m.device.epTxBusyFlag = true) :
    ∃ ys, Kept .main m xs ys := by
  have hevent : m.event .main = .drain := if_neg hcalls
  have hdrain : step .drain m.device = m.device := by
    show (usbDcSendFromRingbuffer m.device).1 = m.device
    rw [usbDcSendFromRingbuffer, if_pos hbusy]
  have hhanded : handedOf .drain m.device = [] := by
    rw [handedOf, usbDcSendFromRingbuffer, if_pos hbusy]
    rfl
  have hstep : loopStep .main m = m := by
    unfold loopStep
    dsimp only
    rw [hevent, hdrain, if_neg hcalls, if_pos hbusy]
  refine ⟨xs, ?_, ?_, ?_⟩
  · rw [hstep]
    exact h
  · unfold MainLoop.handed MainLoop.enqueued MainLoop.write
    rw [hevent, hhanded]
    simp [writeOf]
  · constructor
    · rintro ⟨-, -, hidle⟩
      rw [hbusy] at hidle
      cases hidle
    · intro bytes hmem
      unfold MainLoop.write at hmem
      rw [hevent] at hmem
      cases hmem
    · rw [hstep]
      exact UInt32.le_rfl

/-- A drain that does not wait takes all of the FIFO. -/
theorem drain_kept (h : Budget m xs) (hcalls : ¬ m.calls < 4)
    (hidle : m.device.epTxBusyFlag = false) : ∃ ys, Kept .main m xs ys := by
  have hevent : m.event .main = .drain := if_neg hcalls
  have hstep : loopStep .main m = { device := step .drain m.device, calls := 0, replies := 0 } := by
    unfold loopStep
    dsimp only
    rw [hevent, if_neg hcalls, if_neg (by simp [hidle])]
  have hdrain : (step .drain m.device).usbTxRb = (usbDcSend m.device).1.usbTxRb := by
    show (usbDcSendFromRingbuffer m.device).1.usbTxRb = _
    rw [usbDcSendFromRingbuffer, if_neg (by simp [hidle])]
  have hempty : (step .drain m.device).usbTxRb.Repr [] := by
    rw [hdrain]
    exact usbDcSend_empties h.repr h.length_le_drain
  obtain ⟨ys, hys, hsize, hbytes⟩ := fifo_step_fits (e := .drain) h.repr h.repr.length_le
  obtain rfl := hys.unique hempty
  refine ⟨[], ?_, ?_, ?_⟩
  · rw [hstep]
    exact ⟨hempty, hsize.trans h.size, Nat.zero_le _, Nat.zero_le _, Nat.zero_le _⟩
  · unfold MainLoop.handed MainLoop.enqueued MainLoop.write
    rw [hevent]
    exact hbytes
  · constructor
    · intro _
      rw [hstep]
      exact hempty.contents_eq
    · intro bytes hmem
      unfold MainLoop.write at hmem
      rw [hevent] at hmem
      cases hmem
    · rw [hstep]
      exact UInt32.le_of_eq (usbDcSendFromRingbuffer_overflow _)

/-- The reply of an interrupt finds room as long as the round keeps to its budget. -/
theorem irq_kept (h : Budget m xs) (i : Irq) (hbudget : WithinBudget (.irq i) m) :
    ∃ ys, Kept (.irq i) m xs ys := by
  have hreplies : m.replies + (m.enqueued (.irq i)).length ≤ 1559 := hbudget
  have hlen := h.length_le
  have hcalls := h.calls_le
  have hsize := h.size
  have hroom : xs.length + (m.enqueued (.irq i)).length ≤ m.device.usbTxRb.size := by
    simp only [data8BlkCnt, usbTxRingBufferSize] at hlen hsize
    omega
  obtain ⟨ys, hys, hsize', hbytes⟩ := fifo_step_fits (e := .irq i) h.repr hroom
  refine ⟨ys, ⟨hys, hsize'.trans hsize, hcalls, hreplies, ?_⟩, hbytes, ?_⟩
  · have hcount := congrArg List.length hbytes
    simp only [handedOf, List.nil_append, List.length_append] at hcount
    show ys.length ≤ (data8BlkCnt + 2) * m.calls + (m.replies + (m.enqueued (.irq i)).length)
    have henq : (m.enqueued (.irq i)).length = ((writeOf (.irq i) m.device).getD []).length := rfl
    omega
  · constructor
    · rintro ⟨hmain, -⟩
      cases hmain
    · intro bytes hmem
      have henq : m.enqueued (.irq i) = bytes := by
        unfold MainLoop.enqueued
        rw [hmem]
        rfl
      rw [henq] at hroom
      exact write_stores h.repr hroom
    · exact (irqStep_overflow i m.device).le

theorem loopStep_kept (h : Budget m xs) (e : LoopEvent) (hbudget : WithinBudget e m) :
    ∃ ys, Kept e m xs ys := by
  cases e with
  | irq i => exact irq_kept h i hbudget
  | main =>
      by_cases hcalls : m.calls < 4
      · exact task_kept h hcalls
      · cases hbusy : m.device.epTxBusyFlag with
        | true => exact wait_kept h hcalls hbusy
        | false => exact drain_kept h hcalls hbusy

/-! ## Runs of the main loop -/

/-- A run within the budget hands over, or holds, what was there before and what it
enqueued. -/
theorem run_kept {es : List LoopEvent} (h : Budget m xs) (hbudget : Along loopStep WithinBudget es m) :
    Along loopStep Lossless es m ∧
      trace loopStep (fun e m => m.handed e) es m ++ (run loopStep es m).device.usbTxRb.contents =
        xs ++ trace loopStep (fun e m => m.enqueued e) es m := by
  induction es generalizing m xs with
  | nil => simpa using h.repr.contents_eq
  | cons e es ih =>
      obtain ⟨ys, hkept⟩ := loopStep_kept h e hbudget.1
      obtain ⟨hall, hstream⟩ := ih hkept.budget hbudget.2
      refine ⟨⟨hkept.lossless, hall⟩, ?_⟩
      rw [trace_cons, trace_cons, run_cons, List.append_assoc, hstream, ← List.append_assoc,
        hkept.bytes, List.append_assoc]

/-- From start-up, with at most 1559 bytes of replies in each round, every drain empties
the FIFO, every write stores its full length, no block is counted as lost, and the bytes
handed to the endpoint followed by those in the FIFO are the blocks and replies
enqueued. -/
theorem mainLoop_lossless (memory : UInt32 → UInt32) (es : List LoopEvent)
    (hbudget : Along loopStep WithinBudget es (MainLoop.boot memory)) :
    Along loopStep Lossless es (MainLoop.boot memory) ∧
      trace loopStep (fun e m => m.handed e) es (MainLoop.boot memory) ++
          (run loopStep es (MainLoop.boot memory)).device.usbTxRb.contents =
        trace loopStep (fun e m => m.enqueued e) es (MainLoop.boot memory) := by
  obtain ⟨hall, hstream⟩ := run_kept (.boot memory) hbudget
  rw [List.nil_append] at hstream
  exact ⟨hall, hstream⟩

/-- A version request in a round of its own. -/
theorem mainLoop_lossless_version :
    Along loopStep Lossless [.irq (.bulkOut [0, 0]), .main, .main, .main, .main, .main]
        (MainLoop.boot fun _ => 0) ∧
      trace loopStep (fun e m => m.handed e)
          [.irq (.bulkOut [0, 0]), .main, .main, .main, .main, .main]
          (MainLoop.boot fun _ => 0) ++
          (run loopStep [.irq (.bulkOut [0, 0]), .main, .main, .main, .main, .main]
            (MainLoop.boot fun _ => 0)).device.usbTxRb.contents =
        trace loopStep (fun e m => m.enqueued e)
          [.irq (.bulkOut [0, 0]), .main, .main, .main, .main, .main]
          (MainLoop.boot fun _ => 0) := by
  have hreply : ∀ m : MainLoop, m.replies ≤ 6 → WithinBudget .main m := by
    intro m hm
    unfold WithinBudget loopStep
    dsimp only
    split
    · exact hm.trans (by decide)
    · split
      · exact hm.trans (by decide)
      · exact Nat.zero_le _
  refine mainLoop_lossless _ _ ⟨?_, hreply _ ?_, hreply _ ?_, hreply _ ?_, hreply _ ?_,
    hreply _ ?_, trivial⟩
  · show 0 + 6 ≤ 1559
    decide
  all_goals exact le_refl 6
