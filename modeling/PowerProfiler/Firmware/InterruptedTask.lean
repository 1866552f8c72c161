-- SUMMARY: The steps of task_data_out against interrupts that reset the sample ring, and when a reset is not undone.
import PowerProfiler.Firmware.SampleHistory
import PowerProfiler.Firmware.Reachable

/-!
# Resets under `task_data_out`

A stop, a restart or a sleep puts both pointers of the sample ring at zero. A call of
`task_data_out` that has loaded the read pointer before such a reset still stores the old
one, 40 slots on, behind it. `Harmless` says of such a torn call what it takes to leave
nothing of the old ring behind.
-/

open Framing Runs

/-! ## The interrupts that reset the ring -/

/-- `CMD_DEV_CAD` with this data stops sampling or initialises the unit again. -/
def cadResets (data : List UInt8) (d : Device) : Bool :=
  match data with
  | [] => false
  | enable :: _ =>
      let cfg := d.cfgAdc.memcpy data
      d.i2s0 && (enable == 0 || decide (d.Reinit cfg.chnl cfg.freq))

/-- The interrupt puts both pointers of the sample ring at zero. -/
def Irq.resets : Irq → Device → Bool
  | .bulkOut packet, d =>
      match request packet with
      | none => false
      | some req => req.cmd == cmdDevCad && cadResets req.payload d
  | .setDtr dtr, d => dtr != d.dtrEnable && dtr != d.i2s0
  | _, _ => false

/-! ## The steps of the task -/

/-- A call of `task_data_out` that has loaded the read pointer. `fresh` are the samples
accepted since the last reset before the call, `written` counts the slots written since
then, and `torn` says that a reset has come since the load. -/
structure Call where
  rd : Nat
  fresh : List UInt32
  written : Nat
  torn : Bool

/-- Where the main loop is in `task_data_out`: outside; behind the load of the read
pointer; behind that of the write pointer; behind the copy; behind the store. -/
inductive TaskPoint where
  | ready
  | loaded (c : Call)
  | decided (c : Call) (wr : Nat)
  | copied (c : Call) (samples : List UInt32)
  | stored (c : Call) (samples : List UInt32)

/-- The device, the point in the task, and the samples accepted since the last reset. -/
structure Split where
  device : Device
  point : TaskPoint
  accepted : List UInt32

namespace Split

def boot (memory : UInt32 → UInt32) : Split where
  device := Device.boot memory
  point := .ready
  accepted := []

/-- A call that loads the read pointer now. -/
def begun (s : Split) : Call where
  rd := s.device.dataBufferRdPtr
  fresh := s.accepted
  written := s.accepted.length
  torn := false

/-- The next step of `task_data_out`. -/
def task (s : Split) : Split :=
  match s.point with
  | .ready => { s with point := .loaded s.begun }
  | .loaded c => { s with point := .decided c s.device.dataBufferWrPtr }
  | .decided c wr =>
      match blockIndices c.rd wr with
      | none => { s with point := .ready }
      | some is =>
          { s with
            device :=
              { s.device with
                fault := s.device.fault || is.any (fun i => decide (dataBufCnt ≤ i)) }
            point := .copied c (is.map s.device.dataBuffer) }
  | .copied c samples =>
      { s with
        device := { s.device with dataBufferRdPtr := (c.rd + samples.length) &&& (dataBufCnt - 1) }
        point := .stored c samples }
  | .stored _ samples => { s with device := sendBlock samples s.device, point := .ready }

/-- The samples accepted since the last reset, behind the interrupt. -/
def acceptedBy (i : Irq) (s : Split) : List UInt32 :=
  if i.resets s.device then [] else s.accepted ++ acceptedOf (.irq i) s.device

end Split

/-- What a call keeps in mind of an interrupt. -/
def Call.after (i : Irq) (s : Split) (c : Call) : Call :=
  { c with
    fresh := c.fresh ++ acceptedOf (.irq i) s.device
    written := max c.written (s.acceptedBy i).length
    torn := c.torn || i.resets s.device }

def TaskPoint.after (i : Irq) (s : Split) : TaskPoint → TaskPoint
  | .ready => .ready
  | .loaded c => .loaded (c.after i s)
  | .decided c wr => .decided (c.after i s) wr
  | .copied c samples => .copied (c.after i s) samples
  | .stored c samples => .stored (c.after i s) samples

/-- One step: of the task, of the rest of the main loop between two calls, or a whole
interrupt at any point. -/
def splitStep (e : Event) (s : Split) : Split :=
  match e with
  | .task => s.task
  | .drain =>
      match s.point with
      | .ready => { s with device := step .drain s.device }
      | _ => s
  | .irq i =>
      { device := irqStep i s.device, point := s.point.after i s, accepted := s.acceptedBy i }

/-- The samples of the block that the step puts into the output FIFO. -/
def emitted (e : Event) (s : Split) : List UInt32 :=
  match e, s.point with
  | .task, .stored _ samples => samples
  | _, _ => []

/-- The block that the step emits holds only samples accepted since the last reset before
its call. -/
def EmitsFresh (e : Event) (s : Split) : Prop :=
  ∀ c samples, e = .task → s.point = .stored c samples → ∀ w ∈ samples, w ∈ c.fresh

/-- The condition on a call in which a reset has come behind the load of the read pointer.
When it goes on to copy a block, the slots of the block have been written since the last reset
before the call. The read pointer it stores is not ahead of what has been accepted since the
last reset, or it leaves too little before it for a block while sampling is stopped. -/
def Harmless (e : Event) (s : Split) : Prop :=
  match e, s.point with
  | .task, .decided c wr =>
      c.torn = true → data24BlkCnt ≤ pending c.rd wr →
        min (c.rd + data24BlkCnt) dataBufCnt ≤ c.written
  | .task, .copied c _ =>
      c.torn = true → (c.rd + data24BlkCnt) % dataBufCnt ≤ s.accepted.length ∨
        dataBufCnt ≤ s.accepted.length ∨
          (s.device.i2sCfg.start = 0 ∧
            dataBufCnt - data24BlkCnt < (c.rd + data24BlkCnt) % dataBufCnt)
  | _, _ => True

instance : ∀ (e : Event) (s : Split), Decidable (Harmless e s)
  | .task, ⟨_, .decided _ _, _⟩ => inferInstanceAs (Decidable (_ → _ → _))
  | .task, ⟨_, .copied _ _, _⟩ => inferInstanceAs (Decidable (_ → _ ∨ _ ∨ _))
  | .task, ⟨_, .ready, _⟩ | .task, ⟨_, .loaded _, _⟩ | .task, ⟨_, .stored _ _, _⟩
  | .drain, _ | .irq _, _ => .isTrue trivial

/-! ## The call as one step -/

section Task

variable (d : Device) (accepted : List UInt32) (c : Call)

theorem task_returns {wr : Nat} (his : blockIndices c.rd wr = none) :
    Split.task ⟨d, .decided c wr, accepted⟩ = ⟨d, .ready, accepted⟩ := by
  unfold Split.task
  dsimp only
  rw [his]

theorem task_copies {wr : Nat} {is : List Nat} (his : blockIndices c.rd wr = some is) :
    Split.task ⟨d, .decided c wr, accepted⟩ =
      ⟨{ d with fault := d.fault || is.any (fun i => decide (dataBufCnt ≤ i)) },
        .copied c (is.map d.dataBuffer), accepted⟩ := by
  unfold Split.task
  dsimp only
  rw [his]

theorem task_stores (samples : List UInt32) :
    Split.task ⟨d, .copied c samples, accepted⟩ =
      ⟨{ d with dataBufferRdPtr := (c.rd + samples.length) &&& (dataBufCnt - 1) },
        .stored c samples, accepted⟩ := rfl

theorem task_emits (samples : List UInt32) :
    Split.task ⟨d, .stored c samples, accepted⟩ = ⟨sendBlock samples d, .ready, accepted⟩ := rfl

end Task

/-- Undisturbed, the steps of a call amount to `taskDataOut`. -/
theorem split_taskDataOut (d : Device) (accepted : List UInt32) :
    ∃ n, Split.task^[n] ⟨d, .ready, accepted⟩ = ⟨(taskDataOut d).1, .ready, accepted⟩ := by
  have hload : ∃ c : Call, c.rd = d.dataBufferRdPtr ∧
      Split.task^[2] ⟨d, .ready, accepted⟩ = ⟨d, .decided c d.dataBufferWrPtr, accepted⟩ :=
    ⟨_, rfl, rfl⟩
  obtain ⟨c, hrd, hload⟩ := hload
  unfold taskDataOut
  cases his : blockIndices d.dataBufferRdPtr d.dataBufferWrPtr with
  | none =>
      refine ⟨3, ?_⟩
      rw [Function.iterate_succ_apply', hload, task_returns d accepted c (by rw [hrd, his])]
  | some is =>
      refine ⟨5, ?_⟩
      show Split.task (Split.task (Split.task (Split.task^[2] ⟨d, .ready, accepted⟩))) = _
      rw [hload, task_copies d accepted c (by rw [hrd, his]), task_stores, task_emits, hrd,
        List.length_map]
      rfl
