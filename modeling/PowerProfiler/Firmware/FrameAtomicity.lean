-- SUMMARY: When the bytes behind the output FIFO are whole frames: exactly when no write finds some but too little room.
import PowerProfiler.Firmware.Output

/-!
# Frame atomicity

`Ring_Buffer_Write` stores as much of a frame as finds room. A frame of which nothing
fits is dropped whole, but one of which a part fits leaves that part in the FIFO, and
everything behind it is read at the wrong frame boundaries.
-/

open Framing Runs

/-- The bytes that find room in the FIFO. -/
def Device.room (d : Device) : Nat := d.usbTxRb.size - d.usbTxRb.contents.length

/-- The write of the step finds room for all of its frame or for none of it. -/
def WholeOrNone (e : Event) (d : Device) : Prop :=
  ∀ bytes ∈ writeOf e d, d.room = 0 ∨ bytes.length ≤ d.room

/-- A write that finds too little room leaves the contents of the FIFO alone. -/
def ShortWriteKeeps (e : Event) (d : Device) : Prop :=
  ∀ bytes ∈ writeOf e d, d.room < bytes.length →
    (step e d).usbTxRb.contents = d.usbTxRb.contents

variable {memory : UInt32 → UInt32} {es : List Event}

/-- The step adds to the output stream what finds room of its write. -/
theorem outputStream_boot_snoc (memory : UInt32 → UInt32) (es : List Event) (e : Event) :
    outputStream (es ++ [e]) (Device.boot memory) = outputStream es (Device.boot memory) ++
      ((writeOf e (run step es (Device.boot memory))).getD []).take
        (run step es (Device.boot memory)).room := by
  obtain ⟨xs, hxs, -⟩ := run_repr memory es
  rw [outputStream_snoc e hxs, Device.room, hxs.contents_eq]

/-- With room for all or none of it, a frame keeps the output stream framed. -/
theorem framed_snoc {e : Event} (h : Framed (outputStream es (Device.boot memory)))
    (hroom : WholeOrNone e (run step es (Device.boot memory))) :
    Framed (outputStream (es ++ [e]) (Device.boot memory)) := by
  rw [outputStream_boot_snoc]
  rcases hw : writeOf e (run step es (Device.boot memory)) with _ | bytes
  · simpa using h
  · obtain ⟨f, rfl⟩ := writeOf_frame hw
    apply h.append
    rw [Option.getD_some, f.framed_take_iff]
    exact hroom _ hw

/-- A framed stream on both sides of a step shows that its frame went in whole or not
at all. -/
theorem wholeOrNone_of_framed {e : Event} (h : Framed (outputStream es (Device.boot memory)))
    (h' : Framed (outputStream (es ++ [e]) (Device.boot memory))) :
    WholeOrNone e (run step es (Device.boot memory)) := by
  intro bytes hw
  obtain ⟨f, rfl⟩ := writeOf_frame hw
  rw [Option.mem_def] at hw
  rw [outputStream_boot_snoc, hw, Option.getD_some, h.append_iff, f.framed_take_iff] at h'
  exact h'

theorem shortWriteKeeps_of_wholeOrNone {e : Event}
    (hroom : WholeOrNone e (run step es (Device.boot memory))) :
    ShortWriteKeeps e (run step es (Device.boot memory)) := by
  intro bytes hw hshort
  have hzero : (run step es (Device.boot memory)).room = 0 := by
    have := hroom bytes hw
    omega
  obtain ⟨xs, hxs, -⟩ := run_repr memory es
  obtain ⟨ys, hys, -, hbytes⟩ := fifo_step (e := e) hxs
  have hhanded : handedOf e (run step es (Device.boot memory)) = [] := by
    cases e with
    | task => rfl
    | drain => simp [writeOf] at hw
    | irq i => rfl
  rw [Device.room, hxs.contents_eq] at hzero
  rw [hzero, hhanded, List.take_zero, List.append_nil, List.nil_append] at hbytes
  rw [hys.contents_eq, hxs.contents_eq, hbytes]

/-- In a run from start-up, everything handed over and still held is a sequence of whole
frames after every prefix, and no short write changes the FIFO, exactly when every write
finds room for all of its frame or for none. -/
theorem frameAtomicity_iff (memory : UInt32 → UInt32) (es : List Event) :
    ((∀ es', es' <+: es → Framed (outputStream es' (Device.boot memory))) ∧
      Along step ShortWriteKeeps es (Device.boot memory)) ↔
    Along step WholeOrNone es (Device.boot memory) := by
  constructor
  · rintro ⟨hframed, -⟩
    rw [along_iff_steps]
    intro es' e hpre
    exact wholeOrNone_of_framed (hframed es' ((List.prefix_append _ _).trans hpre))
      (hframed _ hpre)
  · intro hroom
    constructor
    · intro es' hpre
      have hroom' := hroom.initial hpre
      clear hpre hroom
      induction es' using List.reverseRecOn with
      | nil => simpa [outputStream, (boot_repr memory).contents_eq] using framed_nil
      | append_singleton es' e ih =>
          rw [along_snoc] at hroom'
          exact framed_snoc (ih hroom'.1) hroom'.2
    · rw [along_iff_steps] at hroom ⊢
      intro es' e hpre
      exact shortWriteKeeps_of_wholeOrNone (hroom es' e hpre)

/-! ## A run that truncates a frame -/

/-- The debug request that reads 58 words at address zero. -/
def longRequest : List UInt8 := [6, cmdDevDbg, 58, 0, 0, 0, 0, 0]

/-- Eighteen of these requests while nothing is drained. -/
def flood : List Event := List.replicate 18 (.irq (.bulkOut longRequest))

theorem writeOf_longRequest (d : Device) :
    ∃ f : Frame, writeOf (.irq (.bulkOut longRequest)) d = some f.bytes ∧ f.bytes.length = 234 := by
  refine ⟨(cmdDecode (Frame.ofHead 6 cmdDevDbg [58, 0, 0, 0, 0, 0]) d).2, rfl, ?_⟩
  have hpay : (cmdDecode (Frame.ofHead 6 cmdDevDbg [58, 0, 0, 0, 0, 0]) d).2.payload.length =
      232 := by
    have h : (cmdDecode (Frame.ofHead 6 cmdDevDbg [58, 0, 0, 0, 0, 0]) d).2.payload =
        readWords (writeWords d.memory 0 []) 0 58 := rfl
    rw [h, length_readWords]
  rw [Frame.length_bytes, hpay]

/-- Requests without a drain fill the FIFO. -/
theorem flood_room (memory : UInt32 → UInt32) {n : Nat} (hn : n ≤ 17) :
    (run step (List.replicate n (.irq (.bulkOut longRequest))) (Device.boot memory)).room =
      4096 - 234 * n := by
  induction n with
  | zero => simp [Device.room, (boot_repr memory).contents_eq]; rfl
  | succ n ih =>
      obtain ⟨xs, hxs, hsize⟩ :=
        run_repr memory (List.replicate n (.irq (.bulkOut longRequest)))
      obtain ⟨f, hw, hlen⟩ := writeOf_longRequest
        (run step (List.replicate n (.irq (.bulkOut longRequest))) (Device.boot memory))
      obtain ⟨ys, hys, hsize', hbytes⟩ := fifo_step (e := .irq (.bulkOut longRequest)) hxs
      have ih := ih (by omega)
      rw [Device.room, hxs.contents_eq, hsize] at ih
      rw [List.replicate_succ', run_snoc, Device.room, hys.contents_eq, hsize', hsize]
      have hcount := congrArg List.length hbytes
      have hsz : usbTxRingBufferSize = 4096 := rfl
      simp only [handedOf, hw, Option.getD_some, List.nil_append, List.length_append,
        List.length_take, hlen, hsize] at hcount
      omega

/-- The eighteenth reply leaves 118 of its 234 bytes in the FIFO. -/
theorem flood_not_framed :
    ¬ ((∀ es', es' <+: flood → Framed (outputStream es' (Device.boot fun _ => 0))) ∧
      Along step ShortWriteKeeps flood (Device.boot fun _ => 0)) := by
  rintro ⟨hframed, -⟩
  have hpre : List.replicate 17 (.irq (.bulkOut longRequest)) ++ [.irq (.bulkOut longRequest)] <+:
      flood := by
    rw [flood, ← List.replicate_succ']
  have hroom := wholeOrNone_of_framed (hframed _ ((List.prefix_append _ _).trans hpre))
    (hframed _ hpre)
  obtain ⟨f, hw, hlen⟩ := writeOf_longRequest
    (run step (List.replicate 17 (.irq (.bulkOut longRequest))) (Device.boot fun _ => 0))
  have := hroom _ hw
  rw [flood_room _ (le_refl 17)] at this
  omega
