-- SUMMARY: The rest of ring_buffer.c: bytes, forced writes, peeks and the status, and the ring as a bounded queue under any sequence of calls.
import PowerProfiler.Firmware.RingBuffer
import PowerProfiler.Lib.BoundedQueue
import PowerProfiler.Lib.Runs

/-!
# The ring as a queue

Besides `Ring_Buffer_Write` and `Ring_Buffer_Read` the FIFO has calls for single bytes,
calls that overwrite the oldest data, and calls that look without removing. Every call
does to the contents what the bounded queue does, but for one case: a forced write that
runs over in a ring whose mirrors agree flips both of them, and the full ring passes for
an empty one.
-/

open Circular BoundedQueue

/-! ## The functions -/

/-- `Ring_Buffer_Status_Type` -/
inductive RingBufferStatus where
  | empty
  | partly
  | full
  deriving DecidableEq

/-- `Ring_Buffer_Reset` -/
def ringBufferReset (rb : RingBuffer) : RingBuffer :=
  { rb with readMirror := false, readIndex := 0, writeMirror := false, writeIndex := 0 }

/-- `Ring_Buffer_Get_Status` -/
def ringBufferGetStatus (rb : RingBuffer) : RingBufferStatus :=
  if rb.readIndex = rb.writeIndex then
    if rb.readMirror = rb.writeMirror then .empty else .full
  else .partly

/-- `Ring_Buffer_Write_Byte` -/
def ringBufferWriteByte (data : UInt8) (rb : RingBuffer) : RingBuffer × Nat :=
  if rb.emptyLengthOf = 0 then (rb, 0)
  else
    let rb := { rb with pointer := Function.update rb.pointer rb.writeIndex data }
    if rb.writeIndex ≠ sub32 rb.size 1 then ({ rb with writeIndex := add32 rb.writeIndex 1 }, 1)
    else ({ rb with writeIndex := 0, writeMirror := !rb.writeMirror }, 1)

/-- `Ring_Buffer_Write_Force` -/
def ringBufferWriteForce (data : List UInt8) (rb : RingBuffer) : RingBuffer × Nat :=
  let sizeRemained := rb.emptyLengthOf
  let indexRemained := sub32 rb.size rb.writeIndex
  let data := if rb.size < data.length then data.drop (data.length - rb.size) else data
  if data.length < indexRemained then
    let rb :=
      { rb with
        pointer := copyTo rb.pointer rb.writeIndex data
        writeIndex := add32 rb.writeIndex data.length }
    (if sizeRemained < data.length then { rb with readIndex := rb.writeIndex } else rb, data.length)
  else
    let rb :=
      { rb with
        pointer := copyTo (copyTo rb.pointer rb.writeIndex (data.take indexRemained)) 0
          (data.drop indexRemained)
        writeIndex := data.length - indexRemained
        writeMirror := !rb.writeMirror }
    (if sizeRemained < data.length then
        { rb with readIndex := rb.writeIndex, readMirror := !rb.readMirror }
      else rb, data.length)

/-- `Ring_Buffer_Write_Byte_Force` -/
def ringBufferWriteByteForce (data : UInt8) (rb : RingBuffer) : RingBuffer × Nat :=
  let status := ringBufferGetStatus rb
  let rb := { rb with pointer := Function.update rb.pointer rb.writeIndex data }
  if rb.writeIndex = sub32 rb.size 1 then
    let rb := { rb with writeIndex := 0, writeMirror := !rb.writeMirror }
    (if status = .full then { rb with readIndex := rb.writeIndex, readMirror := !rb.readMirror }
      else rb, 1)
  else
    let rb := { rb with writeIndex := add32 rb.writeIndex 1 }
    (if status = .full then { rb with readIndex := rb.writeIndex } else rb, 1)

/-- `Ring_Buffer_Read_Byte` -/
def ringBufferReadByte (io : RingIo) : RingIo × Nat :=
  if io.rb.lengthOf = 0 then (io, 0)
  else
    let io := { io with dest := Function.update io.dest 0 (io.rb.pointer io.rb.readIndex) }
    if io.rb.readIndex = sub32 io.rb.size 1 then
      ({ io with rb := { io.rb with readIndex := 0, readMirror := !io.rb.readMirror } }, 1)
    else ({ io with rb := { io.rb with readIndex := add32 io.rb.readIndex 1 } }, 1)

/-- `Ring_Buffer_Peek` -/
def ringBufferPeek (length : Nat) (io : RingIo) : RingIo × Nat :=
  let size := io.rb.lengthOf
  if size = 0 then (io, 0)
  else
    let length := if size < length then size else length
    let size := sub32 io.rb.size io.rb.readIndex
    if length < size then
      ({ io with
          dest := copyTo io.dest 0
            ((List.range' io.rb.readIndex length).map io.rb.pointer) }, length)
    else
      ({ io with
          dest := copyTo
            (copyTo io.dest 0 ((List.range' io.rb.readIndex size).map io.rb.pointer)) size
            ((List.range' 0 (length - size)).map io.rb.pointer) }, length)

/-- `Ring_Buffer_Peek_Byte` -/
def ringBufferPeekByte (io : RingIo) : RingIo × Nat :=
  if io.rb.lengthOf = 0 then (io, 0)
  else ({ io with dest := Function.update io.dest 0 (io.rb.pointer io.rb.readIndex) }, 1)

/-! ## What they do to the contents -/

section Contents

variable {rb : RingBuffer} {xs : List UInt8}

theorem ringBufferReset_repr (h : rb.Repr xs) : (ringBufferReset rb).Repr [] :=
  @RingBuffer.Repr.init rb.pointer rb.size (Nat.zero_lt_of_lt h.read_lt) h.size_le

theorem ringBufferGetStatus_repr (h : rb.Repr xs) :
    ringBufferGetStatus rb =
      if xs.length = 0 then .empty else if xs.length = rb.size then .full else .partly := by
  have hr := h.read_lt; have hw := h.write_lt; have hl := h.length_le
  unfold ringBufferGetStatus
  by_cases hm : rb.readMirror = rb.writeMirror
  · have hsame := h.same hm
    by_cases h0 : xs.length = 0
    · rw [if_pos (by omega), if_pos hm, if_pos h0]
    · rw [if_neg (by omega), if_neg h0, if_neg (by omega)]
  · have hdiff := h.differ hm
    have h0 : xs.length ≠ 0 := by omega
    by_cases hfull : xs.length = rb.size
    · rw [if_pos (by omega), if_neg hm, if_neg h0, if_pos hfull]
    · rw [if_neg (by omega), if_neg h0, if_neg hfull]

/-- The last slot of a ring, on `uint32_t`. -/
theorem RingBuffer.Repr.sub_one (h : rb.Repr xs) : sub32 rb.size 1 = rb.size - 1 := by
  have := h.size_le; have := h.read_lt
  unfold sub32
  omega

theorem RingBuffer.Repr.add_one (h : rb.Repr xs) {i : Nat} (hi : i < rb.size) :
    add32 i 1 = i + 1 := by
  have := h.size_le
  unfold add32
  omega

/-- One byte stored at the write index. -/
theorem RingBuffer.Repr.pushed_singleton (h : rb.Repr xs) (b : UInt8) :
    rb.pushed [b] =
      { rb with
        pointer := Function.update rb.pointer rb.writeIndex b
        writeIndex := if rb.writeIndex = rb.size - 1 then 0 else rb.writeIndex + 1
        writeMirror := if rb.writeIndex = rb.size - 1 then !rb.writeMirror else rb.writeMirror } := by
  have hw := h.write_lt
  unfold RingBuffer.pushed
  rw [fill, fill_nil, Nat.mod_eq_of_lt hw, List.length_singleton]
  by_cases hlast : rb.writeIndex = rb.size - 1
  · have hwrap : ¬ rb.writeIndex + 1 < rb.size := by omega
    have hzero : rb.writeIndex + 1 - rb.size = 0 := by omega
    simp only [if_neg hwrap, if_pos hlast, hzero]
  · have hfit : rb.writeIndex + 1 < rb.size := by omega
    simp only [if_pos hfit, if_neg hlast]

theorem ringBufferWriteByte_repr (h : rb.Repr xs) (b : UInt8) :
    ringBufferWriteByte b rb =
      if xs.length < rb.size then (rb.pushed [b], 1) else (rb, 0) := by
  have hl := h.length_le
  unfold ringBufferWriteByte
  dsimp only
  rw [h.emptyLengthOf, h.sub_one, h.add_one h.write_lt]
  by_cases hfull : xs.length < rb.size
  · rw [if_neg (by omega), if_pos hfull, h.pushed_singleton]
    by_cases hlast : rb.writeIndex = rb.size - 1
    · simp only [hlast, ne_eq, not_true_eq_false, if_false, if_true]
    · simp only [hlast, ne_eq, not_false_eq_true, if_false, if_true]
  · rw [if_pos (by omega), if_neg hfull]

/-! ## Forced writes -/

/-- The ring behind a forced write of at most its size. -/
def RingBuffer.forced (rb : RingBuffer) (runsOver : Bool) (data : List UInt8) : RingBuffer :=
  if runsOver then
    { rb.pushed data with
      readIndex := (rb.pushed data).writeIndex
      readMirror := if rb.writeIndex + data.length < rb.size then rb.readMirror else !rb.readMirror }
  else rb.pushed data

/-- Both branches store the data behind the contents; data that runs over takes the read
index along. -/
theorem ringBufferWriteForce_eq {data : List UInt8} (hsize : rb.size ≤ 2147483648)
    (hw : rb.writeIndex < rb.size) (hlen : data.length ≤ rb.size) :
    ringBufferWriteForce data rb =
      (rb.forced (decide (rb.emptyLengthOf < data.length)) data, data.length) := by
  have hrem : sub32 rb.size rb.writeIndex = rb.size - rb.writeIndex := by
    unfold sub32
    omega
  have hcut : ¬ rb.size < data.length := by omega
  unfold ringBufferWriteForce RingBuffer.forced
  rw [if_neg hcut, hrem]
  dsimp only
  by_cases hfit : rb.writeIndex + data.length < rb.size
  · have hpush := congrArg Prod.fst ((ringBufferWriteStraight_run data rb).symm.trans
      (ringBufferWriteStraight_pushed hsize hfit))
    have hbranch : data.length < rb.size - rb.writeIndex := by omega
    dsimp only at hpush
    rw [if_pos hbranch, if_pos hfit, ← hpush]
    by_cases hover : rb.emptyLengthOf < data.length
    · simp only [hover, if_true, decide_true]
    · simp only [hover, if_false, decide_false, Bool.false_eq_true]
  · have hpush := congrArg Prod.fst ((ringBufferWriteDivided_run
      (data.take (rb.size - rb.writeIndex)) (data.drop (rb.size - rb.writeIndex)) rb).symm.trans
      (ringBufferWriteDivided_pushed hw.le (by omega) hlen))
    have hbranch : ¬ data.length < rb.size - rb.writeIndex := by omega
    dsimp only at hpush
    rw [List.length_drop] at hpush
    rw [if_neg hbranch, if_neg hfit, ← hpush]
    by_cases hover : rb.emptyLengthOf < data.length
    · simp only [hover, if_true, decide_true]
    · simp only [hover, if_false, decide_false, Bool.false_eq_true]

/-- Data longer than the ring is cut at its start. -/
theorem ringBufferWriteForce_rtake (data : List UInt8) (rb : RingBuffer) :
    ringBufferWriteForce data rb = ringBufferWriteForce (data.rtake rb.size) rb := by
  have hcut : (if rb.size < (data.rtake rb.size).length then
      (data.rtake rb.size).drop ((data.rtake rb.size).length - rb.size) else data.rtake rb.size) =
      data.rtake rb.size := by
    rw [if_neg]
    rw [length_rtake]
    omega
  unfold ringBufferWriteForce
  rw [hcut]
  by_cases hlong : rb.size < data.length
  · rw [if_pos hlong]
    rfl
  · rw [if_neg hlong, rtake_of_length_le (by omega)]

theorem ringBufferWriteForce_size (data : List UInt8) (rb : RingBuffer) :
    (ringBufferWriteForce data rb).1.size = rb.size := by
  unfold ringBufferWriteForce
  dsimp only
  split
  · split <;> split <;> rfl
  · split <;> split <;> rfl

/-- With mirrors that differ, running over is reading the oldest bytes first. -/
theorem RingBuffer.Repr.forced_eq {data : List UInt8} (h : rb.Repr xs)
    (hm : rb.readMirror ≠ rb.writeMirror) (hover : rb.size < xs.length + data.length) :
    rb.forced true data = (rb.popped (xs.length + data.length - rb.size)).pushed data := by
  have hr := h.read_lt; have hw := h.write_lt; have hl := h.length_le
  have hdiff := h.differ hm
  have hread : rb.readIndex + (xs.length + data.length - rb.size) = rb.writeIndex + data.length := by
    omega
  unfold RingBuffer.forced RingBuffer.popped RingBuffer.pushed
  simp only [if_true, hread]

/-- A forced write that runs over keeps the last bytes when the mirrors differ. -/
theorem RingBuffer.Repr.forced {data : List UInt8} (h : rb.Repr xs)
    (hm : rb.readMirror ≠ rb.writeMirror) (hlen : data.length ≤ rb.size)
    (hover : rb.size < xs.length + data.length) :
    (rb.forced true data).Repr (overwrite rb.size xs data) := by
  have hl := h.length_le
  have hpop := h.popped (n := xs.length + data.length - rb.size) (by omega)
  have hroom : (xs.drop (xs.length + data.length - rb.size)).length + data.length ≤
      (rb.popped (xs.length + data.length - rb.size)).size := by
    rw [RingBuffer.popped_size, List.length_drop]
    omega
  have hpush := hpop.pushed hroom
  rw [h.forced_eq hm hover, overwrite_eq hlen]
  exact hpush

/-- When they agree, the ring reads empty. -/
theorem RingBuffer.Repr.forced_lost {data : List UInt8} (h : rb.Repr xs)
    (hm : rb.readMirror = rb.writeMirror) (hlen : data.length ≤ rb.size)
    (hover : rb.size < xs.length + data.length) : (rb.forced true data).Repr [] := by
  have hr := h.read_lt; have hw := h.write_lt
  have hsame := h.same hm
  have hwrap : ¬ rb.writeIndex + data.length < rb.size := by omega
  have hindex : (rb.pushed data).writeIndex < rb.size := by
    simp only [RingBuffer.pushed, if_neg hwrap]
    omega
  have hmirror : (rb.pushed data).writeMirror = !rb.writeMirror := by
    simp only [RingBuffer.pushed, if_neg hwrap]
  unfold RingBuffer.forced
  simp only [if_true, if_neg hwrap]
  exact
    { size_le := h.size_le
      read_lt := hindex
      write_lt := hindex
      length_le := Nat.zero_le _
      same := fun _ => rfl
      differ := fun hd => absurd (by rw [hmirror, hm]) hd
      holds := Holds.nil _ _ _ }

/-- The byte that overwrites goes through the status: the ring is full only with mirrors
that differ. -/
theorem ringBufferWriteByteForce_eq (h : rb.Repr xs) (b : UInt8) :
    ringBufferWriteByteForce b rb = (rb.forced (decide (xs.length = rb.size)) [b], 1) := by
  have hr := h.read_lt; have hw := h.write_lt
  have hstatus : ringBufferGetStatus rb = .full ↔ xs.length = rb.size := by
    rw [ringBufferGetStatus_repr h]
    by_cases h0 : xs.length = 0
    · rw [if_pos h0]
      simp only [reduceCtorEq, false_iff]
      omega
    · rw [if_neg h0]
      split
      next hfull => simp [hfull]
      next hfull => simp [hfull]
  unfold ringBufferWriteByteForce RingBuffer.forced
  dsimp only
  simp only [h.pushed_singleton, h.sub_one, h.add_one hw, hstatus, List.length_singleton,
    decide_eq_true_eq]
  by_cases hlast : rb.writeIndex = rb.size - 1
  · have hwrap : ¬ rb.size - 1 + 1 < rb.size := by omega
    simp only [hlast, if_true, hwrap, if_false]
  · have hfit : rb.writeIndex + 1 < rb.size := by omega
    simp only [hlast, if_false, hfit, if_true]

theorem ringBufferWriteByteForce_repr (h : rb.Repr xs) (b : UInt8) :
    (ringBufferWriteByteForce b rb).1.Repr (overwrite rb.size xs [b]) := by
  have hr := h.read_lt; have hl := h.length_le
  rw [ringBufferWriteByteForce_eq h]
  by_cases hfull : xs.length = rb.size
  · have hm : rb.readMirror ≠ rb.writeMirror := by
      intro heq
      have := h.same heq
      have := h.write_lt
      omega
    rw [decide_eq_true hfull]
    exact h.forced hm (by simp; omega) (by simp; omega)
  · rw [decide_eq_false hfull, overwrite_fits (by simp; omega)]
    exact h.pushed (by simp; omega)

end Contents

/-! ## Looking and reading -/

/-- A peek copies what a read would, and removes nothing. -/
theorem ringBufferPeek_eq_read (length : Nat) (io : RingIo) :
    ringBufferPeek length io =
      ({ io with dest := ((ringBufferRead length).run io).1.dest },
        ((ringBufferRead length).run io).2) := by
  have hmin : (if io.rb.lengthOf < length then io.rb.lengthOf else length) =
      min length io.rb.lengthOf := by
    split <;> omega
  unfold ringBufferPeek
  dsimp only
  rw [hmin]
  simp only [ringBufferRead, Prog.run_bind, Prog.run_focus, RingIo.ring,
    ringBufferGetLength_run]
  by_cases h0 : io.rb.lengthOf = 0
  · simp only [h0, if_true, Prog.run_pure]
  · simp only [h0, if_false, ringBufferReadData, Prog.run_bind, Prog.run_load]
    by_cases hlt : min length io.rb.lengthOf < sub32 io.rb.size io.rb.readIndex
    · simp [hlt, ringBufferReadStraight]
    · simp only [hlt, if_false, ringBufferReadDivided, Prog.run_bind, ringBufferReadSides_run,
        Prog.run_store, Prog.run_load, Prog.run_pure, Prod.mk.injEq, true_and]
      omega

theorem ringBufferPeek_repr {io : RingIo} {xs : List UInt8} (h : io.rb.Repr xs) (length : Nat) :
    ringBufferPeek length io =
      ({ io with dest := copyTo io.dest 0 (xs.take (min length xs.length)) },
        min length xs.length) := by
  rw [ringBufferPeek_eq_read, ringBufferRead_repr h]

theorem ringBufferPeekByte_repr {io : RingIo} {xs : List UInt8} (h : io.rb.Repr xs) :
    ringBufferPeekByte io =
      ({ io with dest := copyTo io.dest 0 (xs.take (min 1 xs.length)) }, min 1 xs.length) := by
  unfold ringBufferPeekByte
  rw [h.lengthOf]
  cases xs with
  | nil => rfl
  | cons x xs =>
      have hhead := h.holds 0 (by simp)
      rw [slot_of_lt (by simpa using h.read_lt), Nat.add_zero] at hhead
      rw [if_neg (by simp), hhead]
      simp [copyTo]

theorem ringBufferReadByte_repr {io : RingIo} {xs : List UInt8} (h : io.rb.Repr xs) :
    ringBufferReadByte io =
      ({ rb := io.rb.popped (min 1 xs.length)
         dest := copyTo io.dest 0 (xs.take (min 1 xs.length)) }, min 1 xs.length) := by
  have hr := h.read_lt
  unfold ringBufferReadByte
  dsimp only
  rw [h.lengthOf, h.sub_one, h.add_one hr]
  cases xs with
  | nil => simp [RingBuffer.popped, hr]
  | cons x xs =>
      have hhead := h.holds 0 (by simp)
      rw [slot_of_lt (by simpa using hr), Nat.add_zero] at hhead
      have hone : min 1 (x :: xs).length = 1 := by simp
      rw [if_neg (by simp), hhead, hone]
      unfold RingBuffer.popped
      by_cases hlast : io.rb.readIndex = io.rb.size - 1
      · have hwrap : ¬ io.rb.readIndex + 1 < io.rb.size := by omega
        have hzero : io.rb.readIndex + 1 - io.rb.size = 0 := by omega
        rw [if_pos hlast]
        simp only [hwrap, if_false, hzero]
        simp [copyTo]
      · have hfit : io.rb.readIndex + 1 < io.rb.size := by omega
        rw [if_neg hlast]
        simp only [hfit, if_true]
        simp [copyTo]

/-- The bytes that a call left at the start of the caller's buffer. -/
def RingIo.copied (out : RingIo × Nat) : List UInt8 := (List.range out.2).map out.1.dest

theorem RingIo.copied_take (rb : RingBuffer) (dest : Nat → UInt8) (q : List UInt8) (k : Nat) :
    RingIo.copied ({ rb := rb, dest := copyTo dest 0 (q.take (min k q.length)) }, min k q.length) =
      q.take k := by
  apply List.ext_getElem
  · simp [RingIo.copied]
  · intro i hi hi'
    have hcopy := @copyTo_get _ dest 0 i (q.take (min k q.length))
      (by simpa [RingIo.copied] using hi)
    rw [Nat.zero_add] at hcopy
    simp [RingIo.copied, hcopy]

/-! ## Byte by byte -/

/-- Two writes that fit are one write of both. -/
theorem RingBuffer.pushed_pushed {rb : RingBuffer} {bs cs : List UInt8}
    (hw : rb.writeIndex < rb.size) (hfit : bs.length + cs.length ≤ rb.size) :
    (rb.pushed bs).pushed cs = rb.pushed (bs ++ cs) := by
  have hstart : (rb.pushed bs).writeIndex % rb.size = (rb.writeIndex + bs.length) % rb.size := by
    unfold RingBuffer.pushed
    dsimp only
    split
    · rfl
    next hwrap => rw [← Nat.mod_eq_sub_mod (by omega)]
  have hfill : fill (rb.pushed bs).pointer rb.size (rb.pushed bs).writeIndex cs =
      fill rb.pointer rb.size rb.writeIndex (bs ++ cs) := by
    rw [fill_congr_start _ hstart, fill_append]
    rfl
  unfold RingBuffer.pushed at hfill ⊢
  rw [List.length_append]
  dsimp only at hfill ⊢
  rw [hfill]
  by_cases hfirst : rb.writeIndex + bs.length < rb.size
  · simp only [hfirst, if_true, ← Nat.add_assoc]
  · have hsecond : rb.writeIndex + bs.length - rb.size + cs.length < rb.size := by omega
    have hboth : ¬ rb.writeIndex + (bs.length + cs.length) < rb.size := by omega
    have hindex : rb.writeIndex + bs.length - rb.size + cs.length =
        rb.writeIndex + (bs.length + cs.length) - rb.size := by omega
    simp only [hfirst, if_false, hboth, ← hindex, hsecond, if_true]

/-- Two reads are one read of both lengths. -/
theorem RingBuffer.popped_popped {rb : RingBuffer} {m n : Nat} (hr : rb.readIndex < rb.size)
    (hfit : m + n ≤ rb.size) : (rb.popped m).popped n = rb.popped (m + n) := by
  unfold RingBuffer.popped
  dsimp only
  by_cases hfirst : rb.readIndex + m < rb.size
  · simp only [hfirst, if_true, Nat.add_assoc]
  · have hsecond : rb.readIndex + m - rb.size + n < rb.size := by omega
    have hboth : ¬ rb.readIndex + (m + n) < rb.size := by omega
    have hindex : rb.readIndex + m - rb.size + n = rb.readIndex + (m + n) - rb.size := by omega
    simp only [hfirst, if_false, hboth, ← hindex, hsecond, if_true]

/-- `Ring_Buffer_Write_Byte` for each byte, with the sum of what it returns. -/
def ringBufferWriteBytes (data : List UInt8) (rb : RingBuffer) : RingBuffer × Nat :=
  data.foldl (fun out b =>
    ((ringBufferWriteByte b out.1).1, out.2 + (ringBufferWriteByte b out.1).2)) (rb, 0)

/-- `Ring_Buffer_Write_Byte_Force` for each byte. -/
def ringBufferWriteBytesForce (data : List UInt8) (rb : RingBuffer) : RingBuffer :=
  data.foldl (fun rb b => (ringBufferWriteByteForce b rb).1) rb

/-- `Ring_Buffer_Read_Byte` as often as asked for, each time to the next place. -/
def ringBufferReadBytes : Nat → RingBuffer → RingBuffer × List UInt8
  | 0, rb => (rb, [])
  | n + 1, rb =>
      let out := ringBufferReadByte { rb := rb, dest := fun _ => 0 }
      if out.2 = 0 then (rb, [])
      else
        let rest := ringBufferReadBytes n out.1.rb
        (rest.1, out.1.dest 0 :: rest.2)

theorem ringBufferWriteBytes_from {rb₀ : RingBuffer} {q : List UInt8} (h : rb₀.Repr q)
    (done data : List UInt8) (hdone : q.length + done.length ≤ rb₀.size) (k : Nat) :
    data.foldl (fun out b =>
        ((ringBufferWriteByte b out.1).1, out.2 + (ringBufferWriteByte b out.1).2))
        (rb₀.pushed done, k) =
      (rb₀.pushed (done ++ data.take (rb₀.size - (q.length + done.length))),
        k + min data.length (rb₀.size - (q.length + done.length))) := by
  induction data generalizing done k with
  | nil => simp
  | cons b data ih =>
      have hrepr := h.pushed hdone
      rw [List.foldl_cons, ringBufferWriteByte_repr hrepr, RingBuffer.pushed_size, List.length_append]
      by_cases hroom : q.length + done.length < rb₀.size
      · have hpush : (rb₀.pushed done).pushed [b] = rb₀.pushed (done ++ [b]) := by
          apply RingBuffer.pushed_pushed h.write_lt
          simp only [List.length_singleton]
          omega
        have hnext : q.length + (done ++ [b]).length ≤ rb₀.size := by
          rw [List.length_append, List.length_singleton]
          omega
        have hleft : rb₀.size - (q.length + done.length) =
            rb₀.size - (q.length + (done ++ [b]).length) + 1 := by
          rw [List.length_append, List.length_singleton]
          omega
        rw [if_pos hroom, hpush, ih _ hnext, hleft, List.take_succ_cons, List.append_assoc,
          List.singleton_append]
        simp only [List.length_cons, Prod.mk.injEq, true_and]
        omega
      · have hnone : rb₀.size - (q.length + done.length) = 0 := by omega
        rw [if_neg hroom, ih _ hdone, hnone]
        simp

/-- Writing byte by byte ends in the very ring that one `Ring_Buffer_Write` leaves, and as
many bytes are taken. -/
theorem ringBufferWriteBytes_eq {rb : RingBuffer} {q : List UInt8} (h : rb.Repr q)
    (data : List UInt8) : ringBufferWriteBytes data rb = rb.write data := by
  have hnil : rb.pushed [] = rb := by
    simp [RingBuffer.pushed, h.write_lt]
  have hfrom := ringBufferWriteBytes_from h [] data (by simpa using h.length_le) 0
  rw [hnil] at hfrom
  rw [h.write]
  simpa [ringBufferWriteBytes] using hfrom

theorem ringBufferReadBytes_repr {rb : RingBuffer} {q : List UInt8} (h : rb.Repr q) (n : Nat) :
    ringBufferReadBytes n rb = (rb.popped (min n q.length), q.take n) := by
  induction n generalizing rb q with
  | zero => simp [ringBufferReadBytes, RingBuffer.popped, h.read_lt]
  | succ n ih =>
      unfold ringBufferReadBytes
      rw [@ringBufferReadByte_repr { rb := rb, dest := fun _ => 0 } _ h]
      cases q with
      | nil => simp [RingBuffer.popped, h.read_lt]
      | cons x q =>
          have hl := h.length_le
          rw [List.length_cons] at hl
          have hone : min 1 (x :: q).length = 1 := by simp
          have hpop := h.popped (n := 1) (by simp)
          dsimp only
          rw [hone, if_neg (by simp), ih hpop,
            RingBuffer.popped_popped h.read_lt (by simp; omega)]
          simp [copyTo]
          congr 1
          omega

/-- The calls for single bytes, repeated, end in the very ring that one call for all bytes
leaves, with the same bytes taken and given. -/
theorem ringBuffer_byteByByte {rb : RingBuffer} {q : List UInt8} (h : rb.Repr q)
    (data : List UInt8) (dest : Nat → UInt8) (n : Nat) :
    let out := (ringBufferRead n).run { rb := rb, dest := dest }
    ringBufferWriteBytes data rb = rb.write data ∧
      ringBufferReadBytes n rb = (out.1.rb, RingIo.copied out) := by
  refine ⟨ringBufferWriteBytes_eq h data, ?_⟩
  rw [ringBufferReadBytes_repr h, @ringBufferRead_repr { rb := rb, dest := dest } _ h,
    RingIo.copied_take]

/-- A ring of four bytes that holds three of them across its end. -/
def wrappedRing : RingBuffer where
  pointer := fun i => [30, 0, 10, 20].getD i 0
  readMirror := false
  readIndex := 2
  writeMirror := true
  writeIndex := 1
  size := 4

theorem wrappedRing_repr : wrappedRing.Repr [10, 20, 30] where
  size_le := by decide
  read_lt := by decide
  write_lt := by decide
  length_le := by decide
  same := by decide
  differ := by decide
  holds := by
    unfold Holds
    decide

theorem ringBuffer_byteByByte_wrapped :
    let out := (ringBufferRead 2).run { rb := wrappedRing, dest := fun _ => 0 }
    ringBufferWriteBytes [40, 50] wrappedRing = wrappedRing.write [40, 50] ∧
      ringBufferReadBytes 2 wrappedRing = (out.1.rb, RingIo.copied out) :=
  ringBuffer_byteByByte wrappedRing_repr [40, 50] (fun _ => 0) 2

theorem ringBufferWriteBytesForce_repr {rb : RingBuffer} {q : List UInt8} (h : rb.Repr q)
    (data : List UInt8) :
    (ringBufferWriteBytesForce data rb).Repr (overwrite rb.size q data) := by
  induction data generalizing rb q with
  | nil =>
      rw [overwrite_nil h.length_le]
      exact h
  | cons b data ih =>
      have hstep := ringBufferWriteByteForce_repr h b
      have hsize : (ringBufferWriteByteForce b rb).1.size = rb.size := by
        rw [ringBufferWriteByteForce_eq h]
        unfold RingBuffer.forced
        split <;> rfl
      have hrest := ih hstep
      rw [hsize, overwrite_overwrite, List.singleton_append] at hrest
      exact hrest

/-! ## The forced write -/

/-- The case a forced write gets wrong: it runs over, and the mirrors agree. -/
def RingBuffer.Misjudges (rb : RingBuffer) (data : List UInt8) : Prop :=
  rb.readMirror = rb.writeMirror ∧ rb.emptyLengthOf < min rb.size data.length

instance (rb : RingBuffer) (data : List UInt8) : Decidable (rb.Misjudges data) :=
  inferInstanceAs (Decidable (_ ∧ _))

/-- What a forced write leaves: the last bytes, or in the misjudged case nothing. -/
theorem ringBufferWriteForce_repr {rb : RingBuffer} {q : List UInt8} (h : rb.Repr q)
    (data : List UInt8) :
    (ringBufferWriteForce data rb).1.Repr
        (if rb.Misjudges data then [] else overwrite rb.size q data) ∧
      (ringBufferWriteForce data rb).2 = min rb.size data.length := by
  have hl := h.length_le
  have hlen : (data.rtake rb.size).length ≤ rb.size := by
    rw [length_rtake]
    omega
  rw [ringBufferWriteForce_rtake, ringBufferWriteForce_eq h.size_le h.write_lt hlen,
    ← overwrite_rtake, length_rtake, h.emptyLengthOf]
  refine ⟨?_, rfl⟩
  have hbad : rb.Misjudges data ↔
      rb.readMirror = rb.writeMirror ∧ rb.size - q.length < min rb.size data.length := by
    unfold RingBuffer.Misjudges
    rw [h.emptyLengthOf]
  by_cases hover : rb.size - q.length < min rb.size data.length
  · have hlong : rb.size < q.length + (data.rtake rb.size).length := by
      rw [length_rtake]
      omega
    rw [decide_eq_true hover]
    by_cases hm : rb.readMirror = rb.writeMirror
    · rw [if_pos (hbad.mpr ⟨hm, hover⟩)]
      exact h.forced_lost hm hlen hlong
    · rw [if_neg fun hboth => hm (hbad.mp hboth).1]
      exact h.forced hm hlen hlong
  · have hroom : q.length + (data.rtake rb.size).length ≤ rb.size := by
      rw [length_rtake]
      omega
    rw [decide_eq_false hover, if_neg fun hboth => hover (hbad.mp hboth).2,
      overwrite_fits hroom]
    exact h.pushed hroom

/-- In a ring of any contents: forced byte by byte, data overwrites the oldest bytes; forced
in one call it does so exactly when the call does not run over between mirrors that agree,
and otherwise the ring is empty behind it. -/
theorem ringBufferWriteForce_overwrites_iff {rb : RingBuffer} {q : List UInt8} (h : rb.Repr q)
    (data : List UInt8) :
    (ringBufferWriteBytesForce data rb).contents = overwrite rb.size q data ∧
      ((ringBufferWriteForce data rb).1.contents = overwrite rb.size q data ↔
        ¬ rb.Misjudges data) ∧
      (rb.Misjudges data → (ringBufferWriteForce data rb).1.contents = []) := by
  have hrepr := (ringBufferWriteForce_repr h data).1
  refine ⟨(ringBufferWriteBytesForce_repr h data).contents_eq, ⟨?_, ?_⟩, ?_⟩
  · intro hsame hbad
    rw [if_pos hbad] at hrepr
    have hlen : (overwrite rb.size q data).length = 0 := by
      rw [← hsame, hrepr.contents_eq, List.length_nil]
    have hpos := Nat.zero_lt_of_lt h.read_lt
    have hover := hbad.2
    rw [length_overwrite] at hlen
    omega
  · intro hgood
    rw [if_neg hgood] at hrepr
    exact hrepr.contents_eq
  · intro hbad
    rw [if_pos hbad] at hrepr
    exact hrepr.contents_eq

theorem ringBufferWriteForce_overwrites_iff_wrapped :
    (ringBufferWriteBytesForce [40, 50, 60] wrappedRing).contents =
        overwrite 4 [10, 20, 30] [40, 50, 60] ∧
      ((ringBufferWriteForce [40, 50, 60] wrappedRing).1.contents =
          overwrite 4 [10, 20, 30] [40, 50, 60] ↔ ¬ wrappedRing.Misjudges [40, 50, 60]) ∧
      (wrappedRing.Misjudges [40, 50, 60] →
        (ringBufferWriteForce [40, 50, 60] wrappedRing).1.contents = []) :=
  ringBufferWriteForce_overwrites_iff wrappedRing_repr [40, 50, 60]

/-! ## Any sequence of calls -/

/-- The calls of `ring_buffer.h` on a ring that is set up. -/
inductive RingCall where
  | reset
  | write (data : List UInt8)
  | writeByte (data : UInt8)
  | writeForce (data : List UInt8)
  | writeByteForce (data : UInt8)
  | read (length : Nat)
  | readByte
  | peek (length : Nat)
  | peekByte
  | getLength
  | getEmptyLength
  | getStatus

/-- What the caller gets: a count, the bytes copied to it, or a status. -/
inductive RingResult where
  | count (n : Nat)
  | bytes (bs : List UInt8)
  | status (s : RingBufferStatus)

/-- A call; `dest` is what the caller's buffer held before. -/
def ringCall (dest : Nat → UInt8) (c : RingCall) (rb : RingBuffer) : RingBuffer × RingResult :=
  match c with
  | .reset => (ringBufferReset rb, .count 0)
  | .write data => ((rb.write data).1, .count (rb.write data).2)
  | .writeByte data => ((ringBufferWriteByte data rb).1, .count (ringBufferWriteByte data rb).2)
  | .writeForce data => ((ringBufferWriteForce data rb).1, .count (ringBufferWriteForce data rb).2)
  | .writeByteForce data =>
      ((ringBufferWriteByteForce data rb).1, .count (ringBufferWriteByteForce data rb).2)
  | .read length =>
      let out := (ringBufferRead length).run { rb := rb, dest := dest }
      (out.1.rb, .bytes (RingIo.copied out))
  | .readByte =>
      let out := ringBufferReadByte { rb := rb, dest := dest }
      (out.1.rb, .bytes (RingIo.copied out))
  | .peek length =>
      let out := ringBufferPeek length { rb := rb, dest := dest }
      (out.1.rb, .bytes (RingIo.copied out))
  | .peekByte =>
      let out := ringBufferPeekByte { rb := rb, dest := dest }
      (out.1.rb, .bytes (RingIo.copied out))
  | .getLength => (rb, .count rb.lengthOf)
  | .getEmptyLength => (rb, .count rb.emptyLengthOf)
  | .getStatus => (rb, .status (ringBufferGetStatus rb))

/-- What the call should do to a queue of at most `n` bytes. -/
def queueCall (n : Nat) (c : RingCall) (q : List UInt8) : List UInt8 × RingResult :=
  match c with
  | .reset => ([], .count 0)
  | .write data => (offer n q data, .count (min data.length (n - q.length)))
  | .writeByte data => (offer n q [data], .count (min 1 (n - q.length)))
  | .writeForce data => (overwrite n q data, .count (min n data.length))
  | .writeByteForce data => (overwrite n q [data], .count 1)
  | .read length => (q.drop length, .bytes (q.take length))
  | .readByte => (q.drop 1, .bytes (q.take 1))
  | .peek length => (q, .bytes (q.take length))
  | .peekByte => (q, .bytes (q.take 1))
  | .getLength => (q, .count q.length)
  | .getEmptyLength => (q, .count (n - q.length))
  | .getStatus =>
      (q, .status (if q.length = 0 then .empty else if q.length = n then .full else .partly))

/-- The call is a forced write that goes wrong. -/
def RingCall.Misjudged (c : RingCall) (rb : RingBuffer) : Prop :=
  match c with
  | .writeForce data => rb.Misjudges data
  | _ => False

theorem RingBuffer.Repr.drop {rb : RingBuffer} {q : List UInt8} (h : rb.Repr q) (k : Nat) :
    (rb.popped (min k q.length)).Repr (q.drop k) := by
  have hpop := h.popped (min_le_right k q.length)
  rwa [List.drop_eq_drop_min]

/-- One call: the contents and the result are the queue's. -/
structure RingCall.Served (dest : Nat → UInt8) (c : RingCall) (rb : RingBuffer) (q : List UInt8) :
    Prop where
  repr : (ringCall dest c rb).1.Repr (queueCall rb.size c q).1
  result : (ringCall dest c rb).2 = (queueCall rb.size c q).2
  size : (ringCall dest c rb).1.size = rb.size

/-- A call that copies the oldest bytes to the caller. -/
theorem RingCall.Served.copies {dest : Nat → UInt8} {c : RingCall} {rb rb' : RingBuffer}
    {q : List UInt8} {k : Nat}
    (hcall : ringCall dest c rb =
      (rb', .bytes (RingIo.copied ({ rb := rb', dest := copyTo dest 0 (q.take (min k q.length)) },
        min k q.length))))
    (hrepr : rb'.Repr (queueCall rb.size c q).1)
    (hresult : (queueCall rb.size c q).2 = .bytes (q.take k)) (hsize : rb'.size = rb.size) :
    RingCall.Served dest c rb q where
  repr := by rwa [hcall]
  result := by rw [hcall, hresult, RingIo.copied_take]
  size := by rw [hcall, hsize]

theorem ringCall_served {dest : Nat → UInt8} {rb : RingBuffer} {q : List UInt8} (h : rb.Repr q)
    {c : RingCall} (hc : ¬ c.Misjudged rb) : RingCall.Served dest c rb q := by
  have hl := h.length_le
  cases c with
  | reset => exact ⟨ringBufferReset_repr h, rfl, rfl⟩
  | write data =>
      have hcall : ringCall dest (.write data) rb =
          (rb.pushed (data.take (rb.size - q.length)), .count (min data.length (rb.size - q.length))) := by
        unfold ringCall
        dsimp only
        rw [h.write]
      refine ⟨?_, ?_, ?_⟩
      all_goals rw [hcall]
      · exact h.pushed (by simp; omega)
      · rfl
      · rfl
  | writeByte data =>
      have hcall : ringCall dest (.writeByte data) rb =
          if q.length < rb.size then (rb.pushed [data], .count 1) else (rb, .count 0) := by
        unfold ringCall
        dsimp only
        rw [ringBufferWriteByte_repr h]
        split <;> rfl
      by_cases hroom : q.length < rb.size
      · rw [if_pos hroom] at hcall
        refine ⟨?_, ?_, ?_⟩
        all_goals rw [hcall]
        · unfold queueCall
          dsimp only
          rw [offer_fits (by simp; omega)]
          exact h.pushed (by simp; omega)
        · simp only [queueCall, RingResult.count.injEq]
          omega
        · rfl
      · rw [if_neg hroom] at hcall
        refine ⟨?_, ?_, ?_⟩
        all_goals rw [hcall]
        · unfold queueCall
          dsimp only
          rw [offer_full (by omega)]
          exact h
        · simp only [queueCall, RingResult.count.injEq]
          omega
  | writeForce data =>
      obtain ⟨hrepr, hcount⟩ := ringBufferWriteForce_repr h data
      rw [if_neg (show ¬ rb.Misjudges data from hc)] at hrepr
      exact ⟨hrepr, congrArg RingResult.count hcount, ringBufferWriteForce_size data rb⟩
  | writeByteForce data =>
      have hcall : ringCall dest (.writeByteForce data) rb =
          (rb.forced (decide (q.length = rb.size)) [data], .count 1) := by
        unfold ringCall
        dsimp only
        rw [ringBufferWriteByteForce_eq h]
      refine ⟨ringBufferWriteByteForce_repr h data, ?_, ?_⟩
      all_goals rw [hcall]
      · rfl
      · unfold RingBuffer.forced
        split <;> rfl
  | read length =>
      refine .copies (k := length) ?_ (h.drop length) rfl rfl
      unfold ringCall
      dsimp only
      rw [ringBufferRead_repr h]
  | readByte =>
      refine .copies (k := 1) ?_ (h.drop 1) rfl rfl
      unfold ringCall
      dsimp only
      rw [ringBufferReadByte_repr h]
  | peek length =>
      refine .copies (k := length) ?_ h rfl rfl
      unfold ringCall
      dsimp only
      rw [ringBufferPeek_repr h]
  | peekByte =>
      refine .copies (k := 1) ?_ h rfl rfl
      unfold ringCall
      dsimp only
      rw [ringBufferPeekByte_repr h]
  | getLength => exact ⟨h, congrArg RingResult.count h.lengthOf, rfl⟩
  | getEmptyLength => exact ⟨h, congrArg RingResult.count h.emptyLengthOf, rfl⟩
  | getStatus => exact ⟨h, congrArg RingResult.status (ringBufferGetStatus_repr h), rfl⟩

/-! ## Runs -/

open Runs

def ringStep (dest : Nat → UInt8) (c : RingCall) (rb : RingBuffer) : RingBuffer :=
  (ringCall dest c rb).1

def queueStep (n : Nat) (c : RingCall) (q : List UInt8) : List UInt8 := (queueCall n c q).1

section Run

variable {dest : Nat → UInt8} {rb : RingBuffer} {q : List UInt8} {cs : List RingCall}

/-- While no forced write goes wrong, the ring holds what the queue holds, and every caller
gets what the queue would give. -/
theorem ringCalls_served (h : rb.Repr q)
    (hcs : Along (ringStep dest) (fun c rb => ¬ c.Misjudged rb) cs rb) :
    (run (ringStep dest) cs rb).Repr (run (queueStep rb.size) cs q) ∧
      (run (ringStep dest) cs rb).size = rb.size ∧
      trace (ringStep dest) (fun c rb => [(ringCall dest c rb).2]) cs rb =
        trace (queueStep rb.size) (fun c q => [(queueCall rb.size c q).2]) cs q := by
  induction cs generalizing rb q with
  | nil => exact ⟨h, rfl, rfl⟩
  | cons c cs ih =>
      have hstep : RingCall.Served dest c rb q := ringCall_served h hcs.1
      have hrepr : (ringStep dest c rb).Repr (queueStep rb.size c q) := hstep.repr
      have hrest := ih hrepr hcs.2
      have hsize : (ringStep dest c rb).size = rb.size := hstep.size
      rw [hsize] at hrest
      obtain ⟨hend, hlen, htrace⟩ := hrest
      refine ⟨hend, hlen, ?_⟩
      rw [trace_cons, trace_cons, hstep.result, htrace]

theorem ringStep_size (h : rb.Repr q) (c : RingCall) : (ringStep dest c rb).size = rb.size := by
  cases c with
  | writeForce data => exact ringBufferWriteForce_size data rb
  | _ => exact (ringCall_served h id).size

/-- A forced write that goes wrong loses the contents of the queue. -/
theorem RingCall.Misjudged.lost {c : RingCall} (hc : c.Misjudged rb) (h : rb.Repr q) :
    ¬ (ringStep dest c rb).Repr (queueStep rb.size c q) := by
  cases c with
  | writeForce data =>
      intro hrepr
      have hbad : rb.Misjudges data := hc
      have hnone := (ringBufferWriteForce_repr h data).1
      rw [if_pos hbad] at hnone
      have hlen := congrArg List.length (hrepr.unique hnone)
      have hover := hbad.2
      have hl := h.length_le
      rw [h.emptyLengthOf] at hover
      simp only [queueStep, queueCall, length_overwrite, List.length_nil] at hlen
      omega
  | _ => exact hc.elim

end Run

/-- From an initialised ring, in any sequence of calls: the ring holds the bytes of the
bounded queue behind each call exactly when no forced write runs over between mirrors that
agree, and then every call returns what the queue returns. -/
theorem ringCalls_refine {size : Nat} (hpos : 0 < size) (hsize : size ≤ 2147483648)
    (buffer dest : Nat → UInt8) (cs : List RingCall) :
    let rb := ringBufferInit buffer size
    (Along (ringStep dest) (fun c rb => ¬ c.Misjudged rb) cs rb ↔
        ∀ cs', cs' <+: cs → (run (ringStep dest) cs' rb).Repr (run (queueStep size) cs' [])) ∧
      (Along (ringStep dest) (fun c rb => ¬ c.Misjudged rb) cs rb →
        trace (ringStep dest) (fun c rb => [(ringCall dest c rb).2]) cs rb =
          trace (queueStep size) (fun c q => [(queueCall size c q).2]) cs []) := by
  intro rb
  have hinit : rb.Repr [] := RingBuffer.Repr.init hpos hsize
  refine ⟨⟨?_, ?_⟩, ?_⟩
  · intro hcs cs' hpre
    exact (ringCalls_served hinit (hcs.initial hpre)).1
  · intro hall
    rw [along_iff_steps]
    intro cs' c hpre hbad
    have hbefore := hall cs' ((List.prefix_append cs' [c]).trans hpre)
    have hafter := hall (cs' ++ [c]) hpre
    rw [run_snoc, run_snoc] at hafter
    have hwidth : (run (ringStep dest) cs' rb).size = size := by
      have hheld : Along (ringStep dest) (fun _ rb => ∃ q, rb.Repr q) cs' rb := by
        rw [along_iff_steps]
        intro cs'' c' hpre'
        exact ⟨_, hall cs'' ((List.prefix_append cs'' [c']).trans
          (hpre'.trans ((List.prefix_append cs' [c]).trans hpre)))⟩
      refine run_invariant (I := fun rb => rb.size = size) ?_ rfl hheld
      rintro c' rb' hsame ⟨q, hq⟩
      rw [ringStep_size hq, hsame]
    have hlost := @RingCall.Misjudged.lost dest _ _ _ hbad hbefore
    rw [hwidth] at hlost
    exact hlost hafter
  · intro hcs
    exact (ringCalls_served hinit hcs).2.2

/-- The fourth call overwrites the oldest byte of a full ring. -/
def overwriteCalls : List RingCall :=
  [.write [1, 2, 3], .readByte, .writeForce [4, 5], .writeForce [6], .peek 4]

theorem ringCalls_refine_overwrite :
    let rb := ringBufferInit (fun _ => 0) 4
    (Along (ringStep fun _ => 0) (fun c rb => ¬ c.Misjudged rb) overwriteCalls rb ↔
        ∀ cs', cs' <+: overwriteCalls →
          (run (ringStep fun _ => 0) cs' rb).Repr (run (queueStep 4) cs' [])) ∧
      (Along (ringStep fun _ => 0) (fun c rb => ¬ c.Misjudged rb) overwriteCalls rb →
        trace (ringStep fun _ => 0) (fun c rb => [(ringCall (fun _ => 0) c rb).2]) overwriteCalls rb =
          trace (queueStep 4) (fun c q => [(queueCall 4 c q).2]) overwriteCalls []) :=
  ringCalls_refine (by decide) (by decide) _ _ _
