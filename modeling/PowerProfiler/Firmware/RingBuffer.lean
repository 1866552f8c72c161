-- SUMMARY: The byte FIFO of ring_buffer.c as programs of single accesses, its contents, and what undisturbed writes and reads do to them.
import PowerProfiler.Lib.Interrupt
import PowerProfiler.Lib.Circular

/-!
# The ring buffer

`ring_buffer.c` tells a full ring from an empty one by two mirror bits that flip
whenever an index passes the end. The functions are programs over the ring whose
atomic steps are the single reads and writes of the indices, the mirrors and the
data bytes; the firmware passes NULL lock callbacks (`USE_LOCK_RNG` is 0), so no
step stands for a lock. `Repr` says which bytes a ring holds, and `ringBufferWrite_run`
and `ringBufferRead_run` say what the calls do when nothing interrupts them.
-/

open Prog Circular

/-- Subtraction on `uint32_t`. -/
@[irreducible] def sub32 (a b : Nat) : Nat := (a + (4294967296 - b)) % 4294967296

/-- Addition on `uint32_t`. -/
@[irreducible] def add32 (a b : Nat) : Nat := (a + b) % 4294967296

/-- `Ring_Buffer_Type`. A mirror starts at zero and is only ever complemented, so
it is kept as one bit. -/
structure RingBuffer where
  pointer : Nat → UInt8
  readMirror : Bool
  readIndex : Nat
  writeMirror : Bool
  writeIndex : Nat
  size : Nat

/-! ## The functions -/

def ringBufferInit (buffer : Nat → UInt8) (size : Nat) : RingBuffer where
  pointer := buffer
  readMirror := false
  readIndex := 0
  writeMirror := false
  writeIndex := 0
  size := size

/-- The expression `Ring_Buffer_Get_Length` returns. -/
def ringLength (readMirror writeMirror : Bool) (readIndex writeIndex size : Nat) : Nat :=
  if readMirror = writeMirror then sub32 writeIndex readIndex
  else sub32 size (sub32 readIndex writeIndex)

def ringBufferGetLength : Prog RingBuffer Nat := do
  let readMirror ← load (·.readMirror)
  let writeMirror ← load (·.writeMirror)
  let readIndex ← load (·.readIndex)
  let writeIndex ← load (·.writeIndex)
  let size ← load (·.size)
  pure (ringLength readMirror writeMirror readIndex writeIndex size)

def ringBufferGetEmptyLength : Prog RingBuffer Nat := do
  let size ← load (·.size)
  let length ← ringBufferGetLength
  pure (sub32 size length)

/-- `Ring_Buffer_Write_Copy`: the bytes are stored one by one. -/
def ringBufferWriteCopy : Nat → List UInt8 → Prog RingBuffer Unit
  | _, [] => pure ()
  | dest, b :: bs => do
      store (fun rb => { rb with pointer := Function.update rb.pointer dest b })
      ringBufferWriteCopy (dest + 1) bs

/-- The branch of `Ring_Buffer_Write_Callback` that stays in the current mirror. -/
def ringBufferWriteStraight (data : List UInt8) : Prog RingBuffer Nat := do
  let dest ← load (·.writeIndex)
  ringBufferWriteCopy dest data
  let writeIndex ← load (·.writeIndex)
  store (fun rb => { rb with writeIndex := add32 writeIndex data.length })
  pure data.length

/-- The branch of `Ring_Buffer_Write_Callback` that divides the data at the end of
the ring. -/
def ringBufferWriteDivided (front back : List UInt8) : Prog RingBuffer Nat := do
  let dest ← load (·.writeIndex)
  ringBufferWriteCopy dest front
  ringBufferWriteCopy 0 back
  store (fun rb => { rb with writeIndex := back.length })
  let writeMirror ← load (·.writeMirror)
  store (fun rb => { rb with writeMirror := !writeMirror })
  pure (front.length + back.length)

/-- `Ring_Buffer_Write_Callback` once the length fits the free space. -/
def ringBufferWriteData (data : List UInt8) : Prog RingBuffer Nat := do
  let size ← load (·.size)
  let writeIndex ← load (·.writeIndex)
  let sizeRemained := sub32 size writeIndex
  if data.length < sizeRemained then ringBufferWriteStraight data
  else ringBufferWriteDivided (data.take sizeRemained) (data.drop sizeRemained)

/-- `Ring_Buffer_Write`. Data that finds no room is dropped from the end. -/
def ringBufferWrite (data : List UInt8) : Prog RingBuffer Nat := do
  let sizeRemained ← ringBufferGetEmptyLength
  if sizeRemained = 0 then pure 0 else ringBufferWriteData (data.take sizeRemained)

/-- The ring together with the buffer a read copies into. -/
structure RingIo where
  rb : RingBuffer
  dest : Nat → UInt8

def RingIo.ring : Lens RingIo RingBuffer where
  get io := io.rb
  put rb io := { io with rb := rb }
  get_put _ _ := rfl
  put_get _ := rfl
  put_put _ _ _ := rfl

/-- `Ring_Buffer_Read_Copy`: the bytes are moved one by one. -/
def ringBufferReadCopy : Nat → Nat → Nat → Prog RingIo Unit
  | _, _, 0 => pure ()
  | src, dest, n + 1 => do
      store (fun io => { io with dest := Function.update io.dest dest (io.rb.pointer src) })
      ringBufferReadCopy (src + 1) (dest + 1) n

/-- The branch of `Ring_Buffer_Read_Callback` that stays in the current mirror. -/
def ringBufferReadStraight (length : Nat) : Prog RingIo Nat := do
  let src ← load (·.rb.readIndex)
  ringBufferReadCopy src 0 length
  let readIndex ← load (·.rb.readIndex)
  store (fun io => { io with rb := { io.rb with readIndex := add32 readIndex length } })
  pure length

/-- The two copies of a read that goes past the end of the ring. -/
def ringBufferReadSides (front back : Nat) : Prog RingIo Unit := do
  let src ← load (·.rb.readIndex)
  ringBufferReadCopy src 0 front
  ringBufferReadCopy 0 front back

/-- The branch of `Ring_Buffer_Read_Callback` that reads both sides of the end of
the ring. -/
def ringBufferReadDivided (front back : Nat) : Prog RingIo Nat := do
  ringBufferReadSides front back
  store (fun io => { io with rb := { io.rb with readIndex := back } })
  let readMirror ← load (·.rb.readMirror)
  store (fun io => { io with rb := { io.rb with readMirror := !readMirror } })
  pure (front + back)

/-- `Ring_Buffer_Read_Callback` once the length is at most what the ring holds. -/
def ringBufferReadData (length : Nat) : Prog RingIo Nat := do
  let size ← load (·.rb.size)
  let readIndex ← load (·.rb.readIndex)
  let remained := sub32 size readIndex
  if length < remained then ringBufferReadStraight length
  else ringBufferReadDivided remained (length - remained)

/-- `Ring_Buffer_Read`. -/
def ringBufferRead (length : Nat) : Prog RingIo Nat := do
  let size ← ringBufferGetLength.focus RingIo.ring
  if size = 0 then pure 0 else ringBufferReadData (min length size)

/-! ## What the loads compute -/

namespace RingBuffer

/-- A `Ring_Buffer_Write` that nothing interrupts. -/
@[irreducible] def write (rb : RingBuffer) (data : List UInt8) : RingBuffer × Nat :=
  (ringBufferWrite data).run rb

/-- The length computed from the fields of the ring. -/
def lengthOf (rb : RingBuffer) : Nat :=
  ringLength rb.readMirror rb.writeMirror rb.readIndex rb.writeIndex rb.size

def emptyLengthOf (rb : RingBuffer) : Nat := sub32 rb.size rb.lengthOf

/-- The ring behind a write of `bs` that found room. -/
def pushed (rb : RingBuffer) (bs : List UInt8) : RingBuffer :=
  { rb with
    pointer := fill rb.pointer rb.size rb.writeIndex bs
    writeIndex := if rb.writeIndex + bs.length < rb.size then rb.writeIndex + bs.length
      else rb.writeIndex + bs.length - rb.size
    writeMirror := if rb.writeIndex + bs.length < rb.size then rb.writeMirror else !rb.writeMirror }

/-- The ring behind a read of `n` bytes. -/
def popped (rb : RingBuffer) (n : Nat) : RingBuffer :=
  { rb with
    readIndex := if rb.readIndex + n < rb.size then rb.readIndex + n
      else rb.readIndex + n - rb.size
    readMirror := if rb.readIndex + n < rb.size then rb.readMirror else !rb.readMirror }

@[simp] theorem pushed_size (rb : RingBuffer) (bs : List UInt8) : (rb.pushed bs).size = rb.size := rfl

@[simp] theorem popped_size (rb : RingBuffer) (n : Nat) : (rb.popped n).size = rb.size := rfl

end RingBuffer

@[simp] theorem ringBufferGetLength_run (rb : RingBuffer) :
    ringBufferGetLength.run rb = (rb, rb.lengthOf) := rfl

@[simp] theorem ringBufferGetLength_length (rb : RingBuffer) :
    ringBufferGetLength.length rb = 5 := rfl

@[simp] theorem ringBufferGetEmptyLength_run (rb : RingBuffer) :
    ringBufferGetEmptyLength.run rb = (rb, rb.emptyLengthOf) := by
  simp [ringBufferGetEmptyLength, RingBuffer.emptyLengthOf]

@[simp] theorem ringBufferGetEmptyLength_length (rb : RingBuffer) :
    ringBufferGetEmptyLength.length rb = 6 := by
  simp [ringBufferGetEmptyLength]

@[simp] theorem ringBufferWriteCopy_run (dest : Nat) (bs : List UInt8) (rb : RingBuffer) :
    (ringBufferWriteCopy dest bs).run rb =
      ({ rb with pointer := copyTo rb.pointer dest bs }, ()) := by
  induction bs generalizing dest rb with
  | nil => rfl
  | cons b bs ih => simp [ringBufferWriteCopy, copyTo, ih]

@[simp] theorem ringBufferWriteCopy_length (dest : Nat) (bs : List UInt8) (rb : RingBuffer) :
    (ringBufferWriteCopy dest bs).length rb = bs.length := by
  induction bs generalizing dest rb with
  | nil => rfl
  | cons b bs ih => simp [ringBufferWriteCopy, ih, Nat.add_comm]

@[simp] theorem ringBufferWriteStraight_run (data : List UInt8) (rb : RingBuffer) :
    (ringBufferWriteStraight data).run rb =
      ({ rb with
          pointer := copyTo rb.pointer rb.writeIndex data
          writeIndex := add32 rb.writeIndex data.length }, data.length) := by
  simp [ringBufferWriteStraight]

@[simp] theorem ringBufferWriteStraight_length (data : List UInt8) (rb : RingBuffer) :
    (ringBufferWriteStraight data).length rb = data.length + 3 := by
  simp [ringBufferWriteStraight]
  omega

@[simp] theorem ringBufferWriteDivided_run (front back : List UInt8) (rb : RingBuffer) :
    (ringBufferWriteDivided front back).run rb =
      ({ rb with
          pointer := copyTo (copyTo rb.pointer rb.writeIndex front) 0 back
          writeIndex := back.length
          writeMirror := !rb.writeMirror }, front.length + back.length) := by
  simp [ringBufferWriteDivided]

@[simp] theorem ringBufferWriteDivided_length (front back : List UInt8) (rb : RingBuffer) :
    (ringBufferWriteDivided front back).length rb = front.length + back.length + 4 := by
  simp [ringBufferWriteDivided]
  omega

section WriteData

variable {rb : RingBuffer} {data : List UInt8} (hsize : rb.size ≤ 2147483648)

include hsize

/-- Short of the end of the ring the straight branch stores the bytes in order. -/
theorem ringBufferWriteStraight_pushed (hfit : rb.writeIndex + data.length < rb.size) :
    (ringBufferWriteStraight data).run rb = (rb.pushed data, data.length) := by
  have hadd : add32 rb.writeIndex data.length = rb.writeIndex + data.length := by
    simp only [add32]
    omega
  simp [RingBuffer.pushed, hfit, hadd, fill_eq_copyTo rb.pointer hfit.le]

omit hsize in
/-- Up to the end of the ring and beyond, the divided branch does. -/
theorem ringBufferWriteDivided_pushed (hw : rb.writeIndex ≤ rb.size)
    (hfit : rb.size ≤ rb.writeIndex + data.length) (hlen : data.length ≤ rb.size) :
    (ringBufferWriteDivided (data.take (rb.size - rb.writeIndex))
      (data.drop (rb.size - rb.writeIndex))).run rb = (rb.pushed data, data.length) := by
  have hback : data.length - (rb.size - rb.writeIndex) =
      rb.writeIndex + data.length - rb.size := by omega
  have hsum : min (rb.size - rb.writeIndex) data.length +
      (rb.writeIndex + data.length - rb.size) = data.length := by omega
  simp [RingBuffer.pushed, not_lt.mpr hfit, hback, hsum,
    fill_eq_copyTo_copyTo rb.pointer hw hfit hlen]

/-- A write whose length fits stores the bytes around the ring from `writeIndex`. -/
theorem ringBufferWriteData_run (hw : rb.writeIndex < rb.size) (hlen : data.length ≤ rb.size) :
    (ringBufferWriteData data).run rb = (rb.pushed data, data.length) := by
  have hrem : sub32 rb.size rb.writeIndex = rb.size - rb.writeIndex := by
    simp only [sub32]
    omega
  simp only [ringBufferWriteData, run_bind, run_load, hrem]
  split
  · exact ringBufferWriteStraight_pushed hsize (by omega)
  · exact ringBufferWriteDivided_pushed hw.le (by omega) hlen

end WriteData

/-- A write stores as many bytes as the computed free length admits. -/
theorem ringBufferWrite_run {rb : RingBuffer} {data : List UInt8}
    (hsize : rb.size ≤ 2147483648) (hw : rb.writeIndex < rb.size)
    (hlen : min data.length rb.emptyLengthOf ≤ rb.size) :
    (ringBufferWrite data).run rb =
      (rb.pushed (data.take rb.emptyLengthOf), min data.length rb.emptyLengthOf) := by
  simp only [ringBufferWrite, run_bind, ringBufferGetEmptyLength_run]
  by_cases h0 : rb.emptyLengthOf = 0
  · simp [h0, RingBuffer.pushed, hw]
  · have hlen' : (data.take rb.emptyLengthOf).length ≤ rb.size := by
      simpa [min_comm] using hlen
    rw [if_neg h0, ringBufferWriteData_run hsize hw hlen']
    simp [min_comm]

@[simp] theorem ringBufferReadCopy_run (src dest n : Nat) (io : RingIo) :
    (ringBufferReadCopy src dest n).run io =
      ({ io with dest := copyTo io.dest dest ((List.range' src n).map io.rb.pointer) }, ()) := by
  induction n generalizing src dest io with
  | zero => rfl
  | succ n ih => simp [ringBufferReadCopy, List.range'_succ, copyTo, ih]

@[simp] theorem ringBufferReadCopy_length (src dest n : Nat) (io : RingIo) :
    (ringBufferReadCopy src dest n).length io = n := by
  induction n generalizing src dest io with
  | zero => rfl
  | succ n ih => simp [ringBufferReadCopy, ih, Nat.add_comm]

@[simp] theorem ringBufferReadSides_run (front back : Nat) (io : RingIo) :
    (ringBufferReadSides front back).run io =
      ({ io with
          dest := copyTo (copyTo io.dest 0 ((List.range' io.rb.readIndex front).map io.rb.pointer))
            front ((List.range' 0 back).map io.rb.pointer) }, ()) := by
  simp [ringBufferReadSides]

@[simp] theorem ringBufferReadSides_length (front back : Nat) (io : RingIo) :
    (ringBufferReadSides front back).length io = front + back + 1 := by
  simp [ringBufferReadSides]
  omega

/-! ## Contents -/

/-- The ring is in range and holds the bytes `xs`, oldest first. -/
structure RingBuffer.Repr (rb : RingBuffer) (xs : List UInt8) : Prop where
  size_le : rb.size ≤ 2147483648
  read_lt : rb.readIndex < rb.size
  write_lt : rb.writeIndex < rb.size
  length_le : xs.length ≤ rb.size
  same : rb.readMirror = rb.writeMirror → rb.writeIndex = rb.readIndex + xs.length
  differ : rb.readMirror ≠ rb.writeMirror → rb.writeIndex + rb.size = rb.readIndex + xs.length
  holds : Holds rb.pointer rb.size rb.readIndex xs

namespace RingBuffer.Repr

variable {rb : RingBuffer} {xs : List UInt8}

theorem init {buffer : Nat → UInt8} {size : Nat} (hpos : 0 < size) (hsize : size ≤ 2147483648) :
    (ringBufferInit buffer size).Repr [] where
  size_le := hsize
  read_lt := hpos
  write_lt := hpos
  length_le := Nat.zero_le _
  same _ := rfl
  differ h := absurd rfl h
  holds := Holds.nil _ _ _

theorem lengthOf (h : rb.Repr xs) : rb.lengthOf = xs.length := by
  have := h.size_le; have := h.read_lt; have := h.write_lt; have := h.length_le
  by_cases hm : rb.readMirror = rb.writeMirror
  · have := h.same hm
    simp only [RingBuffer.lengthOf, ringLength, hm, if_true, sub32]
    omega
  · have := h.differ hm
    simp only [RingBuffer.lengthOf, ringLength, hm, if_false, sub32]
    omega

theorem emptyLengthOf (h : rb.Repr xs) : rb.emptyLengthOf = rb.size - xs.length := by
  have := h.size_le; have := h.length_le
  simp only [RingBuffer.emptyLengthOf, h.lengthOf, sub32]
  omega

/-- A ring holds one list of bytes. -/
theorem unique {ys : List UInt8} (hx : rb.Repr xs) (hy : rb.Repr ys) : xs = ys :=
  hx.holds.unique hy.holds (by rw [← hx.lengthOf, hy.lengthOf])

/-- The slot behind the contents is where the next write goes. -/
theorem slot_length (h : rb.Repr xs) (i : Nat) :
    slot rb.size rb.readIndex (xs.length + i) = slot rb.size rb.writeIndex i := by
  by_cases hm : rb.readMirror = rb.writeMirror
  · rw [slot, slot, h.same hm, Nat.add_assoc]
  · rw [slot, slot, ← Nat.add_assoc, ← h.differ hm, Nat.add_right_comm, Nat.add_mod_right]

/-- A write behind the contents, within the free space, appends. -/
theorem pushed {bs : List UInt8} (h : rb.Repr xs) (hroom : xs.length + bs.length ≤ rb.size) :
    (rb.pushed bs).Repr (xs ++ bs) := by
  have hr := h.read_lt; have hw := h.write_lt
  have hfill : fill rb.pointer rb.size rb.writeIndex bs =
      fill rb.pointer rb.size (rb.readIndex + xs.length) bs := by
    apply fill_congr_start
    simpa [slot] using (h.slot_length 0).symm
  constructor
  · exact h.size_le
  · exact hr
  · simp only [RingBuffer.pushed]
    split <;> omega
  · simpa [RingBuffer.pushed] using hroom
  · by_cases hm : rb.readMirror = rb.writeMirror
    · have := h.same hm
      simp only [RingBuffer.pushed, List.length_append]
      split
      · omega
      · simp [hm]
    · have := h.differ hm
      have hfit : rb.writeIndex + bs.length < rb.size := by omega
      simp [RingBuffer.pushed, hfit, hm]
  · by_cases hm : rb.readMirror = rb.writeMirror
    · have := h.same hm
      simp only [RingBuffer.pushed, List.length_append]
      split
      · simp [hm]
      · omega
    · have := h.differ hm
      have hfit : rb.writeIndex + bs.length < rb.size := by omega
      simp only [RingBuffer.pushed, hfit, if_true, List.length_append]
      omega
  · simpa [RingBuffer.pushed, hfill] using h.holds.fill hroom

/-- A read of bytes the ring holds removes them from the front. -/
theorem popped {n : Nat} (h : rb.Repr xs) (hn : n ≤ xs.length) : (rb.popped n).Repr (xs.drop n) := by
  have hr := h.read_lt; have hw := h.write_lt; have hl := h.length_le
  have hslot : (rb.popped n).readIndex = slot rb.size rb.readIndex n := by
    simp only [RingBuffer.popped]
    split
    · rw [slot_of_lt (by omega)]
    · rw [slot_of_ge (by omega) (by omega)]
  constructor
  · exact h.size_le
  · rw [hslot]
    exact slot_lt (by omega) _ _
  · exact hw
  · simp only [List.length_drop, RingBuffer.popped]
    omega
  · by_cases hm : rb.readMirror = rb.writeMirror
    · have := h.same hm
      have hfit : rb.readIndex + n < rb.size := by omega
      simp only [RingBuffer.popped, hfit, if_true, List.length_drop]
      omega
    · have := h.differ hm
      simp only [RingBuffer.popped, List.length_drop]
      split
      · simp [hm]
      · omega
  · by_cases hm : rb.readMirror = rb.writeMirror
    · have := h.same hm
      have hfit : rb.readIndex + n < rb.size := by omega
      simp [RingBuffer.popped, hfit, hm]
    · have := h.differ hm
      have hnot : (!rb.readMirror) = rb.writeMirror := by
        revert hm
        cases rb.readMirror <;> cases rb.writeMirror <;> simp
      simp only [RingBuffer.popped, List.length_drop]
      split
      · omega
      · simp [hnot]
  · have happ : Holds rb.pointer rb.size rb.readIndex (xs.take n ++ xs.drop n) := by
      simpa using h.holds
    have := (holds_append.mp happ).2
    rw [List.length_take_of_le hn, ← hslot] at this
    exact this

end RingBuffer.Repr

/-- A write into a ring that holds `xs` stores what fits and drops the rest. -/
theorem ringBufferWrite_repr {rb : RingBuffer} {xs data : List UInt8} (h : rb.Repr xs) :
    (ringBufferWrite data).run rb =
      (rb.pushed (data.take (rb.size - xs.length)), min data.length (rb.size - xs.length)) := by
  have hlen : min data.length rb.emptyLengthOf ≤ rb.size := by
    rw [h.emptyLengthOf]
    omega
  rw [ringBufferWrite_run h.size_le h.write_lt hlen, h.emptyLengthOf]

/-- The bytes between the read and the write index. -/
def RingBuffer.contents (rb : RingBuffer) : List UInt8 :=
  (List.range rb.lengthOf).map (fun i => rb.pointer (slot rb.size rb.readIndex i))

theorem RingBuffer.Repr.contents_eq {rb : RingBuffer} {xs : List UInt8} (h : rb.Repr xs) :
    rb.contents = xs := by
  apply List.ext_getElem
  · simp [RingBuffer.contents, h.lengthOf]
  · intro i _ hi
    simpa [RingBuffer.contents] using h.holds i hi

theorem RingBuffer.Repr.write {rb : RingBuffer} {xs : List UInt8} (h : rb.Repr xs)
    (data : List UInt8) : rb.write data =
      (rb.pushed (data.take (rb.size - xs.length)), min data.length (rb.size - xs.length)) := by
  rw [RingBuffer.write, ringBufferWrite_repr h]

/-- With room for all of it a write stores all of it. -/
theorem ringBufferWrite_fits {rb : RingBuffer} {xs data : List UInt8} (h : rb.Repr xs)
    (hroom : xs.length + data.length ≤ rb.size) :
    (ringBufferWrite data).run rb = (rb.pushed data, data.length) := by
  rw [ringBufferWrite_repr h, List.take_of_length_le (by omega), min_eq_left (by omega)]

/-- Either branch of a read moves the oldest `k` bytes of a ring that holds them. -/
theorem ringBufferReadData_run {io : RingIo} {xs : List UInt8} (h : io.rb.Repr xs) {k : Nat}
    (hk : k ≤ xs.length) :
    (ringBufferReadData k).run io =
      ({ rb := io.rb.popped k, dest := copyTo io.dest 0 (xs.take k) }, k) := by
  have hr := h.read_lt; have hl := h.length_le; have hs := h.size_le
  have hrem : sub32 io.rb.size io.rb.readIndex = io.rb.size - io.rb.readIndex := by
    simp only [sub32]
    omega
  simp only [ringBufferReadData, run_bind, run_load, hrem]
  by_cases hlt : k < io.rb.size - io.rb.readIndex
  · have hfit : io.rb.readIndex + k < io.rb.size := by omega
    have hadd : add32 io.rb.readIndex k = io.rb.readIndex + k := by
      simp only [add32]
      omega
    simp [hlt, ringBufferReadStraight, RingBuffer.popped, hfit, hadd, h.holds.map_range' hk hfit.le]
  · have hfit : ¬ io.rb.readIndex + k < io.rb.size := by omega
    generalize hfront : io.rb.size - io.rb.readIndex = front at *
    have hsplit := h.holds
    rw [← List.take_append_drop front xs, holds_append, List.length_take_of_le (by omega),
      slot_of_ge (by omega) (by omega), show io.rb.readIndex + front - io.rb.size = 0 by omega]
      at hsplit
    have hcopy : (List.range' io.rb.readIndex front).map io.rb.pointer = xs.take front :=
      h.holds.map_range' (by omega) (by omega)
    have hback : (List.range' 0 (k - front)).map io.rb.pointer = (xs.drop front).take (k - front) :=
      hsplit.2.map_range' (by simp; omega) (by omega)
    have htake : xs.take k = xs.take front ++ (xs.drop front).take (k - front) := by
      rw [← List.take_add, Nat.add_sub_cancel' (by omega)]
    have hjoin : copyTo (copyTo io.dest 0 (xs.take front)) front
        ((xs.drop front).take (k - front)) = copyTo io.dest 0 (xs.take k) := by
      rw [htake, copyTo_append, List.length_take_of_le (by omega), Nat.zero_add]
    have hidx : io.rb.readIndex + k - io.rb.size = k - front := by omega
    have hsum : front + (k - front) = k := by omega
    simp [hlt, ringBufferReadDivided, RingBuffer.popped, hfit, hcopy, hback,
      hjoin, hidx, hsum]

/-- Both branches of a read return the length asked for. -/
theorem ringBufferReadData_result (io : RingIo) (k : Nat) :
    ((ringBufferReadData k).run io).2 = k := by
  have hbranch : ∀ remained, ((if k < remained then ringBufferReadStraight k
      else ringBufferReadDivided remained (k - remained)).run io).2 = k := by
    intro remained
    by_cases hlt : k < remained
    · simp [hlt, ringBufferReadStraight]
    · simp [hlt, ringBufferReadDivided]
      omega
  rw [ringBufferReadData, run_bind, run_bind]
  exact hbranch _

/-- A read moves the oldest bytes, as many as are asked for and were counted. -/
theorem ringBufferRead_counted {io : RingIo} {xs : List UInt8} (h : io.rb.Repr xs)
    {length size : Nat} (hk : min length size ≤ xs.length) :
    (if size = 0 then pure 0 else ringBufferReadData (min length size) : Prog RingIo Nat).run io =
      ({ rb := io.rb.popped (min length size)
         dest := copyTo io.dest 0 (xs.take (min length size)) }, min length size) := by
  by_cases h0 : size = 0
  · simp [h0, RingBuffer.popped, h.read_lt]
  · rw [if_neg h0, ringBufferReadData_run h hk]

/-- A read moves the oldest bytes, as many as are asked for and there. -/
theorem ringBufferRead_repr {io : RingIo} {xs : List UInt8} (h : io.rb.Repr xs) (length : Nat) :
    (ringBufferRead length).run io =
      ({ rb := io.rb.popped (min length xs.length)
         dest := copyTo io.dest 0 (xs.take (min length xs.length)) }, min length xs.length) := by
  simp only [ringBufferRead, run_bind, run_focus, RingIo.ring, ringBufferGetLength_run, h.lengthOf]
  exact ringBufferRead_counted h (min_le_right _ _)
