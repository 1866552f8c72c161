-- SUMMARY: A ring buffer write cut by an interrupt that writes the same ring: the interruption points that keep the two calls serial.
import PowerProfiler.Firmware.RingBuffer

/-!
# Interrupted writes

The main loop writes the ring without a lock while the USB interrupt writes replies
into it. The outcome is serial when the final contents and both results are those
of one call after the other. `WriteSafe` lists the interruption points for which
this holds, counted in accesses already made, and `ringBufferWrite_serial_iff`
shows that they are exactly those points.
-/

open Prog Circular

/-- The interrupt handler's write of a reply. -/
def ringIsr (reply : List UInt8) (rb : RingBuffer) : RingBuffer × Nat := rb.write reply

namespace RingBuffer

/-- The two rings hold the same bytes. -/
def Same (rb rb' : RingBuffer) : Prop := ∃ ys, rb.Repr ys ∧ rb'.Repr ys

theorem Repr.same_self {rb : RingBuffer} {xs : List UInt8} (h : rb.Repr xs) : rb.Same rb :=
  ⟨xs, h, h⟩

theorem Same.repr_left {rb rb' : RingBuffer} {xs : List UInt8} (h : rb.Same rb')
    (h' : rb'.Repr xs) : rb.Repr xs := by
  obtain ⟨ys, hys, hys'⟩ := h
  rwa [h'.unique hys']

/-- The interruption points of a write of `L` bytes that a write of `M` bytes may
take: before the second load of `writeIndex`; between it and the load of the copy's
address, when the copy stays in the ring from where the interrupt leaves it; and
once `writeIndex` is stored. -/
def WriteSafe (rb : RingBuffer) (L M n : Nat) : Prop :=
  n ≤ 7 ∨
  (n = 8 ∧ rb.writeIndex + L < rb.size ∧
    (rb.size ≤ rb.writeIndex + M ∨ rb.writeIndex + M + L < rb.size)) ∨
  (if rb.writeIndex + L < rb.size then L + 11 ≤ n else L + 10 ≤ n)

instance (rb : RingBuffer) (L M n : Nat) : Decidable (rb.WriteSafe L M n) :=
  inferInstanceAs (Decidable (_ ∨ _ ∨ _))

end RingBuffer

/-! ## The interrupt on its own -/

section Isr

variable {rb : RingBuffer} {xs data reply : List UInt8}

/-- With room for the reply the interrupt appends it, whatever bytes the ring has. -/
theorem ringIsr_of_room (hsize : rb.size ≤ 2147483648) (hw : rb.writeIndex < rb.size)
    (hroom : reply.length ≤ rb.emptyLengthOf) (hlen : reply.length ≤ rb.size) :
    ringIsr reply rb = (rb.pushed reply, reply.length) := by
  have hmin : min reply.length rb.emptyLengthOf = reply.length := min_eq_left hroom
  rw [ringIsr, RingBuffer.write, ringBufferWrite_run hsize hw (by omega), List.take_of_length_le hroom, hmin]

theorem ringIsr_repr (h : rb.Repr xs) (hroom : xs.length + reply.length ≤ rb.size) :
    ringIsr reply rb = (rb.pushed reply, reply.length) := by
  rw [ringIsr, RingBuffer.write, ringBufferWrite_fits h hroom]

/-- The interrupt in the middle of a copy writes the reply where the copy began. -/
theorem ringIsr_repr_pointer (h : rb.Repr xs) (hroom : xs.length + reply.length ≤ rb.size)
    (mem : Nat → UInt8) :
    ringIsr reply { rb with pointer := mem } =
      ({ rb with pointer := mem }.pushed reply, reply.length) := by
  have hempty : ({ rb with pointer := mem } : RingBuffer).emptyLengthOf = rb.size - xs.length :=
    h.emptyLengthOf
  exact ringIsr_of_room h.size_le h.write_lt (by rw [hempty]; omega) (by simp only; omega)

end Isr

/-! ## The interrupted write -/

section Write

variable {rb : RingBuffer} {xs data reply : List UInt8}

theorem ringBufferWrite_isrFirst (h : rb.Repr xs)
    (hroom : xs.length + data.length + reply.length ≤ rb.size) :
    (ringBufferWrite data).isrFirst (ringIsr reply) rb =
      ((rb.pushed reply).pushed data, data.length, reply.length) := by
  have hsize := rb.pushed_size reply
  have hpush := h.pushed (show xs.length + reply.length ≤ rb.size by omega)
  rw [isrFirst, ringIsr_repr h (by omega),
    ringBufferWrite_fits hpush (by simp only [List.length_append]; omega)]

theorem ringBufferWrite_isrLast (h : rb.Repr xs)
    (hroom : xs.length + data.length + reply.length ≤ rb.size) :
    (ringBufferWrite data).isrLast (ringIsr reply) rb =
      ((rb.pushed data).pushed reply, data.length, reply.length) := by
  have hsize := rb.pushed_size data
  have hpush := h.pushed (show xs.length + data.length ≤ rb.size by omega)
  rw [isrLast, ringBufferWrite_fits h (by omega),
    ringIsr_repr hpush (by simp only [List.length_append]; omega)]

theorem pushed_pushed_repr (h : rb.Repr xs) {as bs : List UInt8}
    (hroom : xs.length + as.length + bs.length ≤ rb.size) :
    ((rb.pushed as).pushed bs).Repr (xs ++ as ++ bs) :=
  (h.pushed (by omega)).pushed (by
    have hsize := rb.pushed_size as
    simp only [List.length_append]
    omega)

/-- A serial outcome holds both byte strings, and both calls return their length. -/
theorem WriteSerial.repr {n : Nat} (h : rb.Repr xs)
    (hroom : xs.length + data.length + reply.length ≤ rb.size)
    (hs : (ringBufferWrite data).Serial (ringIsr reply) RingBuffer.Same n rb) :
    ∃ ys, (ys = reply ++ data ∨ ys = data ++ reply) ∧
      ((ringBufferWrite data).interruptAt (ringIsr reply) n rb).1.Repr (xs ++ ys) := by
  rw [Serial, ringBufferWrite_isrFirst h hroom, ringBufferWrite_isrLast h hroom] at hs
  rcases hs with ⟨hsame, -⟩ | ⟨hsame, -⟩
  · refine ⟨reply ++ data, .inl rfl, hsame.repr_left ?_⟩
    simpa using pushed_pushed_repr h
      (show xs.length + reply.length + data.length ≤ rb.size by omega)
  · refine ⟨data ++ reply, .inr rfl, hsame.repr_left ?_⟩
    simpa using pushed_pushed_repr h hroom

/-- The free length computed from an interrupted sequence of loads is that of the ring
before or behind the interrupt, or the one that the old mirror and the new index give. -/
theorem ringBufferGetEmptyLength_interruptAt (h : rb.Repr xs)
    (hroom : xs.length + reply.length ≤ rb.size) {n : Nat} (hn : n ≤ 6) :
    ∃ e, ringBufferGetEmptyLength.interruptAt (ringIsr reply) n rb =
        (rb.pushed reply, e, reply.length) ∧
      (e = (rb.pushed reply).emptyLengthOf ∨ e = rb.emptyLengthOf ∨
        e = { rb.pushed reply with writeMirror := rb.writeMirror }.emptyLengthOf) := by
  have hisr := ringIsr_repr h hroom
  interval_cases n
  all_goals
    simp [ringBufferGetEmptyLength, ringBufferGetLength, isrFirst, hisr, RingBuffer.emptyLengthOf,
      RingBuffer.lengthOf, RingBuffer.pushed]

/-- The old mirror and the new index make the ring look emptier than it is. -/
theorem emptyLengthOf_torn (h : rb.Repr xs) (hroom : xs.length + reply.length ≤ rb.size) :
    rb.size - xs.length - reply.length ≤
      { rb.pushed reply with writeMirror := rb.writeMirror }.emptyLengthOf := by
  have := h.size_le; have := h.read_lt; have := h.write_lt
  by_cases hm : rb.readMirror = rb.writeMirror
  · have := h.same hm
    simp only [RingBuffer.emptyLengthOf, RingBuffer.lengthOf, RingBuffer.pushed, ringLength, hm,
      if_true, sub32]
    split <;> omega
  · have := h.differ hm
    have hfit : rb.writeIndex + reply.length < rb.size := by omega
    simp only [RingBuffer.emptyLengthOf, RingBuffer.lengthOf, RingBuffer.pushed, ringLength, hm,
      hfit, if_true, if_false, sub32]
    omega

/-- Until the second load of `writeIndex` the interrupt comes first. -/
theorem ringBufferWrite_interruptAt_early (h : rb.Repr xs) (hdata : data ≠ [])
    (hroom : xs.length + data.length + reply.length ≤ rb.size) {n : Nat} (hn : n ≤ 7) :
    (ringBufferWrite data).interruptAt (ringIsr reply) n rb =
      (ringBufferWrite data).isrFirst (ringIsr reply) rb := by
  have hpos : 0 < data.length := List.length_pos_iff.mpr hdata
  have hpush := h.pushed (show xs.length + reply.length ≤ rb.size by omega)
  have hwrite : (ringBufferWriteData data).run (rb.pushed reply) =
      ((rb.pushed reply).pushed data, data.length) :=
    ringBufferWriteData_run h.size_le hpush.write_lt (show data.length ≤ rb.size by omega)
  rw [ringBufferWrite_isrFirst h hroom]
  by_cases h6 : n ≤ 6
  · have hfit : xs.length + reply.length ≤ rb.size := by omega
    obtain ⟨e, he, hcases⟩ := ringBufferGetEmptyLength_interruptAt h hfit h6
    have hle : data.length ≤ e := by
      have htorn := emptyLengthOf_torn h hfit
      have hold := h.emptyLengthOf
      have hnew := hpush.emptyLengthOf
      rw [List.length_append] at hnew
      have hsize := rb.pushed_size reply
      rcases hcases with rfl | rfl | rfl <;> omega
    have he0 : e ≠ 0 := by omega
    rw [ringBufferWrite, interruptAt_bind_le _ _ (by simpa using h6), he]
    simp only [if_neg he0, List.take_of_length_le hle, hwrite]
  · obtain rfl : n = 7 := by omega
    have he := h.emptyLengthOf
    have he0 : rb.emptyLengthOf ≠ 0 := by omega
    have hisr := ringIsr_repr h (show xs.length + reply.length ≤ rb.size by omega)
    rw [ringBufferWrite, interruptAt_bind_ge _ _ (by simp)]
    simp only [ringBufferGetEmptyLength_run, ringBufferGetEmptyLength_length, if_neg he0,
      List.take_of_length_le (show data.length ≤ rb.emptyLengthOf by omega)]
    have hload : (ringBufferWriteData data).interruptAt (ringIsr reply) 1 rb =
        (ringBufferWriteData data).interruptAt (ringIsr reply) 0 rb :=
      interruptAt_load_bind_one _ _ (by rw [hisr, RingBuffer.pushed_size])
    rw [show 7 - 6 = 1 from rfl, hload, interruptAt_zero, isrFirst, hisr, hwrite]

/-- From the second load of `writeIndex` on, the branch of the write is chosen. -/
theorem ringBufferWrite_interruptAt_late (h : rb.Repr xs) (hdata : data ≠ [])
    (hroom : xs.length + data.length + reply.length ≤ rb.size) (n : Nat) :
    (ringBufferWrite data).interruptAt (ringIsr reply) (n + 8) rb =
      if rb.writeIndex + data.length < rb.size then
        (ringBufferWriteStraight data).interruptAt (ringIsr reply) n rb
      else
        (ringBufferWriteDivided (data.take (rb.size - rb.writeIndex))
          (data.drop (rb.size - rb.writeIndex))).interruptAt (ringIsr reply) n rb := by
  have hpos : 0 < data.length := List.length_pos_iff.mpr hdata
  have he := h.emptyLengthOf
  have he0 : rb.emptyLengthOf ≠ 0 := by omega
  have hrem : sub32 rb.size rb.writeIndex = rb.size - rb.writeIndex := by
    have := h.size_le; have := h.write_lt
    simp only [sub32]
    omega
  have hlt : data.length < rb.size - rb.writeIndex ↔ rb.writeIndex + data.length < rb.size := by
    omega
  rw [ringBufferWrite, interruptAt_bind_ge _ _ (by simp)]
  simp only [ringBufferGetEmptyLength_run, ringBufferGetEmptyLength_length, if_neg he0,
    List.take_of_length_le (show data.length ≤ rb.emptyLengthOf by omega)]
  rw [show n + 8 - 6 = n + 1 + 1 by omega, ringBufferWriteData, interruptAt_load_bind,
    interruptAt_load_bind]
  simp only [hrem, hlt]
  split <;> rfl

/-- An interrupt in the middle of a copy touches the cells of the reply, and the copy
the cells it is sent to. -/
theorem ringBufferWriteCopy_interruptAt
    (hisr : ∀ mem, ringIsr reply { rb with pointer := mem } =
      ({ rb with pointer := mem }.pushed reply, reply.length))
    (dest : Nat) {bs : List UInt8} {n : Nat} (hn : n ≤ bs.length) :
    ∃ mem, (ringBufferWriteCopy dest bs).interruptAt (ringIsr reply) n rb =
        ({ rb.pushed reply with pointer := mem }, (), reply.length) ∧
      ∀ a, a < dest ∨ dest + bs.length ≤ a → mem a = (rb.pushed reply).pointer a := by
  induction bs generalizing rb dest n with
  | nil =>
      obtain rfl : n = 0 := by simpa using hn
      refine ⟨(rb.pushed reply).pointer, ?_, fun _ _ => rfl⟩
      rw [interruptAt_zero, isrFirst, hisr rb.pointer]
      rfl
  | cons b bs ih =>
      cases n with
      | zero =>
          refine ⟨copyTo (rb.pushed reply).pointer dest (b :: bs), ?_, fun a ha => copyTo_frame ha⟩
          rw [interruptAt_zero, isrFirst, hisr rb.pointer, ringBufferWriteCopy_run]
      | succ n =>
          obtain ⟨mem, hout, hmem⟩ := @ih { rb with pointer := Function.update rb.pointer dest b }
            hisr (dest + 1) n (by simpa using hn)
          refine ⟨mem, ?_, ?_⟩
          · rw [ringBufferWriteCopy, interruptAt_store_bind, hout]
            rfl
          · intro a ha
            rw [List.length_cons] at ha
            rw [hmem a (by omega)]
            exact fill_congr_mem (Function.update_of_ne (by omega) _ _) _ _ _

section Straight

variable (h : rb.Repr xs) (hroom : xs.length + data.length + reply.length ≤ rb.size)

include h hroom

/-- During the copy the straight branch keeps the reply's indices and its own bytes
only where they were written last. -/
theorem ringBufferWriteStraight_interruptAt_copy {n : Nat} (hpos : 1 ≤ n)
    (hn : n ≤ data.length + 1) :
    ∃ mem, (ringBufferWriteStraight data).interruptAt (ringIsr reply) n rb =
        ({ rb.pushed reply with
            pointer := mem
            writeIndex := add32 (rb.pushed reply).writeIndex data.length },
          data.length, reply.length) ∧
      ∀ a, a < rb.writeIndex ∨ rb.writeIndex + data.length ≤ a →
        mem a = (rb.pushed reply).pointer a := by
  obtain ⟨n, rfl⟩ : ∃ m, n = m + 1 := ⟨n - 1, by omega⟩
  obtain ⟨mem, hout, hmem⟩ := ringBufferWriteCopy_interruptAt
    (ringIsr_repr_pointer h (show xs.length + reply.length ≤ rb.size by omega)) rb.writeIndex
    (show n ≤ data.length by omega)
  refine ⟨mem, ?_, hmem⟩
  rw [ringBufferWriteStraight, interruptAt_load_bind, interruptAt_bind_le _ _ (by simp; omega),
    hout]
  simp

/-- Between the load and the store of `writeIndex` the reply's index is lost. -/
theorem ringBufferWriteStraight_interruptAt_store :
    ((ringBufferWriteStraight data).interruptAt (ringIsr reply) (data.length + 2) rb).1 =
      { ({ rb with pointer := copyTo rb.pointer rb.writeIndex data } : RingBuffer).pushed reply with
        writeIndex := add32 rb.writeIndex data.length } := by
  have hisr := ringIsr_repr_pointer h (show xs.length + reply.length ≤ rb.size by omega)
    (copyTo rb.pointer rb.writeIndex data)
  rw [ringBufferWriteStraight, interruptAt_load_bind, interruptAt_bind_ge _ _ (by simp)]
  simp only [ringBufferWriteCopy_run, ringBufferWriteCopy_length]
  rw [show data.length + 1 - data.length = 0 + 1 by omega, interruptAt_load_bind, interruptAt_zero,
    isrFirst, hisr]
  simp

end Straight

section Divided

variable {front back : List UInt8}

/-- Until it stores `writeIndex` the divided branch forgets where the reply went. -/
theorem ringBufferWriteDivided_interruptAt_copy (h : rb.Repr xs)
    (hroom : xs.length + reply.length ≤ rb.size) {n : Nat}
    (hn : n ≤ front.length + back.length + 1) :
    ∃ mem, ((ringBufferWriteDivided front back).interruptAt (ringIsr reply) n rb).1 =
      { rb.pushed reply with
        pointer := mem
        writeIndex := back.length
        writeMirror := !(rb.pushed reply).writeMirror } := by
  have hisr := ringIsr_repr_pointer h hroom
  cases n with
  | zero =>
      rw [interruptAt_zero, isrFirst, hisr rb.pointer, ringBufferWriteDivided_run]
      exact ⟨_, rfl⟩
  | succ n =>
      rw [ringBufferWriteDivided, interruptAt_load_bind]
      by_cases hf : n ≤ front.length
      · obtain ⟨mem, hout, -⟩ := ringBufferWriteCopy_interruptAt hisr rb.writeIndex hf
        rw [interruptAt_bind_le _ _ (by simpa using hf), hout]
        simp
      · rw [interruptAt_bind_ge _ _ (by simp; omega)]
        simp only [ringBufferWriteCopy_run, ringBufferWriteCopy_length]
        obtain ⟨mem, hout, -⟩ := @ringBufferWriteCopy_interruptAt
          { rb with pointer := copyTo rb.pointer rb.writeIndex front } reply hisr 0 back _
          (show n - front.length ≤ back.length by omega)
        rw [interruptAt_bind_le _ _ (by simp; omega), hout]
        simp [RingBuffer.pushed]

/-- The ring behind the divided copy and the store of `writeIndex`, with either mirror. -/
def RingBuffer.divided (rb : RingBuffer) (front back : List UInt8) (mirror : Bool) : RingBuffer :=
  { rb with
    pointer := copyTo (copyTo rb.pointer rb.writeIndex front) 0 back
    writeIndex := back.length
    writeMirror := mirror }

section Stored

variable (h : rb.Repr xs)
  (hroom : xs.length + (front.length + back.length) + reply.length ≤ rb.size)
  (hfront : rb.writeIndex + front.length = rb.size)

include h hroom hfront

/-- Data that reaches the end of the ring leaves the reply short of the read index. -/
theorem divided_room : back.length + reply.length < rb.size ∧
    back.length + reply.length ≤ rb.readIndex := by
  have := h.size_le; have := h.read_lt; have := h.write_lt
  have hsame : rb.readMirror = rb.writeMirror := by
    by_contra hm
    have := h.differ hm
    omega
  have := h.same hsame
  omega

/-- Both mirrors leave the interrupt enough free length. -/
theorem ringIsr_divided (mirror : Bool) :
    ringIsr reply (rb.divided front back mirror) =
      ((rb.divided front back mirror).pushed reply, reply.length) := by
  have hs := h.size_le; have hr := h.read_lt
  obtain ⟨hlt, hle⟩ := divided_room h hroom hfront
  apply ringIsr_of_room
  · exact hs
  · show back.length < rb.size
    omega
  · simp only [RingBuffer.divided, RingBuffer.emptyLengthOf, RingBuffer.lengthOf, ringLength, sub32]
    split <;> omega
  · show reply.length ≤ rb.size
    omega

/-- Once `writeIndex` is stored the interrupt appends behind the data, with the mirror
flipped or not. -/
theorem ringBufferWriteDivided_interruptAt_mirror {n : Nat}
    (hn : front.length + back.length + 2 ≤ n) :
    (ringBufferWriteDivided front back).interruptAt (ringIsr reply) n rb =
      (ringBufferWriteDivided front back).isrLast (ringIsr reply) rb := by
  obtain ⟨hlt, -⟩ := divided_room h hroom hfront
  have hisr := ringIsr_divided h hroom hfront
  have hpush : { (rb.divided front back rb.writeMirror).pushed reply with
      writeMirror := !rb.writeMirror } = (rb.divided front back (!rb.writeMirror)).pushed reply := by
    simp [RingBuffer.divided, RingBuffer.pushed, hlt]
  have hmirror : ((rb.divided front back rb.writeMirror).pushed reply).writeMirror =
      rb.writeMirror := by
    simp [RingBuffer.divided, RingBuffer.pushed, hlt]
  have hlast : (ringBufferWriteDivided front back).isrLast (ringIsr reply) rb =
      ((rb.divided front back (!rb.writeMirror)).pushed reply, front.length + back.length,
        reply.length) := by
    rw [isrLast, ringBufferWriteDivided_run]
    exact congrArg (fun r => (r.1, front.length + back.length, r.2)) (hisr _)
  by_cases hend : front.length + back.length + 4 ≤ n
  · exact interruptAt_of_length_le _ (by simpa using hend)
  · obtain ⟨j, rfl⟩ : ∃ j, n = front.length + back.length + j + 2 :=
      ⟨n - (front.length + back.length) - 2, by omega⟩
    rw [hlast, ringBufferWriteDivided, interruptAt_load_bind,
      interruptAt_bind_ge _ _ (by simp; omega), interruptAt_bind_ge _ _ (by simp; omega)]
    simp only [ringBufferWriteCopy_run, ringBufferWriteCopy_length]
    rw [show front.length + back.length + j + 1 - front.length - back.length = j + 1 by omega,
      interruptAt_store_bind]
    -- The mirror is loaded and stored in the ring that has the new index.
    show interruptAt (ringIsr reply) j _ (rb.divided front back rb.writeMirror) = _
    have hj : j = 0 ∨ j = 1 := by omega
    rcases hj with rfl | rfl
    · rw [interruptAt_zero, isrFirst, hisr]
      simp only [run_bind, run_load, run_store, run_pure, hmirror]
      rw [← hpush]
    · rw [interruptAt_load_bind, interruptAt_zero, isrFirst, hisr]
      simp only [run_bind, run_store, run_pure]
      rw [← hpush]
      rfl

end Stored

end Divided

/-- The last of the cells that both writes need. -/
def RingBuffer.lastSlot (rb : RingBuffer) (L M : Nat) : Nat :=
  slot rb.size rb.writeIndex (L + M - 1)

section Outcome

variable (h : rb.Repr xs) (hdata : data ≠ []) (hreply : reply ≠ [])
  (hroom : xs.length + data.length + reply.length ≤ rb.size)

include h hdata hreply hroom

/-- In a serial outcome the last cell ends with the last byte of one of the two. -/
theorem WriteSerial.lastSlot {n : Nat}
    (hs : (ringBufferWrite data).Serial (ringIsr reply) RingBuffer.Same n rb)
    {out : RingBuffer} (hout : ((ringBufferWrite data).interruptAt (ringIsr reply) n rb).1 = out)
    (hsize : out.size = rb.size) (hread : out.readIndex = rb.readIndex) :
    out.pointer (rb.lastSlot data.length reply.length) = data.getLast hdata ∨
      out.pointer (rb.lastSlot data.length reply.length) = reply.getLast hreply := by
  have hL : 0 < data.length := List.length_pos_iff.mpr hdata
  obtain ⟨ys, hys, hrepr⟩ := WriteSerial.repr h hroom hs
  have hlen : ys.length = data.length + reply.length := by
    rcases hys with rfl | rfl <;> simp [Nat.add_comm]
  have hne : ys ≠ [] := List.length_pos_iff.mp (by omega)
  have hcell := hrepr.holds (xs.length + (data.length + reply.length - 1)) (by simp; omega)
  rw [hout, hsize, hread, h.slot_length, List.getElem_append_right (by omega)] at hcell
  have hlast : out.pointer (rb.lastSlot data.length reply.length) = ys.getLast hne := by
    rw [RingBuffer.lastSlot, hcell, List.getLast_eq_getElem]
    simp [hlen]
  rcases hys with rfl | rfl
  · left
    rw [hlast, List.getLast_append_of_ne_nil]
  · right
    rw [hlast, List.getLast_append_of_ne_nil]

/-- In the copy of the straight branch the reply lands on the data, and the last cell
keeps what it held before. -/
theorem ringBufferWriteStraight_not_serial {n : Nat} (hfit : rb.writeIndex + data.length < rb.size)
    (hn : 9 ≤ n) (hn' : n ≤ data.length + 9)
    (hstale : rb.pointer (rb.lastSlot data.length reply.length) ≠ data.getLast hdata ∧
      rb.pointer (rb.lastSlot data.length reply.length) ≠ reply.getLast hreply) :
    ¬ (ringBufferWrite data).Serial (ringIsr reply) RingBuffer.Same n rb := by
  intro hs
  have hL : 0 < data.length := List.length_pos_iff.mpr hdata
  have hM : 0 < reply.length := List.length_pos_iff.mpr hreply
  obtain ⟨n, rfl⟩ : ∃ m, n = m + 8 := ⟨n - 8, by omega⟩
  obtain ⟨mem, hout, hmem⟩ := ringBufferWriteStraight_interruptAt_copy h hroom
    (show 1 ≤ n by omega) (by omega)
  have hall : ((ringBufferWrite data).interruptAt (ringIsr reply) (n + 8) rb).1 = _ :=
    congrArg Prod.fst ((ringBufferWrite_interruptAt_late h hdata hroom n).trans
      ((if_pos hfit).trans hout))
  have hcell : mem (rb.lastSlot data.length reply.length) =
      rb.pointer (rb.lastSlot data.length reply.length) := by
    rw [hmem, RingBuffer.pushed]
    · apply fill_frame
      intro i hi heq
      have := slot_inj (n := rb.size) (by omega) (by omega) heq
      omega
    · by_cases hwrap : rb.writeIndex + (data.length + reply.length - 1) < rb.size
      · rw [RingBuffer.lastSlot, slot_of_lt hwrap]
        omega
      · rw [RingBuffer.lastSlot, slot_of_ge (by omega) (by omega)]
        omega
  have hlast := WriteSerial.lastSlot h hdata hreply hroom hs hall rfl rfl
  simp only [hcell] at hlast
  exact hlast.elim hstale.1 hstale.2

/-- Every interruption point that is not safe loses, misplaces or overwrites bytes. -/
theorem ringBufferWrite_not_serial {n : Nat} (hn : ¬ rb.WriteSafe data.length reply.length n)
    (hstale : rb.pointer (rb.lastSlot data.length reply.length) ≠ data.getLast hdata ∧
      rb.pointer (rb.lastSlot data.length reply.length) ≠ reply.getLast hreply) :
    ¬ (ringBufferWrite data).Serial (ringIsr reply) RingBuffer.Same n rb := by
  have hL : 0 < data.length := List.length_pos_iff.mpr hdata
  have hM : 0 < reply.length := List.length_pos_iff.mpr hreply
  have := h.size_le; have hr := h.read_lt; have hw := h.write_lt
  simp only [RingBuffer.WriteSafe, not_or, not_le] at hn
  obtain ⟨h7, h8, hend⟩ := hn
  intro hs
  obtain ⟨ys, hys, hrepr⟩ := WriteSerial.repr h hroom hs
  have hlen : (xs ++ ys).length = xs.length + data.length + reply.length := by
    rcases hys with rfl | rfl <;> simp <;> omega
  obtain ⟨n, rfl⟩ : ∃ m, n = m + 8 := ⟨n - 8, by omega⟩
  rw [ringBufferWrite_interruptAt_late h hdata hroom] at hrepr
  by_cases hfit : rb.writeIndex + data.length < rb.size
  · rw [if_pos hfit] at hrepr hend
    have hcases : n = 0 ∨ 9 ≤ n + 8 ∧ n + 8 ≤ data.length + 9 ∨ n = data.length + 2 := by omega
    rcases hcases with rfl | ⟨hlo, hhi⟩ | rfl
    -- The copy runs past the end of the ring and leaves its index there.
    · have hidx := hrepr.write_lt
      rw [interruptAt_zero, isrFirst, ringIsr_repr h (by omega),
        ringBufferWriteStraight_run] at hidx
      simp only [RingBuffer.pushed, add32] at hidx
      split at hidx <;> omega
    · exact ringBufferWriteStraight_not_serial h hdata hreply hroom hfit hlo hhi hstale hs
    -- The stored index counts the data only.
    · rw [ringBufferWriteStraight_interruptAt_store h hroom] at hrepr
      have hsame := hrepr.same; have hdiff := hrepr.differ
      rw [hlen] at hsame hdiff
      simp only [RingBuffer.pushed, add32] at hsame hdiff
      by_cases hm : rb.readMirror = rb.writeMirror
      · have := h.same hm
        by_cases hwrap : rb.writeIndex + reply.length < rb.size
        · have := hsame (by rw [if_pos hwrap]; exact hm)
          omega
        · have := hdiff (by simp [hwrap, hm])
          omega
      · have := h.differ hm
        have := hdiff (by rw [if_pos (by omega)]; exact hm)
        omega
  · rw [if_neg hfit] at hrepr hend
    obtain ⟨mem, hout⟩ := ringBufferWriteDivided_interruptAt_copy h
      (show xs.length + reply.length ≤ rb.size by omega)
      (show n ≤ (data.take (rb.size - rb.writeIndex)).length +
        (data.drop (rb.size - rb.writeIndex)).length + 1 by simp; omega)
    rw [hout] at hrepr
    have hm : rb.readMirror = rb.writeMirror := by
      by_contra hm
      have := h.differ hm
      omega
    have := h.same hm
    have hsame := hrepr.same; have hdiff := hrepr.differ
    rw [hlen] at hsame hdiff
    simp only [RingBuffer.pushed, List.length_drop] at hsame hdiff
    by_cases hwrap : rb.writeIndex + reply.length < rb.size
    · have := hdiff (by simp [hwrap, hm])
      omega
    · have := hsame (by simp [hwrap, hm])
      omega

omit hreply

theorem ringBufferWrite_serial {n : Nat} (hn : rb.WriteSafe data.length reply.length n) :
    (ringBufferWrite data).Serial (ringIsr reply) RingBuffer.Same n rb := by
  have hfirst : RingBuffer.Same ((ringBufferWrite data).isrFirst (ringIsr reply) rb).1
      ((ringBufferWrite data).isrFirst (ringIsr reply) rb).1 := by
    rw [ringBufferWrite_isrFirst h hroom]
    exact (pushed_pushed_repr h (by omega)).same_self
  have hlast : RingBuffer.Same ((ringBufferWrite data).isrLast (ringIsr reply) rb).1
      ((ringBufferWrite data).isrLast (ringIsr reply) rb).1 := by
    rw [ringBufferWrite_isrLast h hroom]
    exact (pushed_pushed_repr h hroom).same_self
  by_cases h7 : n ≤ 7
  · exact .of_first (ringBufferWrite_interruptAt_early h hdata hroom h7) hfirst
  obtain ⟨n, rfl⟩ : ∃ m, n = m + 8 := ⟨n - 8, by omega⟩
  have hL : 0 < data.length := List.length_pos_iff.mpr hdata
  have hs := h.size_le; have hw := h.write_lt
  have hisrLast := ringBufferWrite_isrLast h hroom
  have hisrFirst := ringBufferWrite_isrFirst h hroom
  by_cases hfit : rb.writeIndex + data.length < rb.size
  · have hlate := ringBufferWrite_interruptAt_late h hdata hroom n
    rw [if_pos hfit] at hlate
    simp only [RingBuffer.WriteSafe, if_pos hfit] at hn
    by_cases hend : data.length + 3 ≤ n
    · refine .of_last ?_ hlast
      rw [hlate, interruptAt_of_length_le _ (by simpa using hend), hisrLast, isrLast,
        ringBufferWriteStraight_pushed hs hfit,
        ringIsr_repr (h.pushed (by omega)) (by simp; omega)]
    · obtain ⟨rfl, hidx⟩ : n = 0 ∧ (rb.size ≤ rb.writeIndex + reply.length ∨
          rb.writeIndex + reply.length + data.length < rb.size) := by omega
      have hidx' : (rb.pushed reply).writeIndex + data.length < (rb.pushed reply).size := by
        by_cases hm : rb.readMirror = rb.writeMirror
        · have := h.same hm; have := h.read_lt
          simp only [RingBuffer.pushed]
          split <;> omega
        · have := h.differ hm; have := h.read_lt
          simp only [RingBuffer.pushed]
          split <;> omega
      refine .of_first ?_ hfirst
      rw [hlate, hisrFirst, interruptAt_zero, isrFirst, ringIsr_repr h (by omega),
        @ringBufferWriteStraight_pushed (rb.pushed reply) data hs hidx']
  · have hlate := ringBufferWrite_interruptAt_late h hdata hroom n
    rw [if_neg hfit] at hlate
    simp only [RingBuffer.WriteSafe, if_neg hfit] at hn
    refine .of_last ?_ hlast
    rw [hlate, ringBufferWriteDivided_interruptAt_mirror h (by simp; omega) (by simp; omega)
      (by simp; omega), hisrLast, isrLast,
      ringBufferWriteDivided_pushed hw.le (by omega) (by omega),
      ringIsr_repr (h.pushed (by omega)) (by simp; omega)]

end Outcome

/-- Some byte differs from two given ones. -/
private theorem exists_ne_and_ne (a b : UInt8) : ∃ c : UInt8, c ≠ a ∧ c ≠ b := by
  by_cases h0 : (0 : UInt8) ≠ a ∧ (0 : UInt8) ≠ b
  · exact ⟨0, h0⟩
  · by_cases h1 : (1 : UInt8) ≠ a ∧ (1 : UInt8) ≠ b
    · exact ⟨1, h1⟩
    · exact ⟨2, by grind⟩

/-- The safe points are exactly those at which the interrupted write is serial whatever
bytes the ring's free cells hold. -/
theorem ringBufferWrite_serial_iff (h : rb.Repr xs) (hdata : data ≠ []) (hreply : reply ≠ [])
    (hroom : xs.length + data.length + reply.length ≤ rb.size) (n : Nat) :
    (∀ mem, ({ rb with pointer := mem } : RingBuffer).Repr xs →
      (ringBufferWrite data).Serial (ringIsr reply) RingBuffer.Same n { rb with pointer := mem }) ↔
    rb.WriteSafe data.length reply.length n := by
  constructor
  · intro hall
    by_contra hn
    obtain ⟨b, hb⟩ := exists_ne_and_ne (data.getLast hdata) (reply.getLast hreply)
    -- A free cell that ends with neither last byte shows a copy that went elsewhere.
    let mem := Function.update rb.pointer (rb.lastSlot data.length reply.length) b
    have hM : 0 < reply.length := List.length_pos_iff.mpr hreply
    have hL : 0 < data.length := List.length_pos_iff.mpr hdata
    have hmem : ({ rb with pointer := mem } : RingBuffer).Repr xs := by
      refine { h with holds := h.holds.congr ?_ }
      intro i hi
      apply Function.update_of_ne
      intro heq
      rw [RingBuffer.lastSlot, ← h.slot_length] at heq
      have := slot_inj (by omega) (by omega) heq
      omega
    have hcell : mem (rb.lastSlot data.length reply.length) = b := Function.update_self ..
    exact ringBufferWrite_not_serial hmem hdata hreply hroom hn (by
      show mem (rb.lastSlot data.length reply.length) ≠ _ ∧
        mem (rb.lastSlot data.length reply.length) ≠ _
      rw [hcell]
      exact hb) (hall mem hmem)
  · intro hn mem hmem
    exact ringBufferWrite_serial hmem hdata hroom hn

end Write
