-- SUMMARY: A ring buffer read cut by an interrupt that writes the same ring: the interruption points that keep the two calls serial.
import PowerProfiler.Firmware.InterruptedWrite

/-!
# Interrupted reads

The main loop reads the ring without a lock while the USB interrupt writes replies
into it. The interrupt moves `writeIndex` and `writeMirror` under the loads that
compute the length, and it looks at `readIndex` and `readMirror` between their two
stores. Every other step commutes with it.
-/

open Prog Circular

/-- The interrupt handler's write of a reply while a read is under way. -/
def ringIsrIo (reply : List UInt8) (io : RingIo) : RingIo × Nat :=
  ({ io with rb := (ringIsr reply io.rb).1 }, (ringIsr reply io.rb).2)

/-- The two rings hold the same bytes and the two destinations are equal. -/
def RingIo.Same (io io' : RingIo) : Prop := io.rb.Same io'.rb ∧ io.dest = io'.dest

/-- The interruption points of a read of `R` bytes, of the `len` bytes the ring holds,
that a write of `M` bytes may take: between the loads of the two write fields only when
the write stays in its mirror, or when the read asks for no more than what is there
behind it and that is less than all of the ring; between the stores of the two read
fields only when the read leaves bytes behind. -/
def RingBuffer.ReadSafe (rb : RingBuffer) (len R M n : Nat) : Prop :=
  (n = 2 ∨ n = 3 → rb.writeIndex + M < rb.size ∨ (R ≤ len + M ∧ len + M < rb.size)) ∧
  (rb.size ≤ rb.readIndex + min R len → n = min R len + 9 ∨ n = min R len + 10 →
    min R len ≠ len)

instance (rb : RingBuffer) (len R M n : Nat) : Decidable (rb.ReadSafe len R M n) :=
  inferInstanceAs (Decidable (_ ∧ _))

section Read

variable {io : RingIo} {xs reply : List UInt8} {R : Nat}

/-! ## The two serial orders -/

theorem ringIsrIo_of {rb : RingBuffer} {n : Nat} (h : ringIsr reply io.rb = (rb, n)) :
    ringIsrIo reply io = ({ io with rb := rb }, n) := by
  rw [ringIsrIo, h]

theorem ringIsrIo_repr (h : io.rb.Repr xs) (hroom : xs.length + reply.length ≤ io.rb.size) :
    ringIsrIo reply io = ({ io with rb := io.rb.pushed reply }, reply.length) := by
  rw [ringIsrIo_of (ringIsr_repr h hroom)]

theorem ringBufferRead_isrFirst (h : io.rb.Repr xs)
    (hroom : xs.length + reply.length ≤ io.rb.size) (R : Nat) :
    (ringBufferRead R).isrFirst (ringIsrIo reply) io =
      ({ rb := (io.rb.pushed reply).popped (min R (xs.length + reply.length))
         dest := copyTo io.dest 0 ((xs ++ reply).take (min R (xs.length + reply.length))) },
        min R (xs.length + reply.length), reply.length) := by
  have hpush : ({ io with rb := io.rb.pushed reply } : RingIo).rb.Repr (xs ++ reply) :=
    h.pushed hroom
  rw [isrFirst, ringIsrIo_repr h hroom, ringBufferRead_repr hpush, List.length_append]

theorem ringBufferRead_isrLast (h : io.rb.Repr xs)
    (hroom : xs.length + reply.length ≤ io.rb.size) (R : Nat) :
    (ringBufferRead R).isrLast (ringIsrIo reply) io =
      ({ rb := (io.rb.popped (min R xs.length)).pushed reply
         dest := copyTo io.dest 0 (xs.take (min R xs.length)) },
        min R xs.length, reply.length) := by
  have hpop := h.popped (min_le_right R xs.length)
  have hroom' : (xs.drop (min R xs.length)).length + reply.length ≤
      (io.rb.popped (min R xs.length)).size := by
    simp only [List.length_drop, RingBuffer.popped_size]
    omega
  rw [isrLast, ringBufferRead_repr h, ringIsrIo, ringIsr_repr hpop hroom']

/-- Removing from the front and appending at the end commute. -/
theorem pushed_popped (rb : RingBuffer) (bs : List UInt8) (k : Nat) :
    (rb.pushed bs).popped k = (rb.popped k).pushed bs := rfl

/-- A read of bytes that are there before the reply ends as if the reply came last. -/
theorem ringBufferReadData_pushed (h : io.rb.Repr xs)
    (hroom : xs.length + reply.length ≤ io.rb.size) {k : Nat} (hk : k ≤ xs.length) :
    (ringBufferReadData k).run { io with rb := io.rb.pushed reply } =
      ({ rb := (io.rb.popped k).pushed reply, dest := copyTo io.dest 0 (xs.take k) }, k) := by
  have hpush : ({ io with rb := io.rb.pushed reply } : RingIo).rb.Repr (xs ++ reply) :=
    h.pushed hroom
  rw [ringBufferReadData_run hpush (by simp; omega), pushed_popped,
    List.take_append_of_le_length hk]

/-! ## The loads -/

/-- The length that the loads compute, by the write fields they saw. -/
theorem ringBufferGetLength_interruptAt (h : io.rb.Repr xs)
    (hroom : xs.length + reply.length ≤ io.rb.size) {n : Nat} (hn : n ≤ 5) :
    (ringBufferGetLength.focus RingIo.ring).interruptAt (ringIsrIo reply) n io =
      ({ io with rb := io.rb.pushed reply },
        if n ≤ 1 then (io.rb.pushed reply).lengthOf
        else if n ≤ 3 then { io.rb.pushed reply with writeMirror := io.rb.writeMirror }.lengthOf
        else io.rb.lengthOf, reply.length) := by
  have hisr := ringIsr_repr h hroom
  have hring : ∀ rb, ringIsrIo reply (RingIo.ring.put rb io) =
      (RingIo.ring.put (ringIsr reply rb).1 io, (ringIsr reply rb).2) := fun _ => rfl
  rw [interruptAt_focus RingIo.ring hring]
  interval_cases n
  all_goals
    simp [ringBufferGetLength, isrFirst, hisr, RingBuffer.lengthOf, RingBuffer.pushed, RingIo.ring]

/-- The old mirror and the new index give the new length, unless the write left its
mirror: then they give nothing for a full ring and far too much for any other. -/
theorem lengthOf_torn {rb : RingBuffer} (h : rb.Repr xs)
    (hroom : xs.length + reply.length ≤ rb.size) :
    (rb.writeIndex + reply.length < rb.size →
      { rb.pushed reply with writeMirror := rb.writeMirror }.lengthOf =
        xs.length + reply.length) ∧
    (rb.size ≤ rb.writeIndex + reply.length → xs.length + reply.length = rb.size →
      { rb.pushed reply with writeMirror := rb.writeMirror }.lengthOf = 0) ∧
    (rb.size ≤ rb.writeIndex + reply.length → xs.length + reply.length < rb.size →
      2147483648 ≤ { rb.pushed reply with writeMirror := rb.writeMirror }.lengthOf) := by
  have := h.size_le; have := h.read_lt; have := h.write_lt
  by_cases hm : rb.readMirror = rb.writeMirror
  · have := h.same hm
    simp only [RingBuffer.lengthOf, RingBuffer.pushed, ringLength, hm, if_true, sub32]
    refine ⟨fun hlt => ?_, fun hge _ => ?_, fun hge _ => ?_⟩
    · rw [if_pos hlt]
      omega
    · rw [if_neg (by omega)]
      omega
    · rw [if_neg (by omega)]
      omega
  · have := h.differ hm
    have hlt : rb.writeIndex + reply.length < rb.size := by omega
    simp only [RingBuffer.lengthOf, RingBuffer.pushed, ringLength, hm, hlt, if_true, if_false,
      sub32]
    omega

/-- An interrupt during the loads leaves the rest of the read with the length they
computed. -/
theorem ringBufferRead_interruptAt_loads (h : io.rb.Repr xs)
    (hroom : xs.length + reply.length ≤ io.rb.size) {n : Nat} (hn : n ≤ 5) :
    ∃ size, size = (if n ≤ 1 then (io.rb.pushed reply).lengthOf
        else if n ≤ 3 then { io.rb.pushed reply with writeMirror := io.rb.writeMirror }.lengthOf
        else io.rb.lengthOf) ∧
      (ringBufferRead R).interruptAt (ringIsrIo reply) n io =
        (((if size = 0 then pure 0 else ringBufferReadData (min R size) : Prog RingIo Nat).run
            { io with rb := io.rb.pushed reply }).1,
          ((if size = 0 then pure 0 else ringBufferReadData (min R size) : Prog RingIo Nat).run
            { io with rb := io.rb.pushed reply }).2, reply.length) := by
  refine ⟨_, rfl, ?_⟩
  rw [ringBufferRead, interruptAt_bind_le _ _ (by simpa using hn),
    ringBufferGetLength_interruptAt h hroom hn]

/-! ## The copy and the stores -/

/-- A reply that fits leaves the cells of the contents alone. -/
theorem RingBuffer.Repr.pushed_pointer {rb : RingBuffer} (h : rb.Repr xs)
    (hroom : xs.length + reply.length ≤ rb.size) {i : Nat} (hi : i < xs.length) :
    (rb.pushed reply).pointer (slot rb.size rb.readIndex i) =
      rb.pointer (slot rb.size rb.readIndex i) := by
  apply fill_frame
  intro j hj heq
  rw [← h.slot_length] at heq
  have := slot_inj (by omega) (by omega) heq
  omega

/-- Copying cells that the reply leaves alone commutes with the interrupt. -/
theorem ringBufferReadCopy_commutes
    (hisr : ringIsr reply io.rb = (io.rb.pushed reply, reply.length)) (src dest : Nat) {n : Nat}
    (hsrc : ∀ i, i < n → (io.rb.pushed reply).pointer (src + i) = io.rb.pointer (src + i)) :
    (ringBufferReadCopy src dest n).Commutes (ringIsrIo reply) io := by
  induction n generalizing src dest io with
  | zero => exact commutes_pure _ _
  | succ n ih =>
      have hcell := hsrc 0 (by omega)
      rw [Nat.add_zero] at hcell
      apply Commutes.bind
      · apply commutes_store
        simp only [ringIsrIo, hisr, hcell]
      · refine ih (by simpa using hisr) (src + 1) (dest + 1) (fun i hi => ?_)
        have := hsrc (i + 1) (by omega)
        rwa [Nat.add_comm i 1, ← Nat.add_assoc] at this

/-- Every step of the straight branch commutes with the interrupt. -/
theorem ringBufferReadStraight_commutes (h : io.rb.Repr xs)
    (hroom : xs.length + reply.length ≤ io.rb.size) {k : Nat} (hk : k ≤ xs.length)
    (hfit : io.rb.readIndex + k < io.rb.size) :
    (ringBufferReadStraight k).Commutes (ringIsrIo reply) io := by
  have hs := h.size_le
  have hisr := ringIsr_repr h hroom
  have hadd : add32 io.rb.readIndex k = io.rb.readIndex + k := by
    simp only [add32]
    omega
  have hpop : ringIsr reply (io.rb.popped k) = ((io.rb.popped k).pushed reply, reply.length) :=
    ringIsr_repr (h.popped hk) (by simp; omega)
  have hstored : ({ io.rb with readIndex := io.rb.readIndex + k } : RingBuffer) =
      io.rb.popped k := by
    simp [RingBuffer.popped, hfit]
  apply (commutes_load (by simp [ringIsrIo, hisr, RingBuffer.pushed])).bind
  apply Commutes.bind
  · apply ringBufferReadCopy_commutes hisr
    intro i hi
    have := h.pushed_pointer hroom (i := i) (by omega)
    rw [slot_of_lt (by omega)] at this
    exact this
  apply (commutes_load (by simp [ringIsrIo, hisr, RingBuffer.pushed])).bind
  refine Commutes.bind (commutes_store ?_) (commutes_pure _ _)
  simp only [run_load, ringBufferReadCopy_run, hadd, ringIsrIo, hstored, hpop, hisr]
  simp [RingBuffer.popped, RingBuffer.pushed, hfit]

section Divided

variable {k : Nat} (h : io.rb.Repr xs) (hroom : xs.length + reply.length ≤ io.rb.size)
  (hk : k ≤ xs.length) (hwrap : io.rb.size ≤ io.rb.readIndex + k)

include h hroom hk hwrap

omit hroom in
/-- A read that reaches the end of the ring starts before the mirror flips. -/
theorem mirror_ne_of_wrap : io.rb.readMirror ≠ io.rb.writeMirror ∧
    io.rb.writeIndex + io.rb.size = io.rb.readIndex + xs.length := by
  have hm : io.rb.readMirror ≠ io.rb.writeMirror := by
    intro hm
    have := h.same hm; have := h.write_lt
    omega
  exact ⟨hm, h.differ hm⟩

/-- With the new read index and the old mirror the interrupt finds room as long as the
read leaves bytes behind. -/
theorem ringIsr_readIndex (hlt : k < xs.length) :
    ringIsr reply { io.rb with readIndex := io.rb.readIndex + k - io.rb.size } =
      ({ io.rb with readIndex := io.rb.readIndex + k - io.rb.size }.pushed reply,
        reply.length) := by
  have hs := h.size_le; have hl := h.length_le; have hr := h.read_lt
  obtain ⟨hm, hidx⟩ := mirror_ne_of_wrap h hk hwrap
  apply ringIsr_of_room
  · exact hs
  · exact h.write_lt
  · simp only [RingBuffer.emptyLengthOf, RingBuffer.lengthOf, ringLength, hm, if_false, sub32]
    omega
  · show reply.length ≤ io.rb.size
    omega

omit hroom in
/-- When the read empties the ring they make it look full. -/
theorem ringIsr_readIndex_full (heq : k = xs.length) :
    ringIsr reply { io.rb with readIndex := io.rb.readIndex + k - io.rb.size } =
      ({ io.rb with readIndex := io.rb.readIndex + k - io.rb.size }.pushed [], 0) := by
  have hs := h.size_le; have hl := h.length_le; have hr := h.read_lt
  obtain ⟨hm, hidx⟩ := mirror_ne_of_wrap h hk hwrap
  have hempty : RingBuffer.emptyLengthOf
      { io.rb with readIndex := io.rb.readIndex + k - io.rb.size } = 0 := by
    simp only [RingBuffer.emptyLengthOf, RingBuffer.lengthOf, ringLength, hm, if_false, sub32]
    omega
  rw [ringIsr, RingBuffer.write, ringBufferWrite_run (by exact hs) (by exact h.write_lt) (by rw [hempty]; omega),
    hempty, List.take_zero, Nat.min_zero]

/-- Both copies of the divided branch commute with the interrupt. -/
theorem ringBufferReadSides_commutes :
    (ringBufferReadSides (io.rb.size - io.rb.readIndex)
      (k - (io.rb.size - io.rb.readIndex))).Commutes (ringIsrIo reply) io := by
  have hr := h.read_lt; have hl := h.length_le
  have hisr := ringIsr_repr h hroom
  apply (commutes_load (by simp [ringIsrIo, hisr, RingBuffer.pushed])).bind
  apply Commutes.bind
  · apply ringBufferReadCopy_commutes hisr
    intro i hi
    have := h.pushed_pointer hroom (i := i) (by omega)
    rw [slot_of_lt (by omega)] at this
    exact this
  · rw [run_load, ringBufferReadCopy_run]
    apply ringBufferReadCopy_commutes (by exact hisr)
    intro i hi
    have := h.pushed_pointer hroom (i := io.rb.size - io.rb.readIndex + i) (by omega)
    rw [slot_of_ge (by omega) (by omega)] at this
    rw [show io.rb.readIndex + (io.rb.size - io.rb.readIndex + i) - io.rb.size = 0 + i by omega]
      at this
    exact this

/-- While the read leaves bytes behind every step of the divided branch commutes. -/
theorem ringBufferReadDivided_commutes (hlt : k < xs.length) :
    (ringBufferReadDivided (io.rb.size - io.rb.readIndex)
      (k - (io.rb.size - io.rb.readIndex))).Commutes (ringIsrIo reply) io := by
  have hr := h.read_lt
  have hisr := ringIsr_repr h hroom
  have hidx : k - (io.rb.size - io.rb.readIndex) = io.rb.readIndex + k - io.rb.size := by omega
  have htorn := ringIsr_readIndex h hroom hk hwrap hlt
  have hpop : ringIsr reply (io.rb.popped k) = ((io.rb.popped k).pushed reply, reply.length) :=
    ringIsr_repr (h.popped hk) (by simp; omega)
  have hstored : ({ io.rb with
      readIndex := io.rb.readIndex + k - io.rb.size
      readMirror := !io.rb.readMirror } : RingBuffer) = io.rb.popped k := by
    simp [RingBuffer.popped, not_lt.mpr hwrap]
  apply (ringBufferReadSides_commutes h hroom hk hwrap).bind
  rw [ringBufferReadSides_run]
  apply Commutes.bind
  · apply commutes_store
    simp only [ringIsrIo, hidx, htorn, hisr]
    rfl
  apply Commutes.bind
  · apply commutes_load
    simp only [run_store, ringIsrIo, hidx, htorn]
    rfl
  refine Commutes.bind (commutes_store ?_) (commutes_pure _ _)
  simp only [run_load, run_store, ringIsrIo, hidx, hstored, hpop, htorn]
  rw [← hstored]
  rfl

omit hroom hk in
/-- Between its stores the divided branch has moved the read index only. -/
theorem ringBufferReadDivided_stateAt {n : Nat} (hn : n = k + 2 ∨ n = k + 3) :
    ((ringBufferReadDivided (io.rb.size - io.rb.readIndex)
      (k - (io.rb.size - io.rb.readIndex))).stateAt n io).rb =
        { io.rb with readIndex := io.rb.readIndex + k - io.rb.size } := by
  have hr := h.read_lt
  have hlen : (ringBufferReadSides (io.rb.size - io.rb.readIndex)
      (k - (io.rb.size - io.rb.readIndex))).length io = k + 1 := by
    simp
    omega
  have hidx : k - (io.rb.size - io.rb.readIndex) = io.rb.readIndex + k - io.rb.size := by omega
  rw [ringBufferReadDivided, stateAt_bind_ge _ (by omega), hlen, ringBufferReadSides_run]
  rcases hn with rfl | rfl
  · rw [show k + 2 - (k + 1) = 0 + 1 by omega, stateAt_store_bind, stateAt_zero, hidx]
  · rw [show k + 3 - (k + 1) = 1 + 1 by omega, stateAt_store_bind, stateAt_load_bind,
      stateAt_zero, hidx]

omit hroom in
/-- Between the stores of a read that empties the ring the reply is dropped. -/
theorem ringBufferReadDivided_interruptAt_full (heq : k = xs.length) {n : Nat}
    (hn : n = k + 2 ∨ n = k + 3) :
    ((ringBufferReadDivided (io.rb.size - io.rb.readIndex)
      (k - (io.rb.size - io.rb.readIndex))).interruptAt (ringIsrIo reply) n io).2.2 = 0 := by
  have hfull : ringIsr reply _ = _ := ringIsr_readIndex_full h hk hwrap heq
  rw [← ringBufferReadDivided_stateAt h hwrap hn] at hfull
  rw [interruptAt_isr, ringIsrIo_of hfull]

end Divided

/-- The loads of the divided or straight decision commute with the interrupt. -/
theorem ringBufferReadData_interruptAt_loads (h : io.rb.Repr xs)
    (hroom : xs.length + reply.length ≤ io.rb.size) (k : Nat) {j : Nat} (hj : j ≤ 2) :
    (ringBufferReadData k).interruptAt (ringIsrIo reply) j io =
      (ringBufferReadData k).isrFirst (ringIsrIo reply) io := by
  have hisr := ringIsr_repr h hroom
  have hone : (ringBufferReadData k).interruptAt (ringIsrIo reply) 1 io =
      (ringBufferReadData k).interruptAt (ringIsrIo reply) 0 io :=
    interruptAt_load_bind_one _ _ (by rw [ringIsrIo, hisr, RingBuffer.pushed_size])
  rw [← interruptAt_zero]
  have hcases : j = 0 ∨ j = 1 ∨ j = 2 := by omega
  rcases hcases with rfl | rfl | rfl
  · rfl
  · exact hone
  · have hindex : (ringIsrIo reply io).1.rb.readIndex = io.rb.readIndex := by
      rw [ringIsrIo, hisr]
      rfl
    rw [← hone, ringBufferReadData, interruptAt_load_bind (n := 1)]
    refine (@interruptAt_load_bind_one _ _ _ _ (ringIsrIo reply)
      (fun io : RingIo => io.rb.readIndex) _ _ hindex).trans ?_
    rw [interruptAt_load_bind _ (fun io : RingIo => io.rb.size)]

theorem sub32_readIndex {rb : RingBuffer} (h : rb.Repr xs) :
    sub32 rb.size rb.readIndex = rb.size - rb.readIndex := by
  have := h.size_le; have := h.read_lt
  simp only [sub32]
  omega

/-- Behind its loads the read is one of its two branches. -/
theorem ringBufferReadData_interruptAt_branch (h : io.rb.Repr xs) {k : Nat} (n : Nat) :
    (ringBufferReadData k).interruptAt (ringIsrIo reply) (n + 2) io =
      if k < io.rb.size - io.rb.readIndex then
        (ringBufferReadStraight k).interruptAt (ringIsrIo reply) n io
      else (ringBufferReadDivided (io.rb.size - io.rb.readIndex)
        (k - (io.rb.size - io.rb.readIndex))).interruptAt (ringIsrIo reply) n io := by
  rw [ringBufferReadData, interruptAt_load_bind, interruptAt_load_bind]
  simp only [sub32_readIndex h]
  split <;> rfl

/-- Once the length is counted, a read of bytes that are there ends as if the reply came
last, unless it empties the ring and the interrupt falls between its stores. -/
theorem ringBufferReadData_interruptAt (h : io.rb.Repr xs)
    (hroom : xs.length + reply.length ≤ io.rb.size) {k : Nat} (hk : k ≤ xs.length) {j : Nat}
    (hsafe : io.rb.size ≤ io.rb.readIndex + k → j = k + 4 ∨ j = k + 5 → k ≠ xs.length) :
    (ringBufferReadData k).interruptAt (ringIsrIo reply) j io =
      ({ rb := (io.rb.popped k).pushed reply, dest := copyTo io.dest 0 (xs.take k) }, k,
        reply.length) := by
  have hs := h.size_le; have hr := h.read_lt
  have hfirst : (ringBufferReadData k).isrFirst (ringIsrIo reply) io =
      ({ rb := (io.rb.popped k).pushed reply, dest := copyTo io.dest 0 (xs.take k) }, k,
        reply.length) := by
    rw [isrFirst, ringIsrIo_repr h hroom, ringBufferReadData_pushed h hroom hk]
  by_cases hj : j ≤ 2
  · rw [ringBufferReadData_interruptAt_loads h hroom k hj, hfirst]
  obtain ⟨j, rfl⟩ : ∃ i, j = i + 2 := ⟨j - 2, by omega⟩
  have hzero := (ringBufferReadData_interruptAt_branch h 0).symm.trans
    ((ringBufferReadData_interruptAt_loads h hroom k (le_refl 2)).trans hfirst)
  rw [ringBufferReadData_interruptAt_branch h]
  by_cases hfit : k < io.rb.size - io.rb.readIndex
  · rw [if_pos hfit] at hzero ⊢
    have hcomm := ringBufferReadStraight_commutes h hroom hk (by omega)
    rw [hcomm.interruptAt, ← hcomm.interruptAt 0, hzero]
  · rw [if_neg hfit] at hzero ⊢
    have hwrap : io.rb.size ≤ io.rb.readIndex + k := by omega
    by_cases hlt : k < xs.length
    · have hcomm := ringBufferReadDivided_commutes h hroom hk hwrap hlt
      rw [hcomm.interruptAt, ← hcomm.interruptAt 0, hzero]
    have hpoints : j ≤ k + 1 ∨ k + 4 ≤ j := by
      have := hsafe hwrap
      omega
    rcases hpoints with hj' | hj'
    · have hcomm := ringBufferReadSides_commutes h hroom hk hwrap
      rw [ringBufferReadDivided, interruptAt_zero] at hzero
      rw [ringBufferReadDivided, hcomm.interruptAt_bind _ (by simp; omega),
        hzero]
    · have hrun := ringBufferReadData_run h hk
      simp only [ringBufferReadData, run_bind, run_load, sub32_readIndex h, if_neg hfit] at hrun
      have hpop : ringIsr reply (io.rb.popped k) = ((io.rb.popped k).pushed reply, reply.length) :=
        ringIsr_repr (h.popped hk) (by simp; omega)
      rw [interruptAt_of_length_le _ (by simp [ringBufferReadDivided]; omega), isrLast, hrun]
      simp only [ringIsrIo, hpop]

/-! ## The interrupted read -/

/-- From the load of `writeIndex` on the interrupt comes last. -/
theorem ringBufferRead_interruptAt_late (h : io.rb.Repr xs)
    (hroom : xs.length + reply.length ≤ io.rb.size) {n : Nat} (hn : 4 ≤ n)
    (hsafe : io.rb.size ≤ io.rb.readIndex + min R xs.length →
      n = min R xs.length + 9 ∨ n = min R xs.length + 10 → min R xs.length ≠ xs.length) :
    (ringBufferRead R).interruptAt (ringIsrIo reply) n io =
      (ringBufferRead R).isrLast (ringIsrIo reply) io := by
  have hk := min_le_right R xs.length
  have hpush : ({ io with rb := io.rb.pushed reply } : RingIo).rb.Repr (xs ++ reply) :=
    h.pushed hroom
  rw [ringBufferRead_isrLast h hroom]
  by_cases h5 : n ≤ 4
  · obtain ⟨size, hsize, hrun⟩ := ringBufferRead_interruptAt_loads (R := R) h hroom
      (show n ≤ 5 by omega)
    rw [if_neg (by omega), if_neg (by omega), h.lengthOf] at hsize
    rw [hrun, hsize, ringBufferRead_counted hpush (by rw [List.length_append]; omega),
      pushed_popped, List.take_append_of_le_length hk]
  · rw [ringBufferRead, interruptAt_bind_ge _ _ (by simp; omega)]
    simp only [run_focus, length_focus, ringBufferGetLength_run, ringBufferGetLength_length,
      RingIo.ring, h.lengthOf]
    by_cases h0 : xs.length = 0
    · simp [h0, ringIsrIo_repr h hroom, RingBuffer.popped, h.read_lt]
    · rw [if_neg h0, ringBufferReadData_interruptAt h hroom hk]
      intro hwrap hpoint
      exact hsafe hwrap (by omega)

/-- The length that an interrupted sequence of loads computes is all the read returns. -/
theorem ringBufferRead_interruptAt_result (h : io.rb.Repr xs)
    (hroom : xs.length + reply.length ≤ io.rb.size) {n : Nat} (hn : n = 2 ∨ n = 3) :
    ((ringBufferRead R).interruptAt (ringIsrIo reply) n io).2.1 =
      min R { io.rb.pushed reply with writeMirror := io.rb.writeMirror }.lengthOf := by
  obtain ⟨size, hsize, hrun⟩ := ringBufferRead_interruptAt_loads (R := R) h hroom
    (show n ≤ 5 by omega)
  rw [if_neg (by omega), if_pos (by omega)] at hsize
  rw [hrun, ← hsize]
  by_cases h0 : size = 0
  · simp [h0]
  · rw [if_neg h0, ringBufferReadData_result]

section Outcome

variable (h : io.rb.Repr xs) (hR : R ≤ 2147483648)
  (hroom : xs.length + reply.length ≤ io.rb.size)

include h hR hroom

theorem ringBufferRead_serial {n : Nat}
    (hn : io.rb.ReadSafe xs.length R reply.length n) :
    (ringBufferRead R).Serial (ringIsrIo reply) RingIo.Same n io := by
  obtain ⟨hloads, hstores⟩ := hn
  have hpush : ({ io with rb := io.rb.pushed reply } : RingIo).rb.Repr (xs ++ reply) :=
    h.pushed hroom
  by_cases h4 : 4 ≤ n
  · apply Serial.of_last (ringBufferRead_interruptAt_late h hroom h4 hstores)
    rw [ringBufferRead_isrLast h hroom]
    exact ⟨((h.popped (min_le_right _ _)).pushed (by simp; omega)).same_self, rfl⟩
  · refine Serial.of_first ?_ ?_
    · obtain ⟨size, hsize, hrun⟩ := ringBufferRead_interruptAt_loads (R := R) h hroom
        (show n ≤ 5 by omega)
      have hnew : (io.rb.pushed reply).lengthOf = xs.length + reply.length := by
        rw [(h.pushed hroom).lengthOf, List.length_append]
      have hmin : min R size = min R (xs.length + reply.length) := by
        obtain ⟨htorn, -, hhuge⟩ := lengthOf_torn h hroom
        by_cases h1 : n ≤ 1
        · rw [hsize, if_pos h1, hnew]
        · rw [if_neg h1, if_pos (by omega)] at hsize
          rcases hloads (by omega) with hlt | ⟨hle, hfull⟩
          · rw [hsize, htorn hlt]
          · by_cases hlt : io.rb.writeIndex + reply.length < io.rb.size
            · rw [hsize, htorn hlt]
            · have := hhuge (by omega) hfull
              omega
      rw [hrun, ringBufferRead_isrFirst h hroom,
        ringBufferRead_counted hpush (by rw [hmin, List.length_append]; omega), hmin]
    · rw [ringBufferRead_isrFirst h hroom]
      refine ⟨((h.pushed hroom).popped ?_).same_self, rfl⟩
      rw [List.length_append]
      exact min_le_right _ _

/-- Every other point makes the read return a wrong length or the reply vanish. -/
theorem ringBufferRead_not_serial (hpos : 0 < R) (hreply : reply ≠ [])
    (hM : reply.length < io.rb.size) {n : Nat}
    (hn : ¬ io.rb.ReadSafe xs.length R reply.length n) :
    ¬ (ringBufferRead R).Serial (ringIsrIo reply) RingIo.Same n io := by
  have hreply' : 0 < reply.length := List.length_pos_iff.mpr hreply
  have hr := h.read_lt
  rw [Serial, ringBufferRead_isrFirst h hroom, ringBufferRead_isrLast h hroom]
  simp only [RingBuffer.ReadSafe, not_and_or, Classical.not_imp, ne_eq, not_not] at hn
  rcases hn with ⟨hpoint, hunsafe⟩ | ⟨hwrap, hpoint, hempty⟩
  -- The read returns the wrong length.
  · obtain ⟨-, hnone, hhuge⟩ := lengthOf_torn h hroom
    have hresult := ringBufferRead_interruptAt_result (R := R) h hroom hpoint
    have hwrong : min R { io.rb.pushed reply with writeMirror := io.rb.writeMirror }.lengthOf ≠
          min R (xs.length + reply.length) ∧
        min R { io.rb.pushed reply with writeMirror := io.rb.writeMirror }.lengthOf ≠
          min R xs.length := by
      by_cases hfull : xs.length + reply.length = io.rb.size
      · rw [hnone (by omega) hfull]
        omega
      · have := hhuge (by omega) (by omega)
        omega
    rw [← hresult] at hwrong
    rintro (⟨-, hs⟩ | ⟨-, hs⟩)
    · exact hwrong.1 (congrArg Prod.fst hs)
    · exact hwrong.2 (congrArg Prod.fst hs)
  -- The interrupt returns zero.
  · have hdropped : ((ringBufferRead R).interruptAt (ringIsrIo reply) n io).2.2 = 0 := by
      have hfit : ¬ min R xs.length < io.rb.size - io.rb.readIndex := by omega
      obtain ⟨n, rfl⟩ : ∃ m, n = m + 7 := ⟨n - 7, by omega⟩
      rw [ringBufferRead, interruptAt_bind_ge _ _ (by simp)]
      simp only [run_focus, length_focus, ringBufferGetLength_run, ringBufferGetLength_length,
        RingIo.ring, h.lengthOf]
      rw [if_neg (by omega), show n + 7 - 5 = n + 2 by omega,
        ringBufferReadData_interruptAt_branch h, if_neg hfit]
      exact ringBufferReadDivided_interruptAt_full h (min_le_right _ _) hwrap hempty (by omega)
    rintro (⟨-, hs⟩ | ⟨-, hs⟩)
    all_goals
      have hzero : reply.length = 0 := (congrArg Prod.snd hs).symm.trans hdropped
      omega

end Outcome

/-- The safe points are exactly those at which the interrupted read is serial. -/
theorem ringBufferRead_serial_iff (h : io.rb.Repr xs) (hpos : 0 < R) (hR : R ≤ 2147483648)
    (hreply : reply ≠ []) (hM : reply.length < io.rb.size)
    (hroom : xs.length + reply.length ≤ io.rb.size) (n : Nat) :
    (ringBufferRead R).Serial (ringIsrIo reply) RingIo.Same n io ↔
      io.rb.ReadSafe xs.length R reply.length n := by
  constructor
  · intro hs
    by_contra hn
    exact ringBufferRead_not_serial h hR hroom hpos hreply hM hn hs
  · exact ringBufferRead_serial h hR hroom

end Read
