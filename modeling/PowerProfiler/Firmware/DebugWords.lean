-- SUMMARY: The debug command as a word memory: what a write stores, what it leaves alone, and what a read brings back.
import PowerProfiler.Firmware.Requests

/-!
# The debug command

`CMD_DEV_DBG` writes the words of its payload from an aligned address on and then reads
back. The words of one request never meet again around the address space, so each keeps
the bytes it was sent as.
-/

open Framing

/-- The address of the word with this number, counted from `base`. -/
def wordAddr (base : UInt32) (i : Nat) : UInt32 := base + 4 * UInt32.ofNat i

/-- The bytes of a word among the bytes of the payload. -/
def wordBytes (data : List UInt8) (i : Nat) : List UInt8 := (data.drop (4 * i)).take 4

/-! ## Addresses -/

theorem wordAddr_zero (base : UInt32) : wordAddr base 0 = base := by
  unfold wordAddr
  simp

theorem wordAddr_succ (base : UInt32) (i : Nat) :
    wordAddr base (i + 1) = wordAddr (base + 4) i := by
  unfold wordAddr
  rw [UInt32.ofNat_add, UInt32.mul_add, UInt32.add_assoc, UInt32.add_comm _ (4 * UInt32.ofNat 1)]
  rfl

/-- Fewer words than the address space has do not meet. -/
theorem wordAddr_inj {base : UInt32} {i j : Nat} (hi : i < 2 ^ 30) (hj : j < 2 ^ 30)
    (h : wordAddr base i = wordAddr base j) : i = j := by
  unfold wordAddr at h
  rw [UInt32.add_right_inj, ← UInt32.toNat_inj] at h
  simp only [UInt32.toNat_mul, UInt32.toNat_ofNat, UInt32.toNat_ofNat'] at h
  omega

/-! ## Writing -/

/-- Four bytes at the head of the payload are the first word. -/
theorem writeWords_cons (memory : UInt32 → UInt32) (addr : UInt32) (b0 b1 b2 b3 : UInt8)
    (rest : List UInt8) :
    writeWords memory addr (b0 :: b1 :: b2 :: b3 :: rest) =
      writeWords (Function.update memory addr (u32OfBytes b0 b1 b2 b3)) (addr + 4) rest := by
  rw [writeWords]

/-- Fewer than four bytes are no word. -/
theorem writeWords_short (memory : UInt32 → UInt32) (addr : UInt32) {rest : List UInt8}
    (h : rest.length ≤ 3) : writeWords memory addr rest = memory := by
  match rest, h with
  | [], _ => rfl
  | [_], _ => rfl
  | [_, _], _ => rfl
  | [_, _, _], _ => rfl

/-- A write leaves every other word alone. -/
theorem writeWords_frame {n : Nat} {data rest : List UInt8} (hdata : data.length = 4 * n)
    (hrest : rest.length ≤ 3) {memory : UInt32 → UInt32} {addr x : UInt32}
    (hx : ∀ i < n, x ≠ wordAddr addr i) : writeWords memory addr (data ++ rest) x = memory x := by
  induction n generalizing data memory addr with
  | zero =>
      obtain rfl := List.eq_nil_of_length_eq_zero hdata
      rw [List.nil_append, writeWords_short _ _ hrest]
  | succ n ih =>
      match data, hdata with
      | b0 :: b1 :: b2 :: b3 :: data, hdata =>
          have hlen : data.length = 4 * n := by
            simp only [List.length_cons] at hdata
            omega
          have hfirst : x ≠ addr := by
            rw [← wordAddr_zero addr]
            exact hx 0 n.succ_pos
          have htail : ∀ i < n, x ≠ wordAddr (addr + 4) i := by
            intro i hi
            rw [← wordAddr_succ]
            exact hx (i + 1) (Nat.succ_lt_succ hi)
          rw [List.cons_append, List.cons_append, List.cons_append, List.cons_append,
            writeWords_cons, ih hlen htail, Function.update_of_ne hfirst]

/-- Each word holds its four bytes of the payload. -/
theorem writeWords_get {n : Nat} {data rest : List UInt8} (hdata : data.length = 4 * n)
    (hrest : rest.length ≤ 3) (hn : n < 2 ^ 30) (memory : UInt32 → UInt32) (addr : UInt32)
    {i : Nat} (hi : i < n) :
    u32Bytes (writeWords memory addr (data ++ rest) (wordAddr addr i)) = wordBytes data i := by
  induction n generalizing data memory addr i with
  | zero => cases hi
  | succ n ih =>
      match data, hdata with
      | b0 :: b1 :: b2 :: b3 :: data, hdata =>
          have hlen : data.length = 4 * n := by
            simp only [List.length_cons] at hdata
            omega
          rw [List.cons_append, List.cons_append, List.cons_append, List.cons_append,
            writeWords_cons]
          cases i with
          | zero =>
              -- The later words lie elsewhere.
              have hlater : ∀ j < n, addr ≠ wordAddr (addr + 4) j := by
                intro j hj heq
                have hzero : wordAddr addr 0 = wordAddr addr (j + 1) := by
                  rw [wordAddr_zero, wordAddr_succ, ← heq]
                have hindex := wordAddr_inj (by decide) (by omega) hzero
                omega
              rw [wordAddr_zero, writeWords_frame hlen hrest hlater, Function.update_self,
                u32Bytes_u32OfBytes]
              rfl
          | succ i =>
              rw [wordAddr_succ, ih hlen (by omega) _ _ (Nat.lt_of_succ_lt_succ hi)]
              unfold wordBytes
              rw [Nat.mul_succ]
              rfl

/-! ## Reading -/

theorem readWords_eq (memory : UInt32 → UInt32) (addr : UInt32) (cnt : Nat) :
    readWords memory addr cnt =
      (List.range cnt).flatMap fun i => u32Bytes (memory (wordAddr addr i)) := by
  induction cnt generalizing addr with
  | zero => rfl
  | succ cnt ih =>
      rw [readWords, ih, List.range_succ_eq_map, List.flatMap_cons, List.flatMap_map, wordAddr_zero]
      simp only [wordAddr_succ]

/-- The words of the payload one behind the other are the payload. -/
theorem flatMap_wordBytes {n : Nat} {data : List UInt8} (hdata : data.length = 4 * n) :
    (List.range n).flatMap (wordBytes data) = data := by
  induction n generalizing data with
  | zero => exact (List.eq_nil_of_length_eq_zero hdata).symm
  | succ n ih =>
      have hdrop : (data.drop 4).length = 4 * n := by
        rw [List.length_drop]
        omega
      have hnext : ∀ i, wordBytes data (i + 1) = wordBytes (data.drop 4) i := by
        intro i
        unfold wordBytes
        rw [List.drop_drop, Nat.mul_succ, Nat.add_comm]
      rw [List.range_succ_eq_map, List.flatMap_cons, List.flatMap_map]
      simp only [hnext]
      rw [ih hdrop]
      exact List.take_append_drop 4 data

/-! ## Requests -/

theorem u16Bytes_toNat (m : UInt16) :
    m.toUInt8.toNat + 256 * (m >>> 8).toUInt8.toNat = m.toNat := by
  have h := m.toNat_lt
  simp [UInt16.toNat_shiftRight, Nat.shiftRight_eq_div_pow]
  omega

/-- The debug command with its count and address put together again. -/
theorem cmdDecode_dbg {req : Frame} (hcmd : req.cmd = cmdDevDbg) {m : UInt16} {a : UInt32}
    {words : List UInt8} (hpay : req.payload = u16Bytes m ++ u32Bytes a ++ words) (d : Device) :
    (cmdDecode req d).1 =
        { d with memory := writeWords d.memory (a &&& 0xfffffffc) words } ∧
      (cmdDecode req d).2.cmd = cmdDevDbg ∧
      (cmdDecode req d).2.payload =
        readWords (writeWords d.memory (a &&& 0xfffffffc) words) (a &&& 0xfffffffc)
          (min m.toNat maxReadWords) := by
  have hdecode : cmdDecode req d = cmdDbg req.cmd req.payload d := by
    rw [cmdDecode, hcmd, if_neg (by decide), if_neg (by decide), if_neg (by decide), if_pos rfl]
  have haddr : u32OfBytes a.toUInt8 (a >>> 8).toUInt8 (a >>> 16).toUInt8 (a >>> 24).toUInt8 = a :=
    u32OfBytes_u32Bytes a
  rw [hdecode, hpay, hcmd]
  show _ ∧ _ ∧ _
  simp only [u16Bytes, u32Bytes, List.cons_append, List.nil_append, cmdDbg, haddr, dataReply,
    u16Bytes_toNat, and_self]

/-- A request that writes `n` words and asks for as many answers with their bytes, stores
them from the aligned address on and touches nothing else; a later request that only asks
answers with the words that are there and changes nothing. -/
theorem debug_roundTrip (a : UInt32) {n : Nat} (hn : n ≤ 56) {data rest : List UInt8}
    (hdata : data.length = 4 * n) (hrest : rest.length ≤ 3) {req : Frame}
    (hcmd : req.cmd = cmdDevDbg)
    (hpay : req.payload = u16Bytes (UInt16.ofNat n) ++ u32Bytes a ++ (data ++ rest)) (d : Device) :
    let base := a &&& 0xfffffffc
    let memory := (cmdDecode req d).1.memory
    (cmdDecode req d).2.cmd = cmdDevDbg ∧
      (cmdDecode req d).2.payload = data ∧
      (cmdDecode req d).1 = { d with memory := memory } ∧
      (∀ i < n, u32Bytes (memory (wordAddr base i)) = wordBytes data i) ∧
      (∀ x, (∀ i < n, x ≠ wordAddr base i) → memory x = d.memory x) ∧
      ∀ (later : Frame) (m : UInt16) (d' : Device), later.cmd = cmdDevDbg →
        later.payload = u16Bytes m ++ u32Bytes a →
        (cmdDecode later d').1 = d' ∧
          (cmdDecode later d').2.payload =
            (List.range (min m.toNat 58)).flatMap fun i => u32Bytes (d'.memory (wordAddr base i)) := by
  obtain ⟨hdev, hreplyCmd, hreply⟩ := cmdDecode_dbg hcmd hpay d
  have hsmall : n < 2 ^ 30 := by omega
  have hcount : min (UInt16.ofNat n).toNat maxReadWords = n := by
    simp only [UInt16.toNat_ofNat', maxReadWords]
    omega
  have hget := fun (i : Nat) (hi : i < n) =>
    writeWords_get hdata hrest hsmall d.memory (a &&& 0xfffffffc) hi
  intro base memory
  have hmemory : memory = writeWords d.memory base (data ++ rest) := by
    show (cmdDecode req d).1.memory = _
    rw [hdev]
  refine ⟨hreplyCmd, ?_, ?_, ?_, ?_, ?_⟩
  · rw [hreply, hcount, readWords_eq]
    have hbytes : (List.range n).flatMap (fun i => u32Bytes (writeWords d.memory
        (a &&& 0xfffffffc) (data ++ rest) (wordAddr (a &&& 0xfffffffc) i))) =
          (List.range n).flatMap (wordBytes data) := by
      rw [List.flatMap_def, List.flatMap_def]
      exact congrArg List.flatten
        (List.map_congr_left fun i hi => hget i (List.mem_range.mp hi))
    rw [hbytes, flatMap_wordBytes hdata]
  · rw [hmemory, hdev]
  · intro i hi
    rw [hmemory]
    exact hget i hi
  · intro x hx
    rw [hmemory]
    exact writeWords_frame hdata hrest hx
  · intro later m d' hlater hlaterPay
    obtain ⟨hdev', -, hreply'⟩ := cmdDecode_dbg hlater
      (hlaterPay.trans (List.append_nil _).symm) d'
    have hnone : writeWords d'.memory (a &&& 0xfffffffc) [] = d'.memory := rfl
    rw [hnone] at hdev' hreply'
    exact ⟨hdev', hreply'.trans (readWords_eq _ _ _)⟩

/-- The request that writes one word, with a byte behind it. -/
def wordRequest : Frame where
  cmd := cmdDevDbg
  payload := u16Bytes 1 ++ u32Bytes 0x42000002 ++ ([1, 2, 3, 4] ++ [9])
  fits := by decide

theorem debug_roundTrip_word :
    let base := (0x42000002 : UInt32) &&& 0xfffffffc
    let memory := (cmdDecode wordRequest (Device.boot fun _ => 0)).1.memory
    (cmdDecode wordRequest (Device.boot fun _ => 0)).2.cmd = cmdDevDbg ∧
      (cmdDecode wordRequest (Device.boot fun _ => 0)).2.payload = [1, 2, 3, 4] ∧
      (cmdDecode wordRequest (Device.boot fun _ => 0)).1 =
        { Device.boot fun _ => 0 with memory := memory } ∧
      (∀ i < 1, u32Bytes (memory (wordAddr base i)) = wordBytes [1, 2, 3, 4] i) ∧
      (∀ x, (∀ i < 1, x ≠ wordAddr base i) → memory x = (Device.boot fun _ => 0).memory x) ∧
      ∀ (later : Frame) (m : UInt16) (d' : Device), later.cmd = cmdDevDbg →
        later.payload = u16Bytes m ++ u32Bytes 0x42000002 →
        (cmdDecode later d').1 = d' ∧
          (cmdDecode later d').2.payload =
            (List.range (min m.toNat 58)).flatMap fun i =>
              u32Bytes (d'.memory (wordAddr base i)) :=
  @debug_roundTrip 0x42000002 1 (by decide) [1, 2, 3, 4] [9] rfl (by decide) wordRequest rfl rfl
    (Device.boot fun _ => 0)
