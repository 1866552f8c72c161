-- SUMMARY: Chunks that do not fit behind the unfinished frame: the bound on what an idle parser carries over, and when a chunk overflows bufcom.
import PowerProfiler.Host.Effects

/-!
# The size of the accumulator

A parser that awaits nothing carries over at most the first 233 bytes of a frame of 234.
One chunk length does not fit behind that: the largest one.
-/

open Framing Runs

namespace Host

/-! ## Calls with a chunk -/

/-- One call that receives a chunk. -/
def chunkStep (chunk : Chunk) (h : Host) : Host := (h.queryPort none (some chunk)).1

/-- The frames that it dispatches. -/
def chunkFrames (chunk : Chunk) (h : Host) : List Frame := (h.queryPort none (some chunk)).2

/-- The overflow branch of the call. -/
def Discards (chunk : Chunk) (h : Host) : Prop := h.purge.Overflows chunk

/-- What lies behind a call in which the wait does not give up. -/
structure ChunkCall (chunk : Chunk) (h : Host) : Prop where
  dispatched : chunkFrames chunk h = frames (h.purge.base chunk) chunk.1
  pend : (chunkStep chunk h).pend = kept (h.purge.base chunk) chunk.1
  samples : ((chunkStep chunk h).bufsmp, (chunkStep chunk h).ismptx) =
    storeAll h.workAdc h.samplesEna (frames (h.purge.base chunk) chunk.1)
      (h.bufsmp, h.purge.ismptx)
  workAdc : (chunkStep chunk h).workAdc = h.workAdc
  samplesEna : (chunkStep chunk h).samplesEna = h.samplesEna
  purgeCom : (chunkStep chunk h).purgeCom = false

/-- The parts of a call before the read. -/
theorem queryPort_chunk (written : Option Nat) (chunk : Chunk) (h : Host) : ∃ errtx lentx,
    h.queryPort written (some chunk) =
      ({ h.purge with errtx := errtx, lentx := lentx } : Host).receive chunk := by
  have hbefore : ∃ errtx lentx,
      h.purge.writeCommand written = { h.purge with errtx := errtx, lentx := lentx } := by
    unfold writeCommand
    split
    · exact ⟨_, _, rfl⟩
    · exact ⟨_, _, rfl⟩
  obtain ⟨errtx, lentx, hbefore⟩ := hbefore
  refine ⟨errtx, lentx, ?_⟩
  unfold queryPort
  rw [hbefore]

theorem purge_settings (h : Host) : h.purge.workAdc = h.workAdc ∧
    h.purge.samplesEna = h.samplesEna ∧ h.purge.purgeCom = false ∧
    h.purge.bufsmp = h.bufsmp ∧ h.purge.waitCnt = h.waitCnt ∧ h.purge.waitId = h.waitId := by
  unfold purge
  split
  · exact ⟨rfl, rfl, rfl, rfl, rfl, rfl⟩
  next hoff => exact ⟨rfl, rfl, by simpa using hoff, rfl, rfl, rfl⟩

theorem chunkStep_stays {chunk : Chunk} {h : Host} (hne : chunk.1 ≠ [])
    (hstay : givesUp h.workAdc h.waitId h.waitCnt (frames (h.purge.base chunk) chunk.1) = false) :
    ChunkCall chunk h := by
  obtain ⟨errtx, lentx, hcall⟩ := queryPort_chunk none chunk h
  obtain ⟨hwork, hena, hpurge, hsmp, hcnt, hid⟩ := purge_settings h
  rw [← hwork, ← hcnt, ← hid] at hstay
  obtain ⟨hout, hpend, hsamples, hset⟩ :=
    receive_stays { h.purge with errtx := errtx, lentx := lentx } hne hstay
  refine ⟨?_, ?_, ?_, ?_, ?_, ?_⟩
  · unfold chunkFrames
    rw [hcall]
    exact hout
  · unfold chunkStep
    rw [hcall]
    exact hpend
  · unfold chunkStep
    rw [hcall, ← hwork, ← hena, ← hsmp]
    exact hsamples
  · unfold chunkStep
    rw [hcall]
    exact hset.workAdc.trans hwork
  · unfold chunkStep
    rw [hcall]
    exact hset.samplesEna.trans hena
  · unfold chunkStep
    rw [hcall]
    exact hset.purgeCom.trans hpurge

/-- The call that awaits nothing. -/
theorem chunkStep_idle {chunk : Chunk} {h : Host} (hne : chunk.1 ≠ []) (hidle : h.waitCnt = 0) :
    ChunkCall chunk h ∧ (chunkStep chunk h).waitCnt = 0 := by
  refine ⟨chunkStep_stays hne (by rw [hidle]; exact givesUp_zero _ _ _), ?_⟩
  obtain ⟨errtx, lentx, hcall⟩ := queryPort_chunk none chunk h
  obtain ⟨-, -, -, -, hcnt, -⟩ := purge_settings h
  unfold chunkStep
  rw [hcall]
  exact (receive_idle { h.purge with errtx := errtx, lentx := lentx } hne (hcnt.trans hidle)).2

/-- An empty chunk is nothing. -/
theorem chunkStep_empty {chunk : Chunk} (h : Host) (hempty : chunk.1 = []) :
    ∃ errtx lentx, chunkStep chunk h = { h.purge with errtx := errtx, lentx := lentx } := by
  obtain ⟨errtx, lentx, hcall⟩ := queryPort_chunk none chunk h
  refine ⟨errtx, lentx, ?_⟩
  unfold chunkStep
  rw [hcall]
  simp [receive, hempty]

/-! ## What is carried over -/

/-- What `consume` leaves is the front of a frame that the protocol allows. -/
theorem consume_rest (bs : List UInt8) (hhead : (bs.headD 0).toNat ≤ maxBlkCnt) :
    Incomplete (consume bs).2 ∧ ((consume bs).2.headD 0).toNat ≤ maxBlkCnt := by
  induction bs using consume.induct with
  | case1 size cmd rest hsize hbig =>
      rw [consume, if_pos hsize, if_pos hbig]
      exact ⟨incomplete_nil, Nat.zero_le _⟩
  | case2 size cmd rest hsize hsmall ih =>
      rw [consume, if_pos hsize, if_neg hsmall]
      exact ih (not_lt.mp hsmall)
  | case3 size cmd rest hsize =>
      rw [consume, if_neg hsize]
      exact ⟨not_le.mp hsize, hhead⟩
  | case4 bs hbs =>
      have hinc : Incomplete bs := incomplete_of_no_head hbs
      rw [consume_incomplete hinc]
      exact ⟨hinc, hhead⟩

/-- The largest fill level that a call of an idle parser leaves. -/
def maxCarry : Nat := maxBlkCnt + 1

theorem length_le_maxCarry {bs : List UInt8} (hinc : Incomplete bs)
    (hhead : (bs.headD 0).toNat ≤ maxBlkCnt) : bs.length ≤ maxCarry := by
  cases bs with
  | nil => exact Nat.zero_le _
  | cons size rest =>
      have hlt := hinc.length_lt
      have hsize : size.toNat ≤ maxBlkCnt := hhead
      simp only [maxCarry]
      omega

theorem length_kept {pend chunk : List UInt8} (hpend : pend.length ≤ maxCarry) :
    (kept pend chunk).length ≤ maxCarry := by
  rw [kept]
  split
  · exact Nat.zero_le _
  next hhead =>
    split
    · exact hpend
    · obtain ⟨hinc, hhead'⟩ := consume_rest (pend ++ chunk) (not_lt.mp hhead)
      exact length_le_maxCarry hinc hhead'

/-- Nothing is awaited, and at most the front of one frame is carried over. -/
structure Idle (h : Host) : Prop where
  waitCnt : h.waitCnt = 0
  idxBufcom : h.idxBufcom ≤ maxCarry

theorem Idle.purge {h : Host} (hidle : Idle h) : Idle h.purge := by
  unfold Host.purge
  split
  · exact ⟨hidle.waitCnt, Nat.zero_le _⟩
  · exact hidle

theorem Idle.chunkStep {chunk : Chunk} {h : Host} (hidle : Idle h) : Idle (chunkStep chunk h) := by
  by_cases hne : chunk.1 = []
  · obtain ⟨_, _, heq⟩ := chunkStep_empty h hne
    rw [heq]
    exact ⟨hidle.purge.waitCnt, hidle.purge.idxBufcom⟩
  · obtain ⟨hcall, hwait⟩ := chunkStep_idle hne hidle.waitCnt
    refine ⟨hwait, ?_⟩
    rw [← length_pend, hcall.pend]
    apply length_kept
    rw [base]
    split
    · exact Nat.zero_le _
    · rw [length_pend]
      exact hidle.purge.idxBufcom

/-! ## Overflow -/

/-- The largest chunk arrives behind the largest unfinished frame. -/
def FullOnFull (chunk : Chunk) (h : Host) : Prop :=
  h.purge.idxBufcom = maxCarry ∧ chunk.1.length = buffSize

theorem Idle.discards_iff {chunk : Chunk} {h : Host} (hidle : Idle h) :
    Discards chunk h ↔ FullOnFull chunk h := by
  have hidx := hidle.purge.idxBufcom
  have hchunk := chunk.2
  simp only [Discards, Overflows, FullOnFull, bufcomSize, comBufCnt, maxCarry, buffSize,
    maxBlkCnt] at hidx hchunk ⊢
  omega

/-- Over chunks of any stream, the parser that awaits nothing discards no byte by the
overflow branch exactly when no largest chunk arrives behind a frame of which only the
last byte is missing. -/
theorem noOverflow_iff (h : Host) (chunks : List Chunk) (hidx : h.idxBufcom = 0)
    (hwait : h.waitCnt = 0) :
    Along chunkStep (fun chunk h => ¬ Discards chunk h) chunks h ↔
      Along chunkStep (fun chunk h => ¬ FullOnFull chunk h) chunks h := by
  have hidle : Idle h := ⟨hwait, hidx.trans_le (Nat.zero_le _)⟩
  clear hidx hwait
  induction chunks generalizing h with
  | nil => exact Iff.rfl
  | cons chunk chunks ih =>
      rw [along_cons, along_cons]
      exact and_congr (not_congr hidle.discards_iff) (ih _ hidle.chunkStep)

/-! ## A valid stream that overflows -/

/-- A frame of no payload. -/
def emptyFrame : Frame := ⟨cmdDevAdc, [], fits_nil⟩

/-- The largest frame of the protocol. -/
def largestFrame : Frame :=
  ⟨cmdDevAdc, List.replicate maxBlkCnt 0, by rw [List.length_replicate]; decide⟩

theorem length_largestFrame : largestFrame.payload.length = maxBlkCnt := List.length_replicate

/-- A chunk of 235 bytes that ends one byte before the end of the largest frame. -/
def fillingChunk : Chunk :=
  ⟨emptyFrame.bytes ++ largestFrame.bytes.take maxCarry, by
    have hlen : emptyFrame.bytes.length = 2 := rfl
    rw [List.length_append, List.length_take, hlen]
    exact Nat.add_le_add_left (Nat.min_le_left _ _) 2⟩

/-- The missing byte, and another largest frame. -/
def overflowingChunk : Chunk :=
  ⟨largestFrame.bytes.drop maxCarry ++ largestFrame.bytes, by
    rw [List.length_append, List.length_drop, Frame.length_bytes, length_largestFrame]
    decide⟩

theorem noOverflow_iff_fillingChunk :
    Along chunkStep (fun chunk h => ¬ Discards chunk h) [fillingChunk, overflowingChunk] {} ↔
      Along chunkStep (fun chunk h => ¬ FullOnFull chunk h) [fillingChunk, overflowingChunk] {} :=
  noOverflow_iff {} [fillingChunk, overflowingChunk] rfl rfl

theorem length_overflowingChunk : overflowingChunk.1.length = buffSize := by
  have heq : overflowingChunk.1 = largestFrame.bytes.drop maxCarry ++ largestFrame.bytes := rfl
  rw [heq, List.length_append, List.length_drop, Frame.length_bytes, length_largestFrame]
  rfl

theorem kept_fillingChunk : kept [] fillingChunk.1 = largestFrame.bytes.take maxCarry := by
  have hinc : Incomplete (largestFrame.bytes.take maxCarry) := by
    have htake : largestFrame.bytes.take maxCarry =
        largestFrame.size :: largestFrame.cmd :: largestFrame.payload.take (maxBlkCnt - 1) := rfl
    rw [htake]
    show (largestFrame.payload.take (maxBlkCnt - 1)).length < largestFrame.size.toNat
    rw [Frame.toNat_size, List.length_take, length_largestFrame]
    decide
  have hhead : ¬ maxBlkCnt < ((largestFrame.bytes.take maxCarry).headD 0).toNat := by
    show ¬ maxBlkCnt < largestFrame.size.toNat
    rw [Frame.toNat_size, length_largestFrame]
    exact lt_irrefl _
  have hconsume : consume fillingChunk.1 = ([emptyFrame], largestFrame.bytes.take maxCarry) := by
    have happend := consume_bytes_append emptyFrame (largestFrame.bytes.take maxCarry)
    rw [if_neg hhead, consume_incomplete hinc] at happend
    exact happend
  have hhead' : ¬ maxBlkCnt < (fillingChunk.1.headD 0).toNat := by
    show ¬ maxBlkCnt < emptyFrame.size.toNat
    decide
  rw [kept, List.nil_append, if_neg hhead', hconsume, if_neg (List.cons_ne_nil _ _)]

theorem fullOnFull_reached :
    FullOnFull overflowingChunk (run chunkStep [fillingChunk] ({} : Host)) := by
  have hne : fillingChunk.1 ≠ [] := List.cons_ne_nil _ _
  obtain ⟨hcall, -⟩ := @chunkStep_idle fillingChunk {} hne rfl
  have hlen := congrArg List.length hcall.pend
  rw [base_of_empty rfl, kept_fillingChunk, length_pend, List.length_take, Frame.length_bytes,
    length_largestFrame] at hlen
  refine ⟨?_, length_overflowingChunk⟩
  rw [run_cons, run_nil, purge_of_off hcall.purgeCom, hlen]
  rfl

theorem validStream_overflows :
    ¬ ∀ (fs : List Frame) (chunks : List Chunk) (h : Host),
      (∀ f ∈ fs, f.payload.length ≤ maxBlkCnt) → (chunks.map Subtype.val).flatten = stream fs →
      h.idxBufcom = 0 → h.waitCnt = 0 →
      Along chunkStep (fun chunk h => ¬ Discards chunk h) chunks h := by
  intro hall
  have hsizes : ∀ f ∈ [emptyFrame, largestFrame, largestFrame], f.payload.length ≤ maxBlkCnt := by
    intro f hf
    rcases List.mem_cons.mp hf with rfl | hf
    · exact Nat.zero_le _
    · have : f = largestFrame := by simpa using hf
      rw [this, length_largestFrame]
  have hstream : ([fillingChunk, overflowingChunk].map Subtype.val).flatten =
      stream [emptyFrame, largestFrame, largestFrame] := by
    have hfill : fillingChunk.1 = emptyFrame.bytes ++ largestFrame.bytes.take maxCarry := rfl
    have hover : overflowingChunk.1 = largestFrame.bytes.drop maxCarry ++ largestFrame.bytes := rfl
    rw [List.map_cons, List.map_cons, List.map_nil, List.flatten_cons, List.flatten_cons, hfill,
      hover, List.append_assoc, ← List.append_assoc (largestFrame.bytes.take maxCarry),
      ← List.append_assoc (largestFrame.bytes.take maxCarry), List.take_append_drop]
    simp
  have hno := hall _ [fillingChunk, overflowingChunk] {} hsizes hstream rfl rfl
  have hidle : Idle ({} : Host) := ⟨rfl, Nat.zero_le _⟩
  exact hno.2.1 ((Idle.discards_iff hidle.chunkStep).mpr fullOnFull_reached)

end Host
