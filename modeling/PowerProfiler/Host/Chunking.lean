-- SUMMARY: Valid streams in arbitrary chunks: the parser keeps in step with the stream exactly when every chunk completes a frame and fits.
import PowerProfiler.Host.Overflow

/-!
# Chunking

The complete frames of a stream do not depend on the chunks it arrives in. The parser finds
all of them as long as every chunk completes a frame: a chunk that does not is forgotten,
because `idx_bufcom` is moved only behind a complete frame.
-/

open Framing Runs

namespace Host

/-- The frames of a call lie in the bytes it has. -/
theorem length_consume (bs : List UInt8) :
    (stream (consume bs).1).length + (consume bs).2.length ≤ bs.length := by
  induction bs using consume.induct with
  | case1 size cmd rest hsize hbig =>
      rw [consume, if_pos hsize, if_pos hbig]
      have hbytes := congrArg List.length (Frame.bytes_ofHead cmd hsize)
      rw [List.length_append] at hbytes
      simp only [stream_cons, stream_nil, List.append_nil, List.length_nil]
      omega
  | case2 size cmd rest hsize hsmall ih =>
      rw [consume, if_pos hsize, if_neg hsmall]
      have hbytes := congrArg List.length (Frame.bytes_ofHead cmd hsize)
      rw [List.length_append] at hbytes
      simp only [stream_cons, List.length_append]
      omega
  | case3 size cmd rest hsize =>
      rw [consume, if_neg hsize]
      simp
  | case4 bs hbs =>
      rw [consume_incomplete (incomplete_of_no_head hbs)]
      simp

theorem length_frames (bs : List UInt8) : (stream (frames [] bs)).length ≤ bs.length := by
  have hle := length_consume bs
  rw [frames, List.nil_append]
  split
  · exact Nat.zero_le _
  · omega

/-! ## Valid streams -/

/-- The frames keep to the size limit of the protocol. -/
def Protocol (fs : List Frame) : Prop := ∀ f ∈ fs, f.payload.length ≤ maxBlkCnt

section Valid

variable {fs : List Frame} (hfs : Protocol fs)
include hfs

theorem head_of_valid {bs : List UInt8} (hpre : bs <+: stream fs) :
    (bs.headD 0).toNat ≤ maxBlkCnt := by
  cases bs with
  | nil => exact Nat.zero_le _
  | cons size rest =>
      cases fs with
      | nil => simp at hpre
      | cons f fs =>
          have hsize : size = f.size := (List.cons_prefix_cons.mp hpre).1
          rw [hsize]
          show f.size.toNat ≤ maxBlkCnt
          rw [Frame.toNat_size]
          exact hfs f List.mem_cons_self

/-- On a valid stream no size byte is too large. -/
theorem consume_of_valid {bs : List UInt8} (hpre : bs <+: stream fs) : consume bs = split bs := by
  induction fs generalizing bs with
  | nil =>
      rw [List.prefix_nil.mp hpre, consume_incomplete incomplete_nil,
        split_incomplete incomplete_nil]
  | cons f fs ih =>
      have hfs' : Protocol fs := fun g hg => hfs g (List.mem_cons_of_mem _ hg)
      by_cases hlen : f.bytes.length ≤ bs.length
      · have hfront : f.bytes <+: bs :=
          List.prefix_of_prefix_length_le (List.prefix_append _ _) hpre hlen
        obtain ⟨tail, rfl⟩ := hfront
        have htail : tail <+: stream fs := (List.prefix_append_right_inj f.bytes).mp hpre
        rw [consume_bytes_append, if_neg (not_lt.mpr (head_of_valid hfs' htail)), ih hfs' htail,
          split_bytes_append]
      · have hinc : Incomplete bs := by
          match bs, hpre, hlen with
          | [], _, _ => trivial
          | [_], _, _ => trivial
          | size :: cmd :: rest, hpre, hlen =>
              have hsize : size = f.size := (List.cons_prefix_cons.mp hpre).1
              rw [Frame.length_bytes, List.length_cons, List.length_cons] at hlen
              show rest.length < size.toNat
              rw [hsize, Frame.toNat_size]
              omega
        rw [consume_incomplete hinc, split_incomplete hinc]

/-- What a call finds in the bytes of a valid stream. -/
theorem frames_of_valid {pend chunk : List UInt8} (hpre : pend ++ chunk <+: stream fs) :
    frames pend chunk = (split (pend ++ chunk)).1 ∧
      kept pend chunk =
        if (split (pend ++ chunk)).1 = [] then pend else (split (pend ++ chunk)).2 := by
  have hhead := not_lt.mpr (head_of_valid hfs hpre)
  rw [frames, kept, if_neg hhead, if_neg hhead, consume_of_valid hfs hpre]
  exact ⟨rfl, rfl⟩

/-- The unfinished frame of a valid stream. -/
theorem length_rest_of_valid {bs : List UInt8} (hpre : bs <+: stream fs) :
    (split bs).2.length ≤ maxCarry := by
  have hrest := consume_rest bs (head_of_valid hfs hpre)
  rw [consume_of_valid hfs hpre] at hrest
  exact length_le_maxCarry hrest.1 hrest.2

end Valid

/-! ## In step with the stream -/

/-- The bytes of some chunks. -/
def received (chunks : List Chunk) : List UInt8 := (chunks.map Subtype.val).flatten

theorem received_snoc (chunks : List Chunk) (chunk : Chunk) :
    received (chunks ++ [chunk]) = received chunks ++ chunk.1 := by
  simp [received]

/-- Behind the chunks, the parser has dispatched the complete frames they hold, has their
samples in `bufsmp`, and counts the bytes of the unfinished one. -/
def InStep (h : Host) (chunks : List Chunk) : Prop :=
  let out := run chunkStep chunks h
  trace chunkStep chunkFrames chunks h = (split (received chunks)).1 ∧
    (out.bufsmp, out.ismptx) =
      storeAll h.workAdc h.samplesEna (split (received chunks)).1 (h.bufsmp, h.ismptx) ∧
    out.idxBufcom = (split (received chunks)).2.length

/-- The chunk completes a frame. -/
def Completes (chunks : List Chunk) (chunk : Chunk) : Prop :=
  (split (received chunks)).1.length < (split (received chunks ++ chunk.1)).1.length

/-- The chunk fits behind the unfinished frame. -/
def Fits (chunks : List Chunk) (chunk : Chunk) : Prop :=
  (split (received chunks)).2.length + chunk.1.length ≤ bufcomSize

instance (chunks : List Chunk) (chunk : Chunk) : Decidable (Fits chunks chunk) :=
  inferInstanceAs (Decidable (_ ≤ _))

/-- The parser in step, with the bytes that it carries over. -/
structure Tracking (h : Host) (chunks : List Chunk) : Prop where
  inStep : InStep h chunks
  pend : (run chunkStep chunks h).pend = (split (received chunks)).2
  workAdc : (run chunkStep chunks h).workAdc = h.workAdc
  samplesEna : (run chunkStep chunks h).samplesEna = h.samplesEna
  waitCnt : (run chunkStep chunks h).waitCnt = 0
  purgeCom : (run chunkStep chunks h).purgeCom = false

theorem tracking_nil {h : Host} (hidx : h.idxBufcom = 0) (hwait : h.waitCnt = 0)
    (hpurge : h.purgeCom = false) : Tracking h [] := by
  have hsplit : split (received []) = ([], []) := split_incomplete incomplete_nil
  have hpend : h.pend = [] := by rw [pend, hidx]; rfl
  refine ⟨⟨?_, ?_, ?_⟩, ?_, rfl, rfl, hwait, hpurge⟩
  · rw [hsplit]; rfl
  · rw [hsplit]; rfl
  · rw [hsplit]; exact hidx
  · rw [hsplit]; exact hpend

section Step

variable {fs : List Frame} {h : Host} {chunks : List Chunk} {chunk : Chunk}

/-- The bytes of a call, as the tail of the stream. -/
theorem tail_of_valid (hfs : Protocol fs) (hpre : received chunks ++ chunk.1 <+: stream fs) :
    ∃ fs', Protocol fs' ∧ (split (received chunks)).2 ++ chunk.1 <+: stream fs' := by
  have hspec := (split_spec (received chunks)).1
  rw [hspec, List.append_assoc] at hpre
  obtain ⟨fs', rfl, htail⟩ := stream_prefix_tail hpre
  exact ⟨fs', fun f hf => hfs f (List.mem_append_right _ hf), htail⟩

/-- The frames that a chunk completes. -/
theorem completes_iff : Completes chunks chunk ↔
    (split ((split (received chunks)).2 ++ chunk.1)).1 ≠ [] := by
  rw [Completes, split_append]
  simp [List.length_pos_iff]

/-- A chunk that fits goes behind the unfinished frame. -/
theorem Tracking.base_eq (htrack : Tracking h chunks) :
    (run chunkStep chunks h).purge.base chunk =
      if Fits chunks chunk then (split (received chunks)).2 else [] := by
  have hover : (run chunkStep chunks h).Overflows chunk ↔ ¬ Fits chunks chunk := by
    rw [Overflows, Fits, htrack.inStep.2.2, Nat.add_comm, not_le]
  rw [purge_of_off htrack.purgeCom, base, htrack.pend]
  by_cases hfits : Fits chunks chunk
  · rw [if_pos hfits, if_neg fun h => hover.mp h hfits]
  · rw [if_neg hfits, if_pos (hover.mpr hfits)]

/-- A chunk that completes a frame and fits keeps the parser in step. -/
theorem Tracking.snoc (htrack : Tracking h chunks) (hfs : Protocol fs)
    (hpre : received chunks ++ chunk.1 <+: stream fs) (hne : chunk.1 ≠ [])
    (hcomplete : Completes chunks chunk) (hfits : Fits chunks chunk) :
    Tracking h (chunks ++ [chunk]) := by
  obtain ⟨fs', hfs', htail⟩ := tail_of_valid hfs hpre
  obtain ⟨hcall, hwait⟩ := chunkStep_idle hne htrack.waitCnt
  obtain ⟨hframes, hkept⟩ := frames_of_valid hfs' htail
  have hbase := @Tracking.base_eq h chunks chunk htrack
  rw [if_pos hfits] at hbase
  rw [if_neg (completes_iff.mp hcomplete)] at hkept
  obtain ⟨hdisp, hpend, hsamples, hwork, hena, hpurge⟩ := hcall
  rw [hbase, hframes] at hdisp
  rw [hbase, hkept] at hpend
  rw [hbase, hframes, htrack.workAdc, htrack.samplesEna, purge_of_off htrack.purgeCom,
    htrack.inStep.2.1] at hsamples
  have hsplit := split_append (received chunks) chunk.1
  refine ⟨⟨?_, ?_, ?_⟩, ?_, ?_, ?_, ?_, ?_⟩
  · rw [trace_snoc, htrack.inStep.1, hdisp, received_snoc, hsplit]
  · rw [run_snoc, hsamples, received_snoc, hsplit, storeAll, storeAll, storeAll, List.foldl_append]
  · rw [run_snoc, ← length_pend, hpend, received_snoc, hsplit]
  · rw [run_snoc, hpend, received_snoc, hsplit]
  · rw [run_snoc, hwork, htrack.workAdc]
  · rw [run_snoc, hena, htrack.samplesEna]
  · rw [run_snoc, hwait]
  · rw [run_snoc, hpurge]

/-- A parser that is still in step behind a chunk has had a chunk that completes a frame and
fits. -/
theorem Tracking.of_inStep (htrack : Tracking h chunks) (hfs : Protocol fs)
    (hpre : received chunks ++ chunk.1 <+: stream fs) (hne : chunk.1 ≠ [])
    (hstep : InStep h (chunks ++ [chunk])) : Completes chunks chunk ∧ Fits chunks chunk := by
  obtain ⟨fs', hfs', htail⟩ := tail_of_valid hfs hpre
  obtain ⟨hcall, -⟩ := chunkStep_idle hne htrack.waitCnt
  obtain ⟨hframes, hkept⟩ := frames_of_valid hfs' htail
  have hbase := @Tracking.base_eq h chunks chunk htrack
  have hrest := length_rest_of_valid hfs ((List.prefix_append _ chunk.1).trans hpre)
  obtain ⟨htrace, -, hidx⟩ := hstep
  rw [trace_snoc, htrack.inStep.1, received_snoc, split_append] at htrace
  have hdisp := List.append_cancel_left htrace
  rw [run_snoc, ← length_pend, hcall.pend, received_snoc, split_append] at hidx
  rw [hcall.dispatched] at hdisp
  dsimp only at hdisp hidx
  obtain ⟨hspec, -⟩ := split_spec ((split (received chunks)).2 ++ chunk.1)
  have hlen := congrArg List.length hspec
  rw [List.length_append, List.length_append] at hlen
  by_cases hfits : Fits chunks chunk
  · refine ⟨completes_iff.mpr fun hnone => hne ?_, hfits⟩
    -- Without a complete frame the chunk is forgotten, and its bytes are missing.
    rw [if_pos hfits] at hbase
    rw [hbase, hkept, if_pos hnone] at hidx
    rw [hnone, stream_nil, List.length_nil] at hlen
    exact List.length_eq_zero_iff.mp (by omega)
  · exfalso
    -- The unfinished frame is forgotten. Its 233 bytes and the chunk hold one frame of 234
    -- bytes and one of a single byte.
    rw [if_neg hfits] at hbase
    rw [hbase] at hdisp
    have hrest' := length_rest_of_valid hfs' htail
    have hchunk := chunk.2
    have hbytes := length_frames chunk.1
    rw [hdisp] at hbytes
    rw [Fits] at hfits
    simp only [bufcomSize, comBufCnt, maxCarry, buffSize, maxBlkCnt] at hfits hrest hrest' hchunk
    rcases hgs : (split ((split (received chunks)).2 ++ chunk.1)).1 with _ | ⟨g, gs⟩
    · rw [hgs, stream_nil, List.length_nil] at hlen
      omega
    · rw [hgs, stream_cons, List.length_append, Frame.length_bytes] at hlen hbytes
      have hg : g.payload.length = maxBlkCnt := by
        have hinc := (split_spec (received chunks)).2
        rcases hold : (split (received chunks)).2 with _ | ⟨size, rest⟩
        · rw [hold] at hrest hfits
          simp only [List.length_nil] at hfits
          omega
        · have hsize : size = g.size := by
            rw [hgs, hold, stream_cons, Frame.bytes] at hspec
            exact (List.cons.inj hspec).1
          have hle := head_of_valid hfs' htail
          have hlen' := congrArg List.length hold
          rw [hold] at hinc hle
          have hlt : (size :: rest).length < g.payload.length + 2 := by
            rw [← Frame.toNat_size, ← hsize]
            exact hinc.length_lt
          have hle' : g.size.toNat ≤ maxBlkCnt := hsize ▸ hle
          rw [Frame.toNat_size] at hle'
          simp only [maxBlkCnt] at hle' ⊢
          omega
      have hshort : (stream gs).length ≠ 1 := by
        cases gs with
        | nil => exact Nat.zero_ne_one
        | cons g' gs =>
            rw [stream_cons, List.length_append, Frame.length_bytes]
            omega
      simp only [maxBlkCnt] at hg
      omega

end Step

/-- Over the chunks of a valid stream, the parser is in step with the stream behind each of
them exactly when each completes a frame and fits behind the unfinished one. -/
theorem inStep_iff (h : Host) (fs : List Frame) (chunks : List Chunk)
    (hfs : ∀ f ∈ fs, f.payload.length ≤ maxBlkCnt) (hstream : received chunks = stream fs)
    (hne : ∀ chunk ∈ chunks, chunk.1 ≠ []) (hidx : h.idxBufcom = 0) (hwait : h.waitCnt = 0)
    (hpurge : h.purgeCom = false) :
    (∀ cs, cs <+: chunks → InStep h cs) ↔
      ∀ cs chunk, cs ++ [chunk] <+: chunks → Completes cs chunk ∧ Fits cs chunk := by
  have hpre : ∀ cs, cs <+: chunks → received cs <+: stream fs := by
    rintro cs ⟨rest, rfl⟩
    rw [← hstream]
    simp [received]
  have htrack : (∀ cs chunk, cs ++ [chunk] <+: chunks →
      Tracking h cs → Completes cs chunk ∧ Fits cs chunk) →
      ∀ cs, cs <+: chunks → Tracking h cs := by
    intro hcond cs
    induction cs using List.reverseRecOn with
    | nil => exact fun _ => tracking_nil hidx hwait hpurge
    | append_singleton cs chunk ih =>
        intro hcs
        have hcs' := ih ((List.prefix_append _ _).trans hcs)
        obtain ⟨hcomplete, hfits⟩ := hcond cs chunk hcs hcs'
        have hbytes := hpre _ hcs
        rw [received_snoc] at hbytes
        have hmem : chunk ∈ chunks := hcs.subset (by simp)
        exact hcs'.snoc hfs hbytes (hne _ hmem) hcomplete hfits
  constructor
  · intro hstep
    have hcond : ∀ cs chunk, cs ++ [chunk] <+: chunks →
        Tracking h cs → Completes cs chunk ∧ Fits cs chunk := by
      intro cs chunk hcs hcs'
      have hbytes := hpre _ hcs
      rw [received_snoc] at hbytes
      have hmem : chunk ∈ chunks := hcs.subset (by simp)
      exact hcs'.of_inStep hfs hbytes (hne _ hmem) (hstep _ hcs)
    exact fun cs chunk hcs =>
      hcond cs chunk hcs (htrack hcond cs ((List.prefix_append _ _).trans hcs))
  · exact fun hcond cs hcs =>
      (htrack (fun cs chunk hcs' _ => hcond cs chunk hcs') cs hcs).inStep

/-- Two blocks of samples and one of the counters. -/
def mixedFrames : List Frame :=
  [⟨cmdDevAdc, [1, 2, 3, 4, 5, 6], by decide⟩,
    ⟨cmdDevAdc ||| 0x80, [7, 0, 0, 0, 0, 0, 0, 0, 0], by decide⟩,
    ⟨cmdDevAdc, [10, 11, 12], by decide⟩]

/-- The first chunk ends within the second block, the second one within the third. -/
def splitChunks : List Chunk :=
  [⟨[6, 0x3A, 1, 2, 3, 4, 5, 6, 9, 0xBA, 7], by decide⟩,
    ⟨[0, 0, 0, 0, 0, 0, 0, 0, 3], by decide⟩, ⟨[0x3A, 10, 11, 12], by decide⟩]

theorem splitChunks_complete {cs : List Chunk} {chunk : Chunk}
    (hcs : cs ++ [chunk] <+: splitChunks) : Completes cs chunk ∧ Fits cs chunk := by
  rcases cs with _ | ⟨c₁, _ | ⟨c₂, _ | ⟨c₃, cs⟩⟩⟩
  · obtain rfl : chunk = _ := by simpa [splitChunks] using hcs
    simp [Completes, Fits, received, split, bufcomSize, comBufCnt, maxBlkCnt]
  · obtain ⟨rfl, rfl⟩ : c₁ = _ ∧ chunk = _ := by simpa [splitChunks] using hcs
    simp [Completes, Fits, received, split, bufcomSize, comBufCnt, maxBlkCnt]
  · obtain ⟨rfl, rfl, rfl⟩ : c₁ = _ ∧ c₂ = _ ∧ chunk = _ := by simpa [splitChunks] using hcs
    simp [Completes, Fits, received, split, bufcomSize, comBufCnt, maxBlkCnt]
  · simp [splitChunks] at hcs

/-- During a capture, blocks that are split inside are all found. -/
theorem inStep_splitChunks :
    trace chunkStep chunkFrames splitChunks { workAdc := true, samplesEna := true } = mixedFrames ∧
      ∀ cs, cs <+: splitChunks → InStep { workAdc := true, samplesEna := true } cs := by
  have hstream : received splitChunks = stream mixedFrames := rfl
  have hstep := (inStep_iff { workAdc := true, samplesEna := true } mixedFrames splitChunks (by decide)
    hstream (by decide) rfl rfl rfl).mpr fun _ _ hcs => splitChunks_complete hcs
  have hall := (hstep splitChunks (List.prefix_refl _)).1
  rw [hstream, split_stream] at hall
  exact ⟨hall, hstep⟩

/-- The size and the command of the block, -/
def sampleHead : Chunk := ⟨[3, cmdDevAdc], by decide⟩

/-- and its payload. -/
def samplePayload : Chunk := ⟨[0x11, 0x22, 0x33], by decide⟩

/-- The parser finds no frame in a string that is the front of one. -/
theorem frames_incomplete {bs : List UInt8} (hinc : Incomplete bs)
    (hhead : (bs.headD 0).toNat ≤ maxBlkCnt) : frames [] bs = [] ∧ kept [] bs = [] := by
  have hconsume := consume_incomplete hinc
  rw [frames, kept, List.nil_append, if_neg (not_lt.mpr hhead), if_neg (not_lt.mpr hhead), hconsume]
  exact ⟨rfl, rfl⟩

/-- A block that arrives in two chunks is lost. -/
theorem splitSample_lost :
    ¬ ∀ (h : Host) (fs : List Frame) (chunks : List Chunk),
      (∀ f ∈ fs, f.payload.length ≤ maxBlkCnt) → received chunks = stream fs →
      (∀ chunk ∈ chunks, chunk.1 ≠ []) → h.idxBufcom = 0 → h.waitCnt = 0 → h.purgeCom = false →
      h.workAdc = true → h.samplesEna = true → ∀ cs, cs <+: chunks → InStep h cs := by
  intro hall
  have hin := hall { workAdc := true, samplesEna := true } [oneSample] [sampleHead, samplePayload]
    (by decide) (by simp [received, sampleHead, samplePayload]; rfl)
    (by simp [sampleHead, samplePayload]) rfl rfl rfl rfl rfl _ (List.prefix_refl _)
  have hsplit : split (received [sampleHead, samplePayload]) = ([oneSample], []) :=
    split_stream [oneSample]
  have htrace := hin.1
  rw [hsplit, trace_cons, trace_cons, trace_nil, List.append_nil] at htrace
  generalize hhost : ({ workAdc := true, samplesEna := true } : Host) = h at htrace
  have hidle : h.waitCnt = 0 := by rw [← hhost]
  have hoff : h.purgeCom = false := by rw [← hhost]
  have hidx : h.idxBufcom = 0 := by rw [← hhost]
  -- Behind the first chunk nothing is dispatched and nothing is kept.
  obtain ⟨hcall, hwait⟩ := @chunkStep_idle sampleHead h (by decide) hidle
  have hinc : Incomplete sampleHead.1 := show 0 < 3 by decide
  obtain ⟨hnone, hforgot⟩ := frames_incomplete hinc (by decide)
  have hfirst := hcall.dispatched
  have hleft := hcall.pend
  rw [purge_of_off hoff, base_of_empty hidx, hnone] at hfirst
  rw [purge_of_off hoff, base_of_empty hidx, hforgot] at hleft
  have hidx' := congrArg List.length hleft
  rw [length_pend] at hidx'
  -- The second chunk is taken for the head of a frame.
  obtain ⟨hcall', -⟩ := @chunkStep_idle samplePayload _ (by decide) hwait
  have hinc' : Incomplete samplePayload.1 := show 1 < 0x11 by decide
  have hsecond := hcall'.dispatched
  rw [purge_of_off hcall.purgeCom, base_of_empty hidx',
    (frames_incomplete hinc' (by decide)).1] at hsecond
  rw [hfirst, hsecond] at htrace
  cases htrace

end Host
