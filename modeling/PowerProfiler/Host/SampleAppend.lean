-- SUMMARY: Blocks of samples that arrive whole: when the host puts their samples one behind the other into bufsmp.
import PowerProfiler.Host.Overflow

/-!
# Appending to the sample ring

The mask before the copy loop clears the lowest bit of `ismptx`, the one in it keeps all
22 bits. Blocks follow one another in `bufsmp` exactly while each of them starts at an
even slot; at an odd one, the block overwrites the sample before it.
-/

open Framing Circular Runs

namespace Host

theorem length_samplesOf (bs : List UInt8) : (samplesOf bs).length = bs.length / 3 := by
  induction bs using samplesOf.induct with
  | case1 b0 b1 b2 rest ih =>
      simp only [samplesOf, List.length_cons, ih]
      omega
  | case2 bs hbs =>
      rw [samplesOf, Nat.div_eq_of_lt (length_lt_three hbs)]
      · rfl
      · exact hbs

/-- The payload of a data frame of 1 to 77 samples. -/
structure DataBlock where
  payload : List UInt8
  count : Nat
  length_eq : payload.length = 3 * count
  count_pos : 1 ≤ count
  count_le : count ≤ 77

namespace DataBlock

variable (b : DataBlock)

theorem length_le : b.payload.length ≤ maxBlkCnt := by
  have hlen := b.length_eq
  have hle := b.count_le
  simp only [maxBlkCnt]
  omega

/-- The frame of the block. -/
def frame : Frame := ⟨cmdDevAdc, b.payload, b.length_le.trans_lt (by decide)⟩

/-- The frame as one chunk. -/
def chunk : Chunk :=
  ⟨b.frame.bytes, by
    rw [Frame.length_bytes]
    exact (Nat.add_le_add_right b.length_le 2).trans (by decide)⟩

/-- The samples of the block. -/
def samples : List UInt32 := samplesOf b.payload

theorem length_samples : b.samples.length = b.count := by
  have hlen := b.length_eq
  rw [samples, length_samplesOf]
  omega

/-- A measuring host stores the block. -/
theorem stored : Stored true true b.frame := by
  have hlen := b.length_eq
  have hpos := b.count_pos
  refine ⟨⟨rfl, ?_⟩, ?_, rfl, ?_⟩
  · show cmdDevAdc &&& 0x7F = cmdDevAdc
    decide
  · show cmdDevAdc &&& 0x80 = 0
    decide
  · show 1 < b.payload.length
    omega

end DataBlock

/-! ## One block -/

/-- A measuring host with nothing carried over. -/
structure Measuring (h : Host) : Prop where
  workAdc : h.workAdc = true
  samplesEna : h.samplesEna = true
  purgeCom : h.purgeCom = false
  idxBufcom : h.idxBufcom = 0

/-- A block goes to the slots from `storeStart` on, whatever is awaited or sent. -/
theorem Measuring.query {h : Host} (hmeas : Measuring h) (written : Option Nat) (b : DataBlock) :
    Measuring (h.queryPort written (some b.chunk)).1 ∧
      (h.queryPort written (some b.chunk)).1.bufsmp =
        fill h.bufsmp smpSlots (storeStart h.ismptx) b.samples ∧
      (h.queryPort written (some b.chunk)).1.ismptx =
        (storeStart h.ismptx + b.count) % smpSlots ∧
      (h.queryPort written (some b.chunk)).1.ismprx = h.ismprx := by
  obtain ⟨errtx, lentx, hcall⟩ := queryPort_chunk written b.chunk h
  rw [purge_of_off hmeas.purgeCom] at hcall
  have hbase : ({ h with errtx := errtx, lentx := lentx } : Host).base b.chunk = [] :=
    base_of_empty hmeas.idxBufcom b.chunk
  obtain ⟨hframes, hkept⟩ := frames_bytes b.frame b.length_le
  have hframes' : frames (({ h with errtx := errtx, lentx := lentx } : Host).base b.chunk)
      b.chunk.1 = [b.frame] := by
    rw [hbase]
    exact hframes
  have hkept' : kept (({ h with errtx := errtx, lentx := lentx } : Host).base b.chunk)
      b.chunk.1 = [] := by
    rw [hbase]
    exact hkept
  have hstay : givesUp h.workAdc h.waitId h.waitCnt
      (frames (({ h with errtx := errtx, lentx := lentx } : Host).base b.chunk) b.chunk.1) =
      false := by
    have hdata : DataFrame h.workAdc b.frame := by
      rw [hmeas.workAdc]
      exact b.stored.1
    rw [hframes', givesUp, if_pos hdata]
    rfl
  obtain ⟨-, hpend, hsamples, hset⟩ :=
    receive_stays { h with errtx := errtx, lentx := lentx } (List.cons_ne_nil _ _) hstay
  have hstored : storeAll h.workAdc h.samplesEna
      (frames (({ h with errtx := errtx, lentx := lentx } : Host).base b.chunk) b.chunk.1)
      (h.bufsmp, h.ismptx) = (fill h.bufsmp smpSlots (storeStart h.ismptx) b.samples,
        (storeStart h.ismptx + b.count) % smpSlots) := by
    rw [hframes', hmeas.workAdc, hmeas.samplesEna, storeAll, List.foldl_cons, List.foldl_nil,
      storeOne, if_pos b.stored, ← b.length_samples]
    rfl
  obtain ⟨hsmp, htx⟩ := Prod.mk.inj (hsamples.trans hstored)
  rw [hkept'] at hpend
  have hidx := congrArg List.length hpend
  rw [length_pend] at hidx
  rw [hcall]
  exact ⟨⟨hset.workAdc.trans hmeas.workAdc, hset.samplesEna.trans hmeas.samplesEna,
    hset.purgeCom.trans hmeas.purgeCom, hidx⟩, hsmp, htx, hset.ismprx⟩

theorem Measuring.step {h : Host} (hmeas : Measuring h) (b : DataBlock) :
    Measuring (chunkStep b.chunk h) ∧
      (chunkStep b.chunk h).bufsmp = fill h.bufsmp smpSlots (storeStart h.ismptx) b.samples ∧
      (chunkStep b.chunk h).ismptx = (storeStart h.ismptx + b.count) % smpSlots := by
  obtain ⟨hmeas', hsmp, htx, -⟩ := hmeas.query none b
  exact ⟨hmeas', hsmp, htx⟩

/-! ## Sequences of blocks -/

/-- Where the next block belongs, behind some blocks. -/
def nextStart (h : Host) (bs : List DataBlock) : Nat := h.ismptx + (bs.map DataBlock.count).sum

/-- The samples of the blocks lie one behind the other from the first slot on, the ring is
as it was elsewhere, and `ismptx` is the slot behind the last one. -/
structure Appended (h : Host) (bs : List DataBlock) : Prop where
  bufsmp : (run chunkStep (bs.map DataBlock.chunk) h).bufsmp =
    fill h.bufsmp smpSlots h.ismptx (bs.flatMap DataBlock.samples)
  ismptx : (run chunkStep (bs.map DataBlock.chunk) h).ismptx = nextStart h bs % smpSlots

theorem Measuring.run {h : Host} (hmeas : Measuring h) (bs : List DataBlock) :
    Measuring (Runs.run chunkStep (bs.map DataBlock.chunk) h) := by
  induction bs generalizing h with
  | nil => exact hmeas
  | cons b bs ih => exact ih (hmeas.step b).1

theorem length_flatMap_samples (bs : List DataBlock) :
    (bs.flatMap DataBlock.samples).length = (bs.map DataBlock.count).sum := by
  rw [List.length_flatMap]
  exact congrArg List.sum (List.map_congr_left fun b _ => b.length_samples)

theorem nextStart_snoc (h : Host) (bs : List DataBlock) (b : DataBlock) :
    nextStart h (bs ++ [b]) = nextStart h bs + b.count := by
  simp [nextStart, Nat.add_assoc]

/-- A block that starts at an even slot is appended; one at an odd slot moves `ismptx` to the
wrong slot. -/
theorem appended_snoc {h : Host} (hmeas : Measuring h) {bs : List DataBlock}
    (happ : Appended h bs) (b : DataBlock) :
    Appended h (bs ++ [b]) ↔ nextStart h bs % 2 = 0 := by
  obtain ⟨-, hsmp, htx⟩ := (hmeas.run bs).step b
  have hstart := storeStart_eq (nextStart h bs % smpSlots)
  have hrun : Runs.run chunkStep ((bs ++ [b]).map DataBlock.chunk) h =
      chunkStep b.chunk (Runs.run chunkStep (bs.map DataBlock.chunk) h) := by
    rw [List.map_append, List.map_singleton, run_snoc]
  rw [happ.ismptx] at hsmp htx
  simp only [smpSlots, smpBufCnt] at hstart
  constructor
  · rintro ⟨-, htx'⟩
    rw [hrun, htx, nextStart_snoc] at htx'
    simp only [smpSlots, smpBufCnt] at htx'
    omega
  · intro heven
    have hsame : storeStart (nextStart h bs % smpSlots) = nextStart h bs % smpSlots := by
      simp only [smpSlots, smpBufCnt]
      omega
    rw [hsame] at hsmp htx
    constructor
    · have hpos : nextStart h bs % smpSlots % smpSlots =
          (h.ismptx + (bs.flatMap DataBlock.samples).length) % smpSlots := by
        rw [Nat.mod_mod, length_flatMap_samples]
        rfl
      rw [hrun, hsmp, happ.bufsmp, List.flatMap_append, List.flatMap_singleton, fill_append]
      exact fill_congr_start _ hpos _
    · rw [hrun, htx, nextStart_snoc, Nat.mod_add_mod]

/-- Over data frames that arrive whole: behind each of them the samples lie one behind the
other from the first slot on exactly when each frame starts at an even slot. -/
theorem appended_iff (h : Host) (bs : List DataBlock) (hwork : h.workAdc = true)
    (hena : h.samplesEna = true) (hpurge : h.purgeCom = false) (hidx : h.idxBufcom = 0)
    (hlt : h.ismptx < smpSlots) :
    (∀ cs, cs <+: bs → Appended h cs) ↔ ∀ cs b, cs ++ [b] <+: bs → nextStart h cs % 2 = 0 := by
  have hmeas : Measuring h := ⟨hwork, hena, hpurge, hidx⟩
  have hnil : Appended h [] := ⟨rfl, (Nat.mod_eq_of_lt hlt).symm⟩
  constructor
  · intro happ cs b hcs
    exact (appended_snoc hmeas (happ cs ((List.prefix_append _ _).trans hcs)) b).mp (happ _ hcs)
  · intro heven cs
    induction cs using List.reverseRecOn with
    | nil => exact fun _ => hnil
    | append_singleton cs b ih =>
        intro hcs
        have happ := ih ((List.prefix_append _ _).trans hcs)
        exact (appended_snoc hmeas happ b).mpr (heven cs b hcs)

/-- A block of one sample. -/
def oneSampleBlock : DataBlock := ⟨[0x11, 0x22, 0x33], 1, rfl, by decide, by decide⟩

/-- A block of consecutive bytes. -/
def rampBlock (count : Nat) (hpos : 1 ≤ count) (hle : count ≤ 77) : DataBlock :=
  ⟨(List.range (3 * count)).map UInt8.ofNat, count, by simp, hpos, hle⟩

/-- Two samples, forty across the end of `bufsmp`, and one. -/
def crossingBlocks : List DataBlock :=
  [rampBlock 2 (by decide) (by decide), rampBlock 40 (by decide) (by decide), oneSampleBlock]

/-- A capture, four slots before the end of `bufsmp`. -/
def nearEnd : Host := { workAdc := true, samplesEna := true, ismptx := smpSlots - 4 }

/-- During a capture, blocks of an even number of samples are appended across the end, and one
of an odd number behind them. -/
theorem appended_crossingBlocks :
    (run chunkStep (crossingBlocks.map DataBlock.chunk) nearEnd).ismptx = 39 ∧
      ∀ cs, cs <+: crossingBlocks → Appended nearEnd cs := by
  have happ : ∀ cs, cs <+: crossingBlocks → Appended nearEnd cs := by
    refine (appended_iff nearEnd crossingBlocks rfl rfl rfl rfl (by decide)).mpr fun cs b hcs => ?_
    rcases cs with _ | ⟨b₁, _ | ⟨b₂, _ | ⟨b₃, cs⟩⟩⟩
    · rfl
    · obtain ⟨rfl, -⟩ : b₁ = _ ∧ b = _ := by simpa [crossingBlocks] using hcs
      rfl
    · obtain ⟨rfl, rfl, -⟩ : b₁ = _ ∧ b₂ = _ ∧ b = _ := by simpa [crossingBlocks] using hcs
      rfl
    · simp [crossingBlocks] at hcs
  exact ⟨(happ crossingBlocks (List.prefix_refl _)).ismptx, happ⟩

/-- The second of two blocks of one sample overwrites the first. -/
theorem oddBlock_overwrites :
    ¬ ∀ (h : Host) (bs : List DataBlock), h.workAdc = true → h.samplesEna = true →
      h.purgeCom = false → h.idxBufcom = 0 → h.ismptx < smpSlots → Appended h bs := by
  intro hall
  have hmeas : Measuring { workAdc := true, samplesEna := true } := ⟨rfl, rfl, rfl, rfl⟩
  have hone : Appended { workAdc := true, samplesEna := true } [oneSampleBlock] :=
    hall _ _ rfl rfl rfl rfl (by decide)
  have htwo := hall { workAdc := true, samplesEna := true } ([oneSampleBlock] ++ [oneSampleBlock])
    rfl rfl rfl rfl (by decide)
  exact absurd ((appended_snoc hmeas hone oneSampleBlock).mp htwo) (by decide)

end Host
