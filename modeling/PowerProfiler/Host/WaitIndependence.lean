-- SUMMARY: Two runs of the parser over the same chunks that differ in the wait for a reply keep the same stream, while neither gives up.
import PowerProfiler.Host.ParserSafety

/-!
# The wait and the stream

Replies and samples share one stream. A host that waits for a reply and one that does
not take the same samples from it, as long as the wait never gives up: that leaves the
procedure in the middle of the frames it has.
-/

open Framing Runs

namespace Host

/-- What `WriteFile` and `ReadFile` report in one call. -/
abbrev PortIo := Option Nat × Option Chunk

def portStep (io : PortIo) (h : Host) : Host := (h.queryPort io.1 io.2).1

/-- The call as one that leaves the settings of the user interface as they are. -/
def callOf (io : PortIo) (h : Host) : Call where
  waitId := h.waitId
  waitCnt := h.waitCnt
  workAdc := h.workAdc
  samplesEna := h.samplesEna
  purgeCom := h.purgeCom
  lentx := h.lentx
  written := io.1
  readed := io.2

/-- No frame of the call makes the wait give up. -/
def Stays (io : PortIo) (h : Host) : Prop :=
  ∀ chunk ∈ io.2, chunk.1 ≠ [] →
    givesUp h.workAdc h.waitId h.waitCnt (frames (h.purge.base chunk) chunk.1) = false

/-- The call neither gives up nor takes a reply that does not fit in `bufrx`. -/
def StaysInside (io : PortIo) (h : Host) : Prop := Stays io h ∧ ReplyFits (callOf io h) h

theorem portStep_fault {io : PortIo} {h : Host} (hfault : h.fault = false)
    (hinside : StaysInside io h) : (portStep io h).fault = false :=
  (callStep_fault (callOf io h) h).mpr ⟨hfault, hinside.2⟩

/-- The two hosts have the same unfinished frame and the same samples. -/
structure SameStream (h h' : Host) : Prop where
  idxBufcom : h'.idxBufcom = h.idxBufcom
  pend : h'.pend = h.pend
  bufsmp : h'.bufsmp = h.bufsmp
  ismptx : h'.ismptx = h.ismptx
  workAdc : h'.workAdc = h.workAdc
  samplesEna : h'.samplesEna = h.samplesEna
  purgeCom : h'.purgeCom = h.purgeCom
  lentx : h'.lentx = h.lentx

namespace SameStream

variable {h h' : Host}

theorem purge (hs : SameStream h h') : SameStream h.purge h'.purge := by
  unfold Host.purge
  rw [hs.purgeCom]
  split
  · exact ⟨rfl, rfl, hs.bufsmp, rfl, hs.workAdc, hs.samplesEna, rfl, hs.lentx⟩
  · exact hs

theorem writeCommand (hs : SameStream h h') (written : Option Nat) :
    SameStream (h.writeCommand written) (h'.writeCommand written) := by
  unfold Host.writeCommand
  rw [hs.lentx]
  split
  · exact ⟨hs.idxBufcom, hs.pend, hs.bufsmp, hs.ismptx, hs.workAdc, hs.samplesEna, hs.purgeCom, rfl⟩
  · exact hs

theorem base (hs : SameStream h h') (chunk : Chunk) : h'.base chunk = h.base chunk := by
  have hover : h'.Overflows chunk ↔ h.Overflows chunk := by
    rw [Overflows, Overflows, hs.idxBufcom]
  rw [Host.base, Host.base, hs.pend]
  simp only [hover]

theorem receive (hs : SameStream h h') {chunk : Chunk}
    (hstay : chunk.1 ≠ [] →
      givesUp h.workAdc h.waitId h.waitCnt (frames (h.base chunk) chunk.1) = false)
    (hstay' : chunk.1 ≠ [] →
      givesUp h'.workAdc h'.waitId h'.waitCnt (frames (h'.base chunk) chunk.1) = false) :
    SameStream (h.receive chunk).1 (h'.receive chunk).1 := by
  by_cases hne : chunk.1 = []
  · have hnone : ∀ h : Host, h.receive chunk = (h, []) := by
      intro h
      rw [Host.receive, if_neg (by simp [hne])]
    rw [hnone, hnone]
    exact hs
  · obtain ⟨-, hpend, hsamples, hset⟩ := receive_stays h hne (hstay hne)
    obtain ⟨-, hpend', hsamples', hset'⟩ := receive_stays h' hne (hstay' hne)
    rw [hs.base, hs.workAdc, hs.samplesEna, hs.bufsmp, hs.ismptx, ← hsamples] at hsamples'
    rw [Prod.mk.injEq] at hsamples'
    constructor
    · rw [← length_pend, ← length_pend, hpend, hpend', hs.base]
    · rw [hpend, hpend', hs.base]
    · exact hsamples'.1
    · exact hsamples'.2
    · rw [hset.workAdc, hset'.workAdc, hs.workAdc]
    · rw [hset.samplesEna, hset'.samplesEna, hs.samplesEna]
    · rw [hset.purgeCom, hset'.purgeCom, hs.purgeCom]
    · rw [hset.lentx, hset'.lentx, hs.lentx]

/-- The wait is as it was before the parts of a call that come before the read. -/
theorem stays_iff (io : PortIo) (h : Host) {chunk : Chunk} (hio : io.2 = some chunk) :
    Stays io h ↔ (chunk.1 ≠ [] →
      givesUp (h.purge.writeCommand io.1).workAdc (h.purge.writeCommand io.1).waitId
        (h.purge.writeCommand io.1).waitCnt
        (frames ((h.purge.writeCommand io.1).base chunk) chunk.1) = false) := by
  have hpurge : h.purge.workAdc = h.workAdc ∧ h.purge.waitId = h.waitId ∧
      h.purge.waitCnt = h.waitCnt := by
    unfold Host.purge
    split <;> exact ⟨rfl, rfl, rfl⟩
  have hwrite : (h.purge.writeCommand io.1).workAdc = h.purge.workAdc ∧
      (h.purge.writeCommand io.1).waitId = h.purge.waitId ∧
      (h.purge.writeCommand io.1).waitCnt = h.purge.waitCnt ∧
      (h.purge.writeCommand io.1).base chunk = h.purge.base chunk := by
    unfold Host.writeCommand
    split <;> exact ⟨rfl, rfl, rfl, rfl⟩
  obtain ⟨hw, hi, hc, hb⟩ := hwrite
  rw [hw, hi, hc, hb, hpurge.1, hpurge.2.1, hpurge.2.2, Stays, hio]
  simp only [Option.mem_some_iff, forall_eq']

theorem step (hs : SameStream h h') (io : PortIo) (hstay : Stays io h) (hstay' : Stays io h') :
    SameStream (portStep io h) (portStep io h') := by
  have hbefore := (hs.purge).writeCommand io.1
  unfold portStep queryPort
  rcases hio : io.2 with _ | chunk
  · exact ⟨rfl, rfl, hbefore.bufsmp, hbefore.ismptx, hbefore.workAdc, hbefore.samplesEna,
      hbefore.purgeCom, hbefore.lentx⟩
  · exact hbefore.receive ((stays_iff io h hio).mp hstay) ((stays_iff io h' hio).mp hstay')

theorem run (hs : SameStream h h') (ios : List PortIo) (hstay : Along portStep Stays ios h)
    (hstay' : Along portStep Stays ios h') :
    SameStream (Runs.run portStep ios h) (Runs.run portStep ios h') := by
  induction ios generalizing h h' with
  | nil => exact hs
  | cons io ios ih => exact ih (hs.step io hstay.1 hstay'.1) hstay.2 hstay'.2

end SameStream

/-- Two hosts that differ only in the wait for a reply and in the reply buffer, over the
same chunks: while neither wait gives up and every reply fits in `bufrx`, they stay inside
the arrays and have the same unfinished frame and the same samples. -/
theorem wait_keeps_stream (h : Host) (waitId : UInt8) (waitCnt : UInt32) (bufrx : Nat → UInt8)
    (lenrx : Nat) (ios : List PortIo) (hfault : h.fault = false)
    (hstay : Along portStep StaysInside ios h)
    (hstay' : Along portStep StaysInside ios
      { h with waitId := waitId, waitCnt := waitCnt, bufrx := bufrx, lenrx := lenrx }) :
    let out := run portStep ios h
    let out' := run portStep ios
      { h with waitId := waitId, waitCnt := waitCnt, bufrx := bufrx, lenrx := lenrx }
    out'.pend = out.pend ∧ out'.idxBufcom = out.idxBufcom ∧ out'.bufsmp = out.bufsmp ∧
      out'.ismptx = out.ismptx ∧ out.fault = false ∧ out'.fault = false := by
  intro out out'
  have hstart : SameStream h
      { h with waitId := waitId, waitCnt := waitCnt, bufrx := bufrx, lenrx := lenrx } :=
    ⟨rfl, rfl, rfl, rfl, rfl, rfl, rfl, rfl⟩
  have hsame := hstart.run ios (hstay.mono fun _ _ hin => hin.1)
    (hstay'.mono fun _ _ hin => hin.1)
  have hin : ∀ io h, h.fault = false → StaysInside io h → (portStep io h).fault = false :=
    fun _ _ => portStep_fault
  exact ⟨hsame.pend, hsame.idxBufcom, hsame.bufsmp, hsame.ismptx,
    run_invariant hin hfault hstay, run_invariant hin hfault hstay'⟩

/-! ## A wait that gives up -/

/-- A reply without a payload to a command that no host awaits here. -/
def strayReply : Frame := ⟨0x01, [], fits_nil⟩

/-- One call that receives both. -/
def strayThenSample : PortIo :=
  (none, some ⟨strayReply.bytes ++ oneSample.bytes, by decide⟩)

theorem frames_strayThenSample :
    frames [] (strayReply.bytes ++ oneSample.bytes) = [strayReply, oneSample] := by
  have hconsume : consume (strayReply.bytes ++ oneSample.bytes) = ([strayReply, oneSample], []) := by
    rw [consume_bytes_append, consume_bytes, if_neg (by decide)]
  rw [frames, List.nil_append, if_neg (by decide), hconsume]

/-- A host that measures and awaits the command `0x38`, with `misses` counted. -/
def awaiting (misses : UInt32) : Host where
  workAdc := true
  samplesEna := true
  waitId := 0x38
  waitCnt := misses

theorem staysInside_stray {misses : UInt32} (hstay : givesUp true 0x38 misses
    [strayReply, oneSample] = false) (hnone : answer true 0x38 misses [strayReply, oneSample] = none) :
    Along portStep StaysInside [strayThenSample] (awaiting misses) := by
  have hframes : frames ((awaiting misses).purge.base
      ⟨strayReply.bytes ++ oneSample.bytes, by decide⟩) (strayReply.bytes ++ oneSample.bytes) =
        [strayReply, oneSample] := frames_strayThenSample
  refine ⟨⟨?_, ?_⟩, trivial⟩
  · rintro chunk ⟨⟩ -
    rw [hframes]
    exact hstay
  · rintro chunk ⟨⟩ - f hf
    change f ∈ answer true 0x38 misses (frames ((awaiting misses).purge.base
      ⟨strayReply.bytes ++ oneSample.bytes, by decide⟩) (strayReply.bytes ++ oneSample.bytes)) at hf
    rw [hframes, hnone] at hf
    cases hf

theorem wait_keeps_stream_stray :
    let out := run portStep [strayThenSample] (awaiting 0)
    let out' := run portStep [strayThenSample] (awaiting 1)
    out'.pend = out.pend ∧ out'.idxBufcom = out.idxBufcom ∧ out'.bufsmp = out.bufsmp ∧
      out'.ismptx = out.ismptx ∧ out.fault = false ∧ out'.fault = false :=
  wait_keeps_stream (awaiting 0) 0x38 1 (fun _ => 0) 0 [strayThenSample] rfl
    (staysInside_stray (by decide) (by decide)) (staysInside_stray (by decide) (by decide))

/-- The sample behind the third miss is lost. -/
theorem wait_disturbs_stream :
    ¬ ∀ (h : Host) (waitId : UInt8) (waitCnt : UInt32) (bufrx : Nat → UInt8) (lenrx : Nat)
        (ios : List PortIo), h.workAdc = true → h.samplesEna = true →
      let out := run portStep ios h
      let out' := run portStep ios
        { h with waitId := waitId, waitCnt := waitCnt, bufrx := bufrx, lenrx := lenrx }
      out'.pend = out.pend ∧ out'.idxBufcom = out.idxBufcom ∧ out'.bufsmp = out.bufsmp ∧
        out'.ismptx = out.ismptx := by
  intro hall
  have hsame := (hall (awaiting 0) 0x38 3 (fun _ => 0) 0 [strayThenSample] rfl rfl).2.2.2
  have hismptx : ∀ misses, (run portStep [strayThenSample] (awaiting misses)).ismptx =
      ((awaiting misses).handleAll [strayReply, oneSample]).1.ismptx := by
    intro misses
    have hne : strayReply.bytes ++ oneSample.bytes ≠ [] := by decide
    obtain ⟨-, mem, idx, heq, -, -⟩ :=
      @receive_eq ⟨strayReply.bytes ++ oneSample.bytes, by decide⟩ hne (awaiting misses)
    have hbase : (awaiting misses).base ⟨strayReply.bytes ++ oneSample.bytes, by decide⟩ = [] := rfl
    rw [hbase, frames_strayThenSample] at heq
    have hcongr := congrArg Host.ismptx heq
    exact hcongr
  have hthree : (run portStep [strayThenSample] (awaiting 3)).ismptx = 0 :=
    (hismptx 3).trans rfl
  have hzero : (run portStep [strayThenSample] (awaiting 0)).ismptx = 1 :=
    (hismptx 0).trans rfl
  have : (0 : Nat) = 1 := hthree.symm.trans (hsame.trans hzero)
  exact absurd this (by decide)

end Host
