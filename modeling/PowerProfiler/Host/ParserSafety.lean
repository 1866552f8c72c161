-- SUMMARY: When the parser stays inside its arrays on every byte stream: exactly while no reply is longer than the array it is copied to.
import PowerProfiler.Host.Effects

/-!
# Memory safety of the parser

Lengths come from the wire. The limits on the accumulator and on the size byte keep every
access to `bufcom` and `bufsmp` in range and every count above zero, whatever arrives;
a reply is copied to `bufrx` unchecked.
-/

open Framing Runs

namespace Host

/-- One call of `QueryPort`: the state that the user interface has set before it, and what
`WriteFile` and `ReadFile` report. -/
structure Call where
  waitId : UInt8
  waitCnt : UInt32
  workAdc : Bool
  samplesEna : Bool
  purgeCom : Bool
  lentx : Nat
  written : Option Nat
  readed : Option Chunk

/-- The state in which the call begins. -/
def Call.enter (c : Call) (h : Host) : Host :=
  { h with
    waitId := c.waitId
    waitCnt := c.waitCnt
    workAdc := c.workAdc
    samplesEna := c.samplesEna
    purgeCom := c.purgeCom
    lentx := c.lentx }

/-- The state behind the call. -/
def callStep (c : Call) (h : Host) : Host := ((c.enter h).queryPort c.written c.readed).1

/-- The reply that the call takes, if it takes one, fits in `bufrx`. -/
def ReplyFits (c : Call) (h : Host) : Prop :=
  ∀ chunk ∈ c.readed, chunk.1 ≠ [] →
    ∀ f ∈ answer c.workAdc c.waitId c.waitCnt (frames ((c.enter h).purge.base chunk) chunk.1),
      f.payload.length ≤ bufrxSize

/-- Receiving leaves an array exactly when it takes a reply that is too long. -/
theorem receive_fault (chunk : Chunk) (h : Host) :
    (h.receive chunk).1.fault = false ↔
      h.fault = false ∧ (chunk.1 ≠ [] →
        ∀ f ∈ answer h.workAdc h.waitId h.waitCnt (frames (h.base chunk) chunk.1),
          f.payload.length ≤ bufrxSize) := by
  by_cases hne : chunk.1 = []
  · have hnone : h.receive chunk = (h, []) := by
      rw [receive, if_neg (by simp [hne])]
    rw [hnone]
    exact ⟨fun hf => ⟨hf, fun h => absurd hne h⟩, fun hf => hf.1⟩
  · obtain ⟨-, mem, idx, heq, -, -⟩ := receive_eq hne h
    have hfault := (handleAll_wait h (frames (h.base chunk) chunk.1)).2
    have hset : (h.receive chunk).1.fault = (h.handleAll (frames (h.base chunk) chunk.1)).1.fault := by
      rw [heq]
      rfl
    rw [hset, hfault, Bool.or_eq_false_iff, decide_eq_false_iff_not]
    simp only [not_exists, not_and, not_lt, ne_eq, hne, not_false_eq_true, true_implies]

/-- The parts of a call before the read touch no array. -/
theorem callStep_fault (c : Call) (h : Host) :
    (callStep c h).fault = false ↔ h.fault = false ∧ ReplyFits c h := by
  have hwrite : ∃ errtx lentx, ((c.enter h).purge).writeCommand c.written =
      { (c.enter h).purge with errtx := errtx, lentx := lentx } := by
    unfold writeCommand
    split
    · exact ⟨_, _, rfl⟩
    · exact ⟨_, _, rfl⟩
  have hpurge : ((c.enter h).purge).fault = h.fault ∧ ((c.enter h).purge).workAdc = c.workAdc ∧
      ((c.enter h).purge).waitId = c.waitId ∧ ((c.enter h).purge).waitCnt = c.waitCnt := by
    rw [purge]
    split <;> exact ⟨rfl, rfl, rfl, rfl⟩
  obtain ⟨errtx, lentx, hwrite⟩ := hwrite
  obtain ⟨hfault, hwork, hid, hcnt⟩ := hpurge
  unfold callStep queryPort ReplyFits
  rw [hwrite]
  rcases c.readed with _ | chunk
  · simp [hfault]
  · have hreceive := receive_fault chunk
      { (c.enter h).purge with errtx := errtx, lentx := lentx }
    dsimp only at hreceive ⊢
    rw [hreceive]
    simp only [hfault, hwork, hid, hcnt, Option.mem_some_iff, forall_eq']
    rfl

/-- On every byte stream, in every chunks and every state of the wait: the calls stay inside
the arrays and never count below zero exactly when every reply they take fits in `bufrx`. -/
theorem queryPort_safe_iff (h : Host) (calls : List Call) :
    (run callStep calls { h with fault := false }).fault = false ↔
      Along callStep ReplyFits calls { h with fault := false } := by
  induction calls using List.reverseRecOn with
  | nil => simp
  | append_singleton calls c ih => rw [run_snoc, along_snoc, callStep_fault, ih]

/-- A reply of 65 bytes to the command that is awaited. -/
def longReply : Frame where
  cmd := 0x38
  payload := List.replicate 65 0
  fits := by decide

/-- The call that receives it. -/
def longReplyCall : Call where
  waitId := 0x38
  waitCnt := 1
  workAdc := true
  samplesEna := true
  purgeCom := false
  lentx := 0
  written := none
  readed := some ⟨longReply.bytes, by decide⟩

theorem longReply_leaves_bufrx :
    ¬ ∀ (h : Host) (calls : List Call),
      (run callStep calls { h with fault := false }).fault = false := by
  intro hall
  have hsafe := hall {} [longReplyCall]
  rw [run_cons, run_nil, callStep_fault] at hsafe
  have hfits := hsafe.2 ⟨longReply.bytes, by decide⟩ rfl (by decide) longReply
  have hbase : (longReplyCall.enter { ({} : Host) with fault := false }).purge.base
      ⟨longReply.bytes, by decide⟩ = [] := rfl
  rw [hbase, (frames_bytes longReply (by decide)).1] at hfits
  exact absurd (hfits rfl) (by decide)

end Host
