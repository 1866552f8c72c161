-- SUMMARY: The user interface, the communication thread and the device as one machine: SendBlk and ReadBlk step by step, requests and frames on the way.
import PowerProfiler.Host.Commands
import PowerProfiler.Host.Chunking
import PowerProfiler.Host.SampleAppend

/-!
# The link between host and device

The user interface sends one command at a time and waits for its reply, with a limit on
both waits. The communication thread calls `QueryPort` in between. The device takes the
packets in order and answers each when it comes to it; its frames arrive whole and in
order, after any delay.
-/

open Framing Circular Runs

/-- A command of the user interface: what goes to `buftx` from the command byte on. The top
bit of a command byte marks errors. -/
structure Command where
  cmd : UInt8
  data : List UInt8
  low : cmd &&& 0x80 = 0
  notData : cmd ≠ cmdDevAdc
  fits : data.length ≤ 62

/-- The packet of a command. -/
def Command.bytes (c : Command) : List UInt8 := UInt8.ofNat c.data.length :: c.cmd :: c.data

/-- Where the thread of the user interface stands, with the count `x` of its waits. -/
inductive Ui where
  | idle
  | entering (x : Nat)
  | setSize (x : Nat)
  | setId (x : Nat)
  | setCnt (x : Nat)
  | setLen (x : Nat)
  | sending (x : Nat)
  | reading (x : Nat)
  | done (result : Bool)

/-- The machine: `sent` are the packets that `WriteFile` has taken so far, `answers` the states
in which the device has answered the first of them, and `wire` the frames on their way to the
host. -/
structure Link where
  host : Host := {}
  ui : Ui := .idle
  dataCount : UInt8 := 0
  sent : List (List UInt8) := []
  answers : List Device := []
  wire : List Frame := []

namespace Link

/-! ## The user interface -/

/-- A caller fills `buftx` and calls `SendBlk` and then `ReadBlk`. -/
def ask (c : Command) (s : Link) : Link :=
  { s with
    host := { s.host with buftx := copyTo s.host.buftx 1 (c.cmd :: c.data) }
    dataCount := UInt8.ofNat c.data.length
    ui := .entering 0 }

/-- One step of `SendBlk` or `ReadBlk`. -/
def uiStep (s : Link) : Link :=
  let h := s.host
  match s.ui with
  | .idle => s
  | .entering x =>
      if h.lentx ≠ 0 then
        if 5 < x + 1 then { s with host := { h with lentx := 0 }, ui := .idle }
        else { s with ui := .entering (x + 1) }
      else { s with ui := .setSize x }
  | .setSize x =>
      { s with host := { h with buftx := Function.update h.buftx 0 s.dataCount }, ui := .setId x }
  | .setId x => { s with host := { h with waitId := h.buftx 1 }, ui := .setCnt x }
  | .setCnt x => { s with host := { h with waitCnt := 1 }, ui := .setLen x }
  | .setLen x => { s with host := { h with lentx := s.dataCount.toNat + 2 }, ui := .sending x }
  | .sending x =>
      if h.lentx ≠ 0 then
        if 5 < x + 1 then { s with host := { h with lentx := 0 }, ui := .idle }
        else { s with ui := .sending (x + 1) }
      else if h.errtx ≠ 0 then { s with ui := .idle }
      else { s with ui := .reading 0 }
  | .reading x =>
      if h.waitCnt ≠ 0 then
        if 5 < x + 1 then { s with host := { h with waitCnt := 0 }, ui := .done false }
        else { s with ui := .reading (x + 1) }
      else { s with ui := .done h.readBlk }
  | .done _ => s

/-- No command is in progress. -/
def Ready (s : Link) : Prop := s.ui = .idle ∨ ∃ result, s.ui = .done result

/-- The assignments of `SendBlk`, one after the other. -/
theorem uiStep_sendBlk {s : Link} {x : Nat} (hui : s.ui = .setSize x) :
    uiStep^[4] s = { s with host := s.host.sendBlk s.dataCount, ui := .sending x } := by
  obtain ⟨host, ui, dataCount, sent, answers, wire⟩ := s
  obtain rfl : ui = .setSize x := hui
  rfl

/-! ## The device -/

/-- How many packets the device has answered. -/
def answered (s : Link) : Nat := s.answers.length

/-- The device answers the oldest packet it has not answered. -/
def answer (d : Device) (s : Link) : Link :=
  match s.sent[s.answered]? with
  | none => s
  | some packet =>
      { s with
        answers := s.answers ++ [d]
        wire := s.wire ++ (decodePacket packet d).2.toList }

/-! ## The communication thread -/

/-- The frames that one `ReadFile` delivers, when `k` have arrived. -/
def arrivals (k : Nat) (wire : List Frame) : List Frame :=
  if (stream (wire.take k)).length ≤ buffSize then wire.take k else []

theorem length_arrivals (k : Nat) (wire : List Frame) :
    (stream (arrivals k wire)).length ≤ buffSize := by
  rw [arrivals]
  split
  next hfits => exact hfits
  · exact Nat.zero_le _

/-- Their bytes. -/
def arrived (k : Nat) (wire : List Frame) : Chunk := ⟨stream (arrivals k wire), length_arrivals k wire⟩

/-- The packets that the device has behind `WriteFile`. -/
def deliver (written : Option Nat) (s : Link) : List (List UInt8) :=
  if s.host.lentx ≠ 0 ∧ written = some s.host.lentx then s.sent ++ [s.host.packet] else s.sent

/-- The frames on their way behind a purge that found `purged` of them in the port. -/
def purgeWire (purged : Nat) (s : Link) : List Frame :=
  if s.host.purgeCom then s.wire.drop purged else s.wire

/-- One call of `QueryPort`. Between its write and its read the device answers packets, each in
the state given; then `readed` frames have arrived, or `ReadFile` fails. -/
def query (written : Option Nat) (purged : Nat) (answers : List Device) (readed : Option Nat)
    (s : Link) : Link :=
  let s₁ := answers.foldl (fun s d => s.answer d)
    { s with sent := s.deliver written, wire := s.purgeWire purged }
  match readed with
  | none => { s₁ with host := (s.host.queryPort written none).1 }
  | some k =>
      { s₁ with
        host := (s.host.queryPort written (some (arrived k s₁.wire))).1
        wire := s₁.wire.drop (arrivals k s₁.wire).length }

/-! ## Runs -/

/-- What can happen while a command is in progress. -/
inductive Event where
  /-- The user interface makes its next step. -/
  | ui
  /-- It asks for a purge. -/
  | purge
  /-- It changes its mode. -/
  | measure (workAdc samplesEna : Bool)
  /-- The communication thread calls `QueryPort`. -/
  | query (written : Option Nat) (purged : Nat) (answers : List Device) (readed : Option Nat)
  /-- The device answers a packet. -/
  | answer (d : Device)
  /-- The device sends a block of samples. -/
  | block (b : Host.DataBlock)

def step : Event → Link → Link
  | .ui, s => s.uiStep
  | .purge, s => { s with host := { s.host with purgeCom := true } }
  | .measure workAdc samplesEna, s =>
      { s with host := { s.host with workAdc := workAdc, samplesEna := samplesEna } }
  | .query written purged answers readed, s => s.query written purged answers readed
  | .answer d, s => s.answer d
  | .block b, s => { s with wire := s.wire ++ [b.frame] }

/-- The machine is reached from its start, command after command. -/
inductive Reachable : Link → Prop
  | start : Reachable {}
  | step {s : Link} (hs : Reachable s) (e : Event) : Reachable (step e s)
  | ask {s : Link} (hs : Reachable s) (hready : s.Ready) (c : Command) : Reachable (ask c s)

end Link
