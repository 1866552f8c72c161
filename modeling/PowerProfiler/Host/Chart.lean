-- SUMMARY: The chart of MainFrm.pas: what a capture runs with, the loop of AddCrfSamples, and the procedures that clear and show.
import PowerProfiler.Host.Frames

/-!
# The chart

`AddCrfSamples` takes the samples that `QueryPort` left in `bufsmp`, calibrates them and
appends them to the series. While `SamplesCount` is 0 it waits for the triggers; the pass
in which they rise clears the series and puts the sample before it in front. All values
are exact: a double is read as the rational number it stands for.
-/

open Circular

/-! ## Channels -/

/-- The two channels; a frame of two samples holds I first. -/
inductive Chan where
  | i
  | u
  deriving DecidableEq

/-- `CHART_I_MASK`, `CHART_U_MASK` -/
def Chan.mask : Chan → Nat
  | .i => 2
  | .u => 1

/-- What `ChartEnables` holds: 0 while nothing was started, else what `ButtonStartADCClick`
sets. -/
inductive ChartEnables where
  | off
  | u
  | i
  | ui
  deriving DecidableEq

namespace ChartEnables

/-- `CHART_U_MASK`, `CHART_I_MASK`, `CHART_UI_MASK` -/
def code : ChartEnables → Nat
  | .off => 0
  | .u => 1
  | .i => 2
  | .ui => 3

/-- `(ChartEnables and mask) <> 0` -/
def charts (m : ChartEnables) (c : Chan) : Bool := m.code &&& c.mask ≠ 0

end ChartEnables

/-- What a label shows: a mean behind `:`, a current value behind `#`. -/
inductive Caption where
  | mean (value : ℚ)
  | current (value : ℚ)
  deriving DecidableEq

/-- The variables that exist once for each channel, as `Ik`, `CurI`, `SumI` and so on, and
the points of the series. -/
structure Channel where
  k : ℚ
  zero : ℚ
  trigger : ℚ
  triggerEnable : Bool
  triggerLow : Bool
  cur : ℚ
  oldCur : ℚ
  sum : ℚ
  series : List (ℚ × ℚ)
  olds : ℚ
  caption : Caption
  deriving DecidableEq

/-- A double word of `bufsmp` as a number: from `$800000` on `$1000000` is taken off, on 32
bits. -/
def smpValue (w : UInt32) : Int :=
  if 0x800000 ≤ w then (w - 0x1000000).toInt32.toInt else w.toNat

namespace Channel

/-- The calibrated value of a double word. -/
def calibrate (c : Channel) (w : UInt32) : ℚ := smpValue w * c.k + c.zero

/-- The next sample; the one before it is kept. -/
def take (w : UInt32) (c : Channel) : Channel :=
  { c with oldCur := c.cur, cur := c.calibrate w }

/-- A sample below the threshold arms the trigger. -/
def watch (c : Channel) : Channel :=
  if c.triggerEnable ∧ c.cur < c.trigger then { c with triggerLow := true } else c

/-- The channel does not hold the capture back. -/
def risen (c : Channel) : Bool :=
  !c.triggerEnable || (!decide (c.cur < c.trigger) && c.triggerLow)

/-- The point before the trigger; it is the current value that enters the sum. -/
def insertOld (idx : ℚ) (c : Channel) : Channel :=
  { c with series := [(idx, c.oldCur)], sum := c.sum + c.cur }

def addXY (idx : ℚ) (c : Channel) : Channel :=
  { c with series := c.series ++ [(idx, c.cur)] }

def addSum (c : Channel) : Channel := { c with sum := c.sum + c.cur }

/-- The Y values of the series. -/
def values (c : Channel) : List ℚ := c.series.map Prod.snd

end Channel

/-! ## The form -/

/-- `Uk_adc`, `Uz_adc` or `Ik_adc`, `Iz_adc`: the calibration in the ADC dialog. -/
structure AdcCalibration where
  k : ℚ
  zero : ℚ
  deriving DecidableEq

/-- What the edits and check boxes of the form show. -/
structure Screen where
  maxSamples : Nat
  trigger : Chan → ℚ
  triggerRise : Chan → Bool

/-- The variables of the form that a capture uses. -/
structure Form where
  chartEnables : ChartEnables
  chan : Chan → Channel
  adc : Chan → AdcCalibration
  adcSmps : Nat
  maxSamples : Nat
  samplesCount : Nat
  samplesAutoStop : Bool

namespace Form

/-- Do the same to each charted channel. -/
def onCharted (f : Channel → Channel) (s : Form) : Form :=
  { s with chan := fun c => if s.chartEnables.charts c then f (s.chan c) else s.chan c }

/-- `Inc(SamplesCount)` -/
def incCount (s : Form) : Form := { s with samplesCount := s.samplesCount + 1 }

/-- The time between two samples in milliseconds. -/
def t (s : Form) : ℚ := 1000 / s.adcSmps

/-- `idx`, which is computed anew whenever `SamplesCount` changes. -/
def idx (s : Form) : ℚ := s.samplesCount * s.t

/-- `idx >= MaxSamples` -/
def Full (s : Form) : Prop := (s.maxSamples : ℚ) ≤ s.idx

instance (s : Form) : Decidable s.Full := inferInstanceAs (Decidable (_ ≤ _))

/-- `ClearGrf` -/
def clearGrf (s : Form) : Form :=
  { s with
    chan := fun c => { s.chan c with series := [], sum := 0 }
    samplesCount := 0 }

/-- `FormAdcConfig.GetParams` -/
def getParams (s : Form) : Form :=
  { s with chan := fun c => { s.chan c with k := (s.adc c).k, zero := (s.adc c).zero } }

/-- `SetParStart`, with what `GetScrParms` reads. -/
def setParStart (screen : Screen) (workAdc : Bool) (s : Form) : Form :=
  let s := { s with
    maxSamples := screen.maxSamples
    chan := fun c => { s.chan c with
      trigger := screen.trigger c
      triggerEnable := screen.triggerRise c
      triggerLow := false } }
  if workAdc then s.getParams else s

/-- `ShowLabelsMX` -/
def showLabelsMX (s : Form) : Form :=
  { s with chan := fun c =>
      let x := s.chan c
      if s.chartEnables.charts c ∧ s.samplesCount ≠ 0 then
        { x with olds := x.sum / s.samplesCount, caption := .mean (x.sum / s.samplesCount) }
      else { x with caption := .current x.oldCur } }

/-- The end of a capture at the limit. -/
def autoStop (s : Form) : Form := { s.showLabelsMX with samplesAutoStop := true }

/-! ## One pass of the loop -/

/-- The double words of one pass, as far as their channel is charted. -/
def take (word : Chan → UInt32) (s : Form) : Form :=
  { s with chan := fun c =>
      if s.chartEnables.charts c then (s.chan c).take (word c) else s.chan c }

/-- `flg`: no trigger holds the capture back. -/
def flg (s : Form) : Bool :=
  s.samplesCount != 0 ||
    ((!s.chartEnables.charts .i || (s.chan .i).risen) &&
      (!s.chartEnables.charts .u || (s.chan .u).risen))

/-- `TriggerIEnable or TriggerUEnable`, whatever is charted. -/
def anyTrigger (s : Form) : Bool := (s.chan .i).triggerEnable || (s.chan .u).triggerEnable

/-- Behind the new values: the wait for the triggers, and the point before the rise. -/
def start (flg : Bool) (s : Form) : Form :=
  if s.samplesCount = 0 then
    let s := s.onCharted Channel.watch
    if flg ∧ s.anyTrigger then (s.onCharted (Channel.insertOld s.idx)).incCount else s
  else s

/-- The point of the new values; it is counted when `flg` is set. -/
def plot (flg : Bool) (s : Form) : Form :=
  let s := s.onCharted (Channel.addXY s.idx)
  if flg then (s.onCharted Channel.addSum).incCount else s

/-- What a pass does to the form. -/
def absorb (word : Chan → UInt32) (s : Form) : Form :=
  let s := s.take word
  (s.start s.flg).plot s.flg

end Form

/-! ## The loop -/

/-- The program of the host. `call` holds `irx` and `itx` while `AddCrfSamples` runs. -/
structure App where
  host : Host
  form : Form
  call : Option (Nat × Nat)

/-- What becomes of `ReadStatus` and `StopReadDevice` at the limit: the first of them fails, the
second does, or both succeed. -/
inductive StopAnswer where
  | noStatus
  | noStop
  | stopped
  deriving DecidableEq

namespace App

/-- `ReadStatus` and `StopReadDevice` at the limit. Each round of the latter sets `purge_com`. -/
def stopDevice (stop : StopAnswer) (h : Host) : Host :=
  match stop with
  | .noStatus => h
  | .noStop => { h with purgeCom := true }
  | .stopped => { h with samplesEna := false, purgeCom := true }

/-- `AddCrfSamples` up to its loop. For a sample rate of zero the division raises an exception
before anything changes. -/
def addCrfSamples (a : App) : App :=
  if a.call = none ∧ a.form.adcSmps ≠ 0 then
    if a.form.Full then { a with form := a.form.autoStop }
    else { a with call := some (a.host.ismprx &&& smpBufCnt, a.host.ismptx &&& smpBufCnt) }
  else a

/-- Where a pass that starts at `irx` finds the sample of a channel. -/
def readAt (m : ChartEnables) (irx : Nat) : Chan → Nat
  | .i => irx
  | .u => if m.charts .i then (irx + 1) &&& smpBufCnt else irx

/-- `irx` behind a pass. -/
def nextIrx (m : ChartEnables) (irx : Nat) : Nat :=
  let irx := readAt m irx .u
  if m.charts .u then (irx + 1) &&& smpBufCnt else irx

/-- The double words of a pass that starts at `irx`. -/
def words (a : App) (irx : Nat) (c : Chan) : UInt32 :=
  a.host.bufsmp (readAt a.form.chartEnables irx c)

/-- One pass of the loop, or the way out of it. -/
def pass (stop : StopAnswer) (a : App) : App :=
  match a.call with
  | none => a
  | some (irx, itx) =>
      if irx = itx then { a with host := { a.host with ismprx := irx }, call := none }
      else
        let next := nextIrx a.form.chartEnables irx
        let flg := (a.form.take (a.words irx)).flg
        let form := a.form.absorb (a.words irx)
        if flg ∧ form.Full then
          { host := { stopDevice stop a.host with ismprx := next }
            form := form.autoStop
            call := none }
        else { a with form := form, call := some (next, itx) }

/-- A host that charts what arrives as it is. -/
def plain (m : ChartEnables) : App where
  host := {}
  form := {
    chartEnables := m
    chan := fun _ => ⟨1, 0, 0, false, false, 0, 0, 0, [], 0, .current 0⟩
    adc := fun _ => ⟨1, 0⟩
    adcSmps := 1000
    maxSamples := 1000
    samplesCount := 0
    samplesAutoStop := false }
  call := none

end App
