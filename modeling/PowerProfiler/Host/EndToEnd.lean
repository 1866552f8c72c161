-- SUMMARY: From data_buffer to the chart: blocks of task_data_out, one a ReadFile, through bufsmp into the series of the right channel.
import PowerProfiler.Firmware.SampleInvariant
import PowerProfiler.Host.SampleAppend
import PowerProfiler.Host.WavRoundTrip

/-!
# From the device to the chart

The device sends the words of `data_buffer` forty at a time, three bytes each; the host puts
them behind one another in `bufsmp` and plots them in pairs, or one by one. With room in
`bufsmp` and below the limit the series hold the values of all words sent, in order.
-/

open Circular Runs

/-! ## The chain -/

/-- The device and the host, with the words of the blocks sent so far. -/
structure Chain where
  device : Device
  app : App
  words : List UInt32

inductive ChainEvent where
  /-- `task_data_out` runs with these words in `data_buffer` and this write pointer; a block
  that it builds is what the next `ReadFile` of `QueryPort` delivers. -/
  | block (mem : Nat → UInt32) (wr : Fin dataBufCnt) (written : Option Nat)
  /-- `AddCrfSamples` is called and makes its passes. -/
  | timer (stop : StopAnswer)

/-- `QueryPort` receives the bytes of a block. -/
def Host.receiveBlock (written : Option Nat) (samples : List UInt32) (h : Host) : Host :=
  if hlen : (dataBlkOut samples).length ≤ buffSize then
    (h.queryPort written (some ⟨dataBlkOut samples, hlen⟩)).1
  else h

/-- The words of the block that starts at `prd`, in the order of the ring. -/
def deviceWords (mem : Nat → UInt32) (prd : Nat) : List UInt32 := (blockSlots prd).map mem

/-- A call of `AddCrfSamples` with more passes than `bufsmp` has slots. -/
def App.timer (stop : StopAnswer) (a : App) : App :=
  (App.pass stop)^[Host.smpSlots] a.addCrfSamples

def chainStep : ChainEvent → Chain → Chain
  | .block mem wr written, s =>
      let d := { s.device with dataBuffer := mem, dataBufferWrPtr := wr.1 }
      match (taskDataOut d).2 with
      | none => { s with device := (taskDataOut d).1 }
      | some samples =>
          { device := (taskDataOut d).1
            app := { s.app with host := s.app.host.receiveBlock written samples }
            words := s.words ++ deviceWords mem s.device.dataBufferRdPtr }
  | .timer stop, s => { s with app := s.app.timer stop }

@[simp] theorem chainStep_timer (stop : StopAnswer) (s : Chain) :
    chainStep (.timer stop) s = { s with app := s.app.timer stop } := rfl

/-! ## What the chart should hold -/

/-- Two's complement on 24 bits. -/
def signed24 (n : Nat) : Int := if n < 2 ^ 23 then n else n - 2 ^ 24

/-- The words at even positions. -/
def evens : List UInt32 → List UInt32
  | a :: _ :: ws => a :: evens ws
  | _ => []

/-- The words at odd positions. -/
def odds : List UInt32 → List UInt32
  | _ :: b :: ws => b :: odds ws
  | _ => []

/-- The words that belong to a channel. -/
def ChartEnables.wordsFor (m : ChartEnables) (c : Chan) (ws : List UInt32) : List UInt32 :=
  match m, c with
  | .ui, .i => evens ws
  | .ui, .u => odds ws
  | .u, .u => ws
  | .i, .i => ws
  | _, _ => []

/-- The values of device words on a channel. -/
def Form.wordValues (s : Form) (c : Chan) (ws : List UInt32) : List ℚ :=
  (s.chartEnables.wordsFor c ws).map fun w =>
    signed24 (w.toNat % 2 ^ 24) * (s.chan c).k + (s.chan c).zero

/-! ## Words in `bufsmp` -/

/-- A word as it arrives: its lower 24 bits. -/
def low24 (w : UInt32) : UInt32 := UInt32.ofNat (w.toNat % 2 ^ 24)

theorem toNat_low24 (w : UInt32) : (low24 w).toNat = w.toNat % 2 ^ 24 := by
  rw [low24, UInt32.toNat_ofNat']
  exact Nat.mod_eq_of_lt ((Nat.mod_lt _ (by decide)).trans (by decide))

theorem smpValue_low24 (w : UInt32) : smpValue (low24 w) = signed24 (w.toNat % 2 ^ 24) := by
  rw [smpValue_eq (by rw [toNat_low24]; exact Nat.mod_lt _ (by decide)), toNat_low24, signed24]

/-- The three bytes of a word come back as its lower 24 bits. -/
theorem samplesOf_flatMap (ws : List UInt32) :
    Host.samplesOf (ws.flatMap sampleBytes) = ws.map low24 := by
  induction ws with
  | nil => rfl
  | cons w ws ih =>
      have hbyte : ∀ x : UInt32, x.toUInt8.toNat = x.toNat % 256 := UInt32.toNat_toUInt8
      have hshift : (w >>> 16).toNat = w.toNat / 65536 := by
        rw [UInt32.toNat_shiftRight]
        exact Nat.shiftRight_eq_div_pow _ 16
      have hword : w.toUInt8.toUInt32 ||| ((w >>> 8).toUInt8.toUInt32 <<< 8) |||
          ((w >>> 16).toUInt8.toUInt32 <<< 16) = low24 w := by
        rw [← UInt32.toNat_inj, Bytes.toNat_or3, toNat_low24, hbyte, hbyte, hbyte,
          Bytes.toNat_shiftRight8, hshift]
        omega
      rw [List.flatMap_cons, sampleBytes]
      show (_ :: Host.samplesOf (ws.flatMap sampleBytes)) = _
      rw [ih, hword]
      rfl

/-! ## Words in groups -/

/-- Words in pairs, I first. -/
def pairs : List UInt32 → List SampleGroup
  | a :: b :: ws => (fun c => match c with | .i => a | .u => b) :: pairs ws
  | _ => []

/-- The groups that the passes take from words. -/
def ChartEnables.groupsOf : ChartEnables → List UInt32 → List SampleGroup
  | .off, _ => []
  | .u, ws => ws.map fun w _ => w
  | .i, ws => ws.map fun w _ => w
  | .ui, ws => pairs ws

/-- What is left behind the last pair. -/
theorem length_lt_two {ws : List UInt32} (h : ∀ a b rest, ws = a :: b :: rest → False) :
    ws.length < 2 := by
  rcases ws with _ | ⟨a, _ | ⟨b, rest⟩⟩
  · simp
  · simp
  · exact absurd rfl (h a b rest)

theorem halves_of_short {ws : List UInt32} (h : ws.length < 2) :
    pairs ws = [] ∧ evens ws = [] ∧ odds ws = [] := by
  rcases ws with _ | ⟨a, _ | ⟨b, rest⟩⟩
  · exact ⟨rfl, rfl, rfl⟩
  · exact ⟨rfl, rfl, rfl⟩
  · simp at h

theorem flatMap_pairs {ws : List UInt32} (h : 2 ∣ ws.length) :
    (pairs ws).flatMap ChartEnables.ui.wordsOf = ws ∧ 2 * (pairs ws).length = ws.length := by
  induction ws using pairs.induct with
  | case1 a b ws ih =>
      have hws : 2 ∣ ws.length := by
        simp only [List.length_cons] at h
        omega
      obtain ⟨hflat, hlen⟩ := ih hws
      rw [pairs, List.flatMap_cons, hflat]
      refine ⟨rfl, ?_⟩
      simp only [List.length_cons]
      omega
  | case2 ws hws =>
      have hshort := length_lt_two hws
      obtain rfl : ws = [] := List.eq_nil_of_length_eq_zero (by omega)
      exact ⟨rfl, rfl⟩

/-- Whole groups are taken from whole words. -/
theorem flatMap_groupsOf {m : ChartEnables} (hoff : m ≠ .off) {ws : List UInt32}
    (h : m.width ∣ ws.length) :
    (m.groupsOf ws).flatMap m.wordsOf = ws ∧ m.width * (m.groupsOf ws).length = ws.length := by
  cases m with
  | off => exact absurd rfl hoff
  | u | i =>
      have hflat : ∀ c, (ws.map fun w (_ : Chan) => w).flatMap (fun g => [g c]) = ws := by
        intro c
        simp [List.flatMap_map]
      refine ⟨hflat _, by simp [ChartEnables.groupsOf, ChartEnables.width]⟩
  | ui => exact flatMap_pairs h

theorem map_pairs (f : UInt32 → ℚ) (ws : List UInt32) :
    (pairs ws).map (fun g => f (g .i)) = (evens ws).map f ∧
      (pairs ws).map (fun g => f (g .u)) = (odds ws).map f := by
  induction ws using pairs.induct with
  | case1 a b ws ih => simp [pairs, evens, odds, ih.1, ih.2]
  | case2 ws hws =>
      obtain ⟨hpairs, hevens, hodds⟩ := halves_of_short (length_lt_two hws)
      simp [hpairs, hevens, hodds]

theorem map_low24 (ws : List UInt32) :
    evens (ws.map low24) = (evens ws).map low24 ∧ odds (ws.map low24) = (odds ws).map low24 := by
  induction ws using pairs.induct with
  | case1 a b ws ih => simp [evens, odds, ih.1, ih.2]
  | case2 ws hws =>
      have hshort := length_lt_two hws
      obtain ⟨-, hevens, hodds⟩ := halves_of_short hshort
      have hshort' : (ws.map low24).length < 2 := by rwa [List.length_map]
      obtain ⟨-, hevens', hodds'⟩ := halves_of_short hshort'
      simp [hevens, hodds, hevens', hodds']

/-- The values of the groups are those of the words of the channel. -/
theorem Form.map_value_groupsOf (s : Form) {c : Chan} (hc : s.chartEnables.charts c = true)
    (ws : List UInt32) :
    (s.chartEnables.groupsOf (ws.map low24)).map (s.value c) = s.wordValues c ws := by
  have hvalue : ∀ w, (s.chan c).calibrate (low24 w) =
      signed24 (w.toNat % 2 ^ 24) * (s.chan c).k + (s.chan c).zero := by
    intro w
    rw [Channel.calibrate, smpValue_low24]
  rw [wordValues]
  cases hm : s.chartEnables <;> rw [hm] at hc <;> cases c
  · cases hc
  · cases hc
  · cases hc
  · simp [ChartEnables.groupsOf, ChartEnables.wordsFor, value, hvalue]
  · simp [ChartEnables.groupsOf, ChartEnables.wordsFor, value, hvalue]
  · cases hc
  · have hmap := (map_pairs (s.chan .i).calibrate (ws.map low24)).1
    rw [(map_low24 ws).1, List.map_map] at hmap
    exact hmap.trans (List.map_congr_left fun w _ => hvalue w)
  · have hmap := (map_pairs (s.chan .u).calibrate (ws.map low24)).2
    rw [(map_low24 ws).2, List.map_map] at hmap
    exact hmap.trans (List.map_congr_left fun w _ => hvalue w)

theorem evens_append {xs : List UInt32} (h : 2 ∣ xs.length) (ys : List UInt32) :
    evens (xs ++ ys) = evens xs ++ evens ys ∧ odds (xs ++ ys) = odds xs ++ odds ys := by
  induction xs using pairs.induct with
  | case1 a b ws ih =>
      have hws : 2 ∣ ws.length := by
        simp only [List.length_cons] at h
        omega
      obtain ⟨he, ho⟩ := ih hws
      simp [evens, odds, he, ho]
  | case2 ws hws =>
      have hshort := length_lt_two hws
      obtain rfl : ws = [] := List.eq_nil_of_length_eq_zero (by omega)
      exact ⟨rfl, rfl⟩

/-- Behind whole groups the words of a channel go on. -/
theorem Form.wordValues_append (s : Form) (c : Chan) {xs : List UInt32}
    (h : s.chartEnables.width ∣ xs.length) (ys : List UInt32) :
    s.wordValues c (xs ++ ys) = s.wordValues c xs ++ s.wordValues c ys := by
  rw [wordValues, wordValues, wordValues, ← List.map_append]
  congr 1
  cases hm : s.chartEnables <;> rw [hm] at h <;> cases c
  · rfl
  · rfl
  · rfl
  · rfl
  · rfl
  · rfl
  · exact (evens_append h ys).1
  · exact (evens_append h ys).2

/-! ## One block -/

/-- The block of forty samples as the host sees it. -/
def dataBlockOf (samples : List UInt32) (hlen : samples.length = data24BlkCnt) : Host.DataBlock where
  payload := samples.flatMap sampleBytes
  count := data24BlkCnt
  length_eq := by
    rw [List.length_flatMap]
    simp [hlen, data24BlkCnt, data8BlkCnt]
  count_pos := by decide
  count_le := by decide

theorem bytes_dataBlockOf {samples : List UInt32} (hlen : samples.length = data24BlkCnt) :
    (dataBlockOf samples hlen).chunk.1 = dataBlkOut samples := by
  have hpayload : (samples.flatMap sampleBytes).length = data8BlkCnt := (dataBlockOf samples hlen).length_eq
  show (dataBlockOf samples hlen).frame.bytes = _
  rw [Framing.Frame.bytes, dataBlkOut, ← hpayload]
  rfl

/-- What the host does with a block. -/
theorem receiveBlock_eq {h : Host} (hmeas : Host.Measuring h) (written : Option Nat)
    {samples : List UInt32} (hlen : samples.length = data24BlkCnt) :
    Host.Measuring (h.receiveBlock written samples) ∧
      (h.receiveBlock written samples).bufsmp =
        fill h.bufsmp Host.smpSlots (Host.storeStart h.ismptx) (samples.map low24) ∧
      (h.receiveBlock written samples).ismptx =
        (Host.storeStart h.ismptx + data24BlkCnt) % Host.smpSlots ∧
      (h.receiveBlock written samples).ismprx = h.ismprx := by
  have hbytes := bytes_dataBlockOf hlen
  have hsize : (dataBlkOut samples).length ≤ buffSize := by
    rw [← hbytes]
    exact (dataBlockOf samples hlen).chunk.2
  have hreceive : h.receiveBlock written samples =
      (h.queryPort written (some (dataBlockOf samples hlen).chunk)).1 := by
    rw [Host.receiveBlock, dif_pos hsize]
    have hchunk : (⟨dataBlkOut samples, hsize⟩ : Chunk) = (dataBlockOf samples hlen).chunk :=
      Subtype.ext hbytes.symm
    rw [hchunk]
  have hsamples : (dataBlockOf samples hlen).samples = samples.map low24 := samplesOf_flatMap samples
  rw [hreceive, ← hsamples]
  exact hmeas.query written _

theorem length_deviceWords (mem : Nat → UInt32) (prd : Nat) :
    (deviceWords mem prd).length = data24BlkCnt := by
  rw [deviceWords, List.length_map, length_blockSlots]

/-- All that `task_data_out` can do with a ring of these words. -/
theorem task_cases {d : Device} (hrd : d.dataBufferRdPtr < dataBufCnt)
    (hwr : d.dataBufferWrPtr < dataBufCnt) :
    (taskDataOut d = (d, none)) ∨
      ((taskDataOut d).2 = some (deviceWords d.dataBuffer d.dataBufferRdPtr) ∧
        (taskDataOut d).1.dataBufferRdPtr = slot dataBufCnt d.dataBufferRdPtr data24BlkCnt) := by
  rw [taskDataOut, blockIndices_eq hrd hwr]
  by_cases hpend : data24BlkCnt ≤ pending d.dataBufferRdPtr d.dataBufferWrPtr
  · refine .inr ⟨by rw [if_pos hpend]; rfl, ?_⟩
    simp only [if_pos hpend]
    rw [(sendBlock_same _ _).rd]
    show (d.dataBufferRdPtr + (blockSlots d.dataBufferRdPtr).length) &&& (dataBufCnt - 1) = _
    rw [and_mask, length_blockSlots]
    rfl
  · exact .inl (by rw [if_neg hpend])

/-- All that a block event can do: nothing is pending, or the host receives the next words. -/
theorem chainStep_block {s : Chain} (hrd : s.device.dataBufferRdPtr < dataBufCnt)
    (mem : Nat → UInt32) (wr : Fin dataBufCnt) (written : Option Nat) :
    (∃ d, chainStep (.block mem wr written) s = { s with device := d } ∧
        d.dataBufferRdPtr = s.device.dataBufferRdPtr) ∨
      ∃ d, chainStep (.block mem wr written) s =
          { device := d
            app := { s.app with host :=
              s.app.host.receiveBlock written (deviceWords mem s.device.dataBufferRdPtr) }
            words := s.words ++ deviceWords mem s.device.dataBufferRdPtr } ∧
        d.dataBufferRdPtr = slot dataBufCnt s.device.dataBufferRdPtr data24BlkCnt := by
  rw [chainStep]
  rcases task_cases (d := { s.device with dataBuffer := mem, dataBufferWrPtr := wr.1 }) hrd wr.2 with
    hnone | ⟨hsome, hptr⟩
  · rw [hnone]
    exact .inl ⟨_, rfl, rfl⟩
  · simp only [hsome]
    exact .inr ⟨_, rfl, hptr⟩

/-! ## Groups on the chart -/

namespace Form

variable {s : Form}

/-- With room and without triggers a group becomes one more point. -/
theorem values_feed (hroom : ¬ s.Full) (htrig : s.anyTrigger = false) (g : SampleGroup) :
    (s.feed g).samplesCount = s.samplesCount + 1 ∧
      ∀ c, s.chartEnables.charts c = true →
        ((s.feed g).chan c).values = (s.chan c).values ++ [s.value c g] := by
  have hflg := flg_of_counting (.inr htrig) g
  refine ⟨?_, fun c hc => ?_⟩
  · rw [count_feed hroom, count_absorb_of_plot hflg (.inr htrig)]
  · obtain ⟨_, _, heq⟩ := chan_feed hroom g c
    rw [heq, chan_absorb_of_plot hflg (.inr htrig) hc]
    simp [Channel.values, value]

/-- The series of the other channel stays as it is. -/
theorem values_feed_other (htrig : s.anyTrigger = false) (g : SampleGroup) {c : Chan}
    (hc : s.chartEnables.charts c = false) : ((s.feed g).chan c).values = (s.chan c).values := by
  by_cases hroom : s.Full
  · simp [feed, hroom]
  · obtain ⟨_, _, heq⟩ := chan_feed hroom g c
    rw [heq, absorb_of_plot (flg_of_counting (.inr htrig) g) (.inr htrig)]
    simp [Channel.values, hc]

theorem values_foldl_other (htrig : s.anyTrigger = false) (gs : List SampleGroup) {c : Chan}
    (hc : s.chartEnables.charts c = false) :
    ((gs.foldl Form.feed s).chan c).values = (s.chan c).values := by
  induction gs generalizing s with
  | nil => rfl
  | cons g gs ih =>
      have hset := s.sameSetup_feed g
      rw [List.foldl_cons, ih (hset.anyTrigger.trans htrig) (by rwa [hset.chartEnables]),
        values_feed_other htrig g hc]

theorem wordValues_other {c : Chan} (hc : s.chartEnables.charts c = false) (ws : List UInt32) :
    s.wordValues c ws = [] := by
  rw [wordValues]
  cases hm : s.chartEnables <;> rw [hm] at hc <;> cases c
  · rfl
  · rfl
  · rfl
  · cases hc
  · cases hc
  · rfl
  · cases hc
  · cases hc

/-- Below the limit groups become points in their order. -/
theorem values_foldl (htrig : s.anyTrigger = false) {gs : List SampleGroup}
    (hroom : ¬ (gs.foldl Form.feed s).Full) :
    (gs.foldl Form.feed s).samplesCount = s.samplesCount + gs.length ∧
      ∀ c, s.chartEnables.charts c = true →
        ((gs.foldl Form.feed s).chan c).values =
          (s.chan c).values ++ gs.map (s.value c) := by
  induction gs generalizing s with
  | nil => exact ⟨rfl, fun c _ => (List.append_nil _).symm⟩
  | cons g gs ih =>
      have hroom₀ : ¬ s.Full := by
        intro hfull
        rw [feed_of_full hfull] at hroom
        exact hroom hfull
      have hset := s.sameSetup_feed g
      obtain ⟨hcount, hvalues⟩ := values_feed hroom₀ htrig g
      obtain ⟨hcount', hvalues'⟩ := ih (hset.anyTrigger.trans htrig) hroom
      refine ⟨?_, fun c hc => ?_⟩
      · rw [List.foldl_cons, hcount', hcount, List.length_cons, Nat.add_assoc, Nat.add_comm 1]
      · have hvalue : (s.feed g).value c = s.value c := funext fun g' => value_of_setup hset c g'
        rw [List.foldl_cons, hvalues' c (by rwa [hset.chartEnables]), hvalues c hc, hvalue,
          List.append_assoc]
        rfl

/-- A chart with room can be filled up. -/
theorem settled_of_room (hroom : ¬ s.Full) : s.Settled := by
  refine ⟨Nat.pos_of_ne_zero fun hzero => hroom ?_, fun hfull => absurd hfull hroom⟩
  have ht : 0 ≤ s.idx := mul_nonneg (Nat.cast_nonneg _) (div_nonneg (by simp) (Nat.cast_nonneg _))
  simpa [Full, hzero] using ht

end Form

/-! ## The link -/

/-- The words that were plotted are a first part of those that were sent, and the others lie
in `bufsmp`. -/
structure Linked (s₀ : Chain) (n : Nat) (s : Chain) : Prop where
  setup : SameSetup s₀.app.form s.app.form
  host : Host.Measuring s.app.host
  call : s.app.call = none
  room : ¬ s.app.form.Full
  rd : s.device.dataBufferRdPtr = slot dataBufCnt s₀.device.dataBufferRdPtr s.words.length
  even : 2 ∣ s.words.length
  count : s.app.form.samplesCount = s₀.app.form.samplesCount + n
  plotted : s₀.app.form.chartEnables.width * n ≤ s.words.length
  backlog : s.words.length - s₀.app.form.chartEnables.width * n < Host.smpSlots
  ismprx : s.app.host.ismprx = s₀.app.form.chartEnables.width * n % Host.smpSlots
  ismptx : s.app.host.ismptx = s.words.length % Host.smpSlots
  window : Holds s.app.host.bufsmp Host.smpSlots (s₀.app.form.chartEnables.width * n)
    ((s.words.drop (s₀.app.form.chartEnables.width * n)).map low24)
  values : ∀ c, s₀.app.form.chartEnables.charts c = true →
    (s.app.form.chan c).values = (s₀.app.form.chan c).values ++
      s₀.app.form.wordValues c (s.words.take (s₀.app.form.chartEnables.width * n))
  others : ∀ c, s₀.app.form.chartEnables.charts c = false →
    (s.app.form.chan c).values = (s₀.app.form.chan c).values

/-- Behind the step the limit is not reached and `bufsmp` has not run over. -/
structure Bounded (s₀ : Chain) (e : ChainEvent) (s : Chain) : Prop where
  room : ¬ (chainStep e s).app.form.Full
  backlog : (chainStep e s).words.length - s₀.app.form.chartEnables.width *
    ((chainStep e s).app.form.samplesCount - s₀.app.form.samplesCount) < Host.smpSlots

namespace Linked

variable {s₀ s : Chain} {n : Nat}

theorem count_sub (h : Linked s₀ n s) :
    s.app.form.samplesCount - s₀.app.form.samplesCount = n := by
  have hcount := h.count
  omega

/-- A block goes behind the words that wait in `bufsmp`. -/
theorem block (h : Linked s₀ n s) (mem : Nat → UInt32) (wr : Fin dataBufCnt) (written : Option Nat)
    (hb : Bounded s₀ (.block mem wr written) s) :
    Linked s₀ n (chainStep (.block mem wr written) s) := by
  have hrd' : s.device.dataBufferRdPtr < dataBufCnt := by
    rw [h.rd]
    exact slot_lt (by decide) _ _
  rcases chainStep_block hrd' mem wr written with ⟨d, heq, hptr⟩ | ⟨d, heq, hptr⟩
  · rw [heq]
    exact ⟨h.setup, h.host, h.call, h.room, hptr.trans h.rd, h.even, h.count, h.plotted, h.backlog,
      h.ismprx, h.ismptx, h.window, h.values, h.others⟩
  · obtain ⟨-, hlen⟩ := hb
    rw [heq] at hlen ⊢
    have hwords : (deviceWords mem s.device.dataBufferRdPtr).length = data24BlkCnt :=
      length_deviceWords _ _
    obtain ⟨hmeas, hsmp, htx, hrx⟩ := receiveBlock_eq h.host written hwords
    have hstart : Host.storeStart s.app.host.ismptx = s.words.length % Host.smpSlots := by
      have heven := h.even
      rw [h.ismptx]
      refine Host.storeStart_of_even (Nat.mod_lt _ (by decide)) ?_
      simp only [Host.smpSlots, smpBufCnt]
      omega
    rw [hstart] at hsmp htx
    have hback := h.plotted
    have hlen' : (s.words ++ deviceWords mem s.device.dataBufferRdPtr).length -
        s₀.app.form.chartEnables.width * n < Host.smpSlots := by
      rw [← h.count_sub]
      exact hlen
    rw [List.length_append] at hlen'
    refine ⟨h.setup, hmeas, h.call, h.room, ?_, ?_, h.count, ?_, ?_, hrx.trans h.ismprx, ?_, ?_, ?_,
      h.others⟩
    · rw [hptr, List.length_append, hwords, h.rd, slot_slot]
    · rw [List.length_append, hwords]
      exact dvd_add h.even (by decide)
    · rw [List.length_append]
      omega
    · rw [List.length_append]
      exact hlen'
    · show (Host.receiveBlock _ _ _).ismptx = _
      rw [htx, List.length_append, hwords, Nat.mod_add_mod]
    · show Holds (Host.receiveBlock _ _ _).bufsmp _ _ _
      have hpos : s.words.length % Host.smpSlots % Host.smpSlots =
          (s₀.app.form.chartEnables.width * n + ((s.words.drop
            (s₀.app.form.chartEnables.width * n)).map low24).length) % Host.smpSlots := by
        rw [Nat.mod_mod, List.length_map, List.length_drop, Nat.add_sub_cancel' hback]
      rw [hsmp, fill_congr_start _ hpos, List.drop_append_of_le_length hback, List.map_append]
      apply h.window.fill
      rw [List.length_map, List.length_map, List.length_drop]
      omega
    · intro c hc
      show (s.app.form.chan c).values = _
      rw [h.values c hc, List.take_append_of_le_length hback]

/-- The groups that wait in `bufsmp`. -/
abbrev waiting (s₀ : Chain) (n : Nat) (s : Chain) : List SampleGroup :=
  s₀.app.form.chartEnables.groupsOf
    ((s.words.drop (s₀.app.form.chartEnables.width * n)).map low24)

/-- They are all the words that wait. -/
theorem flatMap_waiting (h : Linked s₀ n s) (hoff : s₀.app.form.chartEnables ≠ .off) :
    (waiting s₀ n s).flatMap s₀.app.form.chartEnables.wordsOf =
        (s.words.drop (s₀.app.form.chartEnables.width * n)).map low24 ∧
      s₀.app.form.chartEnables.width * (n + (waiting s₀ n s).length) = s.words.length := by
  have hplot := h.plotted
  have hwidth : s₀.app.form.chartEnables.width ∣ s.words.length := by
    have heven := h.even
    cases hm : s₀.app.form.chartEnables with
    | off => exact absurd hm hoff
    | u | i => exact one_dvd _
    | ui => exact heven
  have hdvd : s₀.app.form.chartEnables.width ∣
      ((s.words.drop (s₀.app.form.chartEnables.width * n)).map low24).length := by
    rw [List.length_map, List.length_drop]
    exact Nat.dvd_sub hwidth (dvd_mul_right _ _)
  obtain ⟨hflat, hlen⟩ := flatMap_groupsOf hoff hdvd
  refine ⟨hflat, ?_⟩
  rw [List.length_map, List.length_drop] at hlen
  rw [Nat.mul_add, hlen, Nat.add_sub_cancel' hplot]

/-- A call that is entered has them before it. -/
theorem enters (h : Linked s₀ n s) (hoff : s₀.app.form.chartEnables ≠ .off)
    (hadc : s₀.app.form.adcSmps ≠ 0) :
    ∃ call, s.app.addCrfSamples = { s.app with call := call } ∧
      App.Backlog s.app.addCrfSamples (waiting s₀ n s) s.app.host.ismptx := by
  obtain ⟨hflat, hlen⟩ := h.flatMap_waiting hoff
  have hplot := h.plotted
  have hback := h.backlog
  have hmode := h.setup.chartEnables
  have hrx : s.app.host.ismprx < Host.smpSlots := by
    rw [h.ismprx]
    exact Nat.mod_lt _ (by decide)
  have htx : s.app.host.ismptx < Host.smpSlots := by
    rw [h.ismptx]
    exact Nat.mod_lt _ (by decide)
  have henter : s.app.addCrfSamples =
      { s.app with call := some (s.app.host.ismprx, s.app.host.ismptx) } := by
    rw [App.addCrfSamples, if_pos ⟨h.call, by rwa [h.setup.adcSmps]⟩, if_neg h.room,
      Host.and_smpBufCnt, Host.and_smpBufCnt, Nat.mod_eq_of_lt hrx, Nat.mod_eq_of_lt htx]
  refine ⟨_, henter, ?_⟩
  rw [henter]
  refine ⟨?_, ⟨s.app.host.ismprx, rfl, hrx, ?_, ?_⟩, ?_⟩
  · show s.app.form.chartEnables ≠ _
    rwa [hmode]
  · show _ = slot _ _ (List.flatMap s.app.form.chartEnables.wordsOf _).length
    rw [hmode, hflat, h.ismptx, h.ismprx, slot_mod, slot, List.length_map, List.length_drop,
      Nat.add_sub_cancel' hplot]
  · show Holds _ _ _ (List.flatMap s.app.form.chartEnables.wordsOf _)
    rw [hmode, hflat, h.ismprx]
    intro i hi
    rw [slot_mod]
    exact h.window i hi
  · show (List.flatMap s.app.form.chartEnables.wordsOf _).length < _
    rw [hmode, hflat, List.length_map, List.length_drop]
    exact hback

/-- It returns behind all of them. -/
theorem returned (h : Linked s₀ n s) (hoff : s₀.app.form.chartEnables ≠ .off)
    (hadc : s₀.app.form.adcSmps ≠ 0) (stop : StopAnswer) :
    App.Returned s.app (waiting s₀ n s) s.app.host.ismptx (s.app.timer stop) := by
  obtain ⟨call, henter, hback⟩ := h.enters hoff hadc
  obtain ⟨-, hlen⟩ := h.flatMap_waiting hoff
  have hform : s.app.addCrfSamples.form = s.app.form := by rw [henter]
  have hhost : s.app.addCrfSamples.host = s.app.host := by rw [henter]
  have hret := App.returned_of_backlog hback (hform ▸ Form.settled_of_room h.room)
    (hform ▸ h.room) stop
  have hpasses : s.app.timer stop =
      (App.pass stop)^[(waiting s₀ n s).length + 1] s.app.addCrfSamples := by
    have hshort := h.backlog
    have hwidth : 0 < s₀.app.form.chartEnables.width := ChartEnables.width_pos hoff
    have hle : (waiting s₀ n s).length + 1 ≤ Host.smpSlots := by
      have := Nat.le_mul_of_pos_left (waiting s₀ n s).length hwidth
      rw [Nat.mul_add] at hlen
      omega
    obtain ⟨k, hk⟩ := Nat.exists_eq_add_of_le' hle
    rw [App.timer, hk, Function.iterate_add_apply, App.iterate_pass_idle hret.call]
  rw [← hpasses] at hret
  refine ⟨hret.call, hret.form.trans (by rw [hform]), fun hroom => ?_⟩
  rw [hret.host hroom, hhost]

/-- A call plots all words that wait. -/
theorem timer (h : Linked s₀ n s) (hoff : s₀.app.form.chartEnables ≠ .off)
    (hadc : s₀.app.form.adcSmps ≠ 0) (htrig : s₀.app.form.anyTrigger = false) (stop : StopAnswer)
    (hb : Bounded s₀ (.timer stop) s) :
    ∃ n', Linked s₀ n' (chainStep (.timer stop) s) ∧
      s₀.app.form.chartEnables.width * n' = (chainStep (.timer stop) s).words.length := by
  obtain ⟨hcall, hres, hdrain⟩ := h.returned hoff hadc stop
  obtain ⟨-, hlen⟩ := h.flatMap_waiting hoff
  have hroom : ¬ (s.app.timer stop).form.Full := hb.room
  have hdrain := hdrain hroom
  obtain ⟨-, hsame⟩ := App.settled_foldl (Form.settled_of_room h.room) (waiting s₀ n s)
  obtain ⟨hcount, hvalues⟩ := Form.values_foldl (h.setup.anyTrigger.trans htrig) (hres ▸ hroom)
  rw [← hres] at hsame hcount hvalues
  have hset : SameSetup s₀.app.form (s.app.timer stop).form := h.setup.trans hsame
  rw [chainStep_timer]
  refine ⟨n + (waiting s₀ n s).length, ?_, hlen⟩
  refine ⟨hset, ?_, hcall, hroom, h.rd, h.even, ?_, hlen.le, ?_, ?_, ?_, ?_, fun c hc => ?_,
    fun c hc => ?_⟩
  · simp only [hdrain]
    exact ⟨h.host.workAdc, h.host.samplesEna, h.host.purgeCom, h.host.idxBufcom⟩
  · simp only [hcount, h.count, Nat.add_assoc]
  · simp only [hlen, Nat.sub_self]
    decide
  · simp only [hdrain, hlen, h.ismptx]
  · simp only [hdrain, h.ismptx]
  · simp only [hlen, List.drop_length, List.map_nil]
    exact Holds.nil _ _ _
  · have hvalue : s.app.form.value c = s₀.app.form.value c :=
      funext fun g => Form.value_of_setup h.setup c g
    have hdvd : s₀.app.form.chartEnables.width ∣
        (s.words.take (s₀.app.form.chartEnables.width * n)).length := by
      rw [List.length_take, Nat.min_eq_left h.plotted]
      exact dvd_mul_right _ _
    have hsplit := Form.wordValues_append s₀.app.form c hdvd
      (s.words.drop (s₀.app.form.chartEnables.width * n))
    rw [List.take_append_drop] at hsplit
    simp only [hlen, List.take_length]
    rw [hsplit, hvalues c (by rwa [h.setup.chartEnables]), h.values c hc, hvalue,
      Form.map_value_groupsOf _ hc, List.append_assoc]
  · have hother := Form.values_foldl_other (h.setup.anyTrigger.trans htrig) (waiting s₀ n s)
      (c := c) (by rwa [h.setup.chartEnables])
    simp only [hres]
    rw [hother, h.others c hc]

end Linked

/-! ## Runs -/

/-- A capture begins: nothing was sent, nothing is carried over or waits in `bufsmp`, and no
trigger is enabled. -/
structure Begins (s : Chain) : Prop where
  words : s.words = []
  rd : s.device.dataBufferRdPtr < dataBufCnt
  host : Host.Measuring s.app.host
  ismptx : s.app.host.ismptx = 0
  ismprx : s.app.host.ismprx = 0
  call : s.app.call = none
  notOff : s.app.form.chartEnables ≠ .off
  adcSmps : s.app.form.adcSmps ≠ 0
  triggers : s.app.form.anyTrigger = false
  room : ¬ s.app.form.Full

theorem Begins.linked {s : Chain} (h : Begins s) : Linked s 0 s := by
  refine ⟨.refl _, h.host, h.call, h.room, ?_, ?_, rfl, ?_, ?_, ?_, ?_, ?_, fun c _ => ?_,
    fun _ _ => rfl⟩
  · rw [h.words]
    exact (Nat.mod_eq_of_lt h.rd).symm
  · rw [h.words]
    exact dvd_zero 2
  · exact Nat.zero_le _
  · rw [h.words, List.length_nil, Nat.zero_sub]
    decide
  · rw [h.ismprx]
    rfl
  · rw [h.ismptx, h.words]
    rfl
  · rw [h.words]
    exact Holds.nil _ _ _
  · rw [h.words, List.take_nil, Form.wordValues]
    cases s.app.form.chartEnables <;> cases c <;> simp [ChartEnables.wordsFor, evens, odds]

/-- The series of both channels, charted or not. -/
theorem Linked.continued {s₀ s : Chain} {n : Nat} (h : Linked s₀ n s) (c : Chan) :
    (s.app.form.chan c).values = (s₀.app.form.chan c).values ++
      s₀.app.form.wordValues c (s.words.take (s₀.app.form.chartEnables.width * n)) := by
  cases hc : s₀.app.form.chartEnables.charts c with
  | true => exact h.values c hc
  | false => rw [Form.wordValues_other hc, List.append_nil, h.others c hc]

theorem Linked.step {s₀ s : Chain} (h₀ : Begins s₀) (e : ChainEvent)
    (h : ∃ n, Linked s₀ n s) (hb : Bounded s₀ e s) : ∃ n, Linked s₀ n (chainStep e s) := by
  obtain ⟨n, h⟩ := h
  cases e with
  | block mem wr written => exact ⟨n, h.block mem wr written hb⟩
  | timer stop =>
      obtain ⟨n', h', -⟩ := h.timer h₀.notOff h₀.adcSmps h₀.triggers stop hb
      exact ⟨n', h'⟩

/-- Every run that stays within bounds keeps the link, and a call at its end plots all words. -/
theorem Begins.run {s₀ : Chain} (h₀ : Begins s₀) {es : List ChainEvent}
    (hb : Along chainStep (Bounded s₀) es s₀) :
    ∃ n, Linked s₀ n (Runs.run chainStep es s₀) ∧
      ∀ stop, es.getLast? = some (.timer stop) →
        s₀.app.form.chartEnables.width * n = (Runs.run chainStep es s₀).words.length := by
  rcases List.eq_nil_or_concat es with rfl | ⟨init, e, rfl⟩
  · exact ⟨0, h₀.linked, fun _ hlast => nomatch hlast⟩
  · rw [List.concat_eq_append] at hb ⊢
    obtain ⟨hinit, hlast⟩ := (along_snoc _ _ _).mp hb
    obtain ⟨n, h⟩ := run_invariant (I := fun s => ∃ n, Linked s₀ n s)
      (fun e _ h => Linked.step h₀ e h) ⟨0, h₀.linked⟩ hinit
    rw [run_snoc]
    cases e with
    | block mem wr written =>
        refine ⟨n, h.block mem wr written hlast, fun _ hlast => ?_⟩
        simp at hlast
    | timer stop =>
        obtain ⟨n', h', hall⟩ := h.timer h₀.notOff h₀.adcSmps h₀.triggers stop hlast
        exact ⟨n', h', fun _ _ => hall⟩

/-- Over every run in which the limit is not reached and `bufsmp` does not run over: every call
of `AddCrfSamples` returns, the blocks hold consecutive slots of `data_buffer`, and each series
is continued by the values of the first words that were sent, of all of them behind a call. -/
theorem values_of_words {s₀ : Chain} (h₀ : Begins s₀) (es : List ChainEvent)
    (hb : Along chainStep (Bounded s₀) es s₀) :
    let s := run chainStep es s₀
    s.app.call = none ∧
      s.device.dataBufferRdPtr = slot dataBufCnt s₀.device.dataBufferRdPtr s.words.length ∧
      ∃ n, s₀.app.form.chartEnables.width * n ≤ s.words.length ∧
        s.app.form.samplesCount = s₀.app.form.samplesCount + n ∧
        (∀ c, (s.app.form.chan c).values = (s₀.app.form.chan c).values ++
          s₀.app.form.wordValues c (s.words.take (s₀.app.form.chartEnables.width * n))) ∧
        ∀ stop, es.getLast? = some (.timer stop) →
          s₀.app.form.chartEnables.width * n = s.words.length := by
  intro s
  obtain ⟨n, h, hlast⟩ := h₀.run hb
  exact ⟨h.call, h.rd, n, h.plotted, h.count, h.continued, hlast⟩

/-- A chart of U on which every word is one sample. -/
def plainChain : Chain where
  device := Device.boot fun _ => 0
  app := { App.plain .u with host := { workAdc := true, samplesEna := true } }
  words := []

theorem plainChain_begins : Begins plainChain := by
  refine ⟨rfl, by decide, ⟨rfl, rfl, rfl, rfl⟩, rfl, rfl, rfl, by decide, by decide, rfl, ?_⟩
  decide +kernel

/-- Forty words whose lower 24 bits stand for -2. -/
def minusTwoBlock : ChainEvent := .block (fun _ => 0xABFFFFFE) ⟨40, by decide⟩ none

theorem minusTwo_bounded :
    Along chainStep (Bounded plainChain) [minusTwoBlock, .timer .stopped] plainChain := by
  have hblock : Bounded plainChain minusTwoBlock plainChain := by
    constructor <;> decide +kernel
  have hlinked : Linked plainChain 0 (chainStep minusTwoBlock plainChain) :=
    plainChain_begins.linked.block _ _ _ hblock
  have hreturned := hlinked.returned plainChain_begins.notOff plainChain_begins.adcSmps .stopped
  refine ⟨hblock, ⟨?_, (Nat.sub_le _ _).trans_lt ?_⟩, trivial⟩
  · rw [chainStep_timer]
    simp only [hreturned.form]
    decide +kernel
  · rw [chainStep_timer]
    decide +kernel

theorem values_of_words_minusTwo :
    ((run chainStep [minusTwoBlock, .timer .stopped] plainChain).app.form.chan .u).values =
      List.replicate 40 (-2) := by
  obtain ⟨-, -, n, -, -, hvalues, hall⟩ :=
    values_of_words plainChain_begins [minusTwoBlock, .timer .stopped] minusTwo_bounded
  rw [hvalues .u, hall .stopped rfl, List.take_length, run_cons, run_cons, run_nil, chainStep_timer]
  decide +kernel
