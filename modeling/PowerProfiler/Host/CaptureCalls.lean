-- SUMMARY: Calls of AddCrfSamples on whole groups of samples in bufsmp: they return, and each is a fold over its groups.
import PowerProfiler.Host.Capture

/-!
# Calls

A group is what one pass takes: a sample of each charted channel, I first. Between two
calls groups arrive in `bufsmp`. A call whose backlog is whole groups returns, has worked
through all of them unless the limit ended it, and has done to the form what `feed` does.
-/

open Circular Runs

/-- The samples of one pass. -/
abbrev SampleGroup : Type := Chan → UInt32

/-- The words of a group in the order in which they lie in `bufsmp`. -/
def ChartEnables.wordsOf (m : ChartEnables) (g : SampleGroup) : List UInt32 :=
  (if m.charts .i then [g .i] else []) ++ (if m.charts .u then [g .u] else [])

/-- The number of samples in a group. -/
def ChartEnables.width : ChartEnables → Nat
  | .off => 0
  | .u | .i => 1
  | .ui => 2

theorem ChartEnables.length_wordsOf (m : ChartEnables) (g : SampleGroup) :
    (m.wordsOf g).length = m.width := by
  cases m <;> rfl

theorem ChartEnables.width_pos {m : ChartEnables} (h : m ≠ .off) : 0 < m.width := by
  cases m with
  | off => exact absurd rfl h
  | u | i | ui => decide

namespace App

/-- Groups arrive behind what lies in `bufsmp`. -/
def deliver (gs : List SampleGroup) (a : App) : App :=
  let ws := gs.flatMap a.form.chartEnables.wordsOf
  { a with host := { a.host with
      bufsmp := fill a.host.bufsmp Host.smpSlots a.host.ismptx ws
      ismptx := (a.host.ismptx + ws.length) % Host.smpSlots } }

/-- Groups arrive, then `AddCrfSamples` is called and makes one pass for each group, and one
to leave the loop. -/
def capture (stop : StopAnswer) (gs : List SampleGroup) (a : App) : App :=
  (pass stop)^[gs.length + 1] (deliver gs a).addCrfSamples

/-! ## One pass -/

theorem pass_idle {a : App} (h : a.call = none) (stop : StopAnswer) : a.pass stop = a := by
  rw [pass, h]

theorem iterate_pass_idle {a : App} (h : a.call = none) (stop : StopAnswer) (n : Nat) :
    (pass stop)^[n] a = a :=
  Function.iterate_fixed (pass_idle h stop) n

/-- A call has whole groups before it. -/
structure Backlog (a : App) (gs : List SampleGroup) (itx : Nat) : Prop where
  notOff : a.form.chartEnables ≠ .off
  window : ∃ irx, a.call = some (irx, itx) ∧ irx < Host.smpSlots ∧
    itx = slot Host.smpSlots irx (gs.flatMap a.form.chartEnables.wordsOf).length ∧
    Holds a.host.bufsmp Host.smpSlots irx (gs.flatMap a.form.chartEnables.wordsOf)
  short : (gs.flatMap a.form.chartEnables.wordsOf).length < Host.smpSlots

theorem nextIrx_eq (m : ChartEnables) {irx : Nat} (hirx : irx < Host.smpSlots) :
    nextIrx m irx = slot Host.smpSlots irx m.width := by
  cases m with
  | off => exact (Nat.mod_eq_of_lt hirx).symm
  | u => exact Host.and_smpBufCnt _
  | i => exact Host.and_smpBufCnt _
  | ui =>
      show ((irx + 1) &&& smpBufCnt) + 1 &&& smpBufCnt = (irx + 1 + 1) % Host.smpSlots
      rw [Host.and_smpBufCnt, Host.and_smpBufCnt, Nat.mod_add_mod]

/-- A pass finds the samples of the first group. -/
theorem words_eq {a : App} {g : SampleGroup} {irx : Nat} {rest : List UInt32}
    (hirx : irx < Host.smpSlots)
    (hw : Holds a.host.bufsmp Host.smpSlots irx (a.form.chartEnables.wordsOf g ++ rest)) :
    ∀ c, a.form.chartEnables.charts c = true → a.words irx c = g c := by
  intro c hc
  have h0 := hw 0
  have h1 := hw 1
  rw [slot_of_lt (by simpa using hirx)] at h0
  rw [slot, ← Host.and_smpBufCnt] at h1
  unfold words
  cases hm : a.form.chartEnables <;> cases c <;> rw [hm] at hc h0 h1
  · cases hc
  · cases hc
  · cases hc
  · exact h0 (by simp [ChartEnables.wordsOf, ChartEnables.charts, ChartEnables.code, Chan.mask])
  · exact h0 (by simp [ChartEnables.wordsOf, ChartEnables.charts, ChartEnables.code, Chan.mask])
  · cases hc
  · exact h0 (by simp [ChartEnables.wordsOf, ChartEnables.charts, ChartEnables.code, Chan.mask])
  · exact h1 (by simp [ChartEnables.wordsOf, ChartEnables.charts, ChartEnables.code, Chan.mask])

theorem length_words (m : ChartEnables) (gs : List SampleGroup) :
    (gs.flatMap m.wordsOf).length = m.width * gs.length := by
  induction gs with
  | nil => rfl
  | cons g gs ih =>
      rw [List.flatMap_cons, List.length_append, ih, m.length_wordsOf, List.length_cons,
        Nat.mul_succ, Nat.add_comm]

variable {a : App} {g : SampleGroup} {gs : List SampleGroup} {itx : Nat}

/-- With nothing before it the loop ends. -/
theorem pass_nil (h : Backlog a [] itx) (stop : StopAnswer) :
    a.pass stop = { a with host := { a.host with ismprx := itx }, call := none } := by
  obtain ⟨-, ⟨irx, hcall, hirx, hitx, -⟩, -⟩ := h
  obtain rfl : itx = irx := hitx.trans (Nat.mod_eq_of_lt hirx)
  rw [pass, hcall]
  exact if_pos rfl

/-- A pass takes the first group, and ends the call at the limit. -/
theorem pass_cons (h : Backlog a (g :: gs) itx) (hpos : 0 < a.form.maxSamples) (stop : StopAnswer) :
    ((a.form.absorb g).Full → (a.pass stop).call = none ∧
      (a.pass stop).form = (a.form.absorb g).autoStop) ∧
    (¬ (a.form.absorb g).Full → (a.pass stop).host = a.host ∧
      (a.pass stop).form = a.form.absorb g ∧ Backlog (a.pass stop) gs itx) := by
  obtain ⟨hoff, ⟨irx, hcall, hirx, hitx, hwin⟩, hshort⟩ := h
  have hwidth : 0 < a.form.chartEnables.width := ChartEnables.width_pos hoff
  rw [List.flatMap_cons] at hitx hwin hshort
  have hlen : (a.form.chartEnables.wordsOf g).length = a.form.chartEnables.width :=
    a.form.chartEnables.length_wordsOf g
  have hne : irx ≠ itx := by
    intro heq
    have hslot : slot Host.smpSlots irx 0 = irx := Nat.mod_eq_of_lt hirx
    have h0 := slot_inj (by decide) hshort (hslot.trans (heq.trans hitx))
    rw [List.length_append, hlen] at h0
    omega
  obtain ⟨htake, habsorb⟩ := Form.absorb_congr (words_eq hirx hwin)
  have hpass : a.pass stop =
      if (a.form.take g).flg ∧ (a.form.absorb g).Full then
        { host := { stopDevice stop a.host with
            ismprx := nextIrx a.form.chartEnables irx }
          form := (a.form.absorb g).autoStop
          call := none }
      else { a with
        form := a.form.absorb g
        call := some (nextIrx a.form.chartEnables irx, itx) } := by
    rw [pass, hcall]
    simp only [if_neg hne, htake, habsorb]
  have hmode : (a.form.absorb g).chartEnables = a.form.chartEnables :=
    (Form.sameSetup_absorb g a.form).chartEnables
  constructor
  · intro hfull
    rw [hpass, if_pos ⟨Form.flg_of_full hpos hfull, hfull⟩]
    exact ⟨rfl, rfl⟩
  · intro hroom
    rw [hpass, if_neg fun hf => hroom hf.2]
    rw [holds_append, hlen] at hwin
    rw [List.length_append, hlen] at hitx hshort
    refine ⟨rfl, rfl, ?_, ⟨nextIrx a.form.chartEnables irx, rfl, ?_, ?_, ?_⟩, ?_⟩
    · exact fun hoff' => hoff (hmode.symm.trans hoff')
    · rw [nextIrx_eq _ hirx]
      exact slot_lt (by decide) _ _
    · show itx = slot Host.smpSlots _ (gs.flatMap (a.form.absorb g).chartEnables.wordsOf).length
      rw [hmode, nextIrx_eq _ hirx, slot_slot]
      exact hitx
    · show Holds a.host.bufsmp Host.smpSlots _
        (gs.flatMap (a.form.absorb g).chartEnables.wordsOf)
      rw [hmode, nextIrx_eq _ hirx]
      exact hwin.2
    · show (gs.flatMap (a.form.absorb g).chartEnables.wordsOf).length < Host.smpSlots
      rw [hmode]
      omega

/-! ## One call -/

/-- What lies behind a call that had some groups before it. -/
structure Returned (a : App) (gs : List SampleGroup) (itx : Nat) (b : App) : Prop where
  call : b.call = none
  form : b.form = gs.foldl Form.feed a.form
  host : ¬ b.form.Full → b.host = { a.host with ismprx := itx }

/-- The loop returns and has done to the form what its groups do one after the other. -/
theorem returned_of_backlog (h : Backlog a gs itx) (hset : a.form.Settled)
    (hroom : ¬ a.form.Full) (stop : StopAnswer) :
    Returned a gs itx ((pass stop)^[gs.length + 1] a) := by
  induction gs generalizing a with
  | nil =>
      rw [List.length_nil, Function.iterate_one, pass_nil h]
      exact ⟨rfl, rfl, fun _ => rfl⟩
  | cons g gs ih =>
      obtain ⟨hstop, hgo⟩ := pass_cons h hset.maxSamples_pos stop
      have hfeed := hset.feed g
      rw [List.length_cons, Function.iterate_succ_apply]
      by_cases hfull : (a.form.absorb g).Full
      · obtain ⟨hcall, hform⟩ := hstop hfull
        have heq : a.form.feed g = (a.form.absorb g).autoStop := by
          simp [Form.feed, hroom, hfull]
        have hfull' : (a.form.feed g).Full := by
          rw [heq]
          exact hfull
        rw [iterate_pass_idle hcall]
        refine ⟨hcall, ?_, fun hnot => absurd ?_ hnot⟩
        · rw [List.foldl_cons, Form.feed_of_full hfull', hform, heq]
        · rw [hform, ← heq]
          exact hfull'
      · obtain ⟨hhost, hform, hback⟩ := hgo hfull
        have heq : a.form.feed g = (a.pass stop).form := by
          simp [Form.feed, hroom, hfull, hform]
        rw [heq] at hfeed
        obtain ⟨hcall, hform', hhost'⟩ := ih hback hfeed (by rwa [hform])
        refine ⟨hcall, ?_, fun hnot => ?_⟩
        · rw [hform', List.foldl_cons, heq]
        · rw [hhost' hnot, hhost]

/-! ## Between calls -/

/-- The program between two calls of a capture: what arrived was worked through, or the limit
is reached. -/
structure Idle (a : App) : Prop where
  call : a.call = none
  settled : a.form.Settled
  notOff : a.form.chartEnables ≠ .off
  adcSmps : a.form.adcSmps ≠ 0
  drained : ¬ a.form.Full → a.host.ismprx = a.host.ismptx ∧ a.host.ismptx < Host.smpSlots

/-- With room left, the call for groups that arrived enters its loop. -/
theorem Idle.enters (h : Idle a) (hroom : ¬ a.form.Full) (gs : List SampleGroup) :
    (a.deliver gs).addCrfSamples =
      { a.deliver gs with call := some (a.host.ismptx, (a.deliver gs).host.ismptx) } := by
  obtain ⟨hrx, htx⟩ := h.drained hroom
  have hlt : (a.deliver gs).host.ismptx < Host.smpSlots := Nat.mod_lt _ (by decide)
  have hroom' : ¬ (a.deliver gs).form.Full := hroom
  have hrx' : (a.deliver gs).host.ismprx = a.host.ismptx := hrx
  rw [addCrfSamples, if_pos ⟨h.call, h.adcSmps⟩, if_neg hroom', Host.and_smpBufCnt,
    Host.and_smpBufCnt, Nat.mod_eq_of_lt hlt, hrx', Nat.mod_eq_of_lt htx]

/-- At the limit it is left at once. -/
theorem Idle.leaves (h : Idle a) (hfull : a.form.Full) (gs : List SampleGroup) :
    (a.deliver gs).addCrfSamples = a.deliver gs := by
  have hfull' : (a.deliver gs).form.Full := hfull
  rw [addCrfSamples, if_pos ⟨h.call, h.adcSmps⟩, if_pos hfull']
  exact congrArg (fun s => { a.deliver gs with form := s }) (h.settled.stopped hfull)

theorem settled_foldl {s : Form} (h : s.Settled) (gs : List SampleGroup) :
    (gs.foldl Form.feed s).Settled ∧ SameSetup s (gs.foldl Form.feed s) := by
  induction gs generalizing s with
  | nil => exact ⟨h, .refl s⟩
  | cons g gs ih =>
      obtain ⟨hset, hsame⟩ := ih (h.feed g)
      exact ⟨hset, (s.sameSetup_feed g).trans hsame⟩

/-- A call returns, and its groups do to the form what they do one after the other. -/
theorem Idle.capture (h : Idle a) (stop : StopAnswer)
    (hlen : a.form.chartEnables.width * gs.length < Host.smpSlots) :
    Idle (a.capture stop gs) ∧ (a.capture stop gs).form = gs.foldl Form.feed a.form := by
  unfold App.capture
  by_cases hfull : a.form.Full
  · have hidle : (a.deliver gs).call = none := h.call
    rw [h.leaves hfull, iterate_pass_idle hidle, Form.feed_of_full hfull]
    exact ⟨⟨h.call, h.settled, h.notOff, h.adcSmps, fun hroom => absurd hfull hroom⟩, rfl⟩
  · obtain ⟨-, htx⟩ := h.drained hfull
    rw [← length_words] at hlen
    have hback : Backlog (a.deliver gs).addCrfSamples gs (a.deliver gs).host.ismptx := by
      rw [h.enters hfull]
      exact ⟨h.notOff, ⟨a.host.ismptx, rfl, htx, rfl, holds_fill _ hlen.le⟩, hlen⟩
    have hform : (a.deliver gs).addCrfSamples.form = a.form := by rw [h.enters hfull]; rfl
    have hhost : (a.deliver gs).addCrfSamples.host = (a.deliver gs).host := by
      rw [h.enters hfull]
    rw [← hform] at hfull
    obtain ⟨hcall, hres, hdrain⟩ :=
      returned_of_backlog hback (hform ▸ h.settled) hfull stop
    obtain ⟨hset, hsame⟩ := settled_foldl h.settled gs
    rw [hform] at hres
    rw [← hres] at hset hsame
    refine ⟨⟨hcall, hset, ?_, ?_, fun hroom => ?_⟩, hres⟩
    · rw [hsame.chartEnables]
      exact h.notOff
    · rw [hsame.adcSmps]
      exact h.adcSmps
    · rw [hdrain hroom, hhost]
      exact ⟨rfl, Nat.mod_lt _ (by decide)⟩

end App
