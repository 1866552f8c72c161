-- SUMMARY: When the busy flag sticks: exactly behind a bus reset under a transfer, or a transfer that does not start.
import PowerProfiler.Firmware.Transmit

/-!
# A stuck busy flag

Only the completion callback clears a flag whose transfer has been started. A bus reset
drops the transfer without that callback, and `usbd_ep_start_write` starts nothing on an
endpoint that is not enabled, while `usb_dc_send_from_ringbuffer` ignores its result.
Either way nobody has the flag any more, and the main loop waits for good.
-/

open Runs

/-- The main loop waits for a flag that nothing outstanding will clear. -/
def Transmit.Stuck (t : Transmit) : Prop := t.point = .away 4 ∧ t.device.Claimed

/-- Nobody has the flag, and the main loop has this many calls behind it on its way to
the wait. -/
structure Transmit.Lost (t : Transmit) (calls : Nat) : Prop where
  point : t.point = .away calls
  calls_le : calls ≤ 4
  flag : t.device.Claimed

/-- The steps of the main loop among the events. -/
def mainSteps (es : List LoopEvent) : Nat :=
  es.countP fun | .main => true | .irq _ => false

/-! ## The flag is kept -/

/-- While its owner has the flag the main loop does not wait in vain. -/
theorem Transmit.Owned.not_stuck {t : Transmit} (h : t.Owned) : ¬ t.Stuck := by
  rintro ⟨hpoint, hbusy, hidle⟩
  unfold Transmit.Owned at h
  rw [hpoint] at h
  obtain ⟨-, hfree | ⟨len, hsend⟩⟩ := h
  · rw [hfree.1] at hbusy
    cases hbusy
  · rw [hsend.2] at hidle
    cases hidle

/-! ## The flag is lost -/

/-- A step that breaks the condition leaves the flag without an owner. -/
theorem lost_of_not_served {e : LoopEvent} {t : Transmit} (h : t.Owned) (hs : ¬ Served e t) :
    ∃ calls, (transmitStep e t).Lost calls := by
  obtain ⟨d, p⟩ := t
  have hcases : (e = .irq .busReset ∧ d.inEp.inflight ≠ []) ∨
      ∃ len, writeCall e ⟨d, p⟩ = some len ∧ d.inEp.epEnable = false := by
    by_contra hno
    push Not at hno
    refine hs ⟨fun he => hno.1 he, fun len hcall => ?_⟩
    have hep := hno.2 len hcall
    simpa using hep
  rcases hcases with ⟨rfl, hout⟩ | ⟨len, hcall, hep⟩
  · obtain ⟨calls, len, rfl, hcalls, hsend⟩ := h.away hout
    exact ⟨calls, rfl, hcalls, hsend.1, rfl⟩
  · match e, p with
    | .main, .reading (.done (n + 1)) =>
        have hlost := startWrite_lost (n + 1) hep
        refine ⟨0, rfl, Nat.zero_le _, ?_⟩
        show (usbdEpStartWrite true (n + 1) d).1.Claimed
        rw [hlost]
        exact h
    | .irq .bulkIn, p =>
        have hout : d.inEp.inflight ≠ [] := by
          intro hidle
          unfold writeCall at hcall
          dsimp only at hcall
          rw [hidle] at hcall
          cases hcall
        obtain ⟨calls, len', rfl, hcalls, hsend⟩ := h.away hout
        rw [writeCall_bulkIn hsend] at hcall
        have hzlp : len' % cdcMaxMps = 0 ∧ len' ≠ 0 := by
          by_contra hno
          rw [if_neg hno] at hcall
          cases hcall
        exact ⟨calls, rfl, hcalls, inComplete_lost hsend hzlp hep⟩
    | .main, .away _ | .main, .claim | .main, .reading (.step _ _) | .main, .reading (.done 0) =>
        cases hcall
    | .irq (.dma _), _ | .irq (.bulkOut _), _ | .irq (.setDtr _), _ | .irq .busReset, _
    | .irq .configure, _ => cases hcall

/-- Nothing brings the flag back. -/
theorem irq_lost {t : Transmit} {calls : Nat} (h : t.Lost calls) (i : Irq) :
    (transmitStep (.irq i) t).Lost calls := by
  obtain ⟨hpoint, hcalls, hflag⟩ := h
  have hforeign : i.Foreign → (transmitStep (.irq i) t).Lost calls := fun hi =>
    ⟨hpoint, hcalls, (irqStep_endpoint hi t.device).claimed hflag⟩
  cases i with
  | dma rx => exact hforeign trivial
  | bulkOut packet => exact hforeign trivial
  | setDtr dtr => exact hforeign trivial
  | bulkIn =>
      refine ⟨hpoint, hcalls, ?_⟩
      show (inComplete t.device).Claimed
      rw [inComplete_idle hflag.2]
      exact hflag
  | busReset => exact ⟨hpoint, hcalls, hflag.1, rfl⟩
  | configure => exact ⟨hpoint, hcalls, hflag⟩

theorem main_lost {t : Transmit} {calls : Nat} (h : t.Lost calls) :
    (transmitStep .main t).Lost (min 4 (calls + 1)) := by
  obtain ⟨d, p⟩ := t
  obtain ⟨rfl, hcalls, hflag⟩ := h
  by_cases hlt : calls < 4
  · have hmain : transmitStep .main ⟨d, .away calls⟩ = ⟨(taskDataOut d).1, .away (calls + 1)⟩ :=
      if_pos hlt
    rw [hmain, min_eq_right hlt]
    exact ⟨rfl, hlt, (taskDataOut_endpoint d).claimed hflag⟩
  · have hmain : transmitStep .main ⟨d, .away calls⟩ = ⟨d, .away calls⟩ :=
      (if_neg hlt).trans (if_pos hflag.1)
    obtain rfl : calls = 4 := by omega
    rw [hmain]
    exact ⟨rfl, le_refl 4, hflag⟩

/-- The main loop gets as far as the wait and stays there. -/
theorem run_lost (es : List LoopEvent) {t : Transmit} {calls : Nat} (h : t.Lost calls) :
    (run transmitStep es t).Lost (min 4 (calls + mainSteps es)) := by
  induction es generalizing t calls with
  | nil =>
      have hcalls : min 4 (calls + mainSteps []) = calls := min_eq_right h.calls_le
      rw [hcalls]
      exact h
  | cons e es ih =>
      cases e with
      | main =>
          have hrest := ih (main_lost h)
          have hcount : mainSteps (.main :: es) = mainSteps es + 1 := by simp [mainSteps]
          have heq : min 4 (min 4 (calls + 1) + mainSteps es) =
              min 4 (calls + mainSteps (.main :: es)) := by omega
          rw [heq] at hrest
          exact hrest
      | irq i =>
          have hcount : mainSteps (.irq i :: es) = mainSteps es := by simp [mainSteps]
          rw [hcount]
          exact ih (irq_lost h i)

/-- A run that breaks the condition loses the flag on the way. -/
theorem lost_of_run {es : List LoopEvent} {t : Transmit} (hown : t.Owned)
    (h : ¬ Along transmitStep Served es t) : ∃ calls, (run transmitStep es t).Lost calls := by
  induction es generalizing t with
  | nil => exact absurd trivial h
  | cons e es ih =>
      by_cases hs : Served e t
      · exact ih (transmitStep_served hown hs).owned fun hrest => h ⟨hs, hrest⟩
      · obtain ⟨calls, hlost⟩ := lost_of_not_served hown hs
        exact ⟨_, run_lost es hlost⟩

/-! ## The condition is exact -/

/-- As long as no bus reset comes under a transfer and every transfer starts, the main
loop never waits in vain; behind a step that breaks this it waits for good, whatever
follows. -/
theorem busyFlag_stuck_iff (memory : UInt32 → UInt32) (es : List LoopEvent) :
    (Along transmitStep Served es (Transmit.boot memory) →
      ∀ es', es' <+: es → ¬ (run transmitStep es' (Transmit.boot memory)).Stuck) ∧
    (¬ Along transmitStep Served es (Transmit.boot memory) →
      ∀ es', 4 ≤ mainSteps es' →
        (run transmitStep (es ++ es') (Transmit.boot memory)).Stuck) := by
  constructor
  · intro h es' hpre
    exact (run_owned (h.initial hpre)).not_stuck
  · intro h es' hcount
    obtain ⟨calls, hlost⟩ := lost_of_run (boot_owned memory) h
    have hrest := run_lost es' hlost
    have hfour : min 4 (calls + mainSteps es') = 4 := by omega
    rw [hfour] at hrest
    rw [run_append]
    exact ⟨hrest.point, hrest.flag⟩

/-- A version request whose reply is under way when the bus is reset. -/
def resetRun : List LoopEvent :=
  [.irq .configure, .irq (.bulkOut [0, 0])] ++ List.replicate 24 .main ++ [.irq .busReset]

theorem resetRun_inflight :
    (run transmitStep ([.irq .configure, .irq (.bulkOut [0, 0])] ++ List.replicate 24 .main)
      (Transmit.boot fun _ => 0)).device.inEp.inflight = [6] := by
  decide +kernel

/-- The main loop waits in vain behind this run, even once the device is configured again. -/
theorem busyFlag_sticks :
    ¬ ∀ es, ¬ (run transmitStep es (Transmit.boot fun _ => 0)).Stuck := by
  intro hall
  have hnot : ¬ Along transmitStep Served resetRun (Transmit.boot fun _ => 0) := by
    intro h
    have hlast := ((along_snoc _ _ _).mp h).2.1 rfl
    rw [resetRun_inflight] at hlast
    cases hlast
  obtain ⟨calls, hlost⟩ := lost_of_run (boot_owned _) hnot
  have hrest := run_lost [.irq .configure, .main, .main, .main, .main] hlost
  have hfour : min 4 (calls + mainSteps [.irq .configure, .main, .main, .main, .main]) = 4 := by
    have hcount : mainSteps [.irq .configure, .main, .main, .main, .main] = 4 := rfl
    omega
  rw [hfour] at hrest
  refine hall (resetRun ++ [.irq .configure, .main, .main, .main, .main]) ?_
  rw [run_append]
  exact ⟨hrest.point, hrest.flag⟩
