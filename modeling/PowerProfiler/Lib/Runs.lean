-- SUMMARY: Runs of a deterministic machine under a list of events: final state, observations, conditions on every step, induction.
import Mathlib

/-!
# Runs

A machine is a step function from events and states to states. `run` is the state
behind a list of events, `trace` collects what an observation sees at each step, and
`Along` says that every step of the run meets a condition on the event and the state
before it. An invariant that every such step preserves holds in every state reached.
-/

namespace Runs

variable {E S α : Type} (step : E → S → S)

/-- The state behind the events. -/
def run (es : List E) (s : S) : S := es.foldl (fun s e => step e s) s

/-- What `obs` sees at each step, in order. -/
def trace (obs : E → S → List α) : List E → S → List α
  | [], _ => []
  | e :: es, s => obs e s ++ trace obs es (step e s)

/-- Every step meets the condition. -/
def Along (P : E → S → Prop) : List E → S → Prop
  | [], _ => True
  | e :: es, s => P e s ∧ Along P es (step e s)

variable {step}

@[simp] theorem run_nil (s : S) : run step [] s = s := rfl

@[simp] theorem run_cons (e : E) (es : List E) (s : S) :
    run step (e :: es) s = run step es (step e s) := rfl

theorem run_append (es es' : List E) (s : S) :
    run step (es ++ es') s = run step es' (run step es s) := by
  simp [run]

@[simp] theorem run_snoc (es : List E) (e : E) (s : S) :
    run step (es ++ [e]) s = step e (run step es s) := by
  simp [run]

theorem run_replicate (n : Nat) (e : E) (s : S) :
    run step (List.replicate n e) s = (step e)^[n] s := by
  induction n generalizing s with
  | zero => rfl
  | succ n ih => rw [List.replicate_succ, run_cons, ih, Function.iterate_succ_apply]

@[simp] theorem trace_nil (obs : E → S → List α) (s : S) : trace step obs [] s = [] := rfl

@[simp] theorem trace_cons (obs : E → S → List α) (e : E) (es : List E) (s : S) :
    trace step obs (e :: es) s = obs e s ++ trace step obs es (step e s) := rfl

theorem trace_append (obs : E → S → List α) (es es' : List E) (s : S) :
    trace step obs (es ++ es') s = trace step obs es s ++ trace step obs es' (run step es s) := by
  induction es generalizing s with
  | nil => rfl
  | cons e es ih => simp [ih, run]

@[simp] theorem trace_snoc (obs : E → S → List α) (es : List E) (e : E) (s : S) :
    trace step obs (es ++ [e]) s = trace step obs es s ++ obs e (run step es s) := by
  simp [trace_append]

theorem trace_replicate (obs : E → S → List α) (n : Nat) (e : E) (s : S) :
    trace step obs (List.replicate n e) s =
      (List.range n).flatMap fun i => obs e ((step e)^[i] s) := by
  induction n with
  | zero => rfl
  | succ n ih =>
      rw [List.replicate_succ', trace_snoc, ih, run_replicate, List.range_succ]
      simp

/-- A step that sees the same every time. -/
theorem trace_replicate_const {obs : E → S → List α} {n : Nat} {e : E} {s : S} {xs : List α}
    (h : ∀ i < n, obs e ((step e)^[i] s) = xs) :
    trace step obs (List.replicate n e) s = (List.replicate n xs).flatten := by
  rw [trace_replicate, List.flatMap_def,
    List.map_congr_left (g := fun _ => xs) fun i hi => h i (List.mem_range.mp hi)]
  simp

@[simp] theorem along_nil (P : E → S → Prop) (s : S) : Along step P [] s := trivial

@[simp] theorem along_cons (P : E → S → Prop) (e : E) (es : List E) (s : S) :
    Along step P (e :: es) s ↔ P e s ∧ Along step P es (step e s) := Iff.rfl

instance decidableAlong {P : E → S → Prop} [∀ e s, Decidable (P e s)] :
    ∀ (es : List E) (s : S), Decidable (Along step P es s)
  | [], _ => .isTrue trivial
  | e :: es, s => @instDecidableAnd _ _ _ (decidableAlong es (step e s))

theorem along_append {P : E → S → Prop} (es es' : List E) (s : S) :
    Along step P (es ++ es') s ↔ Along step P es s ∧ Along step P es' (run step es s) := by
  induction es generalizing s with
  | nil => simp
  | cons e es ih => simp [ih, and_assoc]

@[simp] theorem along_snoc {P : E → S → Prop} (es : List E) (e : E) (s : S) :
    Along step P (es ++ [e]) s ↔ Along step P es s ∧ P e (run step es s) := by
  simp [along_append]

theorem along_true (es : List E) (s : S) : Along step (fun _ _ => True) es s := by
  induction es generalizing s with
  | nil => trivial
  | cons e es ih => exact ⟨trivial, ih _⟩

/-- A condition that the events of a run meet in every state. -/
theorem along_of_forall {P : E → S → Prop} {es : List E} (h : ∀ e ∈ es, ∀ s, P e s) (s : S) :
    Along step P es s := by
  induction es generalizing s with
  | nil => trivial
  | cons e es ih =>
      exact ⟨h e List.mem_cons_self s, ih (fun e' hmem => h e' (List.mem_cons_of_mem _ hmem)) _⟩

theorem Along.and {P Q : E → S → Prop} {es : List E} {s : S} (h : Along step P es s)
    (h' : Along step Q es s) : Along step (fun e s => P e s ∧ Q e s) es s := by
  induction es generalizing s with
  | nil => trivial
  | cons e es ih => exact ⟨⟨h.1, h'.1⟩, ih h.2 h'.2⟩

theorem Along.mono {P Q : E → S → Prop} {es : List E} {s : S} (h : Along step P es s)
    (hPQ : ∀ e s, P e s → Q e s) : Along step Q es s := by
  induction es generalizing s with
  | nil => trivial
  | cons e es ih => exact ⟨hPQ e s h.1, ih h.2⟩

/-- The steps of a run meet a condition exactly when the last steps of its prefixes do. -/
theorem along_iff_steps {P : E → S → Prop} {es : List E} {s : S} :
    Along step P es s ↔ ∀ es' e, es' ++ [e] <+: es → P e (run step es' s) := by
  induction es using List.reverseRecOn with
  | nil => simp
  | append_singleton es e ih =>
      rw [along_snoc, ih]
      constructor
      · rintro ⟨hall, hlast⟩ es' e' hpre
        rcases List.prefix_concat_iff.mp hpre with heq | hpre
        · obtain ⟨rfl, he⟩ := List.append_inj' heq rfl
          obtain rfl : e' = e := by simpa using he
          exact hlast
        · exact hall es' e' hpre
      · intro h
        exact ⟨fun es' e' hpre => h es' e' (hpre.trans (List.prefix_append _ _)),
          h es e (List.prefix_refl _)⟩

theorem Along.initial {P : E → S → Prop} {es es' : List E} {s : S} (h : Along step P es s)
    (hpre : es' <+: es) : Along step P es' s := by
  obtain ⟨rest, rfl⟩ := hpre
  exact ((along_append _ _ _).mp h).1

/-- What every step under the condition preserves holds behind the run. -/
theorem run_invariant {I : S → Prop} {P : E → S → Prop}
    (hstep : ∀ e s, I s → P e s → I (step e s)) {es : List E} {s : S} (h0 : I s)
    (h : Along step P es s) : I (run step es s) := by
  induction es generalizing s with
  | nil => exact h0
  | cons e es ih => exact ih (hstep e s h0 h.1) h.2

/-- What an invariant gives at each step holds along the run. -/
theorem along_invariant {I : S → Prop} {P Q : E → S → Prop}
    (hstep : ∀ e s, I s → P e s → I (step e s)) (hobs : ∀ e s, I s → P e s → Q e s)
    {es : List E} {s : S} (h0 : I s) (h : Along step P es s) : Along step Q es s := by
  induction es generalizing s with
  | nil => trivial
  | cons e es ih => exact ⟨hobs e s h0 h.1, ih (hstep e s h0 h.1) h.2⟩

theorem trace_eq_nil {obs : E → S → List α} {es : List E} {s : S}
    (h : Along step (fun e s => obs e s = []) es s) : trace step obs es s = [] := by
  induction es generalizing s with
  | nil => rfl
  | cons e es ih =>
      rw [trace_cons, h.1, ih h.2]
      rfl

/-- Observations that agree at every step agree over the run. -/
theorem trace_congr {obs obs' : E → S → List α} {es : List E} {s : S}
    (h : Along step (fun e s => obs e s = obs' e s) es s) :
    trace step obs es s = trace step obs' es s := by
  induction es generalizing s with
  | nil => rfl
  | cons e es ih => rw [trace_cons, trace_cons, h.1, ih h.2]

/-! ## Simulation -/

/-- A machine each of whose steps is matched by a run of another is matched by it over
whole runs: what the steps map to, one after the other, leads to the image of the state
reached. -/
theorem run_simulated {E' S' : Type} {step' : E' → S' → S'} {abs : S → S'} {absE : E → S → List E'}
    {I : S → Prop} (hstep : ∀ e s, I s → I (step e s))
    (hsim : ∀ e s, I s → run step' (absE e s) (abs s) = abs (step e s)) (es : List E) {s : S}
    (h0 : I s) : run step' (trace step absE es s) (abs s) = abs (run step es s) := by
  induction es generalizing s with
  | nil => rfl
  | cons e es ih => rw [trace_cons, run_append, hsim e s h0, ih (hstep e s h0), run_cons]

end Runs
