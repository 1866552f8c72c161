-- SUMMARY: Programs as trees of atomic steps on a shared state, their undisturbed runs, and runs cut once by an interrupt.
import Mathlib

/-!
# Interruptible programs

A `Prog S α` is a program that touches a shared state `S` in atomic steps and
returns an `α`. Each step replaces the state and continues as the state before
the step decides, so a load is a step that leaves the state alone and a store is
a step that ignores it. `Prog.run` lets the program run undisturbed;
`Prog.interruptAt` lets a handler run to completion after a given number of
steps, or after the end when there are fewer.
-/

/-- A program over the shared state `S` as the tree of its atomic steps. -/
inductive Prog (S : Type) (α : Type) where
  | done (a : α)
  | step (next : S → S) (cont : S → Prog S α)

namespace Prog

variable {S T α β γ : Type}

protected def bind : Prog S α → (α → Prog S β) → Prog S β
  | .done a, f => f a
  | .step next cont, f => .step next (fun s => (cont s).bind f)

instance : Monad (Prog S) where
  pure := .done
  bind := Prog.bind

instance : LawfulMonad (Prog S) := LawfulMonad.mk' _
  (by
    intro α p
    induction p with
    | done a => rfl
    | step next cont ih => exact congrArg (Prog.step next) (funext ih))
  (fun _ _ => rfl)
  (by
    intro α β γ p f g
    induction p with
    | done a => rfl
    | step next cont ih => exact congrArg (Prog.step next) (funext ih))

/-- Read one value of the shared state. -/
def load (get : S → α) : Prog S α := .step id (fun s => .done (get s))

/-- Write the shared state. -/
def store (put : S → S) : Prog S Unit := .step put (fun _ => .done ())

/-! ## Undisturbed runs -/

/-- The final state and the result of a run that nothing interrupts. -/
def run : Prog S α → S → S × α
  | .done a, s => (s, a)
  | .step next cont, s => (cont s).run (next s)

/-- The number of atomic steps of the undisturbed run from `s`. -/
def length : Prog S α → S → Nat
  | .done _, _ => 0
  | .step next cont, s => (cont s).length (next s) + 1

@[simp] theorem run_pure (a : α) (s : S) : (pure a : Prog S α).run s = (s, a) := rfl
@[simp] theorem run_load (get : S → α) (s : S) : (load get).run s = (s, get s) := rfl
@[simp] theorem run_store (put : S → S) (s : S) : (store put).run s = (put s, ()) := rfl

@[simp] theorem run_bind (p : Prog S α) (f : α → Prog S β) (s : S) :
    (p >>= f).run s = (f (p.run s).2).run (p.run s).1 := by
  induction p generalizing s with
  | done a => rfl
  | step next cont ih => exact ih s (next s)

@[simp] theorem length_pure (a : α) (s : S) : (pure a : Prog S α).length s = 0 := rfl
@[simp] theorem length_load (get : S → α) (s : S) : (load get).length s = 1 := rfl
@[simp] theorem length_store (put : S → S) (s : S) : (store put).length s = 1 := rfl

@[simp] theorem length_bind (p : Prog S α) (f : α → Prog S β) (s : S) :
    (p >>= f).length s = p.length s + (f (p.run s).2).length (p.run s).1 := by
  induction p generalizing s with
  | done a => simp [bind, Prog.bind, length, run]
  | step next cont ih =>
      have h := ih s (next s)
      simp only [bind, Prog.bind, length, run] at h ⊢
      omega

@[simp] theorem run_map (f : α → β) (p : Prog S α) (s : S) :
    (f <$> p).run s = ((p.run s).1, f (p.run s).2) := by
  rw [map_eq_pure_bind, run_bind, run_pure]

@[simp] theorem length_map (f : α → β) (p : Prog S α) (s : S) :
    (f <$> p).length s = p.length s := by
  rw [map_eq_pure_bind, length_bind, length_pure, Nat.add_zero]

/-! ## A program on part of the state -/

/-- A component `S` of a larger state `T` that can be read and replaced. -/
structure Lens (T S : Type) where
  get : T → S
  put : S → T → T
  get_put : ∀ s t, get (put s t) = s
  put_get : ∀ t, put (get t) t = t
  put_put : ∀ s s' t, put s' (put s t) = put s' t

attribute [simp] Lens.get_put Lens.put_get Lens.put_put

/-- Run a program of the component on the larger state. -/
def focus (l : Lens T S) : Prog S α → Prog T α
  | .done a => .done a
  | .step next cont => .step (fun t => l.put (next (l.get t)) t) (fun t => (cont (l.get t)).focus l)

@[simp] theorem run_focus (l : Lens T S) (p : Prog S α) (t : T) :
    (p.focus l).run t = (l.put (p.run (l.get t)).1 t, (p.run (l.get t)).2) := by
  induction p generalizing t with
  | done a => simp [focus, run]
  | step next cont ih => simp [focus, run, ih]

@[simp] theorem length_focus (l : Lens T S) (p : Prog S α) (t : T) :
    (p.focus l).length t = p.length (l.get t) := by
  induction p generalizing t with
  | done a => rfl
  | step next cont ih => simp [focus, length, ih]

/-! ## Runs cut by one interrupt -/

/-- Run the program and let the handler `isr` run to completion after `n` atomic
steps, or after the last one. The results of both are returned. -/
def interruptAt (isr : S → S × β) : Nat → Prog S α → S → S × α × β
  | 0, p, s => ((p.run (isr s).1).1, (p.run (isr s).1).2, (isr s).2)
  | _ + 1, .done a, s => ((isr s).1, a, (isr s).2)
  | n + 1, .step next cont, s => interruptAt isr n (cont s) (next s)

/-- The handler first, then the program. -/
def isrFirst (isr : S → S × β) (p : Prog S α) (s : S) : S × α × β :=
  ((p.run (isr s).1).1, (p.run (isr s).1).2, (isr s).2)

/-- The program first, then the handler. -/
def isrLast (isr : S → S × β) (p : Prog S α) (s : S) : S × α × β :=
  ((isr (p.run s).1).1, (p.run s).2, (isr (p.run s).1).2)

variable (isr : S → S × β)

@[simp] theorem interruptAt_zero (p : Prog S α) (s : S) :
    p.interruptAt isr 0 s = p.isrFirst isr s := by
  cases p <;> rfl

@[simp] theorem interruptAt_load_bind (get : S → α) (f : α → Prog S γ) (n : Nat) (s : S) :
    (load get >>= f).interruptAt isr (n + 1) s = (f (get s)).interruptAt isr n s := rfl

@[simp] theorem interruptAt_store_bind (put : S → S) (f : Unit → Prog S γ) (n : Nat) (s : S) :
    (store put >>= f).interruptAt isr (n + 1) s = (f ()).interruptAt isr n (put s) := rfl

/-- A handler that leaves a loaded value alone may as well run before the load. -/
theorem interruptAt_load_bind_one {get : S → α} (f : α → Prog S γ) {s : S}
    (h : get (isr s).1 = get s) :
    (load get >>= f).interruptAt isr 1 s = (load get >>= f).interruptAt isr 0 s := by
  rw [interruptAt_load_bind, interruptAt_zero, interruptAt_zero, isrFirst, isrFirst, run_bind,
    run_load, h]

@[simp] theorem interruptAt_pure (a : α) (n : Nat) (s : S) :
    (pure a : Prog S α).interruptAt isr n s = ((isr s).1, a, (isr s).2) := by
  cases n <;> rfl

@[simp] theorem interruptAt_load (get : S → α) (n : Nat) (s : S) :
    (load get).interruptAt isr (n + 1) s = ((isr s).1, get s, (isr s).2) :=
  interruptAt_pure isr (get s) n s

@[simp] theorem interruptAt_map (f : α → γ) (p : Prog S α) (n : Nat) (s : S) :
    (f <$> p).interruptAt isr n s =
      ((p.interruptAt isr n s).1, f (p.interruptAt isr n s).2.1, (p.interruptAt isr n s).2.2) := by
  induction p generalizing s n with
  | done a => cases n <;> rfl
  | step next cont ih =>
      cases n with
      | zero => simp [isrFirst]
      | succ n => exact ih s n (next s)

/-- An interrupt that comes after the last step finds the program finished. -/
theorem interruptAt_of_length_le {p : Prog S α} {s : S} {n : Nat} (h : p.length s ≤ n) :
    p.interruptAt isr n s = p.isrLast isr s := by
  induction p generalizing s n with
  | done a => cases n <;> rfl
  | step next cont ih =>
      cases n with
      | zero => simp [length] at h
      | succ n => exact ih s (by simpa [length] using h)

/-- An interrupt at or before the end of the first part leaves the second part
undisturbed. -/
theorem interruptAt_bind_le {p : Prog S α} (f : α → Prog S γ) {s : S} {n : Nat}
    (h : n ≤ p.length s) :
    (p >>= f).interruptAt isr n s =
      let r := p.interruptAt isr n s
      (((f r.2.1).run r.1).1, ((f r.2.1).run r.1).2, r.2.2) := by
  induction p generalizing s n with
  | done a =>
      obtain rfl : n = 0 := by simpa [length] using h
      cases hf : f a <;> simp [interruptAt_zero, isrFirst, run]
  | step next cont ih =>
      cases n with
      | zero => simp [isrFirst]
      | succ n => exact ih s (by simpa [length] using h)

/-- An interrupt after the first part interrupts the second. -/
theorem interruptAt_bind_ge {p : Prog S α} (f : α → Prog S γ) {s : S} {n : Nat}
    (h : p.length s ≤ n) :
    (p >>= f).interruptAt isr n s =
      (f (p.run s).2).interruptAt isr (n - p.length s) (p.run s).1 := by
  induction p generalizing s n with
  | done a => rfl
  | step next cont ih =>
      cases n with
      | zero => simp [length] at h
      | succ n =>
          have hn : (cont s).length (next s) ≤ n := by simpa [length] using h
          have hlen : n + 1 - (step next cont).length s = n - (cont s).length (next s) := by
            simp [length]
          rw [hlen]
          exact ih s (s := next s) hn

/-- The state after `n` steps of the undisturbed run, or at its end. -/
def stateAt : Nat → Prog S α → S → S
  | 0, _, s => s
  | _ + 1, .done _, s => s
  | n + 1, .step next cont, s => (cont s).stateAt n (next s)

@[simp] theorem stateAt_zero (p : Prog S α) (s : S) : p.stateAt 0 s = s := by
  cases p <;> rfl

@[simp] theorem stateAt_load_bind (get : S → α) (f : α → Prog S γ) (n : Nat) (s : S) :
    (load get >>= f).stateAt (n + 1) s = (f (get s)).stateAt n s := rfl

@[simp] theorem stateAt_store_bind (put : S → S) (f : Unit → Prog S γ) (n : Nat) (s : S) :
    (store put >>= f).stateAt (n + 1) s = (f ()).stateAt n (put s) := rfl

theorem stateAt_bind_ge {p : Prog S α} (f : α → Prog S γ) {s : S} {n : Nat}
    (h : p.length s ≤ n) :
    (p >>= f).stateAt n s = (f (p.run s).2).stateAt (n - p.length s) (p.run s).1 := by
  induction p generalizing s n with
  | done a => rfl
  | step next cont ih =>
      cases n with
      | zero => simp [length] at h
      | succ n =>
          have hn : (cont s).length (next s) ≤ n := by simpa [length] using h
          have hlen : n + 1 - (step next cont).length s = n - (cont s).length (next s) := by
            simp [length]
          rw [hlen]
          exact ih s (s := next s) hn

/-- The handler sees the state after the steps made before it. -/
theorem interruptAt_isr (p : Prog S α) (n : Nat) (s : S) :
    (p.interruptAt isr n s).2.2 = (isr (p.stateAt n s)).2 := by
  induction p generalizing s n with
  | done a => cases n <;> rfl
  | step next cont ih =>
      cases n with
      | zero => rfl
      | succ n => exact ih s n (next s)

/-- A handler that acts on the component as `isr'` and leaves the rest of the state as
`t'` interrupts a focused program as `isr'` interrupts the program. -/
theorem interruptAt_focus {isr : T → T × β} {isr' : S → S × β} (l : Lens T S) {t t' : T}
    (h : ∀ s, isr (l.put s t) = (l.put (isr' s).1 t', (isr' s).2)) (p : Prog S α) (n : Nat) :
    (p.focus l).interruptAt isr n t =
      (l.put (p.interruptAt isr' n (l.get t)).1 t', (p.interruptAt isr' n (l.get t)).2) := by
  have hput : ∀ p : Prog S α, ∀ n s, (p.focus l).interruptAt isr n (l.put s t) =
      (l.put (p.interruptAt isr' n s).1 t', (p.interruptAt isr' n s).2) := by
    intro p
    induction p with
    | done a => intro n s; cases n <;> simp [focus, interruptAt, run, h]
    | step next cont ih =>
        intro n s
        cases n with
        | zero => simp [isrFirst, h]
        | succ n =>
            have := ih s n (next s)
            simpa [focus, interruptAt] using this
  simpa using hput p n (l.get t)

/-! ## Handlers that commute with the steps -/

/-- Every step of the run from `s` does the same before and behind the handler. -/
def Commutes : Prog S α → S → Prop
  | .done _, _ => True
  | .step next cont, s =>
      isr (next s) = (next (isr s).1, (isr s).2) ∧ cont (isr s).1 = cont s ∧
        (cont s).Commutes (next s)

variable {isr}

theorem commutes_load {get : S → α} {s : S} (h : get (isr s).1 = get s) :
    (load get).Commutes isr s :=
  ⟨rfl, congrArg Prog.done h, trivial⟩

theorem commutes_store {put : S → S} {s : S} (h : isr (put s) = (put (isr s).1, (isr s).2)) :
    (store put).Commutes isr s :=
  ⟨h, rfl, trivial⟩

theorem commutes_pure (a : α) (s : S) : (pure a : Prog S α).Commutes isr s := trivial

theorem Commutes.bind {p : Prog S α} {f : α → Prog S γ} {s : S} (hp : p.Commutes isr s)
    (hf : (f (p.run s).2).Commutes isr (p.run s).1) : (p >>= f).Commutes isr s := by
  induction p generalizing s with
  | done a => exact hf
  | step next cont ih =>
      obtain ⟨hnext, hcont, hrest⟩ := hp
      exact ⟨hnext, congrArg (fun q => q.bind f) hcont, ih s hrest hf⟩

/-- A handler that commutes with every step may as well run first. -/
theorem Commutes.interruptAt {p : Prog S α} {s : S} (h : p.Commutes isr s) (n : Nat) :
    p.interruptAt isr n s = p.isrFirst isr s := by
  induction p generalizing s n with
  | done a => cases n <;> rfl
  | step next cont ih =>
      cases n with
      | zero => exact interruptAt_zero isr _ s
      | succ n =>
          obtain ⟨hnext, hcont, hrest⟩ := h
          have hstep : (Prog.step next cont).interruptAt isr (n + 1) s =
              (cont s).interruptAt isr n (next s) := rfl
          rw [hstep, ih s hrest, isrFirst, isrFirst, hnext, run, hcont]

/-- Within a first part that commutes, the handler may as well run before it. -/
theorem Commutes.interruptAt_bind {p : Prog S α} (f : α → Prog S γ) {s : S}
    (h : p.Commutes isr s) {n : Nat} (hn : n ≤ p.length s) :
    (p >>= f).interruptAt isr n s = (p >>= f).isrFirst isr s := by
  rw [interruptAt_bind_le isr f hn, h.interruptAt, ← h.interruptAt 0,
    ← interruptAt_bind_le isr f (Nat.zero_le _), interruptAt_zero]

/-! ## Serial outcomes -/

variable (isr)

/-- The interrupted run ends as the handler and the program run one after the other
do, up to `same` on states and with equal results. -/
def Serial (same : S → S → Prop) (n : Nat) (p : Prog S α) (s : S) : Prop :=
  (same (p.interruptAt isr n s).1 (p.isrFirst isr s).1 ∧
      (p.interruptAt isr n s).2 = (p.isrFirst isr s).2) ∨
    (same (p.interruptAt isr n s).1 (p.isrLast isr s).1 ∧
      (p.interruptAt isr n s).2 = (p.isrLast isr s).2)

variable {isr} {same : S → S → Prop} {n : Nat} {p : Prog S α} {s : S}

theorem Serial.of_first (h : p.interruptAt isr n s = p.isrFirst isr s)
    (hsame : same (p.isrFirst isr s).1 (p.isrFirst isr s).1) : p.Serial isr same n s := by
  rw [Serial, h]
  exact .inl ⟨hsame, rfl⟩

theorem Serial.of_last (h : p.interruptAt isr n s = p.isrLast isr s)
    (hsame : same (p.isrLast isr s).1 (p.isrLast isr s).1) : p.Serial isr same n s := by
  rw [Serial, h]
  exact .inr ⟨hsame, rfl⟩

/-! ## Whatever runs between the steps -/

/-- Each step the program can come to does what `Q` allows, whatever the state was made
into since the step before it, and each result is one of `R`. -/
def Always (Q : S → S → Prop) (R : α → Prop) : Prog S α → Prop
  | .done a => R a
  | .step next cont => ∀ s, Q s (next s) ∧ (cont s).Always Q R

variable {Q : S → S → Prop} {R : α → Prop} {R' : γ → Prop}

theorem always_load (hrefl : ∀ s, Q s s) (get : S → α) : (load get).Always Q fun _ => True :=
  fun s => ⟨hrefl s, trivial⟩

theorem always_store {put : S → S} (h : ∀ s, Q s (put s)) : (store put).Always Q fun _ => True :=
  fun s => ⟨h s, trivial⟩

theorem Always.bind {p : Prog S α} {f : α → Prog S γ} (hp : p.Always Q R)
    (hf : ∀ a, R a → (f a).Always Q R') : (p >>= f).Always Q R' := by
  induction p with
  | done a => exact hf a hp
  | step next cont ih => exact fun s => ⟨(hp s).1, ih s (hp s).2⟩

theorem Always.focus {l : Lens T S} {Q' : T → T → Prop} {p : Prog S α} (hp : p.Always Q R)
    (h : ∀ s' t, Q (l.get t) s' → Q' t (l.put s' t)) : (p.focus l).Always Q' R := by
  induction p with
  | done a => exact hp
  | step next cont ih =>
      exact fun t => ⟨h _ t (hp (l.get t)).1, ih (l.get t) (hp (l.get t)).2⟩

end Prog
