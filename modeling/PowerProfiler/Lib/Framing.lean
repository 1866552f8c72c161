-- SUMMARY: Length-prefixed frames: their bytes, the unique split of a byte string into complete frames and a remainder, truncation.
import Mathlib

/-!
# Length-prefixed framing

A frame is a size byte, a command byte, and as many payload bytes as the size
byte says. A byte string splits in exactly one way into complete frames and a
remainder that no frame fits in (`split_unique`), so a string is a concatenation
of frames exactly when that remainder is empty, and a proper truncation of one
frame never is.
-/

namespace Framing

/-- A command and a payload that the size byte can count. -/
@[ext] structure Frame where
  cmd : UInt8
  payload : List UInt8
  fits : payload.length < 256

theorem fits_nil : ([] : List UInt8).length < 256 := by decide

namespace Frame

def size (f : Frame) : UInt8 := UInt8.ofNat f.payload.length

def bytes (f : Frame) : List UInt8 := f.size :: f.cmd :: f.payload

@[simp] theorem toNat_size (f : Frame) : f.size.toNat = f.payload.length := by
  simp [size, Nat.mod_eq_of_lt f.fits]

@[simp] theorem length_bytes (f : Frame) : f.bytes.length = f.payload.length + 2 := rfl

/-- The frame read off a size byte, a command byte and the bytes behind them. -/
def ofHead (size cmd : UInt8) (rest : List UInt8) : Frame where
  cmd := cmd
  payload := rest.take size.toNat
  fits := by
    have := size.toNat_lt
    simp
    omega

theorem bytes_ofHead {size : UInt8} (cmd : UInt8) {rest : List UInt8}
    (h : size.toNat ≤ rest.length) :
    (ofHead size cmd rest).bytes ++ rest.drop size.toNat = size :: cmd :: rest := by
  have hsize : (ofHead size cmd rest).size = size := by simp [Frame.size, ofHead, h]
  simp only [bytes, hsize]
  simp [ofHead]

end Frame

/-- The bytes of a sequence of frames. -/
def stream (fs : List Frame) : List UInt8 := fs.flatMap Frame.bytes

@[simp] theorem stream_nil : stream [] = [] := rfl

@[simp] theorem stream_cons (f : Frame) (fs : List Frame) :
    stream (f :: fs) = f.bytes ++ stream fs := rfl

@[simp] theorem stream_append (fs gs : List Frame) : stream (fs ++ gs) = stream fs ++ stream gs := by
  simp [stream]

/-- No complete frame stands at the front of the string. -/
def Incomplete : List UInt8 → Prop
  | size :: _ :: rest => rest.length < size.toNat
  | _ => True

theorem incomplete_nil : Incomplete [] := trivial

/-- An incomplete string that shows its size byte is shorter than its frame. -/
theorem Incomplete.length_lt {size : UInt8} {bs : List UInt8} (h : Incomplete (size :: bs)) :
    (size :: bs).length < size.toNat + 2 := by
  cases bs with
  | nil => simp
  | cons cmd rest =>
      simp only [Incomplete] at h
      simpa using h

/-! ## Splitting -/

/-- The complete frames at the front of the string, and what remains behind them. -/
def split : List UInt8 → List Frame × List UInt8
  | size :: cmd :: rest =>
      if size.toNat ≤ rest.length then
        (Frame.ofHead size cmd rest :: (split (rest.drop size.toNat)).1,
          (split (rest.drop size.toNat)).2)
      else ([], size :: cmd :: rest)
  | bs => ([], bs)
termination_by bs => bs.length
decreasing_by all_goals simp; omega

/-- Fewer than two bytes have no head. -/
theorem incomplete_of_no_head {bs : List UInt8}
    (h : ∀ size cmd rest, bs = size :: cmd :: rest → False) : Incomplete bs := by
  rcases bs with _ | ⟨size, _ | ⟨cmd, rest⟩⟩
  · trivial
  · trivial
  · exact absurd rfl (h size cmd rest)

theorem split_incomplete {bs : List UInt8} (h : Incomplete bs) : split bs = ([], bs) := by
  match bs, h with
  | [], _ => simp [split]
  | [_], _ => simp [split]
  | size :: cmd :: rest, h =>
      simp only [Incomplete] at h
      simp [split, h]

theorem split_bytes_append (f : Frame) (bs : List UInt8) :
    split (f.bytes ++ bs) = (f :: (split bs).1, (split bs).2) := by
  have hhead : Frame.ofHead f.size f.cmd (f.payload ++ bs) = f := by
    ext1 <;> simp [Frame.ofHead]
  have hle : f.size.toNat ≤ (f.payload ++ bs).length := by simp
  rw [Frame.bytes, List.cons_append, List.cons_append, split, if_pos hle, hhead]
  simp

/-- A string is the frames of its split followed by an incomplete remainder. -/
theorem split_spec (bs : List UInt8) :
    bs = stream (split bs).1 ++ (split bs).2 ∧ Incomplete (split bs).2 := by
  induction bs using split.induct with
  | case1 size cmd rest h ih =>
      rw [split, if_pos h]
      refine ⟨?_, ih.2⟩
      calc size :: cmd :: rest
          = (Frame.ofHead size cmd rest).bytes ++ rest.drop size.toNat :=
            (Frame.bytes_ofHead cmd h).symm
        _ = (Frame.ofHead size cmd rest).bytes ++ (stream (split (rest.drop size.toNat)).1 ++
              (split (rest.drop size.toNat)).2) := by rw [← ih.1]
        _ = _ := by simp
  | case2 size cmd rest h =>
      have hinc : Incomplete (size :: cmd :: rest) := by simpa [Incomplete] using h
      simp [split_incomplete hinc, hinc]
  | case3 bs hbs =>
      have hinc : Incomplete bs := incomplete_of_no_head hbs
      simp [split_incomplete hinc, hinc]

/-- The split is the only way to read a string as frames and an incomplete
remainder. -/
theorem split_unique {fs : List Frame} {rest : List UInt8} (h : Incomplete rest) :
    split (stream fs ++ rest) = (fs, rest) := by
  induction fs with
  | nil => simpa using split_incomplete h
  | cons f fs ih => rw [stream_cons, List.append_assoc, split_bytes_append, ih]

@[simp] theorem split_stream (fs : List Frame) : split (stream fs) = (fs, []) := by
  simpa using @split_unique fs [] incomplete_nil

/-- Later bytes are read behind the complete frames. -/
theorem split_append (bs cs : List UInt8) :
    split (bs ++ cs) =
      ((split bs).1 ++ (split ((split bs).2 ++ cs)).1, (split ((split bs).2 ++ cs)).2) := by
  obtain ⟨heq, _⟩ := split_spec bs
  obtain ⟨heq', hinc'⟩ := split_spec ((split bs).2 ++ cs)
  have hbs : bs ++ cs = stream ((split bs).1 ++ (split ((split bs).2 ++ cs)).1) ++
      (split ((split bs).2 ++ cs)).2 := by
    conv_lhs => rw [heq, List.append_assoc, heq']
    simp
  conv_lhs => rw [hbs]
  exact split_unique hinc'

/-- What stands behind whole frames at the front of a stream is the front of the other
frames. -/
theorem stream_prefix_tail {fs gs : List Frame} {bs : List UInt8}
    (h : stream gs ++ bs <+: stream fs) : ∃ fs', fs = gs ++ fs' ∧ bs <+: stream fs' := by
  obtain ⟨tail, htail⟩ := h
  obtain ⟨heq, hinc⟩ := split_spec (bs ++ tail)
  have hstream : stream fs = stream (gs ++ (split (bs ++ tail)).1) ++ (split (bs ++ tail)).2 := by
    rw [stream_append, List.append_assoc, ← heq, ← htail, List.append_assoc]
  have hsplit := @split_unique (gs ++ (split (bs ++ tail)).1) _ hinc
  rw [← hstream, split_stream, Prod.mk.injEq] at hsplit
  refine ⟨(split (bs ++ tail)).1, hsplit.1, tail, ?_⟩
  rw [← hsplit.2, List.append_nil] at heq
  exact heq

/-! ## Whole frames -/

/-- The string is a concatenation of whole frames. -/
def Framed (bs : List UInt8) : Prop := ∃ fs, bs = stream fs

theorem framed_nil : Framed [] := ⟨[], rfl⟩

theorem Frame.framed (f : Frame) : Framed f.bytes := ⟨[f], by simp⟩

theorem Framed.append {bs cs : List UInt8} (hb : Framed bs) (hc : Framed cs) :
    Framed (bs ++ cs) := by
  obtain ⟨fs, rfl⟩ := hb
  obtain ⟨gs, rfl⟩ := hc
  exact ⟨fs ++ gs, by simp⟩

theorem framed_iff {bs : List UInt8} : Framed bs ↔ (split bs).2 = [] := by
  constructor
  · rintro ⟨fs, rfl⟩
    simp
  · intro h
    refine ⟨(split bs).1, ?_⟩
    have := (split_spec bs).1
    rw [h, List.append_nil] at this
    exact this

/-- Whole frames at the front can be cancelled. -/
theorem Framed.append_iff {bs cs : List UInt8} (h : Framed bs) :
    Framed (bs ++ cs) ↔ Framed cs := by
  rw [framed_iff, framed_iff, split_append, framed_iff.mp h, List.nil_append]

/-- A truncated frame is a concatenation of frames only when nothing or all of it
is left. -/
theorem Frame.framed_take_iff (f : Frame) (k : Nat) :
    Framed (f.bytes.take k) ↔ k = 0 ∨ f.bytes.length ≤ k := by
  constructor
  · intro h
    by_contra hk
    rw [not_or, not_le] at hk
    obtain ⟨k, rfl⟩ : ∃ m, k = m + 1 := ⟨k - 1, by omega⟩
    have htake : f.bytes.take (k + 1) = f.size :: (f.cmd :: f.payload).take k := rfl
    have hinc : Incomplete (f.size :: (f.cmd :: f.payload).take k) := by
      cases k with
      | zero => trivial
      | succ k =>
          simp only [List.take_succ_cons, Incomplete, Frame.toNat_size, List.length_take]
          simp only [Frame.length_bytes] at hk
          omega
    rw [framed_iff, htake, split_incomplete hinc] at h
    simp at h
  · rintro (rfl | h)
    · exact framed_nil
    · rw [List.take_of_length_le h]
      exact f.framed

end Framing
