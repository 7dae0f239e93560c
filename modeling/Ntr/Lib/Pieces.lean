/-
Lists in pieces.

* `pieces n`: a list in pieces of `n + 1`, the last one shorter.
-/
import Mathlib.Data.List.Basic

namespace Ntr.Lib

variable {α β S : Type}

/-- A list in pieces of `n + 1`, the last one shorter. -/
def pieces (n : Nat) (l : List α) : List (List α) :=
  if l.isEmpty then [] else l.take (n + 1) :: pieces n (l.drop (n + 1))
termination_by l.length
decreasing_by
  have := List.length_pos_iff.mpr (mt List.isEmpty_iff.mpr ‹_›)
  rw [List.length_drop]
  omega

@[simp] lemma pieces_nil (n : Nat) : pieces n ([] : List α) = [] := by rw [pieces]; rfl

lemma pieces_of_ne_nil (n : Nat) {l : List α} (h : l ≠ []) :
    pieces n l = l.take (n + 1) :: pieces n (l.drop (n + 1)) := by
  rw [pieces, if_neg (mt List.isEmpty_iff.mp h)]

lemma flatten_pieces (n : Nat) (l : List α) : (pieces n l).flatten = l := by
  fun_induction pieces n l with
  | case1 l h => exact (List.isEmpty_iff.mp h).symm
  | case2 l h ih => rw [List.flatten_cons, ih, List.take_append_drop]

lemma mem_pieces {n : Nat} {l x : List α} (hx : x ∈ pieces n l) : x ≠ [] ∧ x.length ≤ n + 1 := by
  fun_induction pieces n l with
  | case1 => cases hx
  | case2 l h ih =>
    rcases List.mem_cons.mp hx with rfl | hx
    · refine ⟨fun hnil => ?_, List.length_take_le _ _⟩
      rw [List.take_eq_nil_iff] at hnil
      exact hnil.elim (Nat.succ_ne_zero n) fun hnil => h (List.isEmpty_iff.mpr hnil)
    · exact ih hx

section
variable (frame : S → List α → List β × S)

/-- Pieces in a frame each, one behind the other. -/
def frames : S → List (List α) → List β × S
  | s, [] => ([], s)
  | s, x :: xs => ((frame s x).1 ++ (frames (frame s x).2 xs).1, (frames (frame s x).2 xs).2)

lemma frames_append (s : S) (xs ys : List (List α)) : frames frame s (xs ++ ys) =
    ((frames frame s xs).1 ++ (frames frame (frames frame s xs).2 ys).1,
      (frames frame (frames frame s xs).2 ys).2) := by
  induction xs generalizing s with
  | nil => rfl
  | cons x xs ih => rw [List.cons_append, frames, ih, frames, List.append_assoc]

variable {frame}

lemma frames_congr {R : S → S → Prop}
    (hframe : ∀ {s s' x}, R s s' → (frame s x).1 = (frame s' x).1 ∧ R (frame s x).2 (frame s' x).2)
    {s s' : S} (h : R s s') (xs : List (List α)) : (frames frame s xs).1 = (frames frame s' xs).1 ∧
      R (frames frame s xs).2 (frames frame s' xs).2 := by
  induction xs generalizing s s' with
  | nil => exact ⟨rfl, h⟩
  | cons x xs ih =>
    obtain ⟨hx, h'⟩ := hframe (x := x) h
    obtain ⟨hxs, h''⟩ := ih h'
    rw [frames, frames, hx, hxs]
    exact ⟨rfl, h''⟩

lemma frames_keeps {P : S → Prop} (hframe : ∀ {s x}, P s → P (frame s x).2) {s : S} (h : P s)
    (xs : List (List α)) : P (frames frame s xs).2 := by
  induction xs generalizing s with
  | nil => exact h
  | cons x xs ih => exact ih (hframe h)

end

end Ntr.Lib
