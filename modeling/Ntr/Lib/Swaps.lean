/-
Two lists that exchange entries, each with the one at the same position of the other.
-/
import Mathlib.Tactic.Common

namespace Ntr.Lib

open List

variable {α : Type*}

/-- The entries at a position are exchanged, if both lists have one. -/
def swapAt (p : List α × List α) (i : Nat) : List α × List α :=
  match p.1[i]?, p.2[i]? with
  | some a, some b => (p.1.set i b, p.2.set i a)
  | some _, none => p
  | none, _ => p

/-- The entries are exchanged at the positions, one after the other. -/
def swaps (is : List Nat) (p : List α × List α) : List α × List α := is.foldl swapAt p

variable {p q : List α × List α} {i j : Nat}

lemma swapAt_of_lt (h₁ : i < p.1.length) (h₂ : i < p.2.length) :
    swapAt p i = (p.1.set i p.2[i], p.2.set i p.1[i]) := by
  rw [swapAt, List.getElem?_eq_getElem h₁, List.getElem?_eq_getElem h₂]

lemma swapAt_of_not_lt (h : ¬ (i < p.1.length ∧ i < p.2.length)) : swapAt p i = p := by
  rw [swapAt]
  split
  · next a b h₁ h₂ =>
    exact absurd ⟨(List.getElem?_eq_some_iff.mp h₁).1, (List.getElem?_eq_some_iff.mp h₂).1⟩ h
  · rfl
  · rfl

@[simp]
lemma length_fst_swapAt (p : List α × List α) (i : Nat) : (swapAt p i).1.length = p.1.length := by
  by_cases h : i < p.1.length ∧ i < p.2.length
  · rw [swapAt_of_lt h.1 h.2, length_set]
  · rw [swapAt_of_not_lt h]

@[simp]
lemma length_snd_swapAt (p : List α × List α) (i : Nat) : (swapAt p i).2.length = p.2.length := by
  by_cases h : i < p.1.length ∧ i < p.2.length
  · rw [swapAt_of_lt h.1 h.2, length_set]
  · rw [swapAt_of_not_lt h]

lemma swapAt_swapAt (p : List α × List α) (i : Nat) : swapAt (swapAt p i) i = p := by
  by_cases h : i < p.1.length ∧ i < p.2.length
  · have h₁ : i < (swapAt p i).1.length := by rw [length_fst_swapAt]; exact h.1
    have h₂ : i < (swapAt p i).2.length := by rw [length_snd_swapAt]; exact h.2
    rw [swapAt_of_lt h₁ h₂]
    simp [swapAt_of_lt h.1 h.2]
  · rw [swapAt_of_not_lt h, swapAt_of_not_lt h]

lemma swapAt_comm (p : List α × List α) (i j : Nat) :
    swapAt (swapAt p i) j = swapAt (swapAt p j) i := by
  rcases eq_or_ne i j with rfl | hne
  · rfl
  by_cases hi : i < p.1.length ∧ i < p.2.length
  · by_cases hj : j < p.1.length ∧ j < p.2.length
    · have h₁ : j < (swapAt p i).1.length := by rw [length_fst_swapAt]; exact hj.1
      have h₂ : j < (swapAt p i).2.length := by rw [length_snd_swapAt]; exact hj.2
      have h₃ : i < (swapAt p j).1.length := by rw [length_fst_swapAt]; exact hi.1
      have h₄ : i < (swapAt p j).2.length := by rw [length_snd_swapAt]; exact hi.2
      rw [swapAt_of_lt h₁ h₂, swapAt_of_lt h₃ h₄]
      simp only [swapAt_of_lt hi.1 hi.2, swapAt_of_lt hj.1 hj.2, getElem_set_ne hne,
        getElem_set_ne hne.symm]
      rw [set_comm _ _ hne, set_comm _ _ hne]
    · have hj' : ¬ (j < (swapAt p i).1.length ∧ j < (swapAt p i).2.length) := by
        rwa [length_fst_swapAt, length_snd_swapAt]
      rw [swapAt_of_not_lt hj', swapAt_of_not_lt hj]
  · have hi' : ¬ (i < (swapAt p j).1.length ∧ i < (swapAt p j).2.length) := by
      rwa [length_fst_swapAt, length_snd_swapAt]
    rw [swapAt_of_not_lt hi, swapAt_of_not_lt hi']

variable (is : List Nat)

@[simp]
lemma length_fst_swaps (p : List α × List α) : (swaps is p).1.length = p.1.length := by
  induction is generalizing p with
  | nil => rfl
  | cons i is ih =>
    rw [swaps, foldl_cons, ← swaps, ih, length_fst_swapAt]

@[simp]
lemma length_snd_swaps (p : List α × List α) : (swaps is p).2.length = p.2.length := by
  induction is generalizing p with
  | nil => rfl
  | cons i is ih =>
    rw [swaps, foldl_cons, ← swaps, ih, length_snd_swapAt]

lemma swaps_swapAt (p : List α × List α) (i : Nat) :
    swaps is (swapAt p i) = swapAt (swaps is p) i := by
  induction is generalizing p with
  | nil => rfl
  | cons j is ih =>
    rw [swaps, foldl_cons, ← swaps, swapAt_comm, ih, swaps, swaps, foldl_cons]

/-- **Exchanges are undone by themselves.** -/
theorem swaps_swaps (p : List α × List α) : swaps is (swaps is p) = p := by
  induction is generalizing p with
  | nil => rfl
  | cons i is ih =>
    have hcons (q : List α × List α) : swaps (i :: is) q = swaps is (swapAt q i) := rfl
    rw [hcons, hcons, ← swaps_swapAt, swapAt_swapAt, ih]

end Ntr.Lib
