/-
A ring of `N` slots, seen from the history of what was put into it: entry `k` of
the history went to slot `k % N`, and the last `N` entries are still there.

* `Live N hist k a`: entry `k` is `a`, and it is among the last `N`;
* `live_concat`: a new entry takes the place of the one `N` entries before it.
-/
import Mathlib.Data.List.Basic
import Mathlib.Data.Nat.ModEq

namespace Ntr.RingHistory

variable {α : Type*} {N : Nat} {hist : List α} {k k' : Nat} {a b : α}

/-- Entry `k` of the history is `a`, and it is among the last `N`. -/
def Live (N : Nat) (hist : List α) (k : Nat) (a : α) : Prop :=
  hist[k]? = some a ∧ hist.length ≤ k + N

/-- No key is live twice. -/
def Once (N : Nat) (hist : List α) : Prop :=
  ∀ k k' a, Live N hist k a → Live N hist k' a → k = k'

lemma not_live_nil : ¬ Live N ([] : List α) k a := by
  rintro ⟨h, -⟩
  cases h

lemma Live.lt (h : Live N hist k a) : k < hist.length := (List.getElem?_eq_some_iff.mp h.1).1

/-- A new entry takes the place of the one `N` entries before it. -/
lemma live_concat (hN : 0 < N) : Live N (hist ++ [b]) k a ↔
    k = hist.length ∧ a = b ∨ Live N hist k a ∧ k + N ≠ hist.length := by
  rw [Live, Live, List.length_append, List.length_singleton]
  rcases Nat.lt_trichotomy k hist.length with hk | rfl | hk
  · rw [List.getElem?_append_left hk]
    constructor
    · rintro ⟨ha, hlen⟩
      exact .inr ⟨⟨ha, by omega⟩, by omega⟩
    · rintro (⟨rfl, -⟩ | ⟨⟨ha, hlen⟩, hne⟩)
      · exact absurd hk (Nat.lt_irrefl _)
      · exact ⟨ha, by omega⟩
  · rw [List.getElem?_append_right le_rfl, Nat.sub_self, List.getElem?_eq_none le_rfl]
    constructor
    · rintro ⟨ha, -⟩
      exact .inl ⟨rfl, (Option.some.inj ha).symm⟩
    · rintro (⟨-, rfl⟩ | ⟨⟨ha, -⟩, -⟩)
      · exact ⟨rfl, by omega⟩
      · cases ha
  · have hend : (hist ++ [b])[k]? = none := by
      rw [List.getElem?_eq_none_iff, List.length_append, List.length_singleton]
      omega
    rw [hend, List.getElem?_eq_none (by omega)]
    constructor
    · rintro ⟨ha, -⟩
      cases ha
    · rintro (⟨rfl, -⟩ | ⟨⟨ha, -⟩, -⟩)
      · exact absurd hk (Nat.lt_irrefl _)
      · cases ha

lemma eq_of_mod_eq (h : k % N = k' % N) (hlt : k < k' + N) (hlt' : k' < k + N) : k = k' := by
  rcases Nat.le_total k k' with hle | hle
  · have hdvd : N ∣ k' - k := (Nat.modEq_iff_dvd' hle).mp h
    have hzero : k' - k = 0 := Nat.eq_zero_of_dvd_of_lt hdvd (by omega)
    omega
  · have hdvd : N ∣ k - k' := (Nat.modEq_iff_dvd' hle).mp h.symm
    have hzero : k - k' = 0 := Nat.eq_zero_of_dvd_of_lt hdvd (by omega)
    omega

/-- The slot of the next entry is the one of the entry that it pushes out. -/
lemma mod_eq_length_iff (h : Live N hist k a) : k % N = hist.length % N ↔ k + N = hist.length := by
  constructor
  · intro hmod
    by_contra hne
    have hk := h.lt
    have hlen := h.2
    exact absurd (eq_of_mod_eq hmod (by omega) (by omega)) (Nat.ne_of_lt hk)
  · intro hlen
    rw [← hlen, Nat.add_mod_right]

lemma Once.nil : Once N ([] : List α) := fun _ _ _ h => absurd h not_live_nil

lemma Once.concat (hN : 0 < N) (h : Once N hist) (hnew : ∀ k, ¬ Live N hist k b) :
    Once N (hist ++ [b]) := by
  intro k k' a hk hk'
  rcases (live_concat hN).mp hk with ⟨hlast, hab⟩ | ⟨hold, -⟩ <;>
    rcases (live_concat hN).mp hk' with ⟨hlast', hab'⟩ | ⟨hold', -⟩
  · rw [hlast, hlast']
  · exact absurd (hab ▸ hold') (hnew k')
  · exact absurd (hab' ▸ hold) (hnew k)
  · exact h k k' a hold hold'

end Ntr.RingHistory
