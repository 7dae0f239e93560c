/-
Scans that keep a least value.

A scan starts from a bound `a` and lowers it to every smaller value it meets;
its result is the least element of `insert a S`, where `S` collects the values
met.  The lemmas below compose such scans and let a table stand for the values
it was built from.

* `isLeast_insert_trans`: two scans in a row collect the union;
* `isLeast_foldl`: a scan over a list, from what one element contributes;
* `find?_eq_getElem?_of_isLeast`: the first element of a list with a property
  is the one at the least index with it.
-/
import Mathlib.Order.Bounds.Basic
import Mathlib.Data.List.Basic
import Mathlib.Tactic

namespace Ntr.Lib

variable {α β : Type*} [LinearOrder α]

/-! ### Composing scans -/

lemma isLeast_insert_singleton (a o : α) : IsLeast (insert a {o}) (if o < a then o else a) := by
  split_ifs with h
  · exact ⟨by simp, by rintro x (rfl | rfl) <;> [exact h.le; exact le_rfl]⟩
  · exact ⟨by simp, by rintro x (rfl | rfl) <;> [exact le_rfl; exact not_lt.mp h]⟩

lemma isLeast_insert_trans {S T : Set α} {a b c : α} (h : IsLeast (insert a S) b)
    (h' : IsLeast (insert b T) c) : IsLeast (insert a (S ∪ T)) c := by
  have hcb : c ≤ b := h'.2 (Set.mem_insert _ _)
  refine ⟨?_, ?_⟩
  · rcases h'.1 with rfl | hc
    · exact Set.insert_subset_insert Set.subset_union_left h.1
    · exact Set.mem_insert_of_mem _ (Or.inr hc)
  · rintro x (rfl | hx | hx)
    · exact hcb.trans (h.2 (Set.mem_insert _ _))
    · exact hcb.trans (h.2 (Set.mem_insert_of_mem _ hx))
    · exact h'.2 (Set.mem_insert_of_mem _ hx)

lemma isLeast_insert_guard {S : Set α} {a b : α} {p : Prop} [Decidable p]
    (h : p → IsLeast (insert a S) b) : IsLeast (insert a (⋃ _ : p, S)) (if p then b else a) := by
  by_cases hp : p
  · simpa [hp] using h hp
  · simp [hp]

/-- The scan of a list, from what one element contributes. -/
lemma isLeast_foldl {f : α → β → α} {S : β → Set α} (hf : ∀ a x, IsLeast (insert a (S x)) (f a x)) :
    ∀ (l : List β) (a : α), IsLeast (insert a (⋃ x ∈ l, S x)) (l.foldl f a)
  | [], a => by simp
  | x :: l, a => by
      have h := isLeast_insert_trans (hf a x) (isLeast_foldl hf l (f a x))
      have hset : S x ∪ ⋃ y ∈ l, S y = ⋃ y ∈ x :: l, S y := by
        ext o
        simp
      rwa [hset] at h

/-! ### Tables that keep the least values -/

/-- `S` lies inside `T` and reaches below each element of `T`. -/
def Undercuts (S T : Set α) : Prop := S ⊆ T ∧ IsCoinitialFor T S

namespace Undercuts

variable {S S' T T' : Set α}

lemma refl (S : Set α) : Undercuts S S := ⟨subset_rfl, fun x hx => ⟨x, hx, le_rfl⟩⟩

lemma trans (h : Undercuts S T) (h' : Undercuts T T') : Undercuts S T' := by
  refine ⟨h.1.trans h'.1, fun x hx => ?_⟩
  obtain ⟨y, hy, hyx⟩ := h'.2 hx
  obtain ⟨z, hz, hzy⟩ := h.2 hy
  exact ⟨z, hz, hzy.trans hyx⟩

lemma union (h : Undercuts S T) (h' : Undercuts S' T') : Undercuts (S ∪ S') (T ∪ T') := by
  refine ⟨Set.union_subset_union h.1 h'.1, ?_⟩
  rintro x (hx | hx)
  · obtain ⟨y, hy, hyx⟩ := h.2 hx
    exact ⟨y, Or.inl hy, hyx⟩
  · obtain ⟨y, hy, hyx⟩ := h'.2 hx
    exact ⟨y, Or.inr hy, hyx⟩

lemma isLeast (h : Undercuts S T) {a b : α} (hb : IsLeast (insert a S) b) :
    IsLeast (insert a T) b := by
  refine ⟨Set.insert_subset_insert h.1 hb.1, ?_⟩
  rintro x (rfl | hx)
  · exact hb.2 (Set.mem_insert _ _)
  · obtain ⟨y, hy, hyx⟩ := h.2 hx
    exact (hb.2 (Set.mem_insert_of_mem _ hy)).trans hyx

end Undercuts

/-- `S'` is `S` after the value `o` was offered to it on the condition `p`. -/
def Gains (S' S : Set α) (p : Prop) (o : α) : Prop := Undercuts S' (S ∪ {x | p ∧ x = o})

namespace Gains

variable {S S' T T' : Set α} {p q : Prop} {o : α}

lemma union (h : Gains S' S p o) (h' : Gains T' T q o) : Gains (S' ∪ T') (S ∪ T) (p ∨ q) o := by
  have hset : S ∪ T ∪ {x | (p ∨ q) ∧ x = o} = S ∪ {x | p ∧ x = o} ∪ (T ∪ {x | q ∧ x = o}) := by
    ext x
    simp only [Set.mem_union, Set.mem_ofPred_eq]
    tauto
  rw [Gains, hset]
  exact Undercuts.union h h'

lemma iUnion {ι : Sort*} {S S' : ι → Set α} {p : ι → Prop}
    (h : ∀ i, Gains (S' i) (S i) (p i) o) : Gains (⋃ i, S' i) (⋃ i, S i) (∃ i, p i) o := by
  have hset : (⋃ i, S i) ∪ {x | (∃ i, p i) ∧ x = o} = ⋃ i, (S i ∪ {x | p i ∧ x = o}) := by
    ext x
    simp only [Set.mem_union, Set.mem_iUnion, Set.mem_ofPred_eq, exists_or, exists_and_right]
  rw [Gains, hset]
  refine ⟨Set.iUnion_mono fun i => (h i).1, fun x hx => ?_⟩
  obtain ⟨i, hi⟩ := Set.mem_iUnion.mp hx
  obtain ⟨y, hy, hyx⟩ := (h i).2 hi
  exact ⟨y, Set.mem_iUnion_of_mem i hy, hyx⟩

lemma trans (h : Gains S' S p o) (h' : Gains T S' q o) : Gains T S (p ∨ q) o := by
  have hset : S ∪ {x | (p ∨ q) ∧ x = o} = S ∪ {x | p ∧ x = o} ∪ {x | q ∧ x = o} := by
    ext x
    simp only [Set.mem_union, Set.mem_ofPred_eq]
    tauto
  rw [Gains, hset]
  exact Undercuts.trans h' (Undercuts.union h (Undercuts.refl _))

lemma congr (h : Gains S' S p o) (hpq : p ↔ q) : Gains S' S q o := by
  rwa [Gains, ← hpq]

lemma of_not (S : Set α) (o : α) (hp : ¬p) : Gains S S p o := by
  have hset : S ∪ {x | p ∧ x = o} = S := by simp [hp]
  rw [Gains, hset]
  exact Undercuts.refl S

end Gains

/-! ### First elements -/

lemma find?_eq_getElem?_of_isLeast {γ : Type*} {p : γ → Bool} {l : List γ} {i : ℕ}
    (h : IsLeast {j | ∃ x, l[j]? = some x ∧ p x = true} i) : l.find? p = l[i]? := by
  obtain ⟨⟨x, hx, hpx⟩, hlow⟩ := h
  obtain ⟨hi, rfl⟩ := List.getElem?_eq_some_iff.mp hx
  rw [hx, List.find?_eq_some_iff_getElem]
  refine ⟨hpx, i, hi, rfl, fun j hj => ?_⟩
  by_contra hpj
  have hle := hlow ⟨l[j], List.getElem?_eq_getElem (by omega), by simpa using hpj⟩
  omega

end Ntr.Lib
