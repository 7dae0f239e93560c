/-
Segments of a linear order, looked up by their starts.

* `lookup l a`: only the last segment that starts at or before `a` is asked;
* `Gap l j a`: the element `a` lies behind the segment with number `j` and in
  front of all later ones;
* `lookup_iff_covered_iff` (**what a lookup misses**): over segments sorted by
  their starts it is right about `a` exactly where no earlier segment reaches
  into a gap at `a`.
-/
import Mathlib.Order.Defs.LinearOrder
import Mathlib.Tactic

namespace Ntr.Lib.Segments

open List

/-! ### Halving -/

/-- The first number from `i` on, below `j`, at which the test holds, else `j`. -/
def search (f : Nat → Bool) (i j : Nat) : Nat :=
  if i < j then
    if f ((i + j) / 2) then search f i ((i + j) / 2) else search f ((i + j) / 2 + 1) j
  else i
termination_by j - i
decreasing_by all_goals omega

section
variable {f : Nat → Bool}

lemma search_mem (f : Nat → Bool) (i j : Nat) (hij : i ≤ j) :
    i ≤ search f i j ∧ search f i j ≤ j := by
  fun_induction search f i j with
  | case1 i j hlt hf ih =>
    have := ih (by omega)
    omega
  | case2 i j hlt hf ih =>
    have := ih (by omega)
    omega
  | case3 i j hlt => omega

lemma search_spec (hf : ∀ a b, a ≤ b → f a = true → f b = true) (i j : Nat) :
    (∀ k, i ≤ k → k < search f i j → f k = false) ∧ ∀ k, search f i j ≤ k → k < j → f k = true := by
  fun_induction search f i j with
  | case1 i j hlt hmid ih =>
    refine ⟨ih.1, fun k hk hkj => ?_⟩
    by_cases hkm : k < (i + j) / 2
    · exact ih.2 k hk hkm
    · exact hf _ k (by omega) hmid
  | case2 i j hlt hmid ih =>
    refine ⟨fun k hik hk => ?_, ih.2⟩
    by_cases hkm : k < (i + j) / 2 + 1
    · rw [Bool.eq_false_iff]
      exact fun hfk => hmid (hf k _ (by omega) hfk)
    · exact ih.1 k (by omega) hk
  | case3 i j hlt => exact ⟨fun k hik hk => by omega, fun k hk hkj => by omega⟩

end

/-! ### Segments -/

/-- The elements from `first` to `last`, none if `last` comes first. -/
structure Segment (α : Type*) where
  first : α
  last : α
  deriving DecidableEq

variable {α : Type*} [LinearOrder α]

/-- The segment has the element. -/
def Segment.Has (s : Segment α) (a : α) : Prop := s.first ≤ a ∧ a ≤ s.last

instance Segment.decidableHas (s : Segment α) (a : α) : Decidable (s.Has a) :=
  inferInstanceAs (Decidable (_ ∧ _))

/-- Some segment has the element. -/
def Covered (l : List (Segment α)) (a : α) : Prop := ∃ s ∈ l, s.Has a

/-- The starts ascend. -/
def Sorted (l : List (Segment α)) : Prop := l.Pairwise fun s s' => s.first ≤ s'.first

/-- The segment with number `k` starts behind the element. -/
def behind (l : List (Segment α)) (a : α) (k : Nat) : Bool := l[k]?.all fun s => a < s.first

/-- The last segment that starts at or before the element, found by halving, has
it: the number in front of the first start behind it is asked, if there is one. -/
def lookup (l : List (Segment α)) (a : α) : Bool :=
  match search (behind l a) 0 l.length with
  | 0 => false
  | i + 1 => l[i]?.any fun s => a ≤ s.last

/-- Behind the segment with number `j` and in front of all later ones. -/
def Gap (l : List (Segment α)) (j : Nat) (a : α) : Prop :=
  ∃ s, l[j]? = some s ∧ s.first ≤ a ∧ s.last < a ∧ ∀ s' ∈ l.drop (j + 1), a < s'.first

section
variable {l : List (Segment α)} {a : α} {j : Nat} {s : Segment α}

lemma Sorted.first_le (hl : Sorted l) {i : Nat} {s' : Segment α} (hij : i ≤ j)
    (hi : l[i]? = some s) (hj : l[j]? = some s') : s.first ≤ s'.first := by
  rcases hij.eq_or_lt with rfl | hlt
  · rw [hi, Option.some.injEq] at hj
    rw [hj]
  · obtain ⟨hi', rfl⟩ := List.getElem?_eq_some_iff.mp hi
    obtain ⟨hj', rfl⟩ := List.getElem?_eq_some_iff.mp hj
    exact List.pairwise_iff_getElem.mp hl i j hi' hj' hlt

lemma behind_eq_true {k : Nat} : behind l a k = true ↔ ∀ s, l[k]? = some s → a < s.first := by
  rw [behind]
  cases l[k]? <;> simp

lemma behind_mono (hl : Sorted l) (k k' : Nat) (hk : k ≤ k') (h : behind l a k = true) :
    behind l a k' = true := by
  rw [behind_eq_true] at h ⊢
  intro s hs
  have hlt : k' < l.length := (List.getElem?_eq_some_iff.mp hs).1
  have hk' : l[k]? = some l[k] := List.getElem?_eq_getElem (hk.trans_lt hlt)
  exact (h _ hk').trans_le (hl.first_le hk hk' hs)

/-- What starts at or before an element stands in front of what starts behind it. -/
lemma lt_search_iff (hl : Sorted l) {k : Nat} (hk : l[k]? = some s) :
    k < search (behind l a) 0 l.length ↔ s.first ≤ a := by
  obtain ⟨hlow, hhigh⟩ := search_spec (behind_mono hl (a := a)) 0 l.length
  have hlen : k < l.length := (List.getElem?_eq_some_iff.mp hk).1
  constructor
  · intro hlt
    have hfalse := hlow k (Nat.zero_le k) hlt
    by_contra hgt
    rw [Bool.eq_false_iff, Ne, behind_eq_true] at hfalse
    refine hfalse fun s' hs' => ?_
    rw [hk, Option.some.injEq] at hs'
    exact hs' ▸ not_le.mp hgt
  · intro hle
    by_contra hge
    exact absurd (behind_eq_true.mp (hhigh k (not_lt.mp hge) hlen) s hk) (not_lt.mpr hle)

/-- Behind the last start at or before the element all starts are behind it. -/
lemma lt_first_of_drop (hl : Sorted l) (hj : search (behind l a) 0 l.length = j + 1)
    (hs : s ∈ l.drop (j + 1)) : a < s.first := by
  obtain ⟨k, hk⟩ := mem_iff_getElem?.mp hs
  rw [getElem?_drop] at hk
  have hiff := lt_search_iff hl (a := a) hk
  by_contra hle
  have := hiff.mpr (not_lt.mp hle)
  omega

/-- A last start at or before the element, with nothing but starts behind it
from there on, is the one that is found. -/
lemma search_eq_of_last (hl : Sorted l) (hj : l[j]? = some s)
    (hfirst : s.first ≤ a) (hlater : ∀ s' ∈ l.drop (j + 1), a < s'.first) :
    search (behind l a) 0 l.length = j + 1 := by
  have hlt := (lt_search_iff hl (a := a) hj).mpr hfirst
  have hle := (search_mem (behind l a) 0 l.length (Nat.zero_le _)).2
  by_contra hne
  have hin : j + 1 < l.length := by omega
  have hget : l[j + 1]? = some l[j + 1] := getElem?_eq_getElem hin
  have hstart := (lt_search_iff hl (a := a) hget).mp (by omega)
  have hmem : l[j + 1] ∈ l.drop (j + 1) :=
    mem_iff_getElem?.mpr ⟨0, by rw [getElem?_drop]; exact hget⟩
  exact absurd (hlater _ hmem) (not_lt.mpr hstart)

lemma covered_of_lookup (hl : Sorted l) (h : lookup l a = true) : Covered l a := by
  rw [lookup] at h
  split at h
  · cases h
  · next i hi =>
    obtain ⟨s, hs, hlast⟩ := (Option.any_eq_true _ _).mp h
    have hfirst := (lt_search_iff hl (a := a) hs).mp (by omega)
    exact ⟨s, mem_of_getElem? hs, hfirst, of_decide_eq_true hlast⟩

/-- **What a lookup misses.** -/
lemma lookup_iff_covered_iff (hl : Sorted l) :
    (lookup l a = true ↔ Covered l a) ↔ ∀ j, Gap l j a → ∀ s ∈ l.take j, s.last < a := by
  constructor
  · rintro h j ⟨sj, hj, hfirst, hlast, hlater⟩ s hs
    by_contra hreach
    obtain ⟨i, hi⟩ := mem_iff_getElem?.mp hs
    obtain ⟨hij, hi⟩ : i < j ∧ l[i]? = some s := by
      rw [getElem?_take] at hi
      split_ifs at hi with hij
      exact ⟨hij, hi⟩
    have hcov : Covered l a := ⟨s, mem_of_getElem? hi,
      (hl.first_le hij.le hi hj).trans hfirst, not_lt.mp hreach⟩
    have hfound := h.mpr hcov
    rw [lookup, search_eq_of_last hl hj hfirst hlater] at hfound
    change (l[j]?.any fun s => decide (a ≤ s.last)) = true at hfound
    rw [hj, Option.any_some, decide_eq_true_iff] at hfound
    exact absurd hlast (not_lt.mpr hfound)
  · refine fun h => ⟨covered_of_lookup hl, ?_⟩
    rintro ⟨s, hs, hfirst, hlast⟩
    obtain ⟨i, hi⟩ := mem_iff_getElem?.mp hs
    have hlt := (lt_search_iff hl (a := a) hi).mpr hfirst
    obtain ⟨j, hj⟩ : ∃ j, search (behind l a) 0 l.length = j + 1 := Nat.exists_eq_succ_of_ne_zero
      (by omega)
    have hle := (search_mem (behind l a) 0 l.length (Nat.zero_le _)).2
    have hget : l[j]? = some l[j] := getElem?_eq_getElem (by omega)
    have hstart := (lt_search_iff hl (a := a) hget).mp (by omega)
    rw [lookup, hj]
    change (l[j]?.any fun s => decide (a ≤ s.last)) = true
    rw [hget, Option.any_some, decide_eq_true_iff]
    by_contra hgap
    -- the segment found ends before the element, so the covering one is an earlier one
    have hne : i ≠ j := by
      rintro rfl
      rw [hi, Option.some.injEq] at hget
      exact hgap (hget ▸ hlast)
    refine absurd (h j ⟨_, hget, hstart, not_le.mp hgap, fun s' => lt_first_of_drop hl hj⟩ s
      (mem_iff_getElem?.mpr ⟨i, ?_⟩)) (not_lt.mpr hlast)
    rw [getElem?_take, if_pos (by omega), hi]

end

end Ntr.Lib.Segments
