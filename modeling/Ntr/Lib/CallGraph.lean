/-
Call graphs with edges of two kinds.

* `wellFounded_of_acyclic`: where finitely many points have a successor and no
  point lies on a cycle, every chain of calls ends;
* `wellFounded_sup_iff`: with no cycle of one kind alone, all chains of calls
  end exactly if there is no mixed cycle.
-/
import Mathlib.Logic.Relation
import Mathlib.Order.WellFounded
import Mathlib.Data.Set.Finite.Basic
import Mathlib.Order.RelIso.Set
import Mathlib.Order.OrderIsoNat
import Mathlib.Tactic

namespace Ntr.Lib

open Relation

variable {α : Type*}

/-- No point calls itself through others. -/
def Acyclic (r : α → α → Prop) : Prop := ∀ a, ¬ TransGen r a a

lemma acyclic_of_wellFounded {r : α → α → Prop} (h : WellFounded (flip r)) : Acyclic r := by
  intro a
  induction a using h.induction with
  | _ a ih =>
    intro hcyc
    obtain ⟨b, hab, hba⟩ := TransGen.head'_iff.mp hcyc
    exact ih b hab (TransGen.tail' hba hab)

/-- A chain of calls that never ends comes back to a point. -/
lemma wellFounded_of_acyclic {r : α → α → Prop} (hfin : {a | ∃ b, r a b}.Finite)
    (h : Acyclic r) : WellFounded (flip r) := by
  rw [wellFounded_iff_isEmpty_descending_chain]
  refine ⟨fun ⟨f, hf⟩ => ?_⟩
  have hstep : ∀ n, TransGen r (f n) (f (n + 1)) := fun n => TransGen.single (hf n)
  have hnot : ¬ Function.Injective f := fun hinj =>
    Set.infinite_of_injective_forall_mem hinj (s := {a | ∃ b, r a b})
      (fun n => ⟨f (n + 1), hf n⟩) hfin
  obtain ⟨i, j, hij, hne⟩ : ∃ i j, f i = f j ∧ i ≠ j := by
    simpa [Function.Injective] using hnot
  rcases hne.lt_or_gt with hlt | hlt
  · have hpath := Nat.rel_of_forall_rel_succ_of_lt (TransGen r) hstep hlt
    exact h (f i) (hij ▸ hpath)
  · have hpath := Nat.rel_of_forall_rel_succ_of_lt (TransGen r) hstep hlt
    exact h (f j) (hij ▸ hpath)

variable {r s : α → α → Prop}

/-- A path through an edge of the first kind and then one of the second. -/
def PathThrough (r s : α → α → Prop) (a b : α) : Prop :=
  ∃ p q u v, ReflTransGen (r ⊔ s) a p ∧ r p q ∧ ReflTransGen (r ⊔ s) q u ∧ s u v ∧
    ReflTransGen (r ⊔ s) v b

/-- A cycle through an edge of each kind. -/
def MixedCycle (r s : α → α → Prop) : Prop :=
  ∃ p q u v, r p q ∧ ReflTransGen (r ⊔ s) q u ∧ s u v ∧ ReflTransGen (r ⊔ s) v p

lemma PathThrough.tail {a b c : α} (h : PathThrough r s a b) (hbc : (r ⊔ s) b c) :
    PathThrough r s a c := by
  obtain ⟨p, q, u, v, hap, hpq, hqu, huv, hvb⟩ := h
  exact ⟨p, q, u, v, hap, hpq, hqu, huv, hvb.tail hbc⟩

/-- A path stays with one kind of edge or passes through both, in one order or
the other. -/
lemma path_cases {a b : α} (h : TransGen (r ⊔ s) a b) :
    TransGen r a b ∨ TransGen s a b ∨ PathThrough r s a b ∨ PathThrough s r a b := by
  induction h with
  | single hab => exact hab.elim (fun h => Or.inl (.single h)) (fun h => Or.inr (Or.inl (.single h)))
  | @tail b c _ hbc ih =>
    rcases ih with hr | hs | hp | hp
    · rcases hbc with hbc | hbc
      · exact Or.inl (hr.tail hbc)
      · obtain ⟨p, hap, hpb⟩ := TransGen.tail'_iff.mp hr
        exact Or.inr (Or.inr (Or.inl ⟨p, b, b, c,
          ReflTransGen.mono le_sup_left _ _ hap, hpb, .refl, hbc, .refl⟩))
    · rcases hbc with hbc | hbc
      · obtain ⟨p, hap, hpb⟩ := TransGen.tail'_iff.mp hs
        exact Or.inr (Or.inr (Or.inr ⟨p, b, b, c,
          ReflTransGen.mono le_sup_left _ _ hap, hpb, .refl, hbc, .refl⟩))
      · exact Or.inr (Or.inl (hs.tail hbc))
    · exact Or.inr (Or.inr (Or.inl (hp.tail hbc)))
    · exact Or.inr (Or.inr (Or.inr (hp.tail hbc.symm)))

lemma MixedCycle.of_pathThrough {a : α} (h : PathThrough r s a a) : MixedCycle r s := by
  obtain ⟨p, q, u, v, hap, hpq, hqu, huv, hva⟩ := h
  exact ⟨p, q, u, v, hpq, hqu, huv, hva.trans hap⟩

lemma MixedCycle.symm (h : MixedCycle s r) : MixedCycle r s := by
  obtain ⟨p, q, u, v, hpq, hqu, huv, hvp⟩ := h
  rw [sup_comm] at hqu hvp
  exact ⟨u, v, p, q, huv, hvp, hpq, hqu⟩

lemma MixedCycle.not_acyclic (h : MixedCycle r s) : ¬ Acyclic (r ⊔ s) := by
  obtain ⟨p, q, u, v, hpq, hqu, huv, hvp⟩ := h
  intro hacyc
  have hqp : ReflTransGen (r ⊔ s) q p := (hqu.tail (Or.inr huv)).trans hvp
  exact hacyc p (TransGen.head' (Or.inl hpq) hqp)

/-- **Two kinds of edges**: without cycles of one kind alone, the only cycles
are mixed ones. -/
theorem acyclic_sup_iff (hr : Acyclic r) (hs : Acyclic s) : Acyclic (r ⊔ s) ↔ ¬ MixedCycle r s := by
  refine ⟨fun h hmix => hmix.not_acyclic h, fun h a hcyc => ?_⟩
  rcases path_cases hcyc with hp | hp | hp | hp
  · exact hr a hp
  · exact hs a hp
  · exact h (MixedCycle.of_pathThrough hp)
  · exact h (MixedCycle.of_pathThrough hp).symm

/-- The same for the chains of calls, where finitely many points call. -/
theorem wellFounded_sup_iff (hfin : {a | ∃ b, (r ⊔ s) a b}.Finite) (hr : Acyclic r)
    (hs : Acyclic s) : WellFounded (flip (r ⊔ s)) ↔ ¬ MixedCycle r s := by
  rw [← acyclic_sup_iff hr hs]
  exact ⟨acyclic_of_wellFounded, wellFounded_of_acyclic hfin⟩

end Ntr.Lib
