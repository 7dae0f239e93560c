/-
Runs of a deterministic machine: a list of actions is taken from a state on,
one after the other.

* `foldl_invariant`: an invariant of the steps that meet a condition is an
  invariant of the runs whose steps all do;
* `always_iff_eachStep`: where a step keeps a property exactly under a
  condition, a run keeps it throughout exactly if each of its steps meets the
  condition;
* `foldl_broken`: a property that steps without the condition bring about, and that
  no step undoes, holds at the end of a run with such a step.
-/
import Mathlib.Tactic.Common

namespace Ntr.Lib

variable {σ α : Type*} (step : σ → α → σ)

/-- The property holds in every state of the run. -/
def Always (P : σ → Prop) : σ → List α → Prop
  | s, [] => P s
  | s, a :: as => P s ∧ Always P (step s a) as

/-- Each action meets the condition in the state that it is taken from. -/
def EachStep (C : σ → α → Prop) : σ → List α → Prop
  | _, [] => True
  | s, a :: as => C s a ∧ EachStep C (step s a) as

instance instDecidableEachStep (C : σ → α → Prop) [∀ s a, Decidable (C s a)] :
    ∀ (s : σ) (as : List α), Decidable (EachStep step C s as)
  | _, [] => .isTrue trivial
  | s, a :: as =>
    have := instDecidableEachStep C (step s a) as
    inferInstanceAs (Decidable (C s a ∧ EachStep step C (step s a) as))

variable {step} {P Q I : σ → Prop} {C D : σ → α → Prop} {as : List α} {s : σ}

lemma EachStep.and (hC : EachStep step C s as) (hD : EachStep step D s as) :
    EachStep step (fun s a => C s a ∧ D s a) s as := by
  induction as generalizing s with
  | nil => trivial
  | cons a as ih => exact ⟨⟨hC.1, hD.1⟩, ih hC.2 hD.2⟩

lemma eachStep_of_forall {C : α → Prop} (h : ∀ a ∈ as, C a) :
    EachStep step (fun _ a => C a) s as := by
  induction as generalizing s with
  | nil => trivial
  | cons a as ih => exact ⟨h a (.head _), ih fun b hb => h b (.tail _ hb)⟩

/-- **Invariants of runs** from invariants of steps. -/
lemma foldl_invariant (hstep : ∀ s a, I s → C s a → I (step s a)) (hs : I s)
    (h : EachStep step C s as) : I (as.foldl step s) := by
  induction as generalizing s with
  | nil => exact hs
  | cons a as ih => exact ih (hstep s a hs h.1) h.2

/-- What each step has under an invariant, each step of a run has. -/
lemma EachStep.imp (hinv : ∀ s a, I s → C s a → I (step s a))
    (hstep : ∀ s a, I s → C s a → D s a) (hs : I s)
    (h : EachStep step C s as) : EachStep step D s as := by
  induction as generalizing s with
  | nil => trivial
  | cons a as ih => exact ⟨hstep s a hs h.1, ih (hinv s a hs h.1) h.2⟩

/-- **Runs that keep a property throughout**, under an invariant that all steps
keep. -/
lemma always_iff_eachStep (hinv : ∀ s a, I s → I (step s a))
    (hstep : ∀ s a, I s → P s → (P (step s a) ↔ C s a)) (hI : I s)
    (hP : P s) : Always step P s as ↔ EachStep step C s as := by
  induction as generalizing s with
  | nil => exact iff_of_true hP trivial
  | cons a as ih =>
    constructor
    · rintro ⟨-, h⟩
      have hP' : P (step s a) := by cases as <;> [exact h; exact h.1]
      exact ⟨(hstep s a hI hP).mp hP', (ih (hinv s a hI) hP').mp h⟩
    · rintro ⟨hC, h⟩
      exact ⟨hP, (ih (hinv s a hI) ((hstep s a hI hP).mpr hC)).mpr h⟩

/-- **Runs with a step that does not meet the condition** end in what such a step
brings about, if no step undoes it. -/
lemma foldl_broken {A : α → Prop} {B : σ → Prop} (hstep : ∀ s a, I s → A a → C s a → I (step s a))
    (hbreak : ∀ s a, I s → A a → ¬ C s a → B (step s a)) (hkeep : ∀ s a, B s → B (step s a))
    (hs : I s) (hA : ∀ a ∈ as, A a) (h : ¬ EachStep step C s as) : B (as.foldl step s) := by
  induction as generalizing s with
  | nil => exact absurd trivial h
  | cons a as ih =>
    have ha : A a := hA a (.head _)
    have hA' : ∀ b ∈ as, A b := fun b hb => hA b (.tail _ hb)
    by_cases hC : C s a
    · exact ih (hstep s a hs ha hC) hA' fun h' => h ⟨hC, h'⟩
    · have hstays : ∀ (as : List α) (s : σ), B s → B (as.foldl step s) := fun as => by
        induction as with
        | nil => exact fun _ hB => hB
        | cons b as ihB => exact fun s hB => ihB _ (hkeep s b hB)
      exact hstays as _ (hbreak s a hs ha hC)

end Ntr.Lib
