/-
Machines that run step by step until they give a result.

* `run step stop n x`: at most `n` steps from `x`, and `stop` after them;
* `Leads x y`: the run from `x` comes to `y`; `Ends x a`: it gives `a`, however
  many steps are left for it. The two compose.
-/
import Mathlib.Logic.Relation

namespace Ntr.Lib.Machine

variable {σ α ε : Type} {step : σ → Except ε (σ ⊕ α)} {stop : ε} {x y z : σ} {a : α}

/-- At most `n` steps. -/
def run (step : σ → Except ε (σ ⊕ α)) (stop : ε) : Nat → σ → Except ε α
  | 0, _ => .error stop
  | n + 1, x =>
    match step x with
    | .ok (.inl y) => run step stop n y
    | .ok (.inr a) => .ok a
    | .error e => .error e

/-- The run comes from `x` to `y`. -/
def Leads (step : σ → Except ε (σ ⊕ α)) (x y : σ) : Prop :=
  ∀ stop, ∃ n, ∀ m, run step stop (n + m) x = run step stop m y

/-- The run from `x` gives `a`. -/
def Ends (step : σ → Except ε (σ ⊕ α)) (x : σ) (a : α) : Prop :=
  ∀ stop, ∃ n, ∀ m, run step stop (n + m) x = .ok a

lemma Leads.refl (x : σ) : Leads step x x := fun _ => ⟨0, fun m => by rw [Nat.zero_add]⟩

lemma Leads.trans (h : Leads step x y) (h' : Leads step y z) : Leads step x z := fun stop => by
  obtain ⟨n, hn⟩ := h stop
  obtain ⟨n', hn'⟩ := h' stop
  exact ⟨n + n', fun m => by rw [Nat.add_assoc, hn, hn']⟩

lemma Leads.ends (h : Leads step x y) (h' : Ends step y a) : Ends step x a := fun stop => by
  obtain ⟨n, hn⟩ := h stop
  obtain ⟨n', hn'⟩ := h' stop
  exact ⟨n + n', fun m => by rw [Nat.add_assoc, hn, hn']⟩

lemma leads_of_step (h : step x = .ok (.inl y)) : Leads step x y := fun _ =>
  ⟨1, fun m => by rw [Nat.add_comm, run, h]⟩

lemma ends_of_step (h : step x = .ok (.inr a)) : Ends step x a := fun _ =>
  ⟨1, fun m => by rw [Nat.add_comm, run, h]⟩

end Ntr.Lib.Machine
