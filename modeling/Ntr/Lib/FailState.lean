/-
Code that works on a state and may fail, where a failure keeps the state it
came to.

* `FailState ε σ α`: such code; `outcome` and `after` are its result and the
  state it leaves, on success and on failure;
* `Keeps R m`: whatever happens, the state before and the state after `m` are
  related by `R`. For a reflexive and transitive `R` the rules follow the
  structure of the code;
* `Steady m`: the outcome does not depend on the state;
* `Succeeds m s P`: on `s` the code succeeds, with a value and a state that
  meet `P`. The rules rewrite it along the structure of the code;
* `Runs m s x s'`: on `s` the code ends with the outcome `x` in the state `s'`;
* `second m`: the code on the second part of a state;
* `attempt m`: the code, where a failure is a value;
* `Simulates v m m'`: seen through `v`, the code `m` does on its states what
  `m'` does on the view of them.
-/
import Mathlib.Order.Defs.Unbundled

namespace Ntr.Lib

variable {ε ε' σ α β : Type}

/-- A chain of computations succeeds where each of them does. -/
lemma bind_eq_ok {x : Except ε α} {f : α → Except ε β} {b : β} :
    (x >>= f) = .ok b ↔ ∃ a, x = .ok a ∧ f a = .ok b := by
  cases x with
  | error e => exact iff_of_false (fun h => (by cases h)) (by rintro ⟨a, h, -⟩; cases h)
  | ok a => exact ⟨fun h => ⟨a, rfl, h⟩, by rintro ⟨a', h, hf⟩; cases h; exact hf⟩

lemma map_eq_ok {x : Except ε α} {f : α → β} {b : β} :
    x.map f = .ok b ↔ ∃ a, x = .ok a ∧ f a = b := by
  cases x with
  | error e => exact iff_of_false (fun h => (by cases h)) (by rintro ⟨a, h, -⟩; cases h)
  | ok a =>
    refine ⟨fun h => ⟨a, rfl, Except.ok.inj h⟩, ?_⟩
    rintro ⟨a', h, rfl⟩
    cases h
    rfl

/-- Code on a state `σ` that may fail with an `ε`. -/
abbrev FailState (ε σ α : Type) := ExceptT ε (StateM σ) α

namespace FailState

/-- The result of the code on a state. -/
def outcome (m : FailState ε σ α) (s : σ) : Except ε α := (m.run.run s).1

/-- The state that the code leaves. -/
def after (m : FailState ε σ α) (s : σ) : σ := (m.run.run s).2

/-- A computation that does not look at the state. -/
def lift (x : Except ε α) : FailState ε σ α := ExceptT.mk (pure x)

/-- An operation on the state that gives a value and does not fail. -/
def step (f : σ → α × σ) : FailState ε σ α := ExceptT.mk fun s => (.ok (f s).1, (f s).2)

/-- The same code with other errors. -/
def mapErr (g : ε → ε') (m : FailState ε σ α) : FailState ε' σ α :=
  ExceptT.mk fun s => (match m.outcome s with | .ok a => .ok a | .error e => .error (g e), m.after s)

/-- The code on the second part of a state. -/
def second {ρ : Type} (m : FailState ε σ α) : FailState ε (ρ × σ) α :=
  ExceptT.mk fun s => (m.outcome s.2, (s.1, m.after s.2))

/-- The value of the code, or nothing where it fails. -/
def attempt (m : FailState ε σ α) : FailState ε σ (Option α) :=
  ExceptT.mk fun s => (.ok (m.outcome s).toOption, m.after s)

/-- The code with its value and its error dropped: what it does to the state
remains. -/
def ignore (m : FailState ε σ α) : FailState ε σ Unit := ExceptT.mk fun s => (.ok (), m.after s)

section
variable (s : σ)

@[simp]
lemma outcome_pure (a : α) : outcome (pure a : FailState ε σ α) s = .ok a := rfl

@[simp]
lemma after_pure (a : α) : after (pure a : FailState ε σ α) s = s := rfl

@[simp]
lemma outcome_throw (e : ε) : outcome (throw e : FailState ε σ α) s = .error e := rfl

@[simp]
lemma after_throw (e : ε) : after (throw e : FailState ε σ α) s = s := rfl

@[simp]
lemma outcome_lift (x : Except ε α) : outcome (lift x : FailState ε σ α) s = x := rfl

@[simp]
lemma after_lift (x : Except ε α) : after (lift x : FailState ε σ α) s = s := rfl

@[simp]
lemma outcome_step (f : σ → α × σ) : outcome (step f : FailState ε σ α) s = .ok (f s).1 := rfl

@[simp]
lemma after_step (f : σ → α × σ) : after (step f : FailState ε σ α) s = (f s).2 := rfl

@[simp]
lemma after_mapErr (g : ε → ε') (m : FailState ε σ α) : after (mapErr g m) s = after m s := rfl

@[simp]
lemma outcome_ignore (m : FailState ε σ α) : outcome (ignore m) s = .ok () := rfl

@[simp]
lemma after_ignore (m : FailState ε σ α) : after (ignore m) s = after m s := rfl

lemma outcome_mapErr (g : ε → ε') (m : FailState ε σ α) :
    outcome (mapErr g m) s = match m.outcome s with | .ok a => .ok a | .error e => .error (g e) :=
  rfl

lemma run_bind (m : FailState ε σ α) (k : α → FailState ε σ β) : (m >>= k).run.run s =
      match outcome m s with
      | .ok a => (k a).run.run (after m s)
      | .error e => (.error e, after m s) := by
  rcases hm : m.run.run s with ⟨x, s'⟩
  cases x <;> simp [outcome, after, ExceptT.run_bind, StateT.run_bind, hm] <;> rfl

lemma outcome_bind (m : FailState ε σ α) (k : α → FailState ε σ β) : outcome (m >>= k) s =
      match outcome m s with
      | .ok a => outcome (k a) (after m s)
      | .error e => .error e := by
  rw [outcome, run_bind]
  cases outcome m s <;> rfl

lemma after_bind (m : FailState ε σ α) (k : α → FailState ε σ β) : after (m >>= k) s =
      match outcome m s with
      | .ok a => after (k a) (after m s)
      | .error _ => after m s := by
  rw [after, run_bind]
  cases outcome m s <;> rfl

end

/-! ### Frames -/

/-- The state after `m` is related to the state before it, also where `m`
fails. -/
def Keeps (R : σ → σ → Prop) (m : FailState ε σ α) : Prop := ∀ s, R s (after m s)

section
variable {R : σ → σ → Prop}

lemma Keeps.pure [Std.Refl R] (a : α) : Keeps R (pure a : FailState ε σ α) := fun s => refl s

lemma Keeps.throw [Std.Refl R] (e : ε) : Keeps R (throw e : FailState ε σ α) := fun s => refl s

lemma Keeps.lift [Std.Refl R] (x : Except ε α) : Keeps R (lift x : FailState ε σ α) :=
  fun s => refl s

lemma Keeps.mapErr {g : ε → ε'} {m : FailState ε σ α} (h : Keeps R m) : Keeps R (mapErr g m) := h

lemma Keeps.ite {p : Prop} [Decidable p] {m m' : FailState ε σ α} (h : Keeps R m)
    (h' : Keeps R m') : Keeps R (if p then m else m') := by
  split <;> assumption

lemma Keeps.bind [IsTrans σ R] {m : FailState ε σ α} {k : α → FailState ε σ β} (hm : Keeps R m)
    (hk : ∀ a, Keeps R (k a)) : Keeps R (m >>= k) := by
  intro s
  rw [after_bind]
  cases outcome m s with
  | ok a => exact IsTrans.trans _ _ _ (hm s) (hk a _)
  | error e => exact hm s

end

/-! ### Outcomes -/

/-- The outcome does not depend on the state. -/
def Steady (m : FailState ε σ α) : Prop := ∀ s s', outcome m s = outcome m s'

lemma Steady.pure (a : α) : Steady (pure a : FailState ε σ α) := fun _ _ => rfl

lemma Steady.throw (e : ε) : Steady (throw e : FailState ε σ α) := fun _ _ => rfl

lemma Steady.lift (x : Except ε α) : Steady (lift x : FailState ε σ α) := fun _ _ => rfl

lemma Steady.mapErr {g : ε → ε'} {m : FailState ε σ α} (h : Steady m) : Steady (mapErr g m) := by
  intro s s'
  rw [outcome_mapErr, outcome_mapErr, h s s']

lemma Steady.ite {p : Prop} [Decidable p] {m m' : FailState ε σ α} (h : Steady m)
    (h' : Steady m') : Steady (if p then m else m') := by
  split <;> assumption

/-- A step on the state, where the outcome of the rest does not depend on its
value. -/
lemma Steady.step_bind {f : σ → α × σ} {k : α → FailState ε σ β}
    (hk : ∀ a a' s s', outcome (k a) s = outcome (k a') s') : Steady (step f >>= k) := by
  intro s s'
  rw [outcome_bind, outcome_bind]
  exact hk _ _ _ _

lemma Steady.bind {m : FailState ε σ α} {k : α → FailState ε σ β} (hm : Steady m)
    (hk : ∀ a, Steady (k a)) : Steady (m >>= k) := by
  intro s s'
  rw [outcome_bind, outcome_bind, hm s s']
  cases outcome m s' with
  | ok a => exact hk a _ _
  | error e => rfl

/-! ### Success -/

/-- On `s` the code succeeds, and its value and the state it leaves meet `P`. -/
def Succeeds (m : FailState ε σ α) (s : σ) (P : α → σ → Prop) : Prop :=
  ∃ a, outcome m s = .ok a ∧ P a (after m s)

section
variable {s : σ} {P : α → σ → Prop} {Q : β → σ → Prop}

lemma succeeds_pure {a : α} : Succeeds (pure a : FailState ε σ α) s P ↔ P a s := by
  simp [Succeeds]

lemma not_succeeds_throw {e : ε} : ¬ Succeeds (throw e : FailState ε σ α) s P := by
  simp [Succeeds]

lemma succeeds_lift {x : Except ε α} :
    Succeeds (lift x : FailState ε σ α) s P ↔ ∃ a, x = .ok a ∧ P a s := Iff.rfl

lemma succeeds_bind {m : FailState ε σ α} {k : α → FailState ε σ β} :
    Succeeds (m >>= k) s Q ↔ Succeeds m s fun a s' => Succeeds (k a) s' Q := by
  simp only [Succeeds, outcome_bind, after_bind]
  cases outcome m s <;> simp

lemma succeeds_mapErr {g : ε → ε'} {m : FailState ε σ α} :
    Succeeds (mapErr g m) s P ↔ Succeeds m s P := by
  simp only [Succeeds, outcome_mapErr, after_mapErr]
  cases outcome m s <;> simp

lemma not_succeeds_bind {m : FailState ε σ α} {k : α → FailState ε σ β}
    (h : ∀ a s', ¬ Succeeds (k a) s' Q) : ¬ Succeeds (m >>= k) s Q := by
  rw [succeeds_bind]
  rintro ⟨a, -, hk⟩
  exact h a _ hk

lemma succeeds_guard {p : Prop} [Decidable p] {m m' : FailState ε σ α} (h : ¬ Succeeds m s P) :
    Succeeds (if p then m else m') s P ↔ ¬ p ∧ Succeeds m' s P := by
  by_cases hp : p <;> simp [hp, h]

lemma succeeds_ite {p : Prop} [Decidable p] {m m' : FailState ε σ α} :
    Succeeds (if p then m else m') s P ↔ (p ∧ Succeeds m s P) ∨ (¬ p ∧ Succeeds m' s P) := by
  by_cases hp : p <;> simp [hp]

end

/-! ### Runs -/

/-- On `s` the code ends with the outcome `x` and leaves `s'`. -/
def Runs (m : FailState ε σ α) (s : σ) (x : Except ε α) (s' : σ) : Prop :=
  outcome m s = x ∧ after m s = s'

section
variable {s s' s'' : σ} {m : FailState ε σ α} {k : α → FailState ε σ β} {a : α} {e : ε}

lemma runs_pure : Runs (pure a : FailState ε σ α) s (.ok a) s := ⟨rfl, rfl⟩

lemma runs_throw : Runs (throw e : FailState ε σ α) s (.error e) s := ⟨rfl, rfl⟩

variable {x : Except ε α}

lemma runs_lift : Runs (lift x) s x s := ⟨rfl, rfl⟩

lemma Runs.bind {y : Except ε β} (hm : Runs m s (.ok a) s') (hk : Runs (k a) s' y s'') :
    Runs (m >>= k) s y s'' := by
  rw [Runs, outcome_bind, after_bind, hm.1, hm.2]
  exact hk

lemma Runs.bind_error (hm : Runs m s (.error e) s') : Runs (m >>= k) s (.error e) s' := by
  rw [Runs, outcome_bind, after_bind, hm.1, hm.2]
  exact ⟨rfl, rfl⟩

lemma Runs.succeeds_iff {P : α → σ → Prop} (hm : Runs m s (.ok a) s') :
    Succeeds m s P ↔ P a s' := by
  simp [Succeeds, hm.1, hm.2]

lemma Runs.succeeds_bind_iff {Q : β → σ → Prop} (hm : Runs m s (.ok a) s') :
    Succeeds (m >>= k) s Q ↔ Succeeds (k a) s' Q := by
  rw [succeeds_bind, hm.succeeds_iff]

lemma runs_step {f : σ → α × σ} : Runs (step f : FailState ε σ α) s (.ok (f s).1) (f s).2 :=
  ⟨rfl, rfl⟩

lemma Runs.second {ρ : Type} (r : ρ) (hm : Runs m s x s') : Runs (second m) (r, s) x (r, s') :=
  ⟨hm.1, congrArg (Prod.mk r) hm.2⟩

lemma Runs.attempt (hm : Runs m s x s') : Runs (attempt m) s (.ok x.toOption) s' := by
  rw [← hm.1]
  exact ⟨rfl, hm.2⟩

lemma Runs.mapErr_ok {g : ε → ε'} (hm : Runs m s (.ok a) s') : Runs (mapErr g m) s (.ok a) s' := by
  rw [Runs, outcome_mapErr, hm.1]
  exact ⟨rfl, hm.2⟩

lemma Runs.mapErr_error {g : ε → ε'} (hm : Runs m s (.error e) s') :
    Runs (mapErr g m) s (.error (g e)) s' := by
  rw [Runs, outcome_mapErr, hm.1]
  exact ⟨rfl, hm.2⟩

end

/-! ### Simulation -/

section
variable {τ : Type} {v : σ → τ}

/-- Seen through `v`, the code `m` does what `m'` does. -/
def Simulates (v : σ → τ) (m : FailState ε σ α) (m' : FailState ε τ α) : Prop :=
  ∀ s, outcome m s = outcome m' (v s) ∧ v (after m s) = after m' (v s)

lemma Simulates.pure (a : α) :
    Simulates v (pure a : FailState ε σ α) (pure a : FailState ε τ α) := fun _ => ⟨rfl, rfl⟩

lemma Simulates.throw (e : ε) :
    Simulates v (throw e : FailState ε σ α) (throw e : FailState ε τ α) := fun _ => ⟨rfl, rfl⟩

lemma Simulates.lift (x : Except ε α) :
    Simulates v (lift x : FailState ε σ α) (lift x : FailState ε τ α) := fun _ => ⟨rfl, rfl⟩

variable {m' : FailState ε τ α}

lemma Simulates.ignore {m : FailState ε σ α} (h : Simulates v m m') :
    Simulates v (ignore m) (ignore m') := fun s => ⟨rfl, (h s).2⟩

lemma Simulates.mapErr {g : ε → ε'} {m : FailState ε σ α}
    (h : Simulates v m m') : Simulates v (mapErr g m) (mapErr g m') := by
  intro s
  rw [outcome_mapErr, outcome_mapErr, (h s).1]
  exact ⟨rfl, (h s).2⟩

lemma Simulates.ite {p : Prop} [Decidable p] {m₁ m₂ : FailState ε σ α}
    {m₁' m₂' : FailState ε τ α} (h₁ : Simulates v m₁ m₁') (h₂ : Simulates v m₂ m₂') :
    Simulates v (if p then m₁ else m₂) (if p then m₁' else m₂') := by
  split <;> assumption

lemma Simulates.bind {m : FailState ε σ α} {k : α → FailState ε σ β}
    {k' : α → FailState ε τ β} (hm : Simulates v m m') (hk : ∀ a, Simulates v (k a) (k' a)) :
    Simulates v (m >>= k) (m' >>= k') := by
  intro s
  obtain ⟨hout, haft⟩ := hm s
  rw [outcome_bind, outcome_bind, after_bind, after_bind, ← hout, ← haft]
  cases outcome m s with
  | ok a => exact hk a (after m s)
  | error e => exact ⟨rfl, rfl⟩

lemma Simulates.runs {m : FailState ε σ α} (h : Simulates v m m') {s : σ}
    {x : Except ε α} {t : τ} (hr : Runs m' (v s) x t) : outcome m s = x ∧ v (after m s) = t :=
  ⟨(h s).1.trans hr.1, (h s).2.trans hr.2⟩

/-- What the view of the result meets can be read off the simulating code. -/
lemma Simulates.succeeds_iff {m : FailState ε σ α} (h : Simulates v m m')
    {s : σ} {P : α → τ → Prop} : Succeeds m s (fun a s' => P a (v s')) ↔ Succeeds m' (v s) P := by
  simp only [Succeeds, (h s).1, (h s).2]

end

end FailState

end Ntr.Lib
