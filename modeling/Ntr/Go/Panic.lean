/-
Run-time panics, and the machine integers that lead to them.
-/
import Ntr.Go.Io

namespace Ntr.Go

/-- A call without a value: it returns an error, it panics, or its loop goes on
for longer than the rounds that a model of it is given. -/
inductive Fault where
  | error (e : Error)
  | panic
  | spin
  deriving DecidableEq

def Returns {α : Type} (x : Except Fault α) : Prop := x ≠ .error .panic ∧ x ≠ .error .spin

@[simp]
lemma returns_ok {α : Type} (a : α) : Returns (.ok a : Except Fault α) := ⟨nofun, nofun⟩

@[simp]
lemma returns_error {α : Type} (e : Error) : Returns (.error (.error e) : Except Fault α) :=
  ⟨nofun, nofun⟩

lemma Returns.pass {α β : Type} {f : Fault} (h : Returns (.error f : Except Fault α)) :
    Returns (.error f : Except Fault β) := by
  cases f with
  | error e => exact returns_error e
  | panic => exact absurd rfl h.1
  | spin => exact absurd rfl h.2

@[simp]
lemma ok_bind {α β : Type} (a : α) (f : α → Except Fault β) : ((.ok a) >>= f) = f a := rfl

/-- The `int` that a sum or a conversion wraps into. -/
def int (x : Int) : Int := x.bmod (2 ^ 64)

lemma int_eq {x : Int} (hlo : 0 ≤ x) (hhi : x < 2 ^ 63) : int x = x := by
  rw [int, Int.bmod_def]
  omega

/-- `b[i]`. -/
def index (b : Str) (i : Int) : Except Fault UInt8 :=
  if 0 ≤ i ∧ i < b.length then .ok (b.getD i.toNat 0) else .error .panic

/-- `s[i]` for a slice of any type. -/
def nth {α : Type} (s : List α) (i : Int) : Except Fault α :=
  match s[i.toNat]? with
  | some a => if 0 ≤ i then .ok a else .error .panic
  | none => .error .panic

/-- `s[i] = a`. -/
def setNth {α : Type} (s : List α) (i : Nat) (a : α) : Except Fault (List α) :=
  if i < s.length then .ok (s.set i a) else .error .panic

/-- `b[lo:hi]`, where the capacity of `b` is its length. -/
def slice (b : Str) (lo hi : Int) : Except Fault Str :=
  if 0 ≤ lo ∧ lo ≤ hi ∧ hi ≤ b.length then .ok ((b.take hi.toNat).drop lo.toNat)
  else .error .panic

@[simp]
lemma index_zero (c : UInt8) (b : Str) : index (c :: b) 0 = .ok c := by
  simp [index]

lemma nth_natCast {α : Type} {s : List α} {n : Nat} {a : α} (h : s[n]? = some a) :
    nth s n = .ok a := by
  rw [nth, Int.toNat_natCast, h]
  exact if_pos (Int.natCast_nonneg n)

lemma slice_append (a b c : Str) :
    slice (a ++ (b ++ c)) a.length (a.length + b.length) = .ok b := by
  have hle : (a.length : Int) + b.length ≤ (a ++ (b ++ c)).length := by
    simp only [List.length_append]
    omega
  have hhi : ((a.length : Int) + b.length).toNat = (a ++ b).length := by
    rw [List.length_append]
    omega
  rw [slice, if_pos ⟨by omega, by omega, hle⟩, hhi, ← List.append_assoc, List.take_left,
    Int.toNat_natCast, List.drop_left]

lemma slice_drop {b : Str} {n : Nat} (h : n ≤ b.length) : slice b n b.length = .ok (b.drop n) := by
  rw [slice, if_pos ⟨by omega, by omega, le_rfl⟩]
  simp

lemma slice_panic {b : Str} {lo hi : Int} (h : hi < lo) : slice b lo hi = .error .panic :=
  if_neg fun hin => by omega

end Ntr.Go
