/-
What a reader takes off the bytes to come.

* `Consumes m L`: whenever `m` succeeds, its value and the bytes it has taken are
  related by `L`, and the bytes behind them are left. The rules follow the
  structure of the code;
* `consumes_readUvarint`: the bytes that a varint reader takes write its number;
* `times n m`: the code `n` times, with all its values.
-/
import Ntr.Go.Varint

namespace Ntr.Go

open Lib Lib.FailState

variable {α β : Type}

/-- The values of `m` and the bytes it takes are related by `L`. -/
def Consumes (m : FailState Error Tape α) (L : α → Str → Prop) : Prop :=
  ∀ t a, outcome m t = .ok a → ∃ e, L a e ∧ t.bytes = e ++ (after m t).bytes

namespace Consumes

variable {m : FailState Error Tape α} {k : α → FailState Error Tape β} {L L' : α → Str → Prop}
  {K : β → Str → Prop}

lemma imp (h : Consumes m L) (hL : ∀ a e, L a e → L' a e) : Consumes m L' := by
  intro t a ha
  obtain ⟨e, he, ht⟩ := h t a ha
  exact ⟨e, hL a e he, ht⟩

lemma pure {a : α} (h : L a []) : Consumes (pure a) L := by
  intro t b hb
  cases hb
  exact ⟨[], h, rfl⟩

lemma throw {e : Error} : Consumes (throw e) L := fun _ _ h => by cases h

lemma ite {p : Prop} [Decidable p] {m' : FailState Error Tape α} (h : p → Consumes m L)
    (h' : ¬ p → Consumes m' L) : Consumes (if p then m else m') L := by
  split_ifs with hp
  · exact h hp
  · exact h' hp

lemma mapErr {g : Error → Error} (h : Consumes m L) : Consumes (mapErr g m) L := by
  intro t a ha
  rw [outcome_mapErr] at ha
  split at ha
  · next b hb =>
    cases ha
    exact h t _ hb
  · cases ha

lemma bind (hm : Consumes m L) (hk : ∀ a e, L a e → Consumes (k a) fun b e' => K b (e ++ e')) :
    Consumes (m >>= k) K := by
  intro t b hb
  rw [outcome_bind] at hb
  rw [after_bind]
  split at hb
  · next a ha =>
    obtain ⟨e, he, ht⟩ := hm t a ha
    obtain ⟨e', he', ht'⟩ := hk a e he _ b hb
    refine ⟨e ++ e', he', ?_⟩
    rw [ht, ht', List.append_assoc]
  · cases hb

end Consumes

lemma consumes_readFull (n : Nat) : Consumes (readFull n) fun b e => e = b ∧ b.length = n := by
  intro t a ha
  have hread : Succeeds (readFull n) t fun b t' => b = a ∧ t' = after (readFull n) t :=
    ⟨a, ha, rfl, rfl⟩
  obtain ⟨b, rest, ht, hlen, rfl, hafter⟩ := succeeds_readFull.mp hread
  exact ⟨b, ⟨rfl, hlen⟩, by rw [← hafter, ht]⟩

lemma consumes_readByte : Consumes readByte fun b e => e = [b] := by
  rw [readByte]
  refine (consumes_readFull 1).bind ?_
  rintro b e ⟨rfl, hlen⟩
  obtain ⟨c, rfl⟩ := List.length_eq_one_iff.mp hlen
  exact .pure rfl

lemma consumes_readUvarintFrom (rounds i x : Nat) (hi : i + rounds = 10) :
    Consumes (readUvarintFrom rounds i x) fun y v =>
      ∃ n, Uvarint v n ∧ v.length ≤ rounds ∧ n * 2 ^ (7 * i) < 2 ^ 64 ∧ y = x + n * 2 ^ (7 * i) := by
  induction rounds generalizing i x with
  | zero => exact .throw
  | succ rounds ih =>
    rw [readUvarintFrom]
    refine consumes_readByte.mapErr.bind ?_
    rintro b e rfl
    refine .ite (fun hb => .ite (fun _ => .throw) fun h9 => .pure ?_) fun hb => ?_
    · exact ⟨b.toNat, .last hb, by simp, (digit_lt_iff (by omega) hb).mpr h9, rfl⟩
    · refine (ih (i + 1) _ (by omega)).imp ?_
      rintro y v ⟨n, hv, hlen, hn, rfl⟩
      have hlt : b.toNat - 128 < 128 := by
        have := b.toNat_lt
        omega
      have hi9 : i < 9 := by
        have := hv.length_pos
        omega
      refine ⟨_, .more (not_lt.mp hb) hv, by simpa using hlen,
        (digit_add_lt_iff hi9 hlt).mpr hn, ?_⟩
      rw [digit_add]

lemma consumes_readUvarint : Consumes readUvarint fun n v => Encodes v n := by
  refine (consumes_readUvarintFrom 10 0 0 rfl).imp ?_
  rintro y v ⟨n, hv, hlen, hn, rfl⟩
  simp only [Nat.mul_zero, pow_zero, Nat.mul_one, Nat.zero_add] at hn ⊢
  exact ⟨hv, hlen, hn⟩

/-! ### Repetition -/

/-- The code `n` times. -/
def times (n : Nat) (m : FailState Error Tape α) : FailState Error Tape (List α) :=
  match n with
  | 0 => pure []
  | n + 1 => do
    let a ← m
    let as ← times n m
    pure (a :: as)

lemma consumes_times {m : FailState Error Tape α} {L : α → Str → Prop} (h : Consumes m L) :
    ∀ n, Consumes (times n m) fun as e =>
      as.length = n ∧ ∃ parts, List.Forall₂ L as parts ∧ e = parts.flatten
  | 0 => .pure ⟨rfl, [], .nil, rfl⟩
  | n + 1 => by
    rw [times]
    refine h.bind fun a e he => (consumes_times h n).bind ?_
    rintro as e' ⟨hlen, parts, hparts, rfl⟩
    exact .pure ⟨by simp [hlen], e :: parts, .cons he hparts, by simp⟩

end Ntr.Go
