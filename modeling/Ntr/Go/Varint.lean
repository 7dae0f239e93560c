/-
Unsigned varints: numbers in base 128, lowest digit first, every byte but the
last with its high bit set.

* `Uvarint v n`: the bytes `v` write the number `n`, shortest or not;
* `uvarint_of_encodes`, `encodes_of_uvarint`: `uvarint` reads the numbers below
  `2 ^ 64` that ten bytes write, and nothing else;
* `beNat_putBE`, `putBE_beNat`: big-endian numbers of a fixed width and their
  bytes.
-/
import Ntr.Go.Encoding
import Ntr.Go.Io

namespace Ntr.Go

/-- The bytes write the number in base 128. -/
inductive Uvarint : Str → Nat → Prop
  | last {b : UInt8} (h : b.toNat < 128) : Uvarint [b] b.toNat
  | more {b : UInt8} {v : Str} {n : Nat} (h : 128 ≤ b.toNat) (hv : Uvarint v n) :
      Uvarint (b :: v) (b.toNat - 128 + 128 * n)

/-- The bytes write the number, and both are of the size that a `uint64` has. -/
def Encodes (v : Str) (n : Nat) : Prop := Uvarint v n ∧ v.length ≤ 10 ∧ n < 2 ^ 64

/-- `binary.PutUvarint`: the bytes that it stores. -/
def putUvarint (x : Nat) : Str :=
  if x < 128 then [UInt8.ofNat x] else UInt8.ofNat (x % 128 + 128) :: putUvarint (x / 128)
termination_by x
decreasing_by omega

/-- `binary.Uvarint` after `i` bytes that make `x`: the number and how many
bytes it took; no bytes when the buffer ends inside the number, a negative
number of them when the number is too large. -/
def uvarintFrom (i x : Nat) : Str → Nat × Int
  | [] => (0, 0)
  | b :: buf =>
    if i = 10 then (0, -(i + 1 : Int))
    else if b.toNat < 128 then
      if i = 9 ∧ 1 < b.toNat then (0, -(i + 1 : Int)) else (x + b.toNat * 2 ^ (7 * i), i + 1)
    else uvarintFrom (i + 1) (x + (b.toNat - 128) * 2 ^ (7 * i)) buf

def uvarint (buf : Str) : Nat × Int := uvarintFrom 0 0 buf

/-! ### Reading -/

variable {n : Nat} {v : Str}

lemma Uvarint.length_pos (h : Uvarint v n) : 0 < v.length := by
  cases h <;> simp

/-- One digit: its place value stays below `2 ^ 64` unless it is the tenth. -/
lemma digit_lt_iff {i b : Nat} (hi : i ≤ 9) (hb : b < 128) :
    b * 2 ^ (7 * i) < 2 ^ 64 ↔ ¬ (i = 9 ∧ 1 < b) := by
  interval_cases i <;> omega

lemma digit_add_lt_iff {i b : Nat} (hi : i < 9) (hb : b < 128) :
    (b + 128 * n) * 2 ^ (7 * i) < 2 ^ 64 ↔ n * 2 ^ (7 * (i + 1)) < 2 ^ 64 := by
  interval_cases i <;> omega

lemma digit_add (i x b n : Nat) :
    x + (b + 128 * n) * 2 ^ (7 * i) = x + b * 2 ^ (7 * i) + n * 2 ^ (7 * (i + 1)) := by
  rw [show 7 * (i + 1) = 7 * i + 7 by ring, pow_add]
  ring

lemma uvarintFrom_of_uvarint (h : Uvarint v n) (rest : Str) :
    ∀ {i x : Nat}, i + v.length ≤ 10 → n * 2 ^ (7 * i) < 2 ^ 64 →
      uvarintFrom i x (v ++ rest) = (x + n * 2 ^ (7 * i), ((i + v.length : Nat) : Int)) := by
  induction h with
  | last hb =>
    intro i x hlen hn
    have hlen' : i ≤ 9 := Nat.le_of_succ_le_succ hlen
    have hsmall := (digit_lt_iff hlen' hb).mp hn
    simp [uvarintFrom, hb, hsmall, show i ≠ 10 by omega]
  | @more b v n hb hv ih =>
    intro i x hlen hn
    have hpos := hv.length_pos
    have hlen' : i + 1 + v.length ≤ 10 := by
      rw [List.length_cons] at hlen
      omega
    have hlt : b.toNat - 128 < 128 := by
      have := b.toNat_lt
      omega
    have hn' := (digit_add_lt_iff (show i < 9 by omega) hlt).mp hn
    rw [List.cons_append, uvarintFrom, if_neg (by omega), if_neg (by omega), ih hlen' hn',
      digit_add]
    simp only [List.length_cons, Prod.mk.injEq, true_and]
    omega

lemma uvarint_of_uvarintFrom : ∀ {buf : Str} {i x : Nat}, i ≤ 10 → 0 < (uvarintFrom i x buf).2 →
    ∃ v n rest, buf = v ++ rest ∧ Uvarint v n ∧ i + v.length ≤ 10 ∧ n * 2 ^ (7 * i) < 2 ^ 64
  | [], _, _, _, h => by simp [uvarintFrom] at h
  | b :: buf, i, x, hi, h => by
    rw [uvarintFrom] at h
    by_cases h10 : i = 10
    · rw [if_pos h10] at h
      exact absurd h (by omega)
    rw [if_neg h10] at h
    by_cases hb : b.toNat < 128
    · by_cases h9 : i = 9 ∧ 1 < b.toNat
      · rw [if_pos hb, if_pos h9] at h
        exact absurd h (by omega)
      · refine ⟨[b], _, buf, rfl, .last hb, ?_, (digit_lt_iff (by omega) hb).mpr h9⟩
        simp only [List.length_singleton]
        omega
    · rw [if_neg hb] at h
      obtain ⟨v, n, rest, rfl, hv, hlen, hn⟩ := uvarint_of_uvarintFrom (by omega) h
      have hpos := hv.length_pos
      have hlt : b.toNat - 128 < 128 := by
        have := b.toNat_lt
        omega
      refine ⟨b :: v, _, rest, rfl, .more (by omega) hv, ?_,
        (digit_add_lt_iff (by omega) hlt).mpr hn⟩
      simp only [List.length_cons]
      omega

lemma uvarint_of_encodes (h : Encodes v n) (rest : Str) :
    uvarint (v ++ rest) = (n, (v.length : Int)) := by
  obtain ⟨hv, hlen, hn⟩ := h
  have hlen' : 0 + v.length ≤ 10 := by omega
  rw [uvarint, uvarintFrom_of_uvarint hv rest hlen' (by simpa using hn)]
  simp

lemma encodes_of_uvarint {buf : Str} (h : 0 < (uvarint buf).2) :
    ∃ v n rest, buf = v ++ rest ∧ Encodes v n := by
  obtain ⟨v, n, rest, hbuf, hv, hlen, hn⟩ := uvarint_of_uvarintFrom (by omega) h
  exact ⟨v, n, rest, hbuf, hv, by omega, by simpa using hn⟩

/-! ### Writing -/

lemma uvarint_putUvarint (x : Nat) : Uvarint (putUvarint x) x := by
  induction x using Nat.strong_induction_on with
  | _ x ih =>
    rw [putUvarint]
    by_cases hx : x < 128
    · have hb : (UInt8.ofNat x).toNat = x := UInt8.toNat_ofNat_of_lt (by rw [UInt8.size]; omega)
      have h := Uvarint.last (b := UInt8.ofNat x) (by omega)
      rw [hb] at h
      rwa [if_pos hx]
    · have hb : (UInt8.ofNat (x % 128 + 128)).toNat = x % 128 + 128 :=
        UInt8.toNat_ofNat_of_lt (by rw [UInt8.size]; omega)
      have h := Uvarint.more (b := UInt8.ofNat (x % 128 + 128)) (by omega) (ih (x / 128) (by omega))
      rw [hb, Nat.add_sub_cancel, Nat.mod_add_div] at h
      rwa [if_neg hx]

lemma length_putUvarint_le : ∀ (w x : Nat), x < 128 ^ (w + 1) → (putUvarint x).length ≤ w + 1
  | 0, x, h => by
    rw [putUvarint, if_pos (by simpa using h)]
    simp
  | w + 1, x, h => by
    rw [putUvarint]
    split
    · simp
    · have hdiv : x / 128 < 128 ^ (w + 1) := by
        rw [Nat.div_lt_iff_lt_mul (by decide)]
        simpa [pow_succ] using h
      simpa using length_putUvarint_le w (x / 128) hdiv

lemma encodes_putUvarint {x : Nat} (hx : x < 2 ^ 64) : Encodes (putUvarint x) x :=
  ⟨uvarint_putUvarint x, length_putUvarint_le 9 x (hx.trans (by norm_num)), hx⟩

/-! ### From a connection -/

open Lib Lib.FailState

/-- The loop of `binary.ReadUvarint` after `i` bytes that make `x`; the end of
the stream inside a number is not an end. -/
def readUvarintFrom {σ : Type} [Channel σ] : Nat → Nat → Nat → FailState Error σ Nat
  | 0, _, _ => throw (.text (lit "binary: varint overflows a 64-bit integer"))
  | rounds + 1, i, x => do
    let b ← mapErr (fun e => if 0 < i ∧ e = .eof then .unexpectedEOF else e) readByte
    if b.toNat < 128 then
      if i = 9 ∧ 1 < b.toNat then throw (.text (lit "binary: varint overflows a 64-bit integer"))
      else pure (x + b.toNat * 2 ^ (7 * i))
    else readUvarintFrom rounds (i + 1) (x + (b.toNat - 128) * 2 ^ (7 * i))

def readUvarint {σ : Type} [Channel σ] : FailState Error σ Nat := readUvarintFrom 10 0 0

lemma succeeds_readUvarintFrom (h : Uvarint v n) {P : Nat → Tape → Prop} :
    ∀ {t : Tape} {rest : Str} {rounds i x : Nat}, t.bytes = v ++ rest → i + rounds = 10 →
      v.length ≤ rounds → n * 2 ^ (7 * i) < 2 ^ 64 →
      P (x + n * 2 ^ (7 * i)) { t with bytes := rest } →
      Succeeds (readUvarintFrom rounds i x) t P := by
  induction h with
  | @last b hb =>
    intro t rest rounds i x ht hrounds hlen hn hP
    obtain ⟨rounds, rfl⟩ := Nat.exists_eq_succ_of_ne_zero (show rounds ≠ 0 by
      rw [List.length_singleton] at hlen; omega)
    rw [readUvarintFrom, succeeds_bind, succeeds_mapErr, succeeds_readByte]
    refine ⟨b, rest, ht, ?_⟩
    rw [if_pos hb, if_neg ((digit_lt_iff (by omega) hb).mp hn), succeeds_pure]
    exact hP
  | @more b v n hb hv ih =>
    intro t rest rounds i x ht hrounds hlen hn hP
    have hpos := hv.length_pos
    rw [List.length_cons] at hlen
    obtain ⟨rounds, rfl⟩ := Nat.exists_eq_succ_of_ne_zero (show rounds ≠ 0 by omega)
    have hlt : b.toNat - 128 < 128 := by
      have := b.toNat_lt
      omega
    have hn' := (digit_add_lt_iff (show i < 9 by omega) hlt).mp hn
    rw [readUvarintFrom, succeeds_bind, succeeds_mapErr, succeeds_readByte]
    refine ⟨b, v ++ rest, ht, ?_⟩
    rw [if_neg (by omega)]
    rw [digit_add] at hP
    exact ih rfl (by omega) (by omega) hn' hP

lemma succeeds_readUvarint {rest : Str} {t : Tape} {P : Nat → Tape → Prop}
    (h : Encodes v n) (ht : t.bytes = v ++ rest) (hP : P n { t with bytes := rest }) :
    Succeeds readUvarint t P := by
  obtain ⟨hv, hlen, hn⟩ := h
  exact succeeds_readUvarintFrom hv ht rfl hlen (by simpa using hn) (by simpa using hP)

/-! ### Numbers of a fixed width -/

lemma beNat_append (a : Str) (b : UInt8) : beNat (a ++ [b]) = beNat a * 256 + b.toNat := by
  simp [beNat]

@[simp]
lemma length_putBE : ∀ w n : Nat, (putBE w n).length = w
  | 0, _ => rfl
  | w + 1, n => by simp [putBE, length_putBE w]

lemma beNat_putBE : ∀ w n : Nat, beNat (putBE w n) = n % 256 ^ w
  | 0, n => by simp [putBE, beNat, Nat.mod_one]
  | w + 1, n => by
    have hmod : n % 256 ^ (w + 1) = n % 256 + 256 * (n / 256 % 256 ^ w) := by
      rw [pow_succ', Nat.mod_mul]
    rw [putBE, beNat_append, beNat_putBE w, UInt8.toNat_ofNat', hmod]
    omega

@[simp]
lemma uint16_putBE (x : UInt16) : uint16 (putBE 2 x.toNat) = x := by
  have hx : x.toNat % 256 ^ 2 = x.toNat := Nat.mod_eq_of_lt x.toNat_lt
  rw [uint16, beNat_putBE, hx, UInt16.ofNat_toNat]

lemma putBE_beNat (b : Str) : putBE b.length (beNat b) = b := by
  induction b using List.reverseRecOn with
  | nil => rfl
  | append_singleton a c ih =>
    have hdiv : (beNat a * 256 + c.toNat) / 256 = beNat a := by
      have := c.toNat_lt
      omega
    have hlow : UInt8.ofNat (beNat a * 256 + c.toNat) = c := by
      rw [← UInt8.toNat_inj, UInt8.toNat_ofNat']
      have := c.toNat_lt
      omega
    rw [List.length_append, List.length_singleton, putBE, beNat_append, hdiv, hlow, ih]

lemma beNat_lt (b : Str) : beNat b < 256 ^ b.length := by
  have h := beNat_putBE b.length (beNat b)
  rw [putBE_beNat] at h
  rw [h]
  exact Nat.mod_lt _ (by positivity)

end Ntr.Go
