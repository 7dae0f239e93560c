/-
The addresses of a masked prefix in their order.

* `Addr.next`: the following address;
* `Prefix.usable`: its addresses after the network address, counted from `0`;
  they are the addresses of the prefix (`contains_iff_usable`), `next` goes from
  each to the following one (`next_usable`) and leaves the prefix after the last
  (`next_last`).
-/
import Ntr.Go.Netip

namespace Ntr.Go

/-! ### Blocks of bit vectors -/

section
variable {w h : Nat} {a b : BitVec w}

lemma block_le (hw : h ≤ w) (ha : 2 ^ h ∣ a.toNat) : a.toNat + 2 ^ h ≤ 2 ^ w := by
  obtain ⟨q, hq⟩ := ha
  obtain ⟨m, hm⟩ : 2 ^ h ∣ 2 ^ w := pow_dvd_pow 2 hw
  have hlt : 2 ^ h * q < 2 ^ h * m := by rw [← hq, ← hm]; exact a.isLt
  have hqm : q + 1 ≤ m := Nat.lt_of_mul_lt_mul_left hlt
  calc a.toNat + 2 ^ h = 2 ^ h * (q + 1) := by rw [hq, Nat.mul_add, Nat.mul_one]
    _ ≤ 2 ^ h * m := Nat.mul_le_mul_left _ hqm
    _ = 2 ^ w := hm.symm

/-- The upper bits agree with those of an aligned address inside its block. -/
lemma shift_xor_eq_zero_iff (ha : 2 ^ h ∣ a.toNat) :
    (a ^^^ b) >>> h = 0 ↔ a.toNat ≤ b.toNat ∧ b.toNat < a.toNat + 2 ^ h := by
  have hpos : 0 < 2 ^ h := Nat.two_pow_pos h
  obtain ⟨q, hq⟩ := ha
  have hdiv : a.toNat / 2 ^ h = q := by rw [hq, Nat.mul_div_cancel_left _ hpos]
  have hsame : (a ^^^ b) >>> h = 0 ↔ a.toNat / 2 ^ h = b.toNat / 2 ^ h := by
    rw [BitVec.ushiftRight_xor_distrib]
    constructor
    · intro hx
      have heq := congrArg BitVec.toNat (BitVec.xor_eq_zero_iff.mp hx)
      simpa only [BitVec.toNat_ushiftRight, Nat.shiftRight_eq_div_pow] using heq
    · intro heq
      refine BitVec.xor_eq_zero_iff.mpr (BitVec.eq_of_toNat_eq ?_)
      simpa only [BitVec.toNat_ushiftRight, Nat.shiftRight_eq_div_pow] using heq
  rw [hsame, hdiv, hq, eq_comm, Nat.div_eq_iff hpos]
  constructor
  · rintro ⟨hlo, hhi⟩
    rw [Nat.mul_comm]
    omega
  · rintro ⟨hlo, hhi⟩
    rw [Nat.mul_comm] at hlo hhi
    omega

lemma dvd_toNat_mask (a : BitVec w) : 2 ^ h ∣ (a >>> h <<< h).toNat := by
  rw [BitVec.toNat_shiftLeft, BitVec.toNat_ushiftRight, Nat.shiftRight_eq_div_pow,
    Nat.shiftLeft_eq, Nat.mod_eq_of_lt]
  · exact Nat.dvd_mul_left _ _
  · exact lt_of_le_of_lt (Nat.div_mul_le_self _ _) a.isLt

lemma toNat_add_ofNat (hw : h ≤ w) (ha : 2 ^ h ∣ a.toNat) {i : Nat} (hi : i < 2 ^ h) :
    (a + BitVec.ofNat w i).toNat = a.toNat + i := by
  have hle := block_le hw ha
  rw [BitVec.toNat_add, BitVec.toNat_ofNat, Nat.add_mod_mod, Nat.mod_eq_of_lt (by omega)]

end

/-- `Next`: the following address, the zero address after the last one. -/
def Addr.next : Addr → Addr
  | .zero => .zero
  | .v4 a => if a = BitVec.allOnes 32 then .zero else .v4 (a + 1)
  | .v6 a zone => if a = BitVec.allOnes 128 then .zero else .v6 (a + 1) zone

namespace Prefix

def Aligned (p : Prefix) : Prop :=
  match p.ip with
  | .zero => False
  | .v4 a => p.bits < 32 ∧ 2 ^ (32 - p.bits) ∣ a.toNat
  | .v6 a zone => p.bits < 128 ∧ 2 ^ (128 - p.bits) ∣ a.toNat ∧ zone = []

/-- The number of addresses after the network address. -/
def slots (p : Prefix) : Nat := 2 ^ (p.ip.bitLen - p.bits) - 1

def usable (p : Prefix) (i : Nat) : Addr :=
  match p.ip with
  | .zero => .zero
  | .v4 a => .v4 (a + BitVec.ofNat 32 (i + 1))
  | .v6 a zone => .v6 (a + BitVec.ofNat 128 (i + 1)) zone

lemma aligned_masked {p : Prefix} (hv : p.isValid = true) (hb : p.bits < p.ip.bitLen) :
    p.masked.Aligned := by
  rw [masked, if_pos hv]
  obtain ⟨a, n⟩ := p
  cases a with
  | zero => cases hv
  | v4 a => exact ⟨hb, dvd_toNat_mask a⟩
  | v6 a zone => exact ⟨hb, dvd_toNat_mask a, rfl⟩

variable {p : Prefix} {i j : Nat}

lemma slots_pos (hp : p.Aligned) : 0 < p.slots := by
  obtain ⟨a, n⟩ := p
  have hpow : ∀ w, n < w → 2 ≤ 2 ^ (w - n) := fun w hn => Nat.le_pow (by omega)
  rw [slots]
  cases a with
  | zero => exact hp.elim
  | v4 a => exact Nat.sub_pos_of_lt (hpow 32 hp.1)
  | v6 a zone => exact Nat.sub_pos_of_lt (hpow 128 hp.1)

lemma isValid_of_aligned (hp : p.Aligned) : p.isValid = true := by
  obtain ⟨a, n⟩ := p
  cases a with
  | zero => exact hp.elim
  | v4 a => exact decide_eq_true (Nat.le_of_lt hp.1)
  | v6 a zone => exact decide_eq_true (Nat.le_of_lt hp.1)

lemma isValid_usable (hp : p.Aligned) : (p.usable i).isValid = true := by
  obtain ⟨a, n⟩ := p
  cases a with
  | zero => exact hp.elim
  | v4 a => rfl
  | v6 a zone => rfl

lemma contains_iff_usable (hp : p.Aligned) (ip : Addr) :
    p.contains ip = true ↔ ip = p.ip ∨ ∃ i < p.slots, ip = p.usable i := by
  have hvalid := isValid_of_aligned hp
  obtain ⟨a, n⟩ := p
  -- An address of the block is the base or the base with an offset.
  have hblock : ∀ {w : Nat} {a b : BitVec w}, n ≤ w → 2 ^ (w - n) ∣ a.toNat →
      (((a ^^^ b) >>> (w - n) == 0) = true ↔
        b = a ∨ ∃ i < 2 ^ (w - n) - 1, b = a + BitVec.ofNat w (i + 1)) := by
    intro w a b hn ha
    rw [beq_iff_eq, shift_xor_eq_zero_iff ha]
    constructor
    · rintro ⟨hlo, hhi⟩
      rcases Nat.eq_or_lt_of_le hlo with heq | hlt
      · exact .inl (BitVec.eq_of_toNat_eq heq.symm)
      · refine .inr ⟨b.toNat - a.toNat - 1, by omega, BitVec.eq_of_toNat_eq ?_⟩
        rw [toNat_add_ofNat (Nat.sub_le w n) ha (by omega)]
        omega
    · rintro (rfl | ⟨i, hi, rfl⟩)
      · exact ⟨le_rfl, Nat.lt_add_of_pos_right (Nat.two_pow_pos _)⟩
      · rw [toNat_add_ofNat (Nat.sub_le w n) ha (by omega)]
        omega
  cases a with
  | zero => exact hp.elim
  | v4 a =>
    cases ip with
    | v4 b => simpa [contains, hvalid, usable, slots, Addr.bitLen] using
        hblock (b := b) (Nat.le_of_lt hp.1) hp.2
    | zero => simp [contains, usable]
    | v6 b zone => simp [contains, usable]
  | v6 a zone =>
    obtain ⟨hn, ha, rfl⟩ := hp
    cases ip with
    | v6 b zone =>
      cases zone with
      | nil => simpa [contains, hvalid, usable, slots, Addr.bitLen] using
          hblock (b := b) (Nat.le_of_lt hn) ha
      | cons c cs => simp [contains, usable]
    | zero => simp [contains, usable]
    | v4 b => simp [contains, usable]

lemma usable_injective (hp : p.Aligned) (hi : i < p.slots) (hj : j < p.slots)
    (h : p.usable i = p.usable j) : i = j := by
  obtain ⟨a, n⟩ := p
  have hoff : ∀ {w : Nat} {a : BitVec w}, 2 ^ (w - n) ∣ a.toNat → i < 2 ^ (w - n) - 1 →
      j < 2 ^ (w - n) - 1 → a + BitVec.ofNat w (i + 1) = a + BitVec.ofNat w (j + 1) → i = j := by
    intro w a ha hi hj heq
    have hnat := congrArg BitVec.toNat heq
    rw [toNat_add_ofNat (Nat.sub_le w n) ha (by omega),
      toNat_add_ofNat (Nat.sub_le w n) ha (by omega)] at hnat
    omega
  cases a with
  | zero => exact hp.elim
  | v4 a => exact hoff hp.2 hi hj (Addr.v4.inj h)
  | v6 a zone => exact hoff hp.2.1 hi hj (Addr.v6.inj h).1

lemma usable_ne_ip (hp : p.Aligned) (hi : i < p.slots) : p.usable i ≠ p.ip := by
  obtain ⟨a, n⟩ := p
  have hoff : ∀ {w : Nat} {a : BitVec w}, 2 ^ (w - n) ∣ a.toNat → i < 2 ^ (w - n) - 1 →
      a + BitVec.ofNat w (i + 1) ≠ a := by
    intro w a ha hi heq
    have hnat := congrArg BitVec.toNat heq
    rw [toNat_add_ofNat (Nat.sub_le w n) ha (by omega)] at hnat
    omega
  intro h
  cases a with
  | zero => exact hp.elim
  | v4 a => exact hoff hp.2 hi (Addr.v4.inj h)
  | v6 a zone => exact hoff hp.2.1 hi (Addr.v6.inj h).1

lemma contains_usable (hp : p.Aligned) (hi : i < p.slots) : p.contains (p.usable i) = true :=
  (contains_iff_usable hp _).mpr (.inr ⟨i, hi, rfl⟩)

lemma add_one_of_lt {w h : Nat} {a : BitVec w} (hw : h ≤ w) (ha : 2 ^ h ∣ a.toNat)
    (hi : i + 1 < 2 ^ h) : a + BitVec.ofNat w i ≠ BitVec.allOnes w ∧
      a + BitVec.ofNat w i + 1 = a + BitVec.ofNat w (i + 1) := by
  have hle := block_le hw ha
  constructor
  · intro h
    have hnat := congrArg BitVec.toNat h
    rw [toNat_add_ofNat hw ha (by omega), BitVec.toNat_allOnes] at hnat
    omega
  · rw [BitVec.add_assoc, BitVec.ofNat_add]
    rfl

lemma next_ip (hp : p.Aligned) : p.ip.next = p.usable 0 := by
  have hpos := slots_pos hp
  obtain ⟨a, n⟩ := p
  cases a with
  | zero => exact hp.elim
  | v4 a =>
    obtain ⟨hne, -⟩ := add_one_of_lt (i := 0) (Nat.sub_le 32 n) hp.2 (Nat.add_lt_of_lt_sub hpos)
    rw [Addr.next, if_neg (by simpa using hne)]
    rfl
  | v6 a zone =>
    obtain ⟨hne, -⟩ := add_one_of_lt (i := 0) (Nat.sub_le 128 n) hp.2.1 (Nat.add_lt_of_lt_sub hpos)
    rw [Addr.next, if_neg (by simpa using hne)]
    rfl

lemma next_usable (hp : p.Aligned) (hi : i + 1 < p.slots) :
    (p.usable i).next = p.usable (i + 1) := by
  obtain ⟨a, n⟩ := p
  rw [slots] at hi
  cases a with
  | zero => exact hp.elim
  | v4 a =>
    have hi : i + 1 < 2 ^ (32 - n) - 1 := hi
    obtain ⟨hne, hadd⟩ := add_one_of_lt (i := i + 1) (Nat.sub_le 32 n) hp.2 (by omega)
    rw [usable, usable, Addr.next, if_neg hne, hadd]
  | v6 a zone =>
    have hi : i + 1 < 2 ^ (128 - n) - 1 := hi
    obtain ⟨hne, hadd⟩ := add_one_of_lt (i := i + 1) (Nat.sub_le 128 n) hp.2.1 (by omega)
    rw [usable, usable, Addr.next, if_neg hne, hadd]

lemma next_last (hp : p.Aligned) (hi : i + 1 = p.slots) :
    (p.usable i).next.isValid = false ∨ p.contains (p.usable i).next = false := by
  have hvalid := isValid_of_aligned hp
  obtain ⟨a, n⟩ := p
  rw [slots] at hi
  -- The address after the block is not in it, unless the width ends with it.
  have hend : ∀ {w : Nat} {a : BitVec w}, 2 ^ (w - n) ∣ a.toNat → i + 1 = 2 ^ (w - n) - 1 →
      a + BitVec.ofNat w (i + 1) ≠ BitVec.allOnes w →
      ¬ (a ^^^ (a + BitVec.ofNat w (i + 1) + 1)) >>> (w - n) = 0 := by
    intro w a ha hi hne hin
    have hle := block_le (Nat.sub_le w n) ha
    have hlast := toNat_add_ofNat (Nat.sub_le w n) ha (i := i + 1) (by omega)
    have hmax : (a + BitVec.ofNat w (i + 1)).toNat ≠ 2 ^ w - 1 := by
      intro heq
      exact hne (BitVec.eq_of_toNat_eq (by rw [heq, BitVec.toNat_allOnes]))
    have hnext : (a + BitVec.ofNat w (i + 1) + 1).toNat = a.toNat + (i + 1) + 1 := by
      have hone : (1 : BitVec w).toNat = 1 % 2 ^ w := BitVec.toNat_ofNat 1 w
      rw [BitVec.toNat_add, hone, Nat.add_mod_mod, hlast, Nat.mod_eq_of_lt (by omega)]
    have hhi := ((shift_xor_eq_zero_iff ha).mp hin).2
    omega
  cases a with
  | zero => exact hp.elim
  | v4 a =>
    rw [usable, Addr.next]
    split_ifs with hall
    · exact .inl rfl
    · exact .inr (by simpa [contains, hvalid] using hend hp.2 hi hall)
  | v6 a zone =>
    obtain ⟨-, ha, rfl⟩ := hp
    rw [usable, Addr.next]
    split_ifs with hall
    · exact .inl rfl
    · exact .inr (by simpa [contains, hvalid] using hend ha hi hall)

end Prefix

end Ntr.Go
