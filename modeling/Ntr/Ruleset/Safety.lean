/-
No index of the domain matchers leaves the arrays.

* `Sound s`: more ones than labels, and as many zeros as labels in front of the
  last one. Wherever a walk stands there is a one to come, `Sound.exists_one`;
* `Sound.child` (**to a child**): from a zero in front of the last one the walk
  goes on at a node with a leaf bit;
* `has_returns_iff`: the `.srs` matcher over what its reader takes, by the number
  of ones that an `int32` has to count;
* `matchDomain_returns`: the `.mrs` matcher over sound arrays.
-/
import Ntr.Ruleset.Mrs
import Ntr.Ruleset.Srs

namespace Ntr.Ruleset

open Go Louds Lib Lib.FailState List SuccinctBits

/-! ### The bits of words -/

def wordBits (w : UInt64) : List Bool := (List.range 64).map fun b => w.toNat.testBit b

def unpack (ws : List UInt64) : List Bool := ws.flatMap wordBits

lemma length_wordBits (w : UInt64) : (wordBits w).length = 64 := by
  rw [wordBits, length_map, length_range]

lemma length_unpack (ws : List UInt64) : (unpack ws).length = 64 * ws.length := by
  induction ws with
  | nil => rfl
  | cons w ws ih =>
    rw [unpack, flatMap_cons, length_append, length_wordBits, ← unpack, ih, length_cons]
    omega

lemma packWord_wordBits (w : UInt64) (bs : List Bool) : packWord (wordBits w ++ bs) = w := by
  rw [← UInt64.toNat_inj]
  refine Nat.eq_of_testBit_eq fun i => ?_
  by_cases hi : i < 64
  · rw [testBit_packWord _ hi, getD_eq_getElem?_getD,
      getElem?_append_left (by rwa [length_wordBits]), wordBits, getElem?_map,
      getElem?_range hi, Option.map_some, Option.getD_some]
  · have hbig : ∀ x : UInt64, x.toNat.testBit i = false := fun x =>
      Nat.testBit_lt_two_pow (x.toNat_lt.trans_le (Nat.pow_le_pow_right (by omega) (by omega)))
    rw [hbig, hbig]

lemma pack_append {b : List Bool} (hb : b.length = 64) (bs : List Bool) :
    pack (b ++ bs) = packWord (b ++ bs) :: pack bs := by
  have hwords : ((b ++ bs).length + 63) / 64 = (bs.length + 63) / 64 + 1 := by
    rw [length_append, hb]
    omega
  have hdrop : ∀ w, (b ++ bs).drop (64 * (w + 1)) = bs.drop (64 * w) := fun w => by
    rw [show 64 * (w + 1) = b.length + 64 * w by omega, ← drop_drop, drop_left]
  rw [pack, hwords, range_succ_eq_map, map_cons, map_map, Nat.mul_zero, drop_zero, pack]
  refine congrArg _ (map_congr_left fun w _ => ?_)
  rw [Function.comp_apply, Nat.succ_eq_add_one, hdrop]

lemma pack_unpack (ws : List UInt64) : pack (unpack ws) = ws := by
  induction ws with
  | nil => rfl
  | cons w ws ih =>
    rw [unpack, flatMap_cons, pack_append (length_wordBits w), packWord_wordBits, ← unpack, ih]

lemma count_unpack (ws : List UInt64) : (unpack ws).count true = (ws.map onesCount64).sum := by
  rw [← sum_onesCount64_pack, pack_unpack]

lemma getElem?_unpack_cons {w : UInt64} {ws : List UInt64} {p : Nat}
    (h : (unpack (w :: ws))[p]? = some true) :
    p < 64 ∧ w.toNat.testBit p = true ∨ 64 ≤ p ∧ (unpack ws)[p - 64]? = some true := by
  rw [unpack, flatMap_cons, ← unpack] at h
  by_cases hp : p < 64
  · rw [getElem?_append_left (by rwa [length_wordBits]), wordBits, getElem?_map,
      getElem?_range hp, Option.map_some, Option.some.injEq] at h
    exact .inl ⟨hp, h⟩
  · rw [getElem?_append_right (by rw [length_wordBits]; omega), length_wordBits] at h
    exact .inr ⟨by omega, h⟩

lemma le_lastOneIndex (ws : List UInt64) (wi : Nat) (last : Int) (h : last < 64 * wi) :
    last ≤ lastOneIndex ws wi last := by
  induction ws generalizing wi last with
  | nil => exact le_rfl
  | cons w ws ih =>
    rw [lastOneIndex]
    split_ifs with hw
    · have hlog := (Nat.log2_lt fun h0 => hw (UInt64.toNat_inj.mp h0)).mpr w.toNat_lt
      exact le_trans (by push_cast; omega) (ih (wi + 1) _ (by push_cast; omega))
    · exact ih (wi + 1) last (by push_cast; omega)

lemma lastOneIndex_lt (ws : List UInt64) (wi : Nat) (last : Int) (h : last < 64 * wi) :
    lastOneIndex ws wi last < 64 * (wi + ws.length) := by
  induction ws generalizing wi last with
  | nil => simpa [lastOneIndex] using h
  | cons w ws ih =>
    rw [lastOneIndex, length_cons]
    split_ifs with hw
    · have hlog := (Nat.log2_lt fun h0 => hw (UInt64.toNat_inj.mp h0)).mpr w.toNat_lt
      have hlt := ih (wi + 1) ((64 * wi + w.toNat.log2 : Nat) : Int) (by push_cast; omega)
      push_cast at hlt ⊢
      omega
    · have hlt := ih (wi + 1) last (by push_cast; omega)
      push_cast at hlt ⊢
      omega

lemma le_lastOneIndex_of_one {ws : List UInt64} {p : Nat} (hp : (unpack ws)[p]? = some true)
    (wi : Nat) (last : Int) : (64 * wi + p : Nat) ≤ lastOneIndex ws wi last := by
  induction ws generalizing p wi last with
  | nil => simp [unpack] at hp
  | cons w ws ih =>
    rw [lastOneIndex]
    rcases getElem?_unpack_cons hp with ⟨hlt, hbit⟩ | ⟨hge, hbit⟩
    · have hne : w.toNat ≠ 0 := fun h0 => by simp [h0] at hbit
      have hlog := (Nat.log2_lt hne).mpr w.toNat_lt
      have hle : p ≤ w.toNat.log2 :=
        (Nat.le_log2 hne).mpr (Nat.ge_two_pow_of_testBit hbit)
      have hlast := le_lastOneIndex ws (wi + 1) ((64 * wi + w.toNat.log2 : Nat) : Int)
        (by push_cast; omega)
      rw [if_pos fun h0 => hne (by rw [h0, UInt64.toNat_zero])]
      push_cast at hlast ⊢
      omega
    · have hnext := ih hbit (wi + 1)
        (if w ≠ 0 then ((64 * wi + w.toNat.log2 : Nat) : Int) else last)
      push_cast at hnext ⊢
      omega

lemma ones_of_forall_lt {bs : List Bool} {n : Nat} (h : ∀ p, bs[p]? = some true → p < n) :
    ones bs n = bs.count true := by
  have hrest : (bs.drop n).count true = 0 := by
    rw [count_eq_zero]
    intro hmem
    obtain ⟨i, hi⟩ := mem_iff_getElem?.mp hmem
    rw [getElem?_drop] at hi
    have := h _ hi
    omega
  have hsplit := congrArg (List.count true) (take_append_drop n bs)
  rw [count_append, hrest, Nat.add_zero] at hsplit
  exact hsplit

lemma exists_getBit {bm : List UInt64} {i : Nat} (h : i < 64 * bm.length) :
    ∃ b, getBit bm i = .ok b := by
  obtain ⟨b, hb⟩ : ∃ b, (unpack bm)[i]? = some b :=
    ⟨_, getElem?_eq_getElem (by rwa [length_unpack])⟩
  have hbit := getBit_pack hb
  rw [pack_unpack] at hbit
  exact ⟨b, hbit⟩

/-! ### Rank and select -/

section
variable (leaves ws : List UInt64) (labels : Str)

/-- Behind the last word `rank` gives what the `int32` has counted. -/
lemma rank_end : (newSuccinctBits leaves ws labels).rank (64 * ws.length : Nat) =
    .ok (Int32.ofNat ((unpack ws).count true)).toInt := by
  have hsum := @wordOnes_eq (unpack ws) leaves labels ws.length (by rw [pack_unpack])
  rw [pack_unpack, ← length_unpack, ones, take_length] at hsum
  rw [SuccinctBits.rank, show ((64 * ws.length : Nat) : Int) / 64 = (ws.length : Nat) by omega,
    nth_natCast hsum, show ((64 * ws.length : Nat) : Int) % 64 = 0 by omega]
  rfl

/-- **`selectIthOne` finds the ones and `rank` counts them**, so that each undoes the other,
over any bitmap with its sums, exactly when an `int32` counts all its ones. -/
theorem rank_select_iff : ((∀ i < (unpack ws).count true, ∃ p : Nat, IsSelect (unpack ws) i p ∧
      (newSuccinctBits leaves ws labels).selectIthOne i = .ok (p : Nat) ∧
      (newSuccinctBits leaves ws labels).rank p = .ok (i : Nat)) ∧
    ∀ p ≤ 64 * ws.length,
      (newSuccinctBits leaves ws labels).rank p = .ok (ones (unpack ws) p : Nat)) ↔
    (unpack ws).count true < 2 ^ 31 := by
  constructor
  · rintro ⟨-, hrank⟩
    -- An `int32` is less than `2 ^ 31`, also where it stands for the count of all ones.
    have hlast := (rank_end leaves ws labels).symm.trans (hrank _ le_rfl)
    rw [← length_unpack, ones, take_length] at hlast
    have hsum := Except.ok.inj hlast
    have hlt := (Int32.ofNat ((unpack ws).count true)).toInt_lt
    omega
  · intro hfew
    have hrank : ∀ p ≤ 64 * ws.length,
        (newSuccinctBits leaves ws labels).rank p = .ok (ones (unpack ws) p : Nat) := by
      intro p hp
      have h := rank_pack leaves labels ((ones_le_count (unpack ws) p).trans_lt hfew)
        (by rwa [length_unpack])
      rwa [pack_unpack] at h
    refine ⟨fun i hi => ?_, hrank⟩
    rw [← take_length (l := unpack ws)] at hi
    obtain ⟨p, hp, hsel⟩ := exists_isSelect_of_lt hi
    have hfind := selectIthOne_pack leaves labels hfew hsel
    rw [pack_unpack] at hfind
    rw [length_unpack] at hp
    exact ⟨p, hsel, hfind, hsel.2 ▸ hrank p hp.le⟩

lemma count_full (n : Nat) :
    (unpack (List.replicate n 0xFFFFFFFFFFFFFFFF)).count true = 64 * n := by
  have hword : onesCount64 0xFFFFFFFFFFFFFFFF = 64 := by decide +kernel
  rw [count_unpack, map_replicate, hword, sum_replicate, smul_eq_mul, Nat.mul_comm]

lemma rank_full (n : Nat) :
    (newSuccinctBits [] (List.replicate n 0xFFFFFFFFFFFFFFFF) []).rank (64 * n : Nat) =
      .ok (Int32.ofNat (64 * n)).toInt := by
  have h := rank_end [] (List.replicate n 0xFFFFFFFFFFFFFFFF) []
  rwa [count_full, length_replicate] at h

/-- **The sums wrap around**: behind `2 ^ 31` ones `rank` gives `-2 ^ 31`. -/
theorem rank_wraps : (newSuccinctBits [] (List.replicate (2 ^ 25) 0xFFFFFFFFFFFFFFFF) []).rank
      (64 * 2 ^ 25 : Nat) = .ok (-2 ^ 31) ∧
    (unpack (List.replicate (2 ^ 25) 0xFFFFFFFFFFFFFFFF)).count true = 2 ^ 31 :=
  ⟨(rank_full (2 ^ 25)).trans (congrArg _ (by decide)), (count_full (2 ^ 25)).trans (by decide)⟩

end

/-! ### Sound arrays -/

namespace SuccinctBits

def bits (s : SuccinctBits) : List Bool := unpack s.labelBitmap

def onesCount (s : SuccinctBits) : Nat := (s.labelBitmap.map onesCount64).sum

/-- The zeros in front of the last one, as `readSingSuccinct` counts them. -/
def zerosCount (s : SuccinctBits) : Int :=
  lastOneIndex s.labelBitmap 0 (-1) + 1 - s.onesCount

end SuccinctBits

/-- As many labels as zeros in front of the last one, fewer than ones and leaf
bits, and an `int32` counts the ones. -/
structure Sound (s : SuccinctBits) : Prop where
  sums : s = newSuccinctBits s.leaves s.labelBitmap s.labels
  zeros : (s.labels.length : Int) = s.zerosCount
  more : s.labels.length < s.onesCount
  leaf : s.labels.length < 64 * s.leaves.length
  few : s.onesCount < 2 ^ 31

/-- A walk stands at the node with number `v`, with `b` at one of its bits. -/
def Stands (s : SuccinctBits) (v b : Nat) : Prop := ones s.bits b = v ∧ v ≤ s.labels.length

namespace Sound

variable {s : SuccinctBits} {v b i p : Nat}

lemma count (s : SuccinctBits) : s.bits.count true = s.onesCount := count_unpack _

lemma bit {x : Bool} (h : s.bits[i]? = some x) : getBit s.labelBitmap i = .ok x := by
  have hbit := getBit_pack h
  rwa [bits, pack_unpack] at hbit

lemma countZeros (h : Sound s) (hi : i ≤ s.bits.length) :
    s.countZeros i = .ok (i - ones s.bits i : Nat) := by
  have hfew : ones s.bits i < 2 ^ 31 :=
    (ones_le_count s.bits i).trans_lt ((count s).trans_lt h.few)
  have hzeros := countZeros_pack s.leaves s.labels hfew hi
  rwa [bits, pack_unpack, ← h.sums] at hzeros

lemma select (h : Sound s) (hp : IsSelect s.bits i p) : s.selectIthOne i = .ok (p : Nat) := by
  have hsel := selectIthOne_pack s.leaves s.labels ((count s).trans_lt h.few) hp
  rwa [bits, pack_unpack, ← h.sums] at hsel

lemma size (h : Sound s) : s.labels.length + s.onesCount ≤ s.bits.length := by
  have hlt := lastOneIndex_lt s.labelBitmap 0 (-1) (by norm_num)
  have hz := h.zeros
  rw [zerosCount] at hz
  rw [bits, length_unpack]
  omega

lemma ones_last (h : Sound s) : ones s.bits (s.labels.length + s.onesCount) = s.onesCount := by
  rw [← count s]
  refine ones_of_forall_lt fun p hp => ?_
  have hle := le_lastOneIndex_of_one hp 0 (-1)
  have hz := h.zeros
  rw [zerosCount] at hz
  rw [count s]
  omega

lemma zeros_le (h : Sound s) (hi : i ≤ s.labels.length + s.onesCount) :
    i - ones s.bits i ≤ s.labels.length := by
  have hle := ones_le_add s.bits hi
  have hlast := h.ones_last
  omega

/-- **A one to come.** -/
lemma exists_one (h : Sound s) (hv : Stands s v b) :
    ∃ p, b ≤ p ∧ p < s.labels.length + s.onesCount ∧ s.bits[p]? = some true := by
  obtain ⟨p, hp, hbit, hones⟩ : ∃ p < s.labels.length + s.onesCount, IsSelect s.bits v p :=
    exists_isSelect_of_lt (by rw [h.ones_last]; exact hv.2.trans_lt h.more)
  refine ⟨p, ?_, hp, hbit⟩
  by_contra hlt
  have hstep := ones_succ s.bits p
  have hmono := ones_mono s.bits (show p + 1 ≤ b by omega)
  rw [hbit, Option.getD_some, Bool.toNat_true, hones] at hstep
  rw [hv.1] at hmono
  omega

/-- Where a walk stands there is a bit, and behind a zero the walk stands on. -/
lemma stands_cases (h : Sound s) (hv : Stands s v b) :
    s.bits[b]? = some true ∨ s.bits[b]? = some false ∧
      b + 1 < s.labels.length + s.onesCount ∧ Stands s v (b + 1) := by
  obtain ⟨p, hle, hlt, hone⟩ := h.exists_one hv
  have hsize := h.size
  obtain ⟨x, hx⟩ : ∃ x, s.bits[b]? = some x := ⟨_, getElem?_eq_getElem (by omega)⟩
  cases x with
  | true => exact .inl hx
  | false =>
    have hne : b ≠ p := by
      rintro rfl
      rw [hx] at hone
      cases hone
    refine .inr ⟨hx, by omega, ?_, hv.2⟩
    rw [ones_succ, hx, Option.getD_some, Bool.toNat_false, hv.1, Nat.add_zero]

lemma label (h : Sound s) (hv : Stands s v b) (hb : s.bits[b]? = some false) :
    ∃ c, nth s.labels ((b : Int) - v) = .ok c := by
  obtain hone | ⟨-, hlt, hnext⟩ := h.stands_cases hv
  · rw [hb] at hone
    cases hone
  have hle : v ≤ b := hv.1 ▸ ones_le s.bits b
  have hzeros := h.zeros_le hlt.le
  rw [hnext.1] at hzeros
  obtain ⟨c, hc⟩ : ∃ c, s.labels[b - v]? = some c := ⟨_, getElem?_eq_getElem (by omega)⟩
  exact ⟨c, by rw [← Nat.cast_sub hle, nth_natCast hc]⟩

/-- **To a child.** From a zero in front of the last one. -/
lemma child (h : Sound s) (hb : s.bits[b]? = some false) (hlt : b < s.labels.length + s.onesCount) :
    ∃ v' b' : Nat, s.countZeros ((b : Int) + 1) = .ok (v' : Int) ∧
      s.child b = .ok ((v' : Int), (b' : Int)) ∧ Stands s v' b' := by
  have hsize := h.size
  have hzeros : s.countZeros ((b + 1 : Nat) : Int) = _ := h.countZeros (i := b + 1) (by omega)
  have hle := h.zeros_le (i := b + 1) (by omega)
  have hones := ones_le s.bits b
  have hstep := ones_succ s.bits b
  rw [hb, Option.getD_some, Bool.toNat_false] at hstep
  set v' := b + 1 - ones s.bits (b + 1) with hdef
  obtain ⟨q, -, hq⟩ : ∃ q < s.labels.length + s.onesCount, IsSelect s.bits (v' - 1) q :=
    exists_isSelect_of_lt (by have := h.more; rw [h.ones_last]; omega)
  have hsel := h.select hq
  have hstand := ones_succ s.bits q
  rw [hq.1, hq.2, Option.getD_some, Bool.toNat_true] at hstand
  rw [Nat.cast_succ] at hzeros
  refine ⟨v', q + 1, hzeros, ?_, by omega, hle⟩
  rw [SuccinctBits.child, hzeros, ok_bind, show (v' : Int) - 1 = ((v' - 1 : Nat) : Int) by omega,
    hsel, ok_bind]
  rfl

lemma exists_leaf (h : Sound s) (hv : v ≤ s.labels.length) : ∃ x, getBit s.leaves v = .ok x :=
  exists_getBit (hv.trans_lt h.leaf)

/-! ### The walk of `has` -/

lemma exists_rootHit (h : Sound s) (hb : s.bits[b]? = some false)
    (hlt : b < s.labels.length + s.onesCount) (l c : UInt8) : ∃ x, s.rootHit l c b = .ok x := by
  obtain ⟨v', b', hzeros, -, hstand⟩ := h.child hb hlt
  obtain ⟨x, hx⟩ := h.exists_leaf hstand.2
  rw [rootHit]
  split_ifs with hroot hdot
  · exact ⟨x, by rw [hzeros, ok_bind, hx]⟩
  · exact ⟨false, by rw [hzeros, ok_bind]⟩
  · exact ⟨false, rfl⟩

/-- The loop over the labels of a node ends, at a zero if at a child. -/
lemma exists_look (h : Sound s) (c : UInt8) (rounds : Nat) (b : Nat) (hv : Stands s v b)
    (hrounds : s.bits.length < b + rounds) :
    ∃ r, s.look v c rounds b = .ok r ∧ ∀ b', r = .child b' →
      ∃ j : Nat, b' = j ∧ s.bits[j]? = some false ∧ j < s.labels.length + s.onesCount := by
  induction rounds generalizing b with
  | zero =>
    obtain ⟨p, hle, hlt, -⟩ := h.exists_one hv
    have hsize := h.size
    omega
  | succ rounds ih =>
    rw [look]
    rcases h.stands_cases hv with hone | ⟨hzero, hlt, hnext⟩
    · rw [bit hone, ok_bind, if_pos rfl]
      exact ⟨.miss, rfl, by simp⟩
    · obtain ⟨l, hl⟩ := h.label hv hzero
      obtain ⟨x, hx⟩ := h.exists_rootHit hzero (by omega) l c
      rw [bit hzero, ok_bind, if_neg (by simp), hl, ok_bind, hx, ok_bind]
      split_ifs with hp hroot hc
      · exact ⟨.hit, rfl, by simp⟩
      · exact ⟨.hit, rfl, by simp⟩
      · refine ⟨.child b, rfl, fun b' hb' => ⟨b, ?_, hzero, by omega⟩⟩
        cases hb'
        rfl
      · exact ih (b + 1) hnext (by omega)

lemma exists_lookEnd (h : Sound s) (rounds : Nat) (b : Nat) (hv : Stands s v b)
    (hrounds : s.bits.length < b + rounds) : ∃ x, s.lookEnd v rounds b = .ok x := by
  induction rounds generalizing b with
  | zero =>
    obtain ⟨p, hle, hlt, -⟩ := h.exists_one hv
    have hsize := h.size
    omega
  | succ rounds ih =>
    rw [lookEnd]
    rcases h.stands_cases hv with hone | ⟨hzero, hlt, hnext⟩
    · rw [bit hone, ok_bind, if_pos rfl]
      exact ⟨false, rfl⟩
    · obtain ⟨l, hl⟩ := h.label hv hzero
      rw [bit hzero, ok_bind, if_neg (by simp), hl, ok_bind]
      split_ifs with hmark
      · exact ⟨true, rfl⟩
      · exact ih (b + 1) hnext (by omega)

lemma length_bits_lt (s : SuccinctBits) : s.bits.length < s.rounds := by
  rw [bits, length_unpack, rounds]
  omega

/-- **The walk of `has` ends**, from wherever it stands. -/
lemma exists_hasFrom (h : Sound s) (key : Str) (v b : Nat) (hv : Stands s v b) :
    ∃ x, s.hasFrom key v b = .ok x := by
  have hrounds := length_bits_lt s
  induction key generalizing v b with
  | nil =>
    obtain ⟨x, hx⟩ := h.exists_leaf hv.2
    rw [hasFrom, hx, ok_bind]
    cases x with
    | true => exact ⟨true, rfl⟩
    | false => exact h.exists_lookEnd s.rounds b hv (by omega)
  | cons c key ih =>
    obtain ⟨r, hr, hchild⟩ := h.exists_look c s.rounds b hv (by omega)
    rw [hasFrom, hr, ok_bind]
    cases r with
    | miss => exact ⟨false, rfl⟩
    | hit => exact ⟨true, rfl⟩
    | child b' =>
      obtain ⟨j, rfl, hzero, hlt⟩ := hchild b' rfl
      obtain ⟨v', b', -, hkid, hstand⟩ := h.child hzero hlt
      change ∃ x, (s.child j >>= _) = _
      rw [hkid, ok_bind]
      exact ih v' b' hstand

lemma stands_root (s : SuccinctBits) : Stands s 0 0 := ⟨ones_zero _, Nat.zero_le _⟩

lemma exists_has (h : Sound s) (key : Str) : ∃ x, s.has key = .ok x :=
  h.exists_hasFrom key 0 0 (stands_root s)

end Sound

/-! ### The `.srs` reader and its matcher -/

section

lemma length_decodeWords : ∀ (n : Nat) (b : Str), (decodeWords n b).length = n
  | 0, _ => rfl
  | n + 1, b => by rw [decodeWords, length_cons, length_decodeWords n]

lemma of_readUvarU64Slice {t : Tape} {P : List UInt64 → Tape → Prop}
    (h : Succeeds readUvarU64Slice t P) : ∃ ws t', ws.length ≤ 2 ^ 28 ∧ P ws t' := by
  rw [readUvarU64Slice, succeeds_bind] at h
  obtain ⟨n, -, h⟩ := h
  rw [succeeds_guard not_succeeds_throw, succeeds_bind] at h
  obtain ⟨hn, b, -, h⟩ := h
  exact ⟨_, _, (length_decodeWords n b).trans_le (not_lt.mp hn), succeeds_pure.mp h⟩

lemma of_readSingSuccinct {t : Tape} {s : SuccinctBits} (h : outcome readSingSuccinct t = .ok s) :
    ∃ leaves labelBitmap labels, labelBitmap.length ≤ 2 ^ 28 ∧
      checkSuccinct leaves labelBitmap labels = .ok s := by
  have hread : Succeeds readSingSuccinct t fun s' _ => s' = s := ⟨s, h, rfl⟩
  rw [readSingSuccinct, succeeds_bind] at hread
  obtain ⟨-, -, hread⟩ := hread
  obtain ⟨leaves, _, -, hread⟩ := of_readUvarU64Slice (succeeds_bind.mp hread)
  obtain ⟨labelBitmap, _, hlen, hread⟩ := of_readUvarU64Slice (succeeds_bind.mp hread)
  obtain ⟨labels, -, hread⟩ := succeeds_bind.mp hread
  obtain ⟨s', hcheck, rfl⟩ := succeeds_lift.mp hread
  exact ⟨leaves, labelBitmap, labels, hlen, hcheck⟩

variable {leaves labelBitmap : List UInt64} {labels : Str} {s : SuccinctBits}

lemma of_checkSuccinct (h : checkSuccinct leaves labelBitmap labels = .ok s) :
    s = newSuccinctBits s.leaves labelBitmap labels ∧ (labels.length : Int) = s.zerosCount ∧
      s.onesCount = labels.length + 1 ∧ labels.length < 64 * s.leaves.length := by
  simp only [checkSuccinct] at h
  split_ifs at h with hbad
  rw [Except.ok.injEq] at h
  subst h
  have hones : ((labelBitmap.map onesCount64).sum : Int) = labels.length + 1 := by omega
  have hones' : (labelBitmap.map onesCount64).sum = labels.length + 1 := by exact_mod_cast hones
  refine ⟨rfl, ?_, hones', ?_⟩
  · change (labels.length : Int) =
      lastOneIndex labelBitmap 0 (-1) + 1 - ((labelBitmap.map onesCount64).sum : Nat)
    omega
  · change labels.length < 64 * (leaves ++ List.replicate _ 0).length
    rw [length_append, length_replicate]
    omega

/-- **The check makes the arrays sound** while an `int32` counts the ones. -/
lemma sound_of_checkSuccinct (h : checkSuccinct leaves labelBitmap labels = .ok s)
    (hfew : s.onesCount < 2 ^ 31) : Sound s := by
  obtain ⟨hs, hzeros, hones, hleaf⟩ := of_checkSuccinct h
  have hlabels : s.labels = labels := by rw [hs]; rfl
  have hbitmap : s.labelBitmap = labelBitmap := by rw [hs]; rfl
  exact {
    sums := by rwa [hbitmap, hlabels]
    zeros := by rwa [hlabels]
    more := by rw [hlabels]; omega
    leaf := by rwa [hlabels]
    few := hfew }

lemma onesCount_le (h : checkSuccinct leaves labelBitmap labels = .ok s)
    (hlen : labelBitmap.length ≤ 2 ^ 28) : s.onesCount ≤ 2 ^ 33 := by
  obtain ⟨hs, hzeros, hones, -⟩ := of_checkSuccinct h
  have hbitmap : s.labelBitmap = labelBitmap := by rw [hs]; rfl
  have hlt := lastOneIndex_lt labelBitmap 0 (-1) (by norm_num)
  rw [zerosCount, hbitmap] at hzeros
  omega

end

/-! ### Ones that an `int32` does not count -/

section
variable {z t : Nat}

/-- All zeros in front of all ones: a root with `z` labels and a leaf behind each. -/
def starBits (z : Nat) : List Bool := List.replicate z false ++ List.replicate (z + 1) true

/-- The label `b` at place `t`, and `a` at all others. -/
def starLabels (z t : Nat) : Str :=
  List.replicate t 0x61 ++ 0x62 :: List.replicate (z - 1 - t) 0x61

def star (z t : Nat) : SuccinctBits :=
  newSuccinctBits (List.replicate ((z + 1 + 63) / 64) 0) (pack (starBits z)) (starLabels z t)

/-- A place whose child has a number that no prefix sum exceeds. -/
def starPlace (z : Nat) : Nat := min (z - 1) (2 ^ 31 - 1)

def writeStar (z t : Nat) : Str :=
  0 :: (u64Slice [] ++ u64Slice (pack (starBits z)) ++ byteSlice (starLabels z t))

lemma length_starBits (z : Nat) : (starBits z).length = 2 * z + 1 := by
  rw [starBits, length_append, length_replicate, length_replicate]
  omega

lemma count_starBits (z : Nat) : (starBits z).count true = z + 1 := by
  simp [starBits, count_replicate]

lemma ones_starBits (z i : Nat) : ones (starBits z) i = min (i - z) (z + 1) := by
  simp [ones, starBits, take_append, take_replicate, count_replicate]

lemma getElem?_starBits {i : Nat} (h : i < z) : (starBits z)[i]? = some false := by
  rw [starBits, getElem?_append_left (by rwa [length_replicate]), getElem?_replicate, if_pos h]

lemma getElem?_starBits_last (z : Nat) : (starBits z)[2 * z]? = some true := by
  rw [starBits, getElem?_append_right (by rw [length_replicate]; omega),
    getElem?_replicate, length_replicate, if_pos (by omega)]

lemma length_starLabels (h : t < z) : (starLabels z t).length = z := by
  rw [starLabels, length_append, length_cons, length_replicate, length_replicate]
  omega

lemma checkSuccinct_star (h : t < z) :
    checkSuccinct [] (pack (starBits z)) (starLabels z t) = .ok (star z t) := by
  have hlast := lastOneIndex_pack (length_starBits z) (getElem?_starBits_last z)
  rw [checkSuccinct, sum_onesCount64_pack, count_starBits, hlast, length_starLabels h,
    if_neg (by push_cast; omega)]
  rfl

lemma readSingSuccinct_star (h : t < z) (hz : z < 2 ^ 33) (x : Tape) (hx : x.bytes = writeStar z t) :
    outcome readSingSuccinct x = .ok (star z t) := by
  have hlen : (pack (starBits z)).length ≤ 2 ^ 28 := by
    rw [length_pack, length_starBits]
    omega
  have hread : Succeeds readSingSuccinct x fun s _ => s = star z t := by
    rw [writeStar, append_assoc, ← append_nil (byteSlice _)] at hx
    rw [readSingSuccinct, succeeds_bind, succeeds_readByte]
    refine ⟨0, _, hx, ?_⟩
    rw [succeeds_bind]
    refine succeeds_readUvarU64Slice (by simp) rfl ?_
    rw [succeeds_bind]
    refine succeeds_readUvarU64Slice hlen rfl ?_
    rw [succeeds_bind]
    refine succeeds_readUvarByteSlice (by rw [length_starLabels h]; omega) rfl ?_
    rw [succeeds_lift, checkSuccinct_star h]
    exact ⟨_, rfl, rfl⟩
  obtain ⟨s, hs, rfl⟩ := hread
  exact hs

lemma look_star (h : t < z) (rounds j : Nat) (hj : j ≤ t) (hrounds : t < j + rounds) :
    (star z t).look 0 0x62 rounds j = .ok (.child t) := by
  induction rounds generalizing j with
  | zero => omega
  | succ rounds ih =>
    have hbit : getBit (star z t).labelBitmap j = .ok false :=
      getBit_pack (getElem?_starBits (hj.trans_lt h))
    rw [look, hbit, ok_bind, if_neg (by simp), Int.sub_zero]
    rcases hj.eq_or_lt with rfl | hlt
    · have hl : (starLabels z j)[j]? = some 0x62 := by
        rw [starLabels, getElem?_append_right (by rw [length_replicate]),
          length_replicate, Nat.sub_self, getElem?_cons_zero]
      rw [show (star z j).labels = starLabels z j from rfl, nth_natCast hl, ok_bind]
      rfl
    · have hl : (starLabels z t)[j]? = some 0x61 := by
        rw [starLabels, getElem?_append_left (by rwa [length_replicate]),
          getElem?_replicate, if_pos hlt]
      rw [show (star z t).labels = starLabels z t from rfl, nth_natCast hl, ok_bind]
      exact ih (j + 1) hlt (by omega)

lemma searchWord_all {bs : List Bool} (leaves : List UInt64) (labels : Str) {i : Int}
    (hall : ∀ w, (Int32.ofNat (ones bs (64 * w))).toInt ≤ i) (rounds lo : Nat)
    (hlo : lo ≤ (pack bs).length) (hrounds : (pack bs).length < lo + rounds) :
    (newSuccinctBits leaves (pack bs) labels).searchWord i rounds lo (pack bs).length =
      .ok (pack bs).length := by
  induction rounds generalizing lo with
  | zero => omega
  | succ rounds ih =>
    rw [searchWord]
    split_ifs with hlt
    · have hn := @wordOnes_eq bs leaves labels ((lo + (pack bs).length) / 2 + 1) (by omega)
      change (nth _ (((lo + (pack bs).length) / 2 + 1 : Nat) : Int) >>= _) = _
      rw [nth_natCast hn, ok_bind, if_pos (hall _)]
      exact ih _ (by omega) (by omega)
    · rw [show lo = (pack bs).length by omega]

lemma toInt_le_starPlace (hz : 2 ^ 31 - 1 ≤ z) (w : Nat) :
    (Int32.ofNat (ones (starBits z) (64 * w))).toInt ≤ (starPlace z : Nat) := by
  rw [starPlace]
  rcases hz.eq_or_lt with hz | hz
  · rw [ones_starBits, Int32.toInt_ofNat', Int.bmod_def, show (Int32.size : Int) = 2 ^ 32 from rfl]
    omega
  · rw [min_eq_right (by omega)]
    have := Int32.toInt_lt (Int32.ofNat (ones (starBits z) (64 * w)))
    norm_num at this ⊢
    omega

/-- **The walk to that child leaves the bitmap.** -/
lemma has_star (hz : 2 ^ 31 - 1 ≤ z) : (star z (starPlace z)).has [0x62] = .error .panic := by
  have ht : starPlace z < z := by
    rw [starPlace]
    omega
  have hlook := look_star ht (star z (starPlace z)).rounds 0 (Nat.zero_le _) (by
    have hlen : (star z (starPlace z)).labelBitmap.length = _ := length_pack (starBits z)
    rw [rounds, hlen, length_starBits]
    omega)
  rw [Nat.cast_zero] at hlook
  have hones : ones (starBits z) (starPlace z + 1) = 0 := by
    rw [ones_starBits]
    omega
  have hzeros : (star z (starPlace z)).countZeros ((starPlace z + 1 : Nat) : Int) = _ :=
    countZeros_pack _ _ (by rw [hones]; norm_num) (by rw [length_starBits]; omega)
  have hsearch := searchWord_all (List.replicate ((z + 1 + 63) / 64) 0) (starLabels z (starPlace z))
    (toInt_le_starPlace hz) ((pack (starBits z)).length + 1) 0 (Nat.zero_le _) (by omega)
  have hsum := nth_natCast (@wordOnes_eq (starBits z) (List.replicate ((z + 1 + 63) / 64) 0)
    (starLabels z (starPlace z)) (pack (starBits z)).length le_rfl)
  have hout : nth (pack (starBits z)) ((pack (starBits z)).length : Int) = .error .panic := by
    rw [nth, Int.toNat_natCast, getElem?_eq_none le_rfl]
  have hsel : (star z (starPlace z)).selectIthOne (starPlace z) = .error .panic := by
    rw [selectIthOne]
    change (searchWord (newSuccinctBits _ _ _) _ ((pack (starBits z)).length + 1) 0
      (pack (starBits z)).length >>= _) = _
    rw [hsearch, ok_bind]
    change (nth (newSuccinctBits _ _ _).wordOnes _ >>= _) = _
    rw [hsum, ok_bind]
    change (nth (pack (starBits z)) _ >>= _) = _
    rw [hout]
    rfl
  rw [has, hasFrom, hlook, ok_bind]
  change (child _ _ >>= _) = _
  rw [child, ← Nat.cast_succ, hzeros, hones, ok_bind, Nat.sub_zero, Nat.cast_succ,
    add_sub_cancel_right, hsel]
  rfl

end

/-- **The `.srs` matcher returns** for every payload that its reader takes and for
every key, exactly while an `int32` counts the ones of the payload; more than
`2 ^ 33` ones no payload has. -/
theorem has_returns_iff (n : Nat) :
    (∀ (t : Tape) (s : SuccinctBits), outcome readSingSuccinct t = .ok s → s.onesCount = n →
      ∀ key, ∃ b, s.has key = .ok b) ↔ n < 2 ^ 31 ∨ 2 ^ 33 < n := by
  constructor
  · intro h
    by_contra hn
    obtain ⟨hlo, hhi⟩ := not_or.mp hn
    have hplace : starPlace (n - 1) < n - 1 := by
      rw [starPlace]
      omega
    have hones : (star (n - 1) (starPlace (n - 1))).onesCount = n := by
      change ((pack (starBits (n - 1))).map onesCount64).sum = n
      rw [sum_onesCount64_pack, count_starBits]
      omega
    obtain ⟨b, hb⟩ := h ⟨writeStar (n - 1) (starPlace (n - 1)), .eof, fun _ => none, []⟩ _
      (readSingSuccinct_star hplace (by omega) _ rfl) hones [0x62]
    rw [has_star (by omega)] at hb
    cases hb
  · rintro hn t s hread rfl key
    obtain ⟨leaves, labelBitmap, labels, hlen, hcheck⟩ := of_readSingSuccinct hread
    have hle := onesCount_le hcheck hlen
    exact (sound_of_checkSuccinct hcheck (by omega)).exists_has key

/-- A payload with `2 ^ 31` ones is taken, and a walk over it leaves the bitmap. -/
theorem has_panics : ∃ s, outcome readSingSuccinct
      (⟨writeStar (2 ^ 31 - 1) (2 ^ 31 - 2), .eof, fun _ => none, []⟩ : Tape) = .ok s ∧
    s.has [0x62] = .error .panic :=
  ⟨_, readSingSuccinct_star (by norm_num) (by norm_num) _ rfl, has_star le_rfl⟩

/-! ### The walk of `MatchDomain` -/

namespace Sound

open Machine

variable {s : SuccinctBits} {k : Str}

def Halts (s : SuccinctBits) (k : Str) (w : Search) : Prop := ∃ b, Ends (s.step k) w b

def Backs (s : SuccinctBits) (k : Str) (stack : List Cursor) : Prop :=
  ∀ w : Search, w.stack = stack → w.i < k.length → getBit s.labelBitmap w.bmIdx = .ok true →
    Halts s k w

/-- Every search that stands at a node at a later character, with a stack that
gives results, gives one. -/
def Settled (s : SuccinctBits) (k : Str) (i : Nat) : Prop :=
  ∀ i', i < i' → i' < k.length → ∀ (v b : Nat) (stack : List Cursor), Stands s v b →
    Backs s k stack → Halts s k ⟨i', v, b, stack⟩

lemma Halts.of_step {w w' : Search} (h : s.step k w = .ok (.inl w')) (hw : Halts s k w') :
    Halts s k w := by
  obtain ⟨b, hb⟩ := hw
  exact ⟨b, (leads_of_step h).ends hb⟩

lemma backs_nil (s : SuccinctBits) (k : Str) : Backs s k [] := by
  intro w hstack hi hlast
  obtain ⟨c, hc⟩ : ∃ c, k[w.i]? = some c := ⟨_, getElem?_eq_getElem hi⟩
  refine ⟨false, ends_of_step ?_⟩
  rw [step_dead hc hlast, resume, hstack]

/-- The label of the current character leads on, to a later one or to the end. -/
lemma halts_descend (h : Sound s) {i b : Nat} {v : Int} {stack : List Cursor}
    (hb : s.bits[b]? = some false) (hlt : b < s.labels.length + s.onesCount)
    (hstep : s.step k ⟨i, v, b, stack⟩ = s.descend k ⟨i, v, b, stack⟩)
    (hlater : Settled s k i) (hstack : Backs s k stack) : Halts s k ⟨i, v, b, stack⟩ := by
  obtain ⟨v', b', -, hchild, hstand⟩ := h.child hb hlt
  obtain ⟨x, hx⟩ := h.exists_leaf hstand.2
  rw [descend, hchild, ok_bind] at hstep
  dsimp only at hstep
  by_cases hi : i + 1 < k.length
  · rw [if_pos hi] at hstep
    exact .of_step hstep (hlater (i + 1) (Nat.lt_succ_self i) hi v' b' stack hstand hstack)
  · rw [if_neg hi] at hstep
    rw [hx, ok_bind] at hstep
    exact ⟨x, ends_of_step hstep⟩

lemma findDot_cases (s : SuccinctBits) {v : Nat} (rounds q : Nat) (hv : v ≤ q)
    (hpos : 0 < rounds) (hrounds : s.labels.length < q - v + rounds) :
    s.findDot v rounds q = .ok none ∨ ∃ q' : Nat, v ≤ q' ∧ q' - v < s.labels.length ∧
      nth s.labels ((q' : Int) - v) = .ok domainStepByte ∧ s.findDot v rounds q = .ok (some q') := by
  induction rounds generalizing q with
  | zero => omega
  | succ rounds ih =>
    rw [findDot]
    split_ifs with hin
    · obtain ⟨l, hl⟩ : ∃ l, s.labels[q - v]? = some l := ⟨_, getElem?_eq_getElem (by omega)⟩
      have hnth : nth s.labels ((q : Int) - v) = .ok l := by
        rw [← Nat.cast_sub hv, nth_natCast hl]
      rw [hnth, ok_bind]
      split_ifs with hdot
      · exact .inr ⟨q, hv, by omega, by rw [hnth, hdot], rfl⟩
      · exact ih (q + 1) (by omega) (by omega) (by omega)
    · exact .inl rfl

/-- A wildcard on the stack: what comes behind its label gives a result, and so
does the stack below it. -/
lemma backs_cons (h : Sound s) {i b : Nat} {stack : List Cursor} (hb : s.bits[b]? = some false)
    (hlt : b < s.labels.length + s.onesCount) (hi : i < k.length) (hlater : Settled s k i)
    (hstack : Backs s k stack) : Backs s k (⟨b, i⟩ :: stack) := by
  intro w hw hwi hlast
  obtain ⟨c, hc⟩ : ∃ c, k[w.i]? = some c := ⟨_, getElem?_eq_getElem hwi⟩
  obtain ⟨v', b', -, hchild, hstand⟩ := h.child hb hlt
  obtain ⟨x, hx⟩ := h.exists_leaf hstand.2
  have hstep := step_dead (s := s) hc hlast
  rw [resume, hw] at hstep
  dsimp only at hstep
  rw [hchild, ok_bind] at hstep
  dsimp only at hstep
  by_cases hend : dotFrom k i = k.length
  · rw [if_pos hend, hx, ok_bind] at hstep
    cases x with
    | true => exact ⟨true, ends_of_step hstep⟩
    | false => exact .of_step hstep (hstack _ rfl hwi hlast)
  · rw [if_neg hend] at hstep
    have hle : v' ≤ b' := hstand.1 ▸ ones_le s.bits b'
    rcases findDot_cases s (s.labels.length + 1) b' hle (by omega) (by omega) with
      hnone | ⟨q, hvq, hq, hdot, hsome⟩
    · rw [hnone, ok_bind] at hstep
      exact ⟨false, ends_of_step hstep⟩
    · rw [hsome, ok_bind] at hstep
      refine .of_step hstep ?_
      -- the label at the dot may be of another node, but it is the current character
      have hj : dotFrom k i < k.length := (dotFrom_le k hi.le).lt_of_ne hend
      have hcur : k[dotFrom k i]? = some domainStepByte := getElem?_dotFrom hj
      have hmore := h.more
      have hsize := h.size
      have hv' := hstand.2
      obtain ⟨y, hy⟩ : ∃ y, s.bits[q]? = some y := ⟨_, getElem?_eq_getElem (by omega)⟩
      cases y with
      | true => exact hstack _ rfl hj (bit hy)
      | false =>
        refine h.halts_descend hy (by omega) ?_ (fun i' hi' => hlater i' (by
          have := le_dotFrom k i
          omega)) hstack
        simp only [SuccinctBits.step, nth_natCast hcur, ok_bind, bit hy, hdot, Bool.false_eq_true,
          if_false]
        rfl

/-- **The walk from a node ends.** The induction is on what is left of the key,
and inside it on the bits that are left. -/
lemma halts_node (h : Sound s) {i : Nat} (hi : i < k.length) (hlater : Settled s k i) {v : Nat} :
    ∀ (n b : Nat) (stack : List Cursor), s.bits.length < b + n → Stands s v b →
      Backs s k stack → Halts s k ⟨i, v, b, stack⟩
  | 0, b, _, hn, hstand, _ => by
    obtain ⟨p, hle, hlt, -⟩ := h.exists_one hstand
    have hsize := h.size
    omega
  | n + 1, b, stack, hn, hstand, hstack => by
    obtain ⟨c, hc⟩ : ∃ c, k[i]? = some c := ⟨_, getElem?_eq_getElem hi⟩
    rcases h.stands_cases hstand with hone | ⟨hzero, hlt, hnext⟩
    · exact hstack _ rfl hi (bit hone)
    obtain ⟨l, hl⟩ := h.label hstand hzero
    have hstep : s.step k ⟨i, v, b, stack⟩ =
        if l = complexWildcardByte then .ok (.inr true)
        else if l = wildcardByte then .ok (.inl ⟨i, v, (b + 1 : Nat), ⟨b, i⟩ :: stack⟩)
        else if l = c then s.descend k ⟨i, v, b, stack⟩
        else .ok (.inl ⟨i, v, (b + 1 : Nat), stack⟩) := by
      simp only [SuccinctBits.step, nth_natCast hc, ok_bind, bit hzero, hl, Bool.false_eq_true,
        if_false]
      rfl
    split_ifs at hstep with hplus hstar hlabel
    · exact ⟨true, ends_of_step hstep⟩
    · exact .of_step hstep (halts_node h hi hlater n (b + 1) _ (by omega) hnext
        (h.backs_cons hzero (by omega) hi hlater hstack))
    · exact h.halts_descend hzero (by omega) hstep hlater hstack
    · exact .of_step hstep (halts_node h hi hlater n (b + 1) _ (by omega) hnext hstack)

lemma settled (h : Sound s) (n i : Nat) (hn : k.length ≤ i + n) : Settled s k i := by
  induction n generalizing i with
  | zero =>
    intro i' hi hi'
    omega
  | succ n ih =>
    intro i' hlt hi' v b stack hstand hstack
    exact h.halts_node hi' (ih i' (by omega)) s.rounds b stack
      (Nat.lt_add_left b (length_bits_lt s)) hstand hstack

/-- **`MatchDomain` ends.** -/
lemma exists_matchDomain (h : Sound s) (reverseRunes : Str → Str) (key : Str) :
    ∃ b N, ∀ n, N ≤ n → matchDomain reverseRunes n (some s) key = .ok b := by
  simp only [matchDomain]
  set k := revLower (normKey reverseRunes key)
  split_ifs with hk
  · obtain ⟨x, hx⟩ := h.exists_leaf (Nat.zero_le _)
    exact ⟨x, 0, fun _ _ => hx⟩
  · have hpos : 0 < k.length := length_pos_iff.mpr hk
    obtain ⟨b, hb⟩ := h.halts_node hpos (h.settled k.length 0 (by omega)) s.rounds 0 []
      (by rw [Nat.zero_add]; exact length_bits_lt s) (stands_root s) (backs_nil s k)
    obtain ⟨N, hN⟩ := hb .spin
    refine ⟨b, N, fun n hn => ?_⟩
    obtain ⟨m, rfl⟩ := Nat.exists_eq_add_of_le hn
    exact hN m

end Sound

/-! ### The `.mrs` reader and its matcher -/

lemma sums_of_readDomainSetBin {t : Tape} {s : SuccinctBits}
    (h : outcome readDomainSetBin t = .ok s) :
    s = newSuccinctBits s.leaves s.labelBitmap s.labels := by
  have hread : Succeeds readDomainSetBin t fun s' _ => s' = s := ⟨s, h, rfl⟩
  rw [readDomainSetBin, succeeds_bind] at hread
  obtain ⟨ver, -, hread⟩ := hread
  rw [succeeds_guard not_succeeds_throw, succeeds_bind] at hread
  obtain ⟨-, leaves, -, hread⟩ := hread
  obtain ⟨labelBitmap, -, hread⟩ := succeeds_bind.mp hread
  obtain ⟨n, -, hread⟩ := succeeds_bind.mp hread
  rw [succeeds_guard not_succeeds_throw, succeeds_bind] at hread
  obtain ⟨-, labels, -, hread⟩ := hread
  rw [← succeeds_pure.mp hread]
  rfl

/-- **The `.mrs` matcher returns** for every key over a payload with as many labels
as zeros in front of its last one, fewer than ones and leaf bits, whose ones an
`int32` counts. -/
theorem matchDomain_returns (reverseRunes : Str → Str) (t : Tape) (s : SuccinctBits)
    (hread : outcome readDomainSetBin t = .ok s) (hzeros : (s.labels.length : Int) = s.zerosCount)
    (hmore : s.labels.length < s.onesCount) (hleaf : s.labels.length < 64 * s.leaves.length)
    (hfew : s.onesCount < 2 ^ 31) (key : Str) :
    ∃ b N, ∀ n, N ≤ n → matchDomain reverseRunes n (some s) key = .ok b :=
  Sound.exists_matchDomain ⟨sums_of_readDomainSetBin hread, hzeros, hmore, hleaf, hfew⟩
    reverseRunes key

def wordPayload (leaves labelBitmap : UInt64) (labels : Str) : Tape :=
  ⟨1 :: (putBE 8 1 ++ putBE 8 leaves.toNat ++ putBE 8 1 ++ putBE 8 labelBitmap.toNat ++
    putBE 8 labels.length ++ labels), .eof, fun _ => none, []⟩

/-- The set of the one name `a`. -/
theorem matchDomain_returns_one : ∃ b N, ∀ n, N ≤ n → matchDomain id n
    (some (newSuccinctBits [2] [6] [0x61])) [0x62] = .ok b :=
  matchDomain_returns id (wordPayload 2 6 [0x61]) (newSuccinctBits [2] [6] [0x61])
    rfl (by decide +kernel) (by decide +kernel) (by decide +kernel) (by decide +kernel) [0x62]

/-- A bitmap without a one is taken, and the walk along its root leaves the
labels. -/
theorem matchDomain_panics : ∃ s, outcome readDomainSetBin (wordPayload 0 0 [0x61]) = .ok s ∧
    matchDomain id 3 (some s) [0x62] = .error .panic :=
  ⟨newSuccinctBits [0] [0] [0x61], rfl, by decide +kernel⟩

end Ntr.Ruleset
