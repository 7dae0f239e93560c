/-
The bit layer of the compressed domain sets.

* `getBit`, `rank`, `countZeros`, `selectIthOne`: as in the source, with the
  panics of their indices;
* `rank_pack`, `selectIthOne_pack`: over packed bits with fewer than `2 ^ 31`
  ones the two operations count ones and find them.
-/
import Mathlib.Data.Nat.Bitwise
import Ntr.Go.Panic
import Ntr.Go.Varint
import Ntr.Lib.Louds

namespace Ntr.Ruleset

open Go Louds List

/-! ### The operations -/

def onesCount64 (x : UInt64) : Nat := (List.range 64).countP fun b => x.toNat.testBit b

structure SuccinctBits where
  leaves : List UInt64
  labelBitmap : List UInt64
  labels : Str
  wordOnes : List Int32

def newSuccinctBits (leaves labelBitmap : List UInt64) (labels : Str) : SuccinctBits where
  leaves := leaves
  labelBitmap := labelBitmap
  labels := labels
  wordOnes := labelBitmap.scanl (fun n w => n + Int32.ofNat (onesCount64 w)) 0

/-- `getBit(bm, i) != 0`; the quotient and the remainder by 64 are `i>>6` and
`i&63`, also below zero. -/
def getBit (bm : List UInt64) (i : Int) : Except Fault Bool := do
  let w ← nth bm (i / 64)
  return w &&& 1 <<< UInt64.ofNat (i % 64).toNat ≠ 0

namespace SuccinctBits

def rank (s : SuccinctBits) (i : Int) : Except Fault Int := do
  let r ← nth s.wordOnes (i / 64)
  let b := (i % 64).toNat
  if b ≠ 0 then
    let w ← nth s.labelBitmap (i / 64)
    return r.toInt + onesCount64 (w &&& (1 <<< UInt64.ofNat b - 1))
  else return r.toInt

def countZeros (s : SuccinctBits) (i : Int) : Except Fault Int := do
  let r ← s.rank i
  return i - r

/-- The binary search of `selectIthOne` for its word. -/
def searchWord (s : SuccinctBits) (i : Int) : Nat → Nat → Nat → Except Fault Nat
  | 0, _, _ => .error .spin
  | rounds + 1, lo, hi =>
    if lo < hi then do
      let mid := (lo + hi) / 2
      let n ← nth s.wordOnes (mid + 1 : Nat)
      if n.toInt ≤ i then searchWord s i rounds (mid + 1) hi else searchWord s i rounds lo mid
    else .ok lo

/-- The loop of `selectIthOne` over the bits of a word, from bit `b` on. -/
def scanWord (x : UInt64) (lo : Nat) : Nat → Nat → Int → Int
  | 0, _, _ => -1
  | rounds + 1, b, remain =>
    if x &&& 1 <<< UInt64.ofNat b ≠ 0 then
      if remain = 0 then ((lo * 64 + b : Nat) : Int) else scanWord x lo rounds (b + 1) (remain - 1)
    else scanWord x lo rounds (b + 1) remain

def selectIthOne (s : SuccinctBits) (i : Int) : Except Fault Int := do
  let lo ← s.searchWord i (s.labelBitmap.length + 1) 0 s.labelBitmap.length
  let n ← nth s.wordOnes lo
  let x ← nth s.labelBitmap lo
  return scanWord x lo 64 0 (i - n.toInt)

end SuccinctBits

/-! ### Words of bits -/

def packWord (bs : List Bool) : UInt64 := UInt64.ofNat (Nat.ofBits fun b : Fin 64 => bs.getD b false)

def pack (bs : List Bool) : List UInt64 :=
  (List.range ((bs.length + 63) / 64)).map fun w => packWord (bs.drop (64 * w))

lemma toNat_packWord (bs : List Bool) :
    (packWord bs).toNat = Nat.ofBits fun b : Fin 64 => bs.getD b false := by
  rw [packWord, UInt64.toNat_ofNat', Nat.mod_eq_of_lt (Nat.ofBits_lt_two_pow _)]

variable {b : Nat}

lemma testBit_packWord (bs : List Bool) (h : b < 64) :
    (packWord bs).toNat.testBit b = bs.getD b false := by
  rw [toNat_packWord, Nat.testBit_ofBits_lt _ _ h]

lemma toNat_shift (h : b < 64) : (1 <<< UInt64.ofNat b : UInt64).toNat = 2 ^ b := by
  have hb : b % 2 ^ 64 % 64 = b := by omega
  have hlt : 2 ^ b < 2 ^ 64 := Nat.pow_lt_pow_right (by omega) h
  rw [UInt64.toNat_shiftLeft, UInt64.toNat_ofNat', hb, UInt64.toNat_one, Nat.shiftLeft_eq,
    Nat.one_mul, Nat.mod_eq_of_lt hlt]

lemma and_shift_ne_zero {x : UInt64} (h : b < 64) :
    x &&& 1 <<< UInt64.ofNat b ≠ 0 ↔ x.toNat.testBit b = true := by
  rw [Ne, ← UInt64.toNat_inj, UInt64.toNat_and, toNat_shift h, UInt64.toNat_zero, Nat.and_two_pow]
  cases x.toNat.testBit b <;> simp

lemma onesCount64_and {x : UInt64} (h : b < 64) : onesCount64 (x &&& (1 <<< UInt64.ofNat b - 1)) =
    (List.range b).countP fun a => x.toNat.testBit a := by
  have hmask : (1 <<< UInt64.ofNat b - 1 : UInt64).toNat = 2 ^ b - 1 := by
    have hone : (1 : UInt64) ≤ 1 <<< UInt64.ofNat b := by
      rw [UInt64.le_iff_toNat_le, toNat_shift h, UInt64.toNat_one]
      exact Nat.one_le_two_pow
    rw [UInt64.toNat_sub_of_le _ _ hone, toNat_shift h, UInt64.toNat_one]
  have hsplit : List.range 64 = List.range b ++ (List.range (64 - b)).map (b + ·) := by
    rw [← range_add, Nat.add_sub_cancel' h.le]
  have hlow : (List.range b).countP (fun a => (x.toNat &&& (2 ^ b - 1)).testBit a)
      = (List.range b).countP fun a => x.toNat.testBit a := by
    refine countP_congr fun a ha => ?_
    rw [Nat.testBit_and, Nat.testBit_two_pow_sub_one, decide_eq_true (mem_range.mp ha),
      Bool.and_true]
  rw [onesCount64, UInt64.toNat_and, hmask, hsplit, countP_append, hlow, Nat.add_eq_left,
    countP_eq_zero]
  intro a ha
  obtain ⟨c, -, rfl⟩ := mem_map.mp ha
  simp

lemma ones_add (bs : List Bool) (i n : Nat) :
    ones bs (i + n) = ones bs i + (List.range n).countP fun b => (bs.drop i).getD b false := by
  induction n with
  | zero => simp
  | succ n ih =>
    rw [← Nat.add_assoc, ones_succ, ih, range_succ, countP_append, Nat.add_assoc]
    simp only [getD_eq_getElem?_getD, getElem?_drop, countP_singleton]
    cases bs[i + n]?.getD false <;> rfl

lemma countP_packWord (bs : List Bool) (w : Nat) {n : Nat} (h : n ≤ 64) :
    (List.range n).countP (fun b => (packWord (bs.drop (64 * w))).toNat.testBit b)
      = ones bs (64 * w + n) - ones bs (64 * w) := by
  rw [ones_add, Nat.add_sub_cancel_left]
  refine countP_congr fun b hb => ?_
  rw [testBit_packWord _ ((mem_range.mp hb).trans_le h)]

lemma getElem?_pack (bs : List Bool) {w : Nat} (h : 64 * w < bs.length) :
    (pack bs)[w]? = some (packWord (bs.drop (64 * w))) := by
  rw [pack, getElem?_map, getElem?_range (by omega), Option.map_some]

lemma length_pack (bs : List Bool) : (pack bs).length = (bs.length + 63) / 64 := by
  simp [pack]

/-- **A packed bit.** -/
lemma getBit_pack {bs : List Bool} {i : Nat} {b : Bool} (h : bs[i]? = some b) :
    getBit (pack bs) i = .ok b := by
  have hi : i < bs.length := (List.getElem?_eq_some_iff.mp h).1
  have hmod : ((i : Int) % 64).toNat = i % 64 := by omega
  have hbit : (bs.drop (64 * (i / 64))).getD (i % 64) false = b := by
    rw [getD_eq_getElem?_getD, getElem?_drop, Nat.div_add_mod, h, Option.getD_some]
  have hword := nth_natCast (getElem?_pack bs (w := i / 64) (by omega))
  rw [getBit, show (i : Int) / 64 = ((i / 64 : Nat) : Int) by omega, hword, hmod]
  change Except.ok _ = Except.ok b
  rw [Except.ok.injEq, Bool.eq_iff_iff, decide_eq_true_iff, and_shift_ne_zero (by omega),
    testBit_packWord _ (by omega), hbit]

/-! ### Words as bytes -/

def wordBytes (ws : List UInt64) : Str := ws.flatMap fun w => putBE 8 w.toNat

/-- `binary.Read` into a slice of `n` words. -/
def decodeWords : Nat → Str → List UInt64
  | 0, _ => []
  | n + 1, b => UInt64.ofNat (beNat (b.take 8)) :: decodeWords n (b.drop 8)

lemma length_wordBytes (ws : List UInt64) : (wordBytes ws).length = 8 * ws.length := by
  induction ws with
  | nil => rfl
  | cons w ws ih =>
    rw [wordBytes, flatMap_cons, length_append, length_putBE, ← wordBytes, ih, length_cons]
    omega

lemma decodeWords_wordBytes (ws : List UInt64) : decodeWords ws.length (wordBytes ws) = ws := by
  induction ws with
  | nil => rfl
  | cons w ws ih =>
    have hlen : (putBE 8 w.toNat).length = 8 := length_putBE 8 _
    have htake : (wordBytes (w :: ws)).take 8 = putBE 8 w.toNat := by
      rw [wordBytes, flatMap_cons, take_append_of_le_length hlen.ge, take_of_length_le hlen.le]
    have hdrop : (wordBytes (w :: ws)).drop 8 = wordBytes ws := by
      rw [wordBytes, flatMap_cons, ← wordBytes]
      exact hlen ▸ drop_left
    rw [length_cons, decodeWords, htake, hdrop, ih, beNat_putBE]
    congr 1
    rw [Nat.mod_eq_of_lt (by have := w.toNat_lt; norm_num at this ⊢; exact this), UInt64.ofNat_toNat]

/-! ### Counting and finding ones -/

lemma ones_le_count (bs : List Bool) (i : Nat) : ones bs i ≤ bs.count true :=
  (take_sublist i bs).count_le true

section
variable {bs : List Bool} (leaves : List UInt64) (labels : Str)

lemma wordOnes_eq : ∀ w : Nat, w ≤ (pack bs).length →
    (newSuccinctBits leaves (pack bs) labels).wordOnes[w]? = some (Int32.ofNat (ones bs (64 * w)))
  | 0, _ => by simp [newSuccinctBits]
  | w + 1, hw => by
    have ih := wordOnes_eq w (Nat.le_of_succ_le hw)
    have hword : (pack bs)[w]? = some (packWord (bs.drop (64 * w))) :=
      getElem?_pack bs (by rw [length_pack] at hw; omega)
    have hcount : onesCount64 (packWord (bs.drop (64 * w))) =
        ones bs (64 * (w + 1)) - ones bs (64 * w) := countP_packWord bs w le_rfl
    have hle := ones_mono bs (show 64 * w ≤ 64 * (w + 1) by omega)
    simp only [newSuccinctBits, getElem?_scanl, if_pos (Nat.le_of_succ_le hw),
      Option.some.injEq] at ih
    rw [newSuccinctBits, getElem?_scanl, if_pos hw, take_add_one, hword,
      Option.toList_some, foldl_append, ih, foldl_cons, foldl_nil, hcount,
      ← Int32.ofNat_add, Nat.add_sub_cancel' hle]

lemma wordOnes_pack {w : Nat} (hfew : ones bs (64 * w) < 2 ^ 31) (hw : w ≤ (pack bs).length) :
    ∃ n, (newSuccinctBits leaves (pack bs) labels).wordOnes[w]? = some n ∧
      n.toInt = ones bs (64 * w) := by
  refine ⟨_, wordOnes_eq leaves labels w hw, ?_⟩
  rw [Int32.toInt_ofNat', Int.bmod_def]
  norm_num [Int32.size]
  omega

variable {i : Nat}

/-- **`rank` counts ones.** -/
lemma rank_pack (hfew : ones bs i < 2 ^ 31) (hi : i ≤ bs.length) :
    (newSuccinctBits leaves (pack bs) labels).rank i = .ok (ones bs i : Nat) := by
  have hword := ones_mono bs (show 64 * (i / 64) ≤ i by omega)
  obtain ⟨n, hn, hones⟩ := wordOnes_pack leaves labels (hword.trans_lt hfew)
    (by rw [length_pack]; omega)
  have hmod : ((i : Int) % 64).toNat = i % 64 := by omega
  rw [SuccinctBits.rank, show (i : Int) / 64 = ((i / 64 : Nat) : Int) by omega, nth_natCast hn, hmod]
  change (if i % 64 ≠ 0 then _ else Except.ok n.toInt) = _
  split_ifs with hb
  · have hbits := nth_natCast (getElem?_pack bs (w := i / 64) (by omega))
    have hcount := countP_packWord bs (i / 64) (show i % 64 ≤ 64 by omega)
    rw [Nat.div_add_mod] at hcount
    change (nth (pack bs) _ >>= _) = _
    rw [hbits]
    change Except.ok _ = Except.ok _
    rw [onesCount64_and (by omega), hcount, hones]
    congr 1
    omega
  · rw [hones, show 64 * (i / 64) = i by omega]

lemma countZeros_pack (hfew : ones bs i < 2 ^ 31) (hi : i ≤ bs.length) :
    (newSuccinctBits leaves (pack bs) labels).countZeros i = .ok (i - ones bs i : Nat) := by
  rw [SuccinctBits.countZeros, rank_pack leaves labels hfew hi, Nat.cast_sub (ones_le bs i)]
  rfl

/-- The search keeps the word of the one it looks for between its bounds. -/
lemma searchWord_pack (hfew : bs.count true < 2 ^ 31) {t : Nat} (hlow : ones bs (64 * t) ≤ i)
    (hhigh : i < ones bs (64 * (t + 1))) (rounds lo hi : Nat) (hlo : lo ≤ t) (hhi : t ≤ hi)
    (hlen : hi ≤ (pack bs).length) (hrounds : hi < lo + rounds) :
    (newSuccinctBits leaves (pack bs) labels).searchWord i rounds lo hi = .ok t := by
  induction rounds generalizing lo hi with
  | zero => omega
  | succ rounds ih =>
    rw [SuccinctBits.searchWord]
    split_ifs with hlt
    · obtain ⟨n, hn, hones⟩ := wordOnes_pack leaves labels
        ((ones_le_count bs (64 * ((lo + hi) / 2 + 1))).trans_lt hfew) (by omega)
      change (nth _ (((lo + hi) / 2 + 1 : Nat) : Int) >>= _) = _
      rw [nth_natCast hn]
      change (if n.toInt ≤ (i : Int) then _ else _) = _
      rw [hones]
      split_ifs with hle
      · have hmid : (lo + hi) / 2 + 1 ≤ t := by
          by_contra hgt
          have hmono := ones_mono bs (show 64 * (t + 1) ≤ 64 * ((lo + hi) / 2 + 1) by omega)
          omega
        exact ih _ _ hmid hhi hlen (by omega)
      · have hmid : t ≤ (lo + hi) / 2 := by
          by_contra hgt
          have hmono := ones_mono bs (show 64 * ((lo + hi) / 2 + 1) ≤ 64 * t by omega)
          omega
        exact ih _ _ hlo hmid (by omega) (by omega)
    · rw [show lo = t by omega]

lemma scanWord_pack {p t : Nat} (hp : IsSelect bs i p) (ht : t = p / 64) (rounds b : Nat)
    (hb : 64 * t + b ≤ p) (hrounds : b + rounds = 64) :
    SuccinctBits.scanWord (packWord (bs.drop (64 * t))) t rounds b
      ((i : Int) - ones bs (64 * t + b)) = p := by
  induction rounds generalizing b with
  | zero => omega
  | succ rounds ih =>
    have hbit : (packWord (bs.drop (64 * t))).toNat.testBit b = bs[64 * t + b]?.getD false := by
      rw [testBit_packWord _ (by omega), getD_eq_getElem?_getD, getElem?_drop]
    have hstep := ones_succ bs (64 * t + b)
    rw [SuccinctBits.scanWord, if_congr (and_shift_ne_zero (by omega)) rfl rfl, hbit]
    rcases hb.eq_or_lt with heq | hlt
    · rw [heq, hp.1, hp.2, Option.getD_some, if_pos rfl, if_pos (sub_self _)]
      omega
    · have hmono := ones_mono bs (Nat.succ_le_of_lt hlt)
      rw [Nat.succ_eq_add_one, hp.2] at hmono
      have hnext := ih (b + 1) hlt (by omega)
      rw [← Nat.add_assoc, hstep] at hnext
      cases hv : bs[64 * t + b]?.getD false with
      | false =>
        rw [hv] at hnext
        rw [if_neg (by simp)]
        exact hnext
      | true =>
        rw [hv, Bool.toNat_true] at hnext hstep
        rw [if_pos rfl, if_neg (by omega), ← hnext]
        congr 1
        push_cast
        ring

/-- **`selectIthOne` finds a one by its number.** -/
lemma selectIthOne_pack (hfew : bs.count true < 2 ^ 31) {p : Nat} (hp : IsSelect bs i p) :
    (newSuccinctBits leaves (pack bs) labels).selectIthOne i = .ok (p : Nat) := by
  have hlt : p < bs.length := (List.getElem?_eq_some_iff.mp hp.1).1
  have hlow : ones bs (64 * (p / 64)) ≤ i := hp.2 ▸ ones_mono bs (by omega)
  have hhigh : i < ones bs (64 * (p / 64 + 1)) := by
    have hstep := ones_succ bs p
    rw [hp.1, hp.2, Option.getD_some, Bool.toNat_true] at hstep
    have hmono := ones_mono bs (show p + 1 ≤ 64 * (p / 64 + 1) by omega)
    omega
  have hwords : p / 64 < (pack bs).length := by
    rw [length_pack]
    omega
  obtain ⟨n, hn, hones⟩ := wordOnes_pack leaves labels
    ((ones_le_count bs (64 * (p / 64))).trans_lt hfew) hwords.le
  have hsearch := searchWord_pack leaves labels hfew hlow hhigh
    ((pack bs).length + 1) 0 (pack bs).length (Nat.zero_le _) hwords.le le_rfl (by omega)
  have hword := nth_natCast (getElem?_pack bs (w := p / 64) (by omega))
  have hscan := scanWord_pack hp rfl 64 0 (by omega) rfl
  rw [SuccinctBits.selectIthOne]
  change (SuccinctBits.searchWord _ i ((pack bs).length + 1) 0 (pack bs).length >>= _) = _
  rw [hsearch]
  change (nth _ ((p / 64 : Nat) : Int) >>= _) = _
  rw [nth_natCast hn]
  change (nth (pack bs) ((p / 64 : Nat) : Int) >>= _) = _
  rw [hword]
  change Except.ok _ = Except.ok _
  rw [hones]
  exact congrArg _ hscan

end

end Ntr.Ruleset
