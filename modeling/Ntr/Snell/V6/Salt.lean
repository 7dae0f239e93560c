/-
The salt of a Snell v6 connection (`snellv6/salt.go`): sixteen bytes under a mask, at places of
the handshake prefix that a shuffle chooses.

* `nodup_fisherYatesPerm`: the exchanges of the shuffle keep its entries apart, up to as many as
  a byte can tell apart;
* `exists_scatter`: what is written at distinct places stands there;
* `descatterSalt_scatterSalt`: the salt comes back, since a prefix has 144 bytes at most.
-/
import Ntr.Go.Panic
import Ntr.Snell.V6.Prf

namespace Ntr.Snell.V6

open Go List

/-! ### The profile -/

/-- What the salt depends on of a `Profile`; `clamp` has bounded the range of the prefix. -/
structure SaltProfile where
  saltSeed : UInt64
  saltPermRounds : UInt8
  saltMaskStride : UInt8
  routeSeed33 : UInt64
  preSalt : Span 128

/-- These fields as `DeriveProfile` takes them from the master seed. -/
def deriveSalt (ms : Fin 4 → UInt64) : SaltProfile :=
  let s0 := subSeed ms 0 0x5D9217C083E64AB9
  let s16 := subSeed ms 16 0xC9F4260B7D1E835A
  let psMin := mapRange (prf32 s0 14 0 28755) 16 96
  { saltSeed := subSeed ms 3 0x3E8A91B52740F6CD
    saltPermRounds := mapRange8 (prf32 s16 17 0 20903) 1 4
    saltMaskStride := mapRange8 (prf32 s16 18 0 20903) 17 251
    routeSeed33 := s0
    preSalt := capmin 128 psMin (psMin + mapRange (prf32 s0 15 0 28755) 16 160) }

def SaltProfile.prefixLen (p : SaltProfile) : Nat :=
  (p.preSalt.pick (prf32 p.routeSeed33 33 0 0x7053)).toNat

lemma prefixLen_le (p : SaltProfile) : p.prefixLen ≤ 128 :=
  (p.preSalt.pick_le _ (by decide)).trans p.preSalt.le_cap

/-! ### The shuffle -/

def prfShuffle (seed : UInt64) (konst index : UInt32) : UInt32 :=
  let t := seed ^^^ 0xDAA66D2C7DDF743F
  let t := t ^^^ (index.toUInt64 * 0x589965CC75374CC3 + 0x33A213EC50FFE2E9)
  let t := t ^^^ (konst.toUInt64 * 0xE7037ED1A0B428DB - 0x70C6F8084D47F3CB)
  let v := fmix64 t
  (v >>> 32).toUInt32 ^^^ v.toUInt32

/-- One round of the shuffle; a remainder by `n - pos` keeps the other place within the table. -/
def shuffleRound (seed : UInt64) (n : Nat) (perm : Array UInt8) (round : Nat) : Array UInt8 :=
  (List.range n).foldl (fun perm pos =>
    let idx := prfShuffle seed (UInt32.ofNat round + 20903) (UInt32.ofNat pos)
    perm.swapIfInBounds pos (pos + (idx % UInt32.ofNat (n - pos)).toNat)) perm

def fisherYatesPerm (seed : UInt64) (rounds : UInt8) (n : Nat) : Str :=
  ((List.range (if rounds = 0 then 1 else rounds.toNat)).foldl (shuffleRound seed n)
    ((List.range n).map UInt8.ofNat).toArray).toList

lemma swapIfInBounds_perm {α : Type} (a : Array α) (i j : Nat) :
    (a.swapIfInBounds i j).toList.Perm a.toList := by
  rw [Array.swapIfInBounds_def]
  split_ifs
  · exact Array.perm_iff_toList_perm.mp (Array.swap_perm _ _)
  · exact .rfl
  · exact .rfl

lemma foldl_perm {α β : Type} {step : Array α → β → Array α}
    (h : ∀ a b, (step a b).toList.Perm a.toList) (bs : List β) (a : Array α) :
    (bs.foldl step a).toList.Perm a.toList := by
  induction bs generalizing a with
  | nil => exact .rfl
  | cons b bs ih => exact (ih (step a b)).trans (h a b)

section
variable (seed : UInt64) (rounds : UInt8) {n : Nat}

/-- Each round exchanges entries, and no more. -/
lemma fisherYatesPerm_perm (n : Nat) :
    (fisherYatesPerm seed rounds n).Perm ((List.range n).map UInt8.ofNat) :=
  foldl_perm (fun _ _ => foldl_perm (fun _ _ => swapIfInBounds_perm _ _ _) _ _) _ _

lemma length_fisherYatesPerm (n : Nat) : (fisherYatesPerm seed rounds n).length = n := by
  rw [(fisherYatesPerm_perm seed rounds n).length_eq, length_map, length_range]

/-- **The table is injective.** -/
lemma nodup_fisherYatesPerm (h : n ≤ 256) : (fisherYatesPerm seed rounds n).Nodup := by
  refine (fisherYatesPerm_perm seed rounds n).nodup_iff.mpr (nodup_range.map_on ?_)
  intro x hx y hy hxy
  have heq := congrArg UInt8.toNat hxy
  rw [mem_range] at hx hy
  rwa [UInt8.toNat_ofNat', UInt8.toNat_ofNat', Nat.mod_eq_of_lt (by omega),
    Nat.mod_eq_of_lt (by omega)] at heq

lemma toNat_lt_of_mem_fisherYatesPerm (h : n ≤ 256) {c : UInt8}
    (hc : c ∈ fisherYatesPerm seed rounds n) : c.toNat < n := by
  obtain ⟨x, hx, rfl⟩ := mem_map.mp ((fisherYatesPerm_perm seed rounds n).mem_iff.mp hc)
  rw [mem_range] at hx
  rwa [UInt8.toNat_ofNat', Nat.mod_eq_of_lt (by omega)]

end

/-! ### The salt -/

def saltKeystream (seed : UInt64) (stride : UInt8) (i : Nat) : UInt8 :=
  ((UInt8.ofNat i).toUInt32 * stride.toUInt32).toUInt8 ^^^
    (prf32 seed 2 20903 (UInt32.ofNat i)).toUInt8

namespace SaltProfile

variable (p : SaltProfile)

def perm (inbuf : Str) : Str := fisherYatesPerm p.saltSeed p.saltPermRounds inbuf.length

def mask (i : Nat) : UInt8 := saltKeystream p.saltSeed p.saltMaskStride i

def descatterSalt (inbuf : Str) : Except Fault (List UInt8) :=
  (List.finRange 16).mapM fun i : Fin 16 => do
    let pos ← nth (p.perm inbuf) i.val
    let c ← nth inbuf pos.toNat
    return c ^^^ p.mask i

def scatterSalt (inbuf : Str) (salt : Fin 16 → UInt8) : Except Fault Str :=
  (List.finRange 16).foldlM (fun b i => do
    let pos ← nth (p.perm inbuf) i.val
    setNth b pos.toNat (salt i ^^^ p.mask i)) inbuf

end SaltProfile

/-- **What is written at distinct places stands there**, and the other places stay. -/
lemma exists_scatter {ι α : Type} {f : ι → Nat} {v : ι → α} {is : List ι} {l : List α}
    (hdist : is.Pairwise fun i j => f i ≠ f j) (hlt : ∀ i ∈ is, f i < l.length) :
    ∃ l', is.foldlM (fun b i => setNth b (f i) (v i)) l = .ok l' ∧ l'.length = l.length ∧
      (∀ i ∈ is, l'[f i]? = some (v i)) ∧ ∀ q, (∀ i ∈ is, f i ≠ q) → l'[q]? = l[q]? := by
  induction is generalizing l with
  | nil => exact ⟨l, rfl, rfl, by simp, fun _ _ => rfl⟩
  | cons i is ih =>
    obtain ⟨hi, hdist⟩ := pairwise_cons.mp hdist
    have hin := hlt i mem_cons_self
    obtain ⟨l', hok, hlen, hset, hrest⟩ := ih (l := l.set (f i) (v i)) hdist fun j hj => by
      rw [length_set]
      exact hlt j (mem_cons_of_mem _ hj)
    refine ⟨l', ?_, hlen.trans length_set, ?_, fun q hq => ?_⟩
    · rw [foldlM_cons, setNth, if_pos hin]
      exact hok
    · refine forall_mem_cons.mpr ⟨?_, hset⟩
      rw [hrest _ fun j hj => (hi j hj).symm, getElem?_set_self hin]
    · rw [hrest q fun j hj => hq j (mem_cons_of_mem _ hj), getElem?_set_ne (hq i mem_cons_self)]

lemma mapM_eq_ok {ι β : Type} {g : ι → Except Fault β} {w : ι → β} {is : List ι}
    (h : ∀ i ∈ is, g i = .ok (w i)) : is.mapM g = .ok (is.map w) := by
  induction is with
  | nil => rfl
  | cons i is ih =>
    rw [mapM_cons, h i mem_cons_self, ih fun j hj => h j (mem_cons_of_mem _ hj)]
    rfl

/-- **The salt comes back**, from any block of the length that the profile gives; and the table
of places is injective for every seed and every length that a byte counts. -/
theorem descatterSalt_scatterSalt (p : SaltProfile) (salt : Fin 16 → UInt8) (inbuf : Str)
    (hlen : inbuf.length = p.prefixLen + 16) :
    (p.scatterSalt inbuf salt >>= p.descatterSalt) = .ok (List.ofFn salt) ∧
      ∀ seed rounds n, n ≤ 256 → (fisherYatesPerm seed rounds n).Nodup := by
  refine ⟨?_, fun seed rounds n => nodup_fisherYatesPerm seed rounds⟩
  -- The block has 144 bytes at most, so a byte tells its places apart.
  have hle := prefixLen_le p
  have hsize : inbuf.length ≤ 256 := by omega
  have hperm : (p.perm inbuf).length = inbuf.length := length_fisherYatesPerm _ _ _
  have hin (i : Fin 16) : i.val < (p.perm inbuf).length := by omega
  let f (i : Fin 16) : Nat := ((p.perm inbuf).get ⟨i, hin i⟩).toNat
  have hplace (i : Fin 16) : (p.perm inbuf)[i.val]? = some ((p.perm inbuf).get ⟨i, hin i⟩) :=
    getElem?_eq_getElem (hin i)
  have hdist : (List.finRange 16).Pairwise fun i j => f i ≠ f j := by
    refine (nodup_finRange 16).imp fun hne heq => hne ?_
    have hget := (nodup_fisherYatesPerm p.saltSeed p.saltPermRounds hsize).injective_get
      (UInt8.toNat_inj.mp heq)
    exact Fin.ext (Fin.mk.inj_iff.mp hget)
  obtain ⟨block, hscatter, hsame, hset, -⟩ := exists_scatter
    (v := fun i => salt i ^^^ p.mask i) hdist fun i _ =>
      toNat_lt_of_mem_fisherYatesPerm _ _ hsize (get_mem _ _)
  have hwritten : p.scatterSalt inbuf salt = .ok block := by
    rw [← hscatter, SaltProfile.scatterSalt]
    refine congrArg (fun g => List.foldlM g inbuf (List.finRange 16)) ?_
    funext b i
    rw [nth_natCast (hplace i)]
    rfl
  rw [hwritten, ok_bind, SaltProfile.descatterSalt, mapM_eq_ok (w := salt)]
  · rw [ofFn_eq_map]
  · intro i _
    have hblock : p.perm block = p.perm inbuf := by
      rw [SaltProfile.perm, SaltProfile.perm, hsame]
    rw [hblock, nth_natCast (hplace i), ok_bind, nth_natCast (hset i (mem_finRange i)), ok_bind]
    exact congrArg Except.ok (by rw [UInt8.xor_assoc, UInt8.xor_self, UInt8.xor_zero])

/-- The master seed of zeros, and a prefix of zeros. -/
theorem descatterSalt_zeros :
    ((deriveSalt 0).scatterSalt (List.replicate ((deriveSalt 0).prefixLen + 16) 0)
      (fun i => UInt8.ofNat i) >>= (deriveSalt 0).descatterSalt) =
      .ok (List.ofFn fun i : Fin 16 => UInt8.ofNat i) :=
  (descatterSalt_scatterSalt (deriveSalt 0) _ _ length_replicate).1

end Ntr.Snell.V6
