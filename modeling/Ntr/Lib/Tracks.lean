/-
Objects in a table under keys, each object under a key of its own choice: Go's
`map[K]*T`, with the objects numbered in the order of their creation.

* `Tracks.insert`, `Tracks.insert_of_lt`: an object goes under an unused key;
* `Tracks.lookup_erase`: to erase the key of a live object takes this object out of the
  table and no other.
-/
import Mathlib.Data.List.AList

namespace Ntr.Lib

variable {K : Type*} [DecidableEq K]

/-- A table of numbered objects. -/
abbrev Table (K : Type*) := AList fun _ : K => Nat

/-- The table holds the live ones among the first `n` objects, each under its
key. -/
def Tracks (t : Table K) (n : Nat) (key : Nat → K) (live : Nat → Prop) : Prop :=
  ∀ k r, t.lookup k = some r ↔ r < n ∧ key r = k ∧ live r

variable {t : Table K} {n : Nat} {key key' : Nat → K} {live live' : Nat → Prop} {k : K} {r : Nat}

lemma tracks_empty : Tracks (∅ : Table K) 0 key live := by
  intro k r
  simp

namespace Tracks

lemma congr (h : Tracks t n key live) (hkey : ∀ q < n, key' q = key q)
    (hlive : ∀ q < n, live' q ↔ live q) : Tracks t n key' live' := by
  intro k q
  rw [h k q]
  refine and_congr_right fun hq => ?_
  rw [hkey q hq, hlive q hq]

lemma grow (h : Tracks t n key live) (hkey : ∀ q < n, key' q = key q)
    (hlive : ∀ q < n, live' q ↔ live q) (hn : ¬ live' n) : Tracks t (n + 1) key' live' := by
  intro j q
  rw [h.congr hkey hlive j q]
  constructor
  · rintro ⟨hq, hkq, hlq⟩
    exact ⟨Nat.lt_succ_of_lt hq, hkq, hlq⟩
  · rintro ⟨hq, hkq, hlq⟩
    have hne : q ≠ n := by
      rintro rfl
      exact hn hlq
    exact ⟨by omega, hkq, hlq⟩

/-- An object becomes live under its key, which was unused. -/
lemma insert_of_lt (h : Tracks t n key live) (hr : r < n) (hk : t.lookup (key r) = none)
    (hkey : ∀ q < n, key' q = key q) (hlive : ∀ q < n, live' q ↔ live q ∨ q = r) :
    Tracks (t.insert (key r) r) n key' live' := by
  intro j q
  by_cases hj : j = key r
  · subst hj
    rw [AList.lookup_insert, Option.some.injEq]
    constructor
    · rintro rfl
      exact ⟨hr, hkey r hr, (hlive r hr).mpr (.inr rfl)⟩
    · rintro ⟨hq, hkq, hlq⟩
      rcases (hlive q hq).mp hlq with hlq | rfl
      · rw [(h _ q).mpr ⟨hq, (hkey q hq).symm.trans hkq, hlq⟩] at hk
        exact nomatch hk
      · rfl
  · rw [AList.lookup_insert_ne hj, h j q]
    refine and_congr_right fun hq => ?_
    rw [hkey q hq, hlive q hq]
    refine and_congr_right fun hkq => (or_iff_left ?_).symm
    rintro rfl
    exact hj hkq.symm

lemma insert (h : Tracks t n key live) (hk : t.lookup k = none) (hkey : ∀ q < n, key' q = key q)
    (hlive : ∀ q < n, live' q ↔ live q) (hn : key' n = k) (hl : live' n) :
    Tracks (t.insert k n) (n + 1) key' live' := by
  subst hn
  have hold : Tracks t (n + 1) key' fun q => q < n ∧ live' q :=
    h.grow hkey (fun q hq => by rw [hlive q hq, and_iff_right hq]) fun hn => Nat.lt_irrefl n hn.1
  refine hold.insert_of_lt (Nat.lt_succ_self n) hk (fun _ _ => rfl) fun q hq => ?_
  constructor
  · exact fun hlq => (Nat.lt_succ_iff_lt_or_eq.mp hq).imp_left fun hlt => ⟨hlt, hlq⟩
  · rintro (⟨-, hlq⟩ | rfl)
    · exact hlq
    · exact hl

lemma lookup_eq_none (h : Tracks t n key live) (hinj : ∀ q < n, key q = key r → q = r)
    (hl : ¬ live r) : t.lookup (key r) = none := by
  refine Option.eq_none_iff_forall_not_mem.mpr fun q hq => ?_
  obtain ⟨hlt, hkq, hlq⟩ := (h _ q).mp hq
  exact hl (hinj q hlt hkq ▸ hlq)

lemma lookup_erase (h : Tracks t n key live) (hr : r < n) (hl : live r) (j : K) (q : Nat) :
    (t.erase (key r)).lookup j = some q ↔ t.lookup j = some q ∧ q ≠ r := by
  have hself : t.lookup (key r) = some r := (h _ _).mpr ⟨hr, rfl, hl⟩
  by_cases hj : j = key r
  · subst hj
    rw [AList.lookup_erase, hself, Option.some.injEq]
    simp only [reduceCtorEq, false_iff, not_and, not_not]
    exact Eq.symm
  · rw [AList.lookup_erase_ne hj]
    refine (and_iff_left_of_imp fun hq => ?_).symm
    rintro rfl
    exact hj ((h _ _).mp hq).2.1.symm

lemma erase (h : Tracks t n key live) (hr : r < n) (hl : live r) (hkey : ∀ q < n, key' q = key q)
    (hlive : ∀ q < n, live' q ↔ live q ∧ q ≠ r) : Tracks (t.erase (key r)) n key' live' := by
  intro j q
  rw [h.lookup_erase hr hl, h j q]
  constructor
  · rintro ⟨⟨hq, hkq, hlq⟩, hne⟩
    exact ⟨hq, (hkey q hq).trans hkq, (hlive q hq).mpr ⟨hlq, hne⟩⟩
  · rintro ⟨hq, hkq, hlq⟩
    obtain ⟨hlq, hne⟩ := (hlive q hq).mp hlq
    exact ⟨⟨hq, (hkey q hq).symm.trans hkq, hlq⟩, hne⟩

/-- Where no other object has its key, to erase the key of an object takes out
this object, if it is there. -/
lemma erase_of_inj (h : Tracks t n key live) (hinj : ∀ q < n, key q = key r → q = r)
    (hkey : ∀ q < n, key' q = key q) (hlive : ∀ q < n, live' q ↔ live q ∧ q ≠ r) :
    Tracks (t.erase (key r)) n key' live' := by
  intro j q
  by_cases hj : j = key r
  · subst hj
    rw [AList.lookup_erase]
    refine iff_of_false nofun ?_
    rintro ⟨hq, hkq, hlq⟩
    exact ((hlive q hq).mp hlq).2 (hinj q hq ((hkey q hq).symm.trans hkq))
  · rw [AList.lookup_erase_ne hj, h j q]
    refine and_congr_right fun hq => ?_
    rw [hkey q hq, hlive q hq]
    refine and_congr_right fun hkq => (and_iff_left_of_imp fun _ => ?_).symm
    rintro rfl
    exact hj hkq.symm

end Tracks

lemma forall_update {α : Type*} {obj : Nat → α} {P : Nat → α → Prop} {y : α}
    (hold : ∀ q < n, P q (obj q)) (hnew : P n y) :
    ∀ q < n + 1, P q (Function.update obj n y q) := by
  intro q hq
  rcases Nat.lt_succ_iff_lt_or_eq.mp hq with hq | rfl
  · rw [Function.update_of_ne (Nat.ne_of_lt hq)]
    exact hold q hq
  · rw [Function.update_self]
    exact hnew

lemma length_insert_of_unused (hk : t.lookup k = none) :
    (t.insert k r).keys.length = t.keys.length + 1 := by
  rw [AList.keys_insert, List.length_cons, List.erase_of_not_mem]
  exact AList.lookup_eq_none.mp hk

lemma length_erase_le (t : Table K) (k : K) : (t.erase k).keys.length ≤ t.keys.length := by
  rw [AList.keys_erase]
  exact List.length_erase_le

end Ntr.Lib
