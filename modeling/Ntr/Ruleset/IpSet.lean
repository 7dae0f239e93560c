/-
The address sets of binary rule sets.

* `matchIP_exact_iff`: the matchers are exact for the sets whose segments do not
  reach into the gap behind a segment that starts later.
-/
import Mathlib.Data.List.Lex
import Mathlib.Data.Prod.Lex
import Ntr.Lib.Segments
import Ntr.Ruleset.Mrs

namespace Ntr.Go

/-! ### The order of addresses -/

namespace Addr

/-- What `Compare` looks at: the length, the number, the zone. -/
def key : Addr → Nat ×ₗ Nat ×ₗ List Nat
  | zero => toLex (0, toLex (0, []))
  | v4 a => toLex (32, toLex (a.toNat, []))
  | v6 a zone => toLex (128, toLex (a.toNat, zone.map UInt8.toNat))

lemma key_injective : Function.Injective key := by
  intro x y h
  cases x <;> cases y <;>
    simp_all [key, BitVec.toNat_inj, (List.map_injective_iff.mpr fun _ _ => UInt8.toNat_inj.mp).eq_iff]

instance linearOrder : LinearOrder Addr := LinearOrder.lift' key key_injective

def compare (a b : Addr) : Int := if a < b then -1 else if b < a then 1 else 0

lemma compare_lt_zero {a b : Addr} : a.compare b < 0 ↔ a < b := by
  rw [compare]
  split_ifs <;> simp_all

/-- `As16`, as the number that the sixteen bytes write: an IPv4 address as a mapped
one, zones dropped. -/
def as16 : Addr → Nat
  | zero => 0
  | v4 a => 0xffff * 2 ^ 32 + a.toNat
  | v6 a _ => a.toNat

end Addr

/-- `sort.Slice`: the same elements, sorted where `less` compares keys. -/
structure Sorter (α : Type) where
  sort : (α → α → Bool) → List α → List α
  perm : ∀ less l, (sort less l).Perm l
  sorted : ∀ {κ : Type} [LinearOrder κ] (f : α → κ) (l : List α),
    (sort (fun a b => f a < f b) l).Pairwise fun a b => f a ≤ f b

end Ntr.Go

namespace Ntr.Ruleset

open Go Lib Lib.FailState Lib.Segments

variable {σ : Type} [Channel σ]

/-! ### The readers -/

def readSRSAddr : FailState Error σ Addr := do
  let n ← readUvarint
  if n ≠ 4 ∧ n ≠ 16 then throw (.text (lit "srs: addr 长度 " ++ itoa n ++ lit " 非法"))
  else do
    let b ← readFull n
    pure (if n = 4 then addrFrom4 b else addrFrom16 b)

/-- The loop of `readSRSIPSet` over its segments. -/
def readSRSRanges : Nat → FailState Error σ (List (Segment Addr))
  | 0 => pure []
  | n + 1 => do
    let first ← readSRSAddr
    let last ← readSRSAddr
    let rr ← readSRSRanges n
    pure (⟨first.unmap, last.unmap⟩ :: rr)

structure IpAddrRangeSet where
  rr : List (Segment Addr)

def readSRSIPSet (S : Sorter (Segment Addr)) : FailState Error σ IpAddrRangeSet := do
  let ver ← readByte
  if ver ≠ 1 then throw (.text (lit "srs: ip_set 版本 " ++ itoa ver.toNat ++ lit "≠1"))
  else do
    let b ← readFull 8
    let length := beNat b
    if 2 ^ 28 < length then throw (.text (lit "srs: ip_set 段数非法 " ++ itoa length))
    else do
      let rr ← readSRSRanges length
      pure ⟨S.sort (fun r r' => r.first.compare r'.first < 0) rr⟩

/-- The loop of `readIPCidrSetBin` over its segments; sixteen bytes compare as the
numbers they write. -/
def readIPCidrRanges : Nat → FailState Error σ (List (Segment Nat))
  | 0 => pure []
  | n + 1 => do
    let first ← readFull 16
    let last ← readFull 16
    let rr ← readIPCidrRanges n
    pure (⟨beNat first, beNat last⟩ :: rr)

structure IpRangeSet where
  rr : List (Segment Nat)

def readIPCidrSetBin (S : Sorter (Segment Nat)) : FailState Error σ IpRangeSet := do
  let ver ← readByte
  if ver ≠ 1 then throw (.text (lit "mrs: IpCidrSet 版本 " ++ itoa ver.toNat ++ lit "≠1"))
  else do
    let n ← readInt64
    if n < 0 ∨ 2 ^ 28 < n then throw (.text (lit "mrs: cidr 段数非法 " ++ decimal n))
    else do
      let rr ← readIPCidrRanges n.toNat
      pure ⟨S.sort (fun r r' => r.first < r'.first) rr⟩

/-! ### The matchers -/

/-- `ipAddrRangeSet.MatchIP`: `sort.Search` for the first start behind the
address, and the segment in front of it. -/
def IpAddrRangeSet.matchIP (s : IpAddrRangeSet) (ip : Addr) : Bool := lookup s.rr ip.unmap

/-- `ipRangeSet.MatchIP`: the same over the sixteen bytes. -/
def IpRangeSet.matchIP (s : IpRangeSet) (ip : Addr) : Bool := lookup s.rr ip.as16

/-! ### What the matchers find -/

section
variable {t : Tape}

lemma sorted_readSRSIPSet {S : Sorter (Segment Addr)} {s : IpAddrRangeSet}
    (h : outcome (readSRSIPSet S) t = .ok s) : Sorted s.rr := by
  have hread : Succeeds (readSRSIPSet S) t fun s' _ => s' = s := ⟨s, h, rfl⟩
  rw [readSRSIPSet, succeeds_bind] at hread
  obtain ⟨ver, -, hread⟩ := hread
  rw [succeeds_guard not_succeeds_throw, succeeds_bind] at hread
  obtain ⟨-, b, -, hread⟩ := hread
  rw [succeeds_guard not_succeeds_throw, succeeds_bind] at hread
  obtain ⟨-, rr, -, hread⟩ := hread
  rw [← succeeds_pure.mp hread]
  simp only [Addr.compare_lt_zero]
  exact S.sorted Segment.first rr

lemma sorted_readIPCidrSetBin {S : Sorter (Segment Nat)} {s : IpRangeSet}
    (h : outcome (readIPCidrSetBin S) t = .ok s) : Sorted s.rr := by
  have hread : Succeeds (readIPCidrSetBin S) t fun s' _ => s' = s := ⟨s, h, rfl⟩
  rw [readIPCidrSetBin, succeeds_bind] at hread
  obtain ⟨ver, -, hread⟩ := hread
  rw [succeeds_guard not_succeeds_throw, succeeds_bind] at hread
  obtain ⟨-, n, -, hread⟩ := hread
  rw [succeeds_guard not_succeeds_throw, succeeds_bind] at hread
  obtain ⟨-, rr, -, hread⟩ := hread
  rw [← succeeds_pure.mp hread]
  exact S.sorted Segment.first rr

end

/-- **The matchers are exact** for the sets without an address in the gap behind a
segment, and in front of all that start later, that an earlier segment has. -/
theorem matchIP_exact_iff (S : Sorter (Segment Addr)) (S' : Sorter (Segment Nat)) (t : Tape) :
    (∀ s, outcome (readSRSIPSet S) t = .ok s →
      ((∀ ip, s.matchIP ip = true ↔ Covered s.rr ip.unmap) ↔
        ∀ (ip : Addr) (j : Nat), Gap s.rr j ip.unmap → ∀ r ∈ s.rr.take j, r.last < ip.unmap)) ∧
    ∀ s, outcome (readIPCidrSetBin S') t = .ok s →
      ((∀ ip, s.matchIP ip = true ↔ Covered s.rr ip.as16) ↔
        ∀ (ip : Addr) (j : Nat), Gap s.rr j ip.as16 → ∀ r ∈ s.rr.take j, r.last < ip.as16) :=
  ⟨fun _ hread => forall_congr' fun _ => lookup_iff_covered_iff (sorted_readSRSIPSet hread),
    fun _ hread => forall_congr' fun _ => lookup_iff_covered_iff (sorted_readIPCidrSetBin hread)⟩

def insertionSorter (α : Type) : Sorter α where
  sort less l := l.insertionSort fun a b => less b a = false
  perm _ l := List.perm_insertionSort _ l
  sorted {κ} _ f l := by
    have : Std.Total fun a b : α => decide (f b < f a) = false := ⟨fun a b => by
      simpa using le_total (f a) (f b)⟩
    have : IsTrans α fun a b => decide (f b < f a) = false := ⟨fun a b c hab hbc => by
      simp only [decide_eq_false_iff_not, not_lt] at hab hbc ⊢
      exact hab.trans hbc⟩
    refine (List.pairwise_insertionSort (fun a b : α => decide (f b < f a) = false) l).imp ?_
    intro a b hab
    simpa using hab

/-- Two segments of IPv4 addresses as a `.srs` payload. -/
def srsSegments (a b c d : Nat) : Tape :=
  ⟨1 :: (putBE 8 2 ++ 4 :: putBE 4 a ++ 4 :: putBE 4 b ++ 4 :: putBE 4 c ++ 4 :: putBE 4 d), .eof,
    fun _ => none, []⟩

/-- Two segments as a `.mrs` payload. -/
def mrsSegments (a b c d : Nat) : Tape :=
  ⟨1 :: (putBE 8 2 ++ putBE 16 a ++ putBE 16 b ++ putBE 16 c ++ putBE 16 d), .eof,
    fun _ => none, []⟩

/-- Two segments apart from each other, in the wrong order. -/
theorem matchIP_exact_apart :
    (∀ ip, (⟨[⟨.v4 1, .v4 4⟩, ⟨.v4 7, .v4 9⟩]⟩ : IpAddrRangeSet).matchIP ip = true ↔
      Covered [⟨.v4 1, .v4 4⟩, ⟨.v4 7, .v4 9⟩] ip.unmap) ∧
    ∀ ip, (⟨[⟨1, 4⟩, ⟨7, 9⟩]⟩ : IpRangeSet).matchIP ip = true ↔
      Covered [⟨1, 4⟩, ⟨7, 9⟩] ip.as16 := by
  have happ := matchIP_exact_iff (insertionSorter _) (insertionSorter _)
  refine ⟨((happ (srsSegments 7 9 1 4)).1 ⟨[⟨.v4 1, .v4 4⟩, ⟨.v4 7, .v4 9⟩]⟩ rfl).mpr ?_,
    ((happ (mrsSegments 7 9 1 4)).2 ⟨[⟨1, 4⟩, ⟨7, 9⟩]⟩ rfl).mpr ?_⟩
  · rintro ip (_ | _ | j) ⟨s, hs, hfirst, -⟩ r hr
    · cases hr
    · cases hs
      rw [List.mem_singleton.mp hr]
      exact lt_of_lt_of_le (by decide +kernel) hfirst
    · cases hs
  · rintro ip (_ | _ | j) ⟨s, hs, hfirst, -⟩ r hr
    · cases hr
    · cases hs
      rw [List.mem_singleton.mp hr]
      exact lt_of_lt_of_le (by decide) hfirst
    · cases hs

/-- A segment inside another one hides what lies behind it. -/
theorem matchIP_misses :
    (∃ s, outcome (readSRSIPSet (insertionSorter _)) (srsSegments 1 10 3 4) = .ok s ∧
      Covered s.rr (.v4 7) ∧ s.matchIP (.v4 7) = false) ∧
    ∃ s, outcome (readIPCidrSetBin (insertionSorter _)) (mrsSegments 1 10 3 4) = .ok s ∧
      Covered s.rr 7 ∧ s.matchIP (.v6 7 []) = false :=
  ⟨⟨⟨[⟨.v4 1, .v4 10⟩, ⟨.v4 3, .v4 4⟩]⟩, rfl, ⟨_, List.mem_cons_self, by decide +kernel⟩,
      by decide +kernel⟩,
    ⟨[⟨1, 10⟩, ⟨3, 4⟩]⟩, rfl, ⟨_, List.mem_cons_self, by decide +kernel⟩, by decide +kernel⟩

end Ntr.Ruleset
