/-
The pseudo-random numbers of Snell v6 (`snellv6/prf.go`), and the ranges that the profile takes
numbers from.

* `mapRange_mem`: a number of a range lies in it;
* `Span`: a range with the bound that `clamp` gives it; `Span.pick_le`.
-/
import Mathlib.Data.UInt

namespace Ntr.Snell.V6

/-! ### Pseudo-random numbers -/

def fmix64 (x : UInt64) : UInt64 :=
  let x := (x ^^^ (x >>> 30)) * 0xBF58476D1CE4E5B9
  let x := (x ^^^ (x >>> 27)) * 0x94D049BB133111EB
  x ^^^ (x >>> 31)

def prf32 (seed : UInt64) (kind konst index : UInt32) : UInt32 :=
  let t := seed
  let t := t ^^^ (index.toUInt64 * 0x589965CC75374CC3 + 0x33A213EC50FFE2E9)
  let t := t ^^^ (kind.toUInt64 * 0x9E3779B97F4A7C15)
  let t := t ^^^ (konst.toUInt64 * 0xE7037ED1A0B428DB + 0x8F3907F7B2B80C35)
  let v := fmix64 t
  (v >>> 32).toUInt32 ^^^ v.toUInt32

/-- What `mapRange` divides by. -/
def width (lo hi : UInt16) : UInt16 := hi - lo + 1

/-- A number from `lo` to `hi`. -/
def mapRange (prf : UInt32) (lo hi : UInt16) : UInt16 :=
  if hi ≤ lo then lo else lo + (prf % (width lo hi).toUInt32).toUInt16

lemma toNat_width {lo hi : UInt16} (h : lo.toNat ≤ hi.toNat) (hhi : hi.toNat < 65535) :
    (width lo hi).toNat = hi.toNat - lo.toNat + 1 := by
  rw [width, UInt16.toNat_add, UInt16.toNat_sub_of_le _ _ (UInt16.le_iff_toNat_le.mpr h),
    UInt16.toNat_one]
  omega

lemma mapRange_mem (prf : UInt32) (lo hi : UInt16) (h : lo.toNat ≤ hi.toNat)
    (hhi : hi.toNat < 65535) :
    lo.toNat ≤ (mapRange prf lo hi).toNat ∧ (mapRange prf lo hi).toNat ≤ hi.toNat := by
  rw [mapRange]
  split_ifs with hlt
  · exact ⟨le_rfl, h⟩
  · have hrem : (prf % (width lo hi).toUInt32).toNat < hi.toNat - lo.toNat + 1 := by
      rw [UInt32.toNat_mod, UInt16.toNat_toUInt32, toNat_width h hhi]
      exact Nat.mod_lt _ (Nat.succ_pos _)
    rw [UInt16.toNat_add, UInt32.toNat_toUInt16]
    omega

/-- A number from `lo` to `hi` in a byte. -/
def mapRange8 (prf : UInt32) (lo hi : UInt16) : UInt8 := (mapRange prf lo hi).toUInt8

/-! ### Seeds -/

def rotateLeft64 (x : UInt64) (k : UInt64) : UInt64 := (x <<< k) ||| (x >>> (64 - k))

/-- `subSeed`; eleven to the right is fifty-three to the left. -/
def subSeed (ms : Fin 4 → UInt64) (domain : UInt32) (magic : UInt64) : UInt64 :=
  let x := domain.toUInt64 * 0xD6E8FEB86659FD93
  let x := x ^^^ (magic + 0xA0761D6478BD642F)
  let x := x ^^^ ms 0
  let x := x ^^^ (ms 1 + 0x9E3779B97F4A7C15)
  let x := x ^^^ rotateLeft64 (ms 2) 17
  let x := x ^^^ rotateLeft64 (ms 3) 53
  fmix64 x

/-! ### Bounds -/

structure Span (cap : Nat) where
  lo : UInt16
  hi : UInt16
  le : lo.toNat ≤ hi.toNat
  le_cap : hi.toNat ≤ cap

def atMost (v cap : UInt16) : UInt16 := if v > cap then cap else v

lemma toNat_atMost (v cap : UInt16) : (atMost v cap).toNat = min v.toNat cap.toNat := by
  rw [atMost]
  split_ifs with h
  · have := UInt16.lt_iff_toNat_lt.mp h
    omega
  · have := UInt16.le_iff_toNat_le.mp (UInt16.not_lt.mp h)
    omega

lemma atMost_le (v cap : UInt16) : (atMost v cap).toNat ≤ cap.toNat := by
  rw [toNat_atMost]
  exact Nat.min_le_right _ _

/-- `capmin` of `clamp`. -/
def capmin (cap lo hi : UInt16) : Span cap.toNat where
  lo := atMost lo (atMost hi cap)
  hi := atMost hi cap
  le := atMost_le lo (atMost hi cap)
  le_cap := atMost_le hi cap

namespace Span

variable {cap : Nat} (s : Span cap)

/-- The number of the range that a pseudo-random one stands for. -/
def pick (prf : UInt32) : UInt16 := mapRange prf s.lo s.hi

lemma pick_le (prf : UInt32) (hcap : cap < 65535) : (s.pick prf).toNat ≤ s.hi.toNat :=
  (mapRange_mem prf s.lo s.hi s.le (by have := s.le_cap; omega)).2

end Span

end Ntr.Snell.V6
