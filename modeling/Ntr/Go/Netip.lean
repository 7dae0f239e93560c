/-
The `net/netip` package: addresses, address-port pairs and prefixes.

* `contains_masked`: masking does not change the addresses a prefix contains.
-/
import Ntr.Go.Strings

namespace Ntr.Go

inductive Addr where
  | zero
  | v4 (a : BitVec 32)
  | v6 (a : BitVec 128) (zone : Str)
  deriving DecidableEq, Repr

namespace Addr

def isValid : Addr → Bool
  | zero => false
  | _ => true

def is4 : Addr → Bool
  | v4 _ => true
  | _ => false

def is6 : Addr → Bool
  | v6 _ _ => true
  | _ => false

/-- `Is4In6`: an IPv6 address of the form `::ffff:a.b.c.d`. -/
def is4In6 : Addr → Bool
  | v6 a _ => a >>> 32 == 0xffff
  | _ => false

/-- `Unmap`: the IPv4 address inside an IPv4-mapped one, without its zone. -/
def unmap : Addr → Addr
  | v6 a z => if a >>> 32 == 0xffff then v4 (a.setWidth 32) else v6 a z
  | a => a

/-- `BitLen`: the width of the family, `0` for the zero address. -/
def bitLen : Addr → Nat
  | zero => 0
  | v4 _ => 32
  | v6 _ _ => 128

end Addr

structure AddrPort where
  addr : Addr
  port : UInt16
  deriving DecidableEq, Repr

namespace AddrPort

/-- The zero value, a source the caller does not know. -/
def zero : AddrPort := ⟨.zero, 0⟩

def isValid (p : AddrPort) : Bool := p.addr.isValid

end AddrPort

structure Prefix where
  ip : Addr
  bits : Nat
  deriving DecidableEq, Repr

namespace Prefix

/-- `IsValid`: the address is valid and the length fits its family. -/
def isValid (p : Prefix) : Bool := p.ip.isValid && decide (p.bits ≤ p.ip.bitLen)

/-- `Masked`: the host bits cleared and the zone dropped; an invalid prefix
becomes the zero prefix. -/
def masked (p : Prefix) : Prefix :=
  if p.isValid then
    match p.ip with
    | .v4 a => ⟨.v4 (a >>> (32 - p.bits) <<< (32 - p.bits)), p.bits⟩
    | .v6 a _ => ⟨.v6 (a >>> (128 - p.bits) <<< (128 - p.bits)) [], p.bits⟩
    | .zero => ⟨.zero, 0⟩
  else ⟨.zero, 0⟩

/-- `Contains`: same family, no zone on the address, equal network bits. -/
def contains (p : Prefix) (ip : Addr) : Bool :=
  p.isValid &&
    match p.ip, ip with
    | .v4 a, .v4 b => (a ^^^ b) >>> (32 - p.bits) == 0
    | .v6 a _, .v6 b zone => zone.isEmpty && (a ^^^ b) >>> (128 - p.bits) == 0
    | _, _ => false

lemma xor_shift_mask {w : Nat} (a b : BitVec w) (k : Nat) :
    ((a >>> k <<< k) ^^^ b) >>> k = (a ^^^ b) >>> k := by
  ext i hi
  simp only [BitVec.getElem_ushiftRight, BitVec.getLsbD_xor, BitVec.getLsbD_shiftLeft,
    BitVec.getLsbD_ushiftRight]
  have h : ¬ k + i < k := by omega
  by_cases hw : k + i < w
  · simp [hw, h]
  · simp [hw, h, BitVec.getLsbD_of_ge _ _ (Nat.le_of_not_lt hw)]

lemma contains_masked (p : Prefix) (ip : Addr) : p.masked.contains ip = p.contains ip := by
  by_cases hp : p.isValid = true
  · obtain ⟨a, n⟩ := p
    rw [masked, if_pos hp]
    cases a with
    | zero => simp [isValid, Addr.isValid] at hp
    | v4 a =>
      have hv : isValid ⟨.v4 (a >>> (32 - n) <<< (32 - n)), n⟩ = true := hp
      cases ip <;> simp [contains, hp, hv, xor_shift_mask]
    | v6 a z =>
      have hv : isValid ⟨.v6 (a >>> (128 - n) <<< (128 - n)) [], n⟩ = true := hp
      cases ip <;> simp [contains, hp, hv, xor_shift_mask]
  · have hz : isValid ⟨.zero, 0⟩ = false := rfl
    rw [masked, if_neg hp]
    simp [contains, hp, hz]

end Prefix

/-! ### Texts -/

namespace Addr

def string4 (a : BitVec 32) : Str :=
  List.intercalate (lit ".") ([24, 16, 8, 0].map fun k => itoa ((a.toNat >>> k) % 256))

def groups (a : BitVec 128) : List Nat :=
  [112, 96, 80, 64, 48, 32, 16, 0].map fun k => (a.toNat >>> k) % 65536

/-- The first of the longest runs of at least two zero groups, as its start and
its length: the loop of `appendTo6` from group `i` on. -/
def zeroRun (gs : List Nat) : Nat → Nat × Nat → Nat × Nat
  | 0, best => best
  | left + 1, best =>
    let i := gs.length - (left + 1)
    let l := ((gs.drop i).takeWhile (· = 0)).length
    zeroRun gs left (if 2 ≤ l ∧ best.2 < l then (i, l) else best)

def hexText (n : Nat) : Str := lit (String.ofList (Nat.toDigits 16 n))

def string6 (a : BitVec 128) : Str :=
  let gs := groups a
  let text := fun gs : List Nat => List.intercalate (lit ":") (gs.map hexText)
  match zeroRun gs 8 (255, 0) with
  | (_, 0) => text gs
  | (i, l) => text (gs.take i) ++ lit "::" ++ text (gs.drop (i + l))

def string : Addr → Str
  | zero => lit "invalid IP"
  | v4 a => string4 a
  | v6 a zone =>
    (if a >>> 32 == 0xffff then lit "::ffff:" ++ string4 (a.setWidth 32) else string6 a) ++
      if zone = [] then [] else lit "%" ++ zone

end Addr

def AddrPort.string (p : AddrPort) : Str :=
  match p.addr with
  | .zero => lit "invalid AddrPort"
  | .v4 _ => p.addr.string ++ lit ":" ++ itoa p.port.toNat
  | .v6 _ _ => lit "[" ++ p.addr.string ++ lit "]:" ++ itoa p.port.toNat

end Ntr.Go
