/-
Byte encodings: big-endian integers, addresses as bytes, base64, and the
operations of package `strings` on header values.

* `equalFold`, `trimSpace`, `cut`: as in package `strings`.
-/
import Ntr.Go.Netip

namespace Ntr.Go

/-- The number that the bytes write, most significant byte first. -/
def beNat (b : Str) : Nat := b.foldl (fun n c => n * 256 + c.toNat) 0

/-- The lowest `w` bytes of a number, most significant byte first. -/
def putBE : Nat → Nat → Str
  | 0, _ => []
  | w + 1, n => putBE w (n / 256) ++ [UInt8.ofNat n]

def uint16 (b : Str) : UInt16 := UInt16.ofNat (beNat b)

def addrFrom4 (b : Str) : Addr := .v4 (BitVec.ofNat 32 (beNat b))

def addrFrom16 (b : Str) : Addr := .v6 (BitVec.ofNat 128 (beNat b)) []

/-- The bytes of an address: four for IPv4 (also inside IPv6, as `net.IP`'s
`To4` has it), sixteen for IPv6. -/
def ipBytes (a : Addr) : Str :=
  match a.unmap with
  | .v4 x => putBE 4 x.toNat
  | .v6 x _ => putBE 16 x.toNat
  | .zero => []

/-- `net.IP.To4`: the four bytes of an IPv4 address, also inside IPv6. -/
def to4 (ip : Str) : Option Str :=
  if ip.length = 4 then some ip
  else if ip.length = 16 ∧ ip.take 12 = List.replicate 10 0 ++ [0xFF, 0xFF] then some (ip.drop 12)
  else none

/-- `net.IP.To16`: no bytes when the address has neither length. -/
def to16 (ip : Str) : Str :=
  if ip.length = 4 then List.replicate 10 0 ++ [0xFF, 0xFF] ++ ip
  else if ip.length = 16 then ip
  else []

/-! ### Hexadecimal -/

/-- A digit of `encoding/hex`. -/
def hexDigit (n : Nat) : UInt8 := if n < 10 then UInt8.ofNat (0x30 + n) else UInt8.ofNat (0x57 + n)

/-- `hex.Encode`, and `%x`. -/
def hexEncode (b : Str) : Str :=
  b.flatMap fun c => [hexDigit (c.toNat / 16), hexDigit (c.toNat % 16)]

lemma length_hexEncode (b : Str) : (hexEncode b).length = 2 * b.length := by
  induction b with
  | nil => rfl
  | cons c b ih =>
    have hcons : hexEncode (c :: b) =
        hexDigit (c.toNat / 16) :: hexDigit (c.toNat % 16) :: hexEncode b := rfl
    rw [hcons, List.length_cons, List.length_cons, ih, List.length_cons]
    omega

/-! ### Base64 -/

/-- The value of a character of the standard alphabet. -/
def sextet (c : UInt8) : Option Nat :=
  if 0x41 ≤ c ∧ c ≤ 0x5A then some (c.toNat - 0x41)
  else if 0x61 ≤ c ∧ c ≤ 0x7A then some (c.toNat - 0x61 + 26)
  else if 0x30 ≤ c ∧ c ≤ 0x39 then some (c.toNat - 0x30 + 52)
  else if c = 0x2B then some 62
  else if c = 0x2F then some 63
  else none

/-- The quanta of four characters. Padding ends the text; the bits below a
padded quantum's last byte are not looked at. -/
def decodeQuanta : Str → Option Str
  | [] => some []
  | a :: b :: c :: d :: rest => do
    let x ← sextet a
    let y ← sextet b
    if c = 0x3D then
      if d = 0x3D ∧ rest = [] then some [UInt8.ofNat (x * 4 + y / 16)] else none
    else
      let z ← sextet c
      if d = 0x3D then
        if rest = [] then some [UInt8.ofNat (x * 4 + y / 16), UInt8.ofNat (y * 16 + z / 4)]
        else none
      else
        let w ← sextet d
        let tail ← decodeQuanta rest
        some (UInt8.ofNat (x * 4 + y / 16) :: UInt8.ofNat (y * 16 + z / 4) ::
          UInt8.ofNat (z * 64 + w) :: tail)
  | _ => none

/-- `base64.StdEncoding.DecodeString`: line breaks are skipped. -/
def decodeString (s : Str) : Option Str := decodeQuanta (s.filter fun c => c ≠ 0x0A ∧ c ≠ 0x0D)

/-! ### Header values -/

/-- `strings.Cut` at a byte: what stands before and after its first place. -/
def cut (b : UInt8) : Str → Option (Str × Str)
  | [] => none
  | c :: s => if c = b then some ([], s) else (cut b s).map fun (p, q) => (c :: p, q)

/-- `strings.EqualFold` with an ASCII text: letters without their case, and the
two letters outside ASCII that fold into it, `ſ` and the Kelvin sign. -/
def equalFold : Str → Str → Bool
  | [], [] => true
  | 0xC5 :: 0xBF :: s, c :: t => lowerByte c == 0x73 && equalFold s t
  | 0xE2 :: 0x84 :: 0xAA :: s, c :: t => lowerByte c == 0x6B && equalFold s t
  | b :: s, c :: t => lowerByte b == lowerByte c && equalFold s t
  | _, _ => false

def spaces : List Str :=
  [[0x09], [0x0A], [0x0B], [0x0C], [0x0D], [0x20], [0xC2, 0x85], [0xC2, 0xA0],
    [0xE1, 0x9A, 0x80], [0xE2, 0x80, 0xA8], [0xE2, 0x80, 0xA9], [0xE2, 0x80, 0xAF],
    [0xE2, 0x81, 0x9F], [0xE3, 0x80, 0x80]] ++
  (List.range 11).map fun i => [0xE2, 0x80, UInt8.ofNat (0x80 + i)]

/-- A white space character at the front is dropped, `n` times at most. -/
def trimLeft : Nat → Str → Str
  | 0, s => s
  | n + 1, s =>
    match spaces.find? fun w => w.isPrefixOf s with
    | some w => trimLeft n (s.drop w.length)
    | none => s

/-- A white space character at the end is dropped, `n` times at most. -/
def trimRight : Nat → Str → Str
  | 0, s => s
  | n + 1, s =>
    match spaces.find? fun w => w.isSuffixOf s with
    | some w => trimRight n (s.take (s.length - w.length))
    | none => s

def trimSpace (s : Str) : Str := trimRight s.length (trimLeft s.length s)

end Ntr.Go
