/-
Go strings and the part of the `strings`, `strconv` and `net` packages that
the program uses on them.

A Go string is an arbitrary byte sequence, so it is modelled as a list of
bytes; a source literal is read through its UTF-8 encoding (`lit`).

* `toLower`: `strings.ToLower`, with the ASCII branch of the Go source
  written out; the branch for other strings maps each rune through the
  Unicode case table, which is a parameter (`Unicode.lowerRunes`);
* `mem_tails_iff`: the pieces a walk along the separators of a string visits
  are exactly the suffixes that start behind a separator.
-/
import Mathlib.Data.List.Infix
import Mathlib.Tactic

namespace Ntr.Go

/-- A Go string: a finite byte sequence, UTF-8 or not. -/
abbrev Str := List UInt8

instance decidableMemStr (s : Str) (l : List Str) : Decidable (s ∈ l) := inferInstance

def lit (s : String) : Str := s.toUTF8.data.toList

/-- The two places where the Unicode tables of the Go library enter:
`strings.Map(unicode.ToLower, ·)` and the printable runes of `%q`. -/
structure Unicode where
  lowerRunes : Str → Str
  quote : Str → Str

/-! ### The `strings` package -/

def lowerByte (c : UInt8) : UInt8 := if 0x41 ≤ c ∧ c ≤ 0x5A then c + 0x20 else c

def toLower (U : Unicode) (s : Str) : Str :=
  if s.all (· < 0x80) then s.map lowerByte else U.lowerRunes s

def hasSuffix (s suf : Str) : Bool := decide (suf <:+ s)

def contains (s sub : Str) : Bool := decide (sub <:+: s)

def trimPrefix (s pre : Str) : Str := if pre <+: s then s.drop pre.length else s

def trimSuffix (s suf : Str) : Str := if suf <:+ s then s.take (s.length - suf.length) else s

/-- `s[i+1:]` for `i = strings.IndexByte(s, b)`, `none` for `i < 0`. -/
def afterByte (b : UInt8) : Str → Option Str
  | [] => none
  | c :: cs => if c = b then some cs else afterByte b cs

/-- `s[:i]` and `s[i+1:]` for `i = strings.LastIndexByte(s, b)`. -/
def cutLast (b : UInt8) : Str → Option (Str × Str)
  | [] => none
  | c :: cs =>
    match cutLast b cs with
    | some (l, r) => some (c :: l, r)
    | none => if c = b then some ([], cs) else none

/-! ### Walks along a separator -/

/-- The suffixes of `s` that start right behind an occurrence of `b`. -/
def tails (b : UInt8) : Str → List Str
  | [] => []
  | c :: cs => if c = b then cs :: tails b cs else tails b cs

lemma mem_tails_iff {b : UInt8} {s t : Str} : t ∈ tails b s ↔ b :: t <:+ s := by
  induction s with
  | nil => simp [tails]
  | cons c cs ih =>
    rw [List.suffix_cons_iff, ← ih]
    by_cases hc : c = b
    · simp [tails, hc]
    · have hne : b :: t ≠ c :: cs := fun h => hc (List.cons.inj h).1.symm
      simp [tails, hc, hne]

lemma afterByte_length_lt {b : UInt8} : ∀ {s t : Str}, afterByte b s = some t → t.length < s.length
  | [], _, h => by simp [afterByte] at h
  | c :: cs, t, h => by
      rw [afterByte] at h
      split_ifs at h with hc
      · obtain rfl := Option.some.inj h
        simp
      · exact (afterByte_length_lt h).trans (by simp)

lemma tails_of_afterByte_none {b : UInt8} : ∀ {s : Str}, afterByte b s = none → tails b s = []
  | [], _ => rfl
  | c :: cs, h => by
      rw [afterByte] at h
      split_ifs at h with hc
      rw [tails, if_neg hc]
      exact tails_of_afterByte_none h

lemma tails_of_afterByte_some {b : UInt8} : ∀ {s t : Str}, afterByte b s = some t →
    tails b s = t :: tails b t
  | [], _, h => by simp [afterByte] at h
  | c :: cs, t, h => by
      rw [afterByte] at h
      split_ifs at h with hc
      · obtain rfl := Option.some.inj h
        rw [tails, if_pos hc]
      · rw [tails, if_neg hc]
        exact tails_of_afterByte_some h

/-! ### Host and port -/

/-- `net.JoinHostPort`: a host that contains a colon is put in brackets. -/
def joinHostPort (host port : Str) : Str :=
  if 0x3A ∈ host then lit "[" ++ host ++ lit "]:" ++ port else host ++ lit ":" ++ port

/-- The reasons for which `net.SplitHostPort` rejects an address. -/
inductive AddrError where
  | missingPort | tooManyColons | missingBracket | unexpectedOpen | unexpectedClose
  deriving DecidableEq, Repr

/-- The last two tests of `net.SplitHostPort`, on the parts of the address
that must not contain a bracket. -/
def splitHostPortTail (noOpen noClose host port : Str) : Except AddrError (Str × Str) :=
  if 0x5B ∈ noOpen then .error .unexpectedOpen
  else if 0x5D ∈ noClose then .error .unexpectedClose
  else .ok (host, port)

def splitHostPort (s : Str) : Except AddrError (Str × Str) :=
  match cutLast 0x3A s with
  | none => .error .missingPort
  | some (front, port) =>
    match s with
    | 0x5B :: rest =>
      match afterByte 0x5D rest with
      | none => .error .missingBracket
      | some behind =>
        -- `behind` is what follows the first `]`; it must be `:` and the port
        match behind with
        | [] => .error .missingPort
        | c :: behind' =>
          if behind'.length = port.length ∧ c = 0x3A then
            splitHostPortTail rest behind (rest.take (rest.length - behind.length - 1)) port
          else if c = 0x3A then .error .tooManyColons
          else .error .missingPort
    | _ =>
      if 0x3A ∈ front then .error .tooManyColons
      else splitHostPortTail s s front port

/-! ### Numbers -/

/-- `strconv.Itoa` on a non-negative number. -/
def itoa (n : Nat) : Str := lit (toString n)

/-- A `float64`, by its IEEE 754 bits. -/
structure F64 where
  bits : UInt64
  deriving DecidableEq, Repr

namespace F64

/-- `0 < x`: the sign bit is clear and `x` is neither zero nor NaN. -/
def isPos (x : F64) : Bool := decide (0 < x.bits ∧ x.bits ≤ 0x7FF0000000000000)

/-- `x == 0`: one of the two zeros. -/
def isZero (x : F64) : Bool := decide (x.bits = 0 ∨ x.bits = 0x8000000000000000)

end F64

end Ntr.Go
