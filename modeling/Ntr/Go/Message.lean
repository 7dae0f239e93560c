/-
Texts on the wire: decimal numbers, base64, host and port, and the heads of
HTTP/1.1 messages.

* `mem_itoa`: a decimal number has nothing but digits;
* `splitHostPort_joinHostPort`, `mem_host_of_splitHostPort`: what
  `net.SplitHostPort` finds in what `net.JoinHostPort` writes, and in anything
  else.
-/
import Ntr.Go.Encoding

namespace Ntr.Go

open List

def visible (c : UInt8) : Bool := decide (0x20 < c ∧ c ≠ 0x7F)

/-- Nothing but visible bytes. -/
def Visible (s : Str) : Prop := ∀ c ∈ s, visible c = true

instance (s : Str) : Decidable (Visible s) :=
  inferInstanceAs (Decidable (∀ c ∈ s, visible c = true))

variable {s t port host line method target version rest : Str} {b c : UInt8}

lemma Visible.append (hs : Visible s) (ht : Visible t) : Visible (s ++ t) := by
  intro c hc
  rcases mem_append.mp hc with h | h
  · exact hs c h
  · exact ht c h

/-! ### Numbers -/

lemma utf8EncodeChar_of_isDigit {c : Char} (h : c.isDigit = true) :
    ∃ b : UInt8, String.utf8EncodeChar c = [b] ∧ 0x30 ≤ b ∧ b ≤ 0x39 := by
  have hc : 0x30 ≤ c.val.toNat ∧ c.val.toNat ≤ 0x39 := by
    simpa [Char.isDigit, UInt32.le_iff_toNat_le] using h
  have hb : (UInt8.ofNat c.val.toNat).toNat = c.val.toNat :=
    UInt8.toNat_ofNat_of_lt (by rw [UInt8.size]; omega)
  refine ⟨UInt8.ofNat c.val.toNat, ?_, ?_, ?_⟩
  · rw [String.utf8EncodeChar, if_pos (by omega)]
  · rw [UInt8.le_iff_toNat_le, hb]
    exact hc.1
  · rw [UInt8.le_iff_toNat_le, hb]
    exact hc.2

lemma mem_itoa {n : Nat} (h : b ∈ itoa n) : 0x30 ≤ b ∧ b ≤ 0x39 := by
  have hbytes : itoa n = (Nat.toDigits 10 n).flatMap String.utf8EncodeChar := by
    simp [itoa, lit, String.toUTF8, toString, Nat.repr, List.utf8Encode]
  rw [hbytes, mem_flatMap] at h
  obtain ⟨c, hc, hb⟩ := h
  obtain ⟨b', henc, hle⟩ :=
    utf8EncodeChar_of_isDigit (Nat.isDigit_of_mem_toDigits (by decide) (by decide) hc)
  rw [henc, mem_singleton] at hb
  rw [hb]
  exact hle

lemma visible_itoa (n : Nat) : Visible (itoa n) := by
  intro c hc
  obtain ⟨hlow, hhigh⟩ := mem_itoa hc
  have hpos : (0x20 : UInt8) < 0x30 := by decide
  rw [visible, decide_eq_true_iff]
  refine ⟨UInt8.lt_of_lt_of_le hpos hlow, ?_⟩
  rintro rfl
  exact absurd hhigh (by decide)

/-! ### Base64 -/

/-- The character of the standard alphabet for six bits. -/
def sextetChar (n : Nat) : UInt8 :=
  if n < 26 then UInt8.ofNat (n + 0x41)
  else if n < 52 then UInt8.ofNat (n - 26 + 0x61)
  else if n < 62 then UInt8.ofNat (n - 52 + 0x30)
  else if n = 62 then 0x2B
  else 0x2F

def encodeToString : Str → Str
  | [] => []
  | [a] => [sextetChar (a.toNat / 4), sextetChar (a.toNat % 4 * 16), 0x3D, 0x3D]
  | [a, b] =>
    [sextetChar (a.toNat / 4), sextetChar (a.toNat % 4 * 16 + b.toNat / 16),
      sextetChar (b.toNat % 16 * 4), 0x3D]
  | a :: b :: c :: rest =>
    sextetChar (a.toNat / 4) :: sextetChar (a.toNat % 4 * 16 + b.toNat / 16) ::
      sextetChar (b.toNat % 16 * 4 + c.toNat / 64) :: sextetChar (c.toNat % 64) ::
      encodeToString rest

lemma visible_sextetChar (n : Nat) : visible (sextetChar n) = true := by
  by_cases h : n < 63
  · revert n
    decide
  · rw [sextetChar, if_neg (by omega), if_neg (by omega), if_neg (by omega), if_neg (by omega)]
    decide

lemma visible_encodeToString (s : Str) : Visible (encodeToString s) := by
  fun_induction encodeToString s with
  | case1 => exact nofun
  | case2 a => simp [Visible, visible_sextetChar, show visible 0x3D = true from rfl]
  | case3 a b => simp [Visible, visible_sextetChar, show visible 0x3D = true from rfl]
  | case4 a b c rest ih =>
    simpa [Visible, visible_sextetChar] using ih

lemma encodeToString_ne_nil (h : s ≠ []) : encodeToString s ≠ [] := by
  match s with
  | [] => exact absurd rfl h
  | [_] => exact cons_ne_nil _ _
  | [_, _] => exact cons_ne_nil _ _
  | _ :: _ :: _ :: _ => exact cons_ne_nil _ _

/-! ### Host and port -/

lemma cutLast_of_notMem (ht : b ∉ t) : cutLast b t = none := by
  induction t with
  | nil => rfl
  | cons c t ih =>
    rw [mem_cons, not_or] at ht
    rw [cutLast, ih ht.2]
    exact if_neg fun h => ht.1 h.symm

lemma cutLast_append (s : Str) (ht : b ∉ t) : cutLast b (s ++ b :: t) = some (s, t) := by
  induction s with
  | nil => simp [cutLast, cutLast_of_notMem ht]
  | cons c s ih => simp [cutLast, ih]

lemma cutLast_eq : ∀ {s front back : Str}, cutLast b s = some (front, back) → s = front ++ b :: back
  | [], _, _, h => by simp [cutLast] at h
  | c :: s, front, back, h => by
    rw [cutLast] at h
    cases hs : cutLast b s with
    | some x =>
      rw [hs] at h
      cases h
      rw [cons_append, ← cutLast_eq hs]
    | none =>
      rw [hs] at h
      by_cases hc : c = b
      · rw [if_pos hc] at h
        cases h
        rw [hc, nil_append]
      · rw [if_neg hc] at h
        cases h

lemma afterByte_append (hs : b ∉ s) (t : Str) : afterByte b (s ++ b :: t) = some t := by
  induction s with
  | nil => simp [afterByte]
  | cons c s ih =>
    rw [mem_cons, not_or] at hs
    rw [cons_append, afterByte, if_neg fun h => hs.1 h.symm, ih hs.2]

lemma splitHostPort_of_head {front : Str} (hs : s.head? ≠ some 0x5B)
    (hcut : cutLast 0x3A s = some (front, port)) :
    splitHostPort s = if 0x3A ∈ front then .error .tooManyColons
      else splitHostPortTail s s front port := by
  rw [splitHostPort, hcut]
  split
  · next h => cases h
  · next front' port' heq =>
    cases heq
    split
    · exact absurd rfl hs
    · rfl

lemma splitHostPortTail_ok {noOpen noClose : Str} (hopen : 0x5B ∉ noOpen)
    (hclose : 0x5D ∉ noClose) : splitHostPortTail noOpen noClose host port = .ok (host, port) := by
  rw [splitHostPortTail, if_neg hopen, if_neg hclose]

/-- What `net.JoinHostPort` writes of a host without brackets is taken apart
again. -/
lemma splitHostPort_joinHostPort (hopen : 0x5B ∉ host) (hclose : 0x5D ∉ host)
    (hport : ∀ c ∈ port, 0x30 ≤ c ∧ c ≤ 0x39) :
    splitHostPort (joinHostPort host port) = .ok (host, port) := by
  have hp (c : UInt8) (hc : ¬ (0x30 ≤ c ∧ c ≤ 0x39)) : c ∉ port := fun h => hc (hport c h)
  have hcolon := hp 0x3A (by decide)
  have hopen' := hp 0x5B (by decide)
  have hclose' := hp 0x5D (by decide)
  by_cases h : 0x3A ∈ host
  · have hjoin : joinHostPort host port = (0x5B :: (host ++ [0x5D])) ++ 0x3A :: port := by
      rw [joinHostPort, if_pos h, show lit "[" = [0x5B] by decide,
        show lit "]:" = [0x5D, 0x3A] by decide]
      simp
    have hrest : host ++ [0x5D] ++ 0x3A :: port = host ++ 0x5D :: 0x3A :: port := by simp
    have hlen : (host ++ 0x5D :: 0x3A :: port).length - (0x3A :: port).length - 1 =
        host.length := by
      simp only [length_append, length_cons]
      omega
    rw [hjoin, splitHostPort, cutLast_append _ hcolon]
    simp only [cons_append, hrest, afterByte_append hclose]
    rw [if_pos ⟨trivial, trivial⟩, splitHostPortTail_ok, hlen, take_left]
    · simp [hopen, hopen']
    · simp [hclose']
  · have hjoin : joinHostPort host port = host ++ 0x3A :: port := by
      rw [joinHostPort, if_neg h, show lit ":" = [0x3A] by decide]
      simp
    have hhead : (host ++ 0x3A :: port).head? ≠ some 0x5B := by
      cases host with
      | nil => simp
      | cons c host =>
        rw [cons_append, head?_cons, Ne, Option.some.injEq]
        exact fun hc => hopen (hc ▸ mem_cons_self)
    rw [hjoin, splitHostPort_of_head hhead (cutLast_append host hcolon), if_neg h,
      splitHostPortTail_ok]
    · simp [hopen, hopen']
    · simp [hclose, hclose']

lemma visible_joinHostPort (hhost : Visible host) (hport : Visible port) :
    Visible (joinHostPort host port) := by
  have hopen : Visible (lit "[") := by decide +kernel
  have hclose : Visible (lit "]:") := by decide +kernel
  have hcolon : Visible (lit ":") := by decide +kernel
  rw [joinHostPort]
  split
  · exact ((hopen.append hhost).append hclose).append hport
  · exact (hhost.append hcolon).append hport

lemma joinHostPort_ne_nil (host port : Str) : joinHostPort host port ≠ [] := by
  rw [joinHostPort, show lit "[" = [0x5B] by decide, show lit ":" = [0x3A] by decide]
  split <;> simp

lemma splitHostPortTail_inv {noOpen noClose : Str} {x : Str × Str}
    (h : splitHostPortTail noOpen noClose host port = .ok x) :
    0x5B ∉ noOpen ∧ 0x5D ∉ noClose ∧ x = (host, port) := by
  rw [splitHostPortTail] at h
  by_cases hopen : 0x5B ∈ noOpen
  · rw [if_pos hopen] at h
    cases h
  · by_cases hclose : 0x5D ∈ noClose
    · rw [if_neg hopen, if_pos hclose] at h
      cases h
    · rw [if_neg hopen, if_neg hclose] at h
      cases h
      exact ⟨hopen, hclose, rfl⟩

lemma afterByte_eq : ∀ {s t : Str}, afterByte b s = some t →
    ∃ front, s = front ++ b :: t ∧ b ∉ front
  | [], _, h => by simp [afterByte] at h
  | c :: s, t, h => by
    rw [afterByte] at h
    by_cases hc : c = b
    · rw [if_pos hc] at h
      cases h
      exact ⟨[], by rw [hc, nil_append], not_mem_nil⟩
    · rw [if_neg hc] at h
      obtain ⟨front, rfl, hfront⟩ := afterByte_eq h
      refine ⟨c :: front, rfl, ?_⟩
      rw [mem_cons, not_or]
      exact ⟨fun h => hc h.symm, hfront⟩

/-- The host that `net.SplitHostPort` finds stands in the address, and has no
brackets. -/
lemma mem_host_of_splitHostPort (h : splitHostPort s = .ok (host, port))
    (hc : c ∈ host) : c ∈ s ∧ c ≠ 0x5B ∧ c ≠ 0x5D := by
  cases hcut : cutLast 0x3A s with
  | none =>
    rw [splitHostPort, hcut] at h
    cases h
  | some x =>
    obtain ⟨front, port'⟩ := x
    by_cases hhead : s.head? = some 0x5B
    · obtain ⟨rest, rfl⟩ := head?_eq_some_iff.mp hhead
      rw [splitHostPort, hcut] at h
      cases hafter : afterByte 0x5D rest with
      | none =>
        simp only [hafter] at h
        cases h
      | some behind =>
        obtain ⟨inner, rfl, hinner⟩ := afterByte_eq hafter
        simp only [hafter] at h
        match behind, h with
        | [], h => cases h
        | d :: behind, h =>
          dsimp only at h
          split_ifs at h with hd
          obtain ⟨hopen, -, heq⟩ := splitHostPortTail_inv h
          have hlen : (inner ++ 0x5D :: d :: behind).length - (d :: behind).length - 1 =
              inner.length := by
            simp only [length_append, length_cons]
            omega
          rw [hlen, take_left, Prod.mk.injEq] at heq
          rw [heq.1] at hc
          refine ⟨mem_cons_of_mem _ (mem_append_left _ hc), ?_, ?_⟩
          · rintro rfl
            exact hopen (mem_append_left _ hc)
          · rintro rfl
            exact hinner hc
    · rw [splitHostPort_of_head hhead hcut] at h
      split_ifs at h with hcolon
      obtain ⟨hopen, hclose, heq⟩ := splitHostPortTail_inv h
      rw [Prod.mk.injEq] at heq
      have hmem : c ∈ s := by
        rw [cutLast_eq hcut, ← heq.1]
        exact mem_append_left _ hc
      exact ⟨hmem, fun h => hopen (h ▸ hmem), fun h => hclose (h ▸ hmem)⟩

/-! ### Heads of messages -/

def lineEnd : Str → Option (Str × Str)
  | 0x0A :: rest => some ([], rest)
  | _ => none

/-- The line at the front, up to its CRLF; a CR or an LF alone is an error. -/
def readLine : Str → Option (Str × Str)
  | [] => none
  | c :: s =>
    if c = 0x0D then lineEnd s
    else if c = 0x0A then none
    else (readLine s).map fun x => (c :: x.1, x.2)

/-- The words of a request line, separated by single spaces. -/
def readRequestLine (line : Str) : Option (Str × Str × Str) :=
  match cut 0x20 line with
  | none => none
  | some (method, rest) =>
    match cut 0x20 rest with
    | none => none
    | some (target, version) =>
      if (method ++ target ++ version).all visible ∧ method ≠ [] ∧ target ≠ [] then
        some (method, target, version)
      else none

def ows (c : UInt8) : Bool := c == 0x20 || c == 0x09

/-- A field line: a visible name, a colon, and the value without the white space
around it. -/
def readField (line : Str) : Option (Str × Str) :=
  match cut 0x3A line with
  | none => none
  | some (name, value) =>
    if name ≠ [] ∧ name.all visible ∧ value.all (fun c => visible c || ows c) then
      some (name, ((value.dropWhile ows).reverse.dropWhile ows).reverse)
    else none

/-- The field lines up to an empty line, and what stands behind it; at most so
many lines. -/
def readFields : Nat → Str → Option (List (Str × Str) × Str)
  | 0, _ => none
  | k + 1, b =>
    match readLine b with
    | none => none
    | some ([], rest) => some ([], rest)
    | some (line, rest) =>
      match readField line, readFields k rest with
      | some f, some (fs, rest) => some (f :: fs, rest)
      | _, _ => none

structure Head where
  method : Str
  target : Str
  version : Str
  fields : List (Str × Str)
  deriving DecidableEq

/-- The head of the request that the bytes start with, and the bytes behind it. -/
def readHead (b : Str) : Option (Head × Str) :=
  match readLine b with
  | none => none
  | some (line, rest) =>
    match readRequestLine line, readFields rest.length rest with
    | some (method, target, version), some (fields, rest) =>
      some (⟨method, target, version, fields⟩, rest)
    | _, _ => none

def crlf : Str := [0x0D, 0x0A]

lemma readLine_append (h : 0x0D ∉ line ∧ 0x0A ∉ line) (rest : Str) :
    readLine (line ++ crlf ++ rest) = some (line, rest) := by
  induction line with
  | nil => rfl
  | cons c line ih =>
    simp only [mem_cons, not_or] at h
    have ih := ih ⟨h.1.2, h.2.2⟩
    rw [cons_append, cons_append, readLine, if_neg fun hc => h.1.1 hc.symm,
      if_neg fun hc => h.2.1 hc.symm, ih]
    rfl

lemma cut_append (hs : b ∉ s) (t : Str) : cut b (s ++ b :: t) = some (s, t) := by
  induction s with
  | nil => simp [cut]
  | cons c s ih =>
    rw [mem_cons, not_or] at hs
    rw [cons_append, cut, if_neg fun h => hs.1 h.symm, ih hs.2]
    rfl

lemma Visible.notMem (h : Visible s) (hc : visible c = false) : c ∉ s :=
  fun hmem => absurd (h c hmem) (by rw [hc]; decide)

lemma readRequestLine_append (hm : Visible method)
    (ht : Visible target) (hv : Visible version) (hm' : method ≠ []) (ht' : target ≠ []) :
    readRequestLine (method ++ 0x20 :: (target ++ 0x20 :: version)) =
      some (method, target, version) := by
  have hall : (method ++ target ++ version).all visible = true :=
    all_eq_true.mpr ((hm.append ht).append hv)
  simp only [readRequestLine, cut_append (hm.notMem (c := 0x20) rfl),
    cut_append (ht.notMem (c := 0x20) rfl)]
  exact if_pos ⟨hall, hm', ht'⟩

lemma visible_of_readRequestLine
    (h : readRequestLine line = some (method, target, version)) : Visible target := by
  rw [readRequestLine] at h
  split at h
  · cases h
  · split at h
    · cases h
    · split_ifs at h with hall
      cases h
      intro c hc
      exact all_eq_true.mp hall.1 c (by simp [hc])

lemma visible_target_of_readHead {b : Str} {h : Head} (hb : readHead b = some (h, rest)) :
    Visible h.target := by
  rw [readHead] at hb
  split at hb
  · cases hb
  · split at hb
    · next hline _ =>
      cases hb
      exact visible_of_readRequestLine hline
    · cases hb

lemma ows_of_visible (h : visible c = true) : ows c = false := by
  rw [visible, decide_eq_true_iff] at h
  rw [ows, Bool.or_eq_false_iff, beq_eq_false_iff_ne, beq_eq_false_iff_ne]
  constructor <;> rintro rfl <;> exact absurd h.1 (by decide)

lemma dropWhile_ows (h : Visible s) (hs : s ≠ []) (t : Str) : (s ++ t).dropWhile ows = s ++ t := by
  cases s with
  | nil => exact absurd rfl hs
  | cons c s =>
    rw [cons_append, dropWhile_cons, ows_of_visible (h c mem_cons_self)]
    rfl

/-- A field line with one space behind the colon, and a value that starts and
ends visibly. -/
lemma readField_append {name value : Str} (hn : Visible name) (hn' : name ≠ [])
    (hcolon : 0x3A ∉ name) (hv : ∀ c ∈ value, visible c = true ∨ c = 0x20)
    (hfirst : value.dropWhile ows = value) (hlast : value.reverse.dropWhile ows = value.reverse) :
    readField (name ++ 0x3A :: 0x20 :: value) = some (name, value) := by
  have hall : (0x20 :: value).all (fun c => visible c || ows c) = true := by
    refine all_eq_true.mpr fun c hc => ?_
    rcases mem_cons.mp hc with rfl | hc
    · rfl
    · rcases hv c hc with h | rfl
      · rw [h, Bool.true_or]
      · rfl
  have htrim : ((0x20 :: value).dropWhile ows).reverse.dropWhile ows = value.reverse := by
    rw [dropWhile_cons_of_pos rfl, hfirst, hlast]
  rw [readField, cut_append hcolon]
  dsimp only
  rw [if_pos ⟨hn', all_eq_true.mpr hn, hall⟩, htrim, reverse_reverse]

lemma readFields_crlf (k : Nat) (rest : Str) :
    readFields (k + 1) (crlf ++ rest) = some ([], rest) := rfl

lemma readFields_append {f : Str × Str} (hbreak : 0x0D ∉ line ∧ 0x0A ∉ line)
    (hf : readField line = some f) (k : Nat) {rest' : Str} {fs : List (Str × Str)}
    (hrest : readFields k rest = some (fs, rest')) :
    readFields (k + 1) (line ++ crlf ++ rest) = some (f :: fs, rest') := by
  rw [readFields, readLine_append hbreak]
  cases line with
  | nil => cases hf
  | cons c line => simp only [hf, hrest]

lemma readHead_append {rest' : Str} (hbreak : 0x0D ∉ line ∧ 0x0A ∉ line)
    (hline : readRequestLine line = some (method, target, version))
    {fields : List (Str × Str)} (hfields : readFields rest.length rest = some (fields, rest')) :
    readHead (line ++ crlf ++ rest) = some (⟨method, target, version, fields⟩, rest') := by
  rw [readHead, readLine_append hbreak]
  simp only [hline, hfields]

end Ntr.Go
