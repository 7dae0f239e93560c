/-
The rule parser of a binary `.srs` rule set.

* `readSRSRule`, `readSRSLogical`, `readSRSDefault`: the rules as a tree of items;
  an item is read, or skipped with its count kept here; `parseSRS` takes from the
  tree what routing needs;
* `RuleBytes len`, `RulesBytes len`: the bytes of rules, where a skipped slice of
  `n` elements of width `w` takes `len w n` bytes behind its count;
* `consumes_readSRSRule`: the parser takes these bytes for `taken`, the count that
  `io.CopyN` gets;
* `aligned_iff`: an accepted file is laid out as the format says exactly when every
  count of a skipped slice, times the width, is an `int64`.
-/
import Ntr.Go.Consume
import Ntr.Ruleset.IpSet
import Ntr.Ruleset.Srs

namespace Ntr.Ruleset

open Go Lib Lib.FailState Lib.Segments List

/-! ### Items and rules -/

def sItemQueryType : UInt8 := 0

def sItemNetwork : UInt8 := 1

def sItemDomain : UInt8 := 2

def sItemDomainKeyword : UInt8 := 3

def sItemDomainRegex : UInt8 := 4

def sItemSourceIPCIDR : UInt8 := 5

def sItemIPCIDR : UInt8 := 6

def sItemSourcePort : UInt8 := 7

def sItemSourcePortRange : UInt8 := 8

def sItemPort : UInt8 := 9

def sItemPortRange : UInt8 := 10

def sItemProcessName : UInt8 := 11

def sItemProcessPath : UInt8 := 12

def sItemPackageName : UInt8 := 13

def sItemWIFISSID : UInt8 := 14

def sItemWIFIBSSID : UInt8 := 15

def sItemProcessPathRegex : UInt8 := 17

def sItemNetworkType : UInt8 := 18

def sItemNetworkIsExpensive : UInt8 := 19

def sItemNetworkIsConstrained : UInt8 := 20

def sItemPackageNameRegex : UInt8 := 23

def sItemFinal : UInt8 := 0xFF

/-- What the parser has of an item: what it reads, or the width and the number of
the elements that it skips. -/
inductive Payload where
  | set (s : SuccinctBits)
  | strings (ss : List Str)
  | ips (s : IpAddrRangeSet)
  | skipped (w n : Nat)
  | none

structure Item where
  itemType : UInt8
  payload : Payload

inductive SrsRule where
  | default (items : List Item) (invert : UInt8)
  | logical (mode : UInt8) (rules : List SrsRule) (invert : UInt8)

mutual

/-- The items of a rule, those of its parts included. -/
def SrsRule.items : SrsRule → List Item
  | .default items _ => items
  | .logical _ rules _ => itemsOf rules

def itemsOf : List SrsRule → List Item
  | [] => []
  | r :: rs => r.items ++ itemsOf rs

end

/-! ### The parser -/

def errorText : Error → Str
  | .eof => lit "EOF"
  | .unexpectedEOF => lit "unexpected EOF"
  | .noProgress => lit "multiple Read calls return no data or error"
  | .text msg => msg

/-- `io.CopyN(io.Discard, r, n)`: nothing for a count below one, and the end of the
stream for a count that it does not have. -/
def copyN (n : Int) : FailState Error Tape Unit :=
  if n ≤ 0 then pure ()
  else do
    let _ ← mapErr (fun e => if e = .unexpectedEOF then .eof else e) (readFull n.toNat)
    pure ()

/-- The two functions that skip a slice: its count, an `int64` times the width. -/
def skipSlice (w : Nat) : FailState Error Tape Payload := do
  let n ← readUvarint
  copyN (int (int n * w))
  pure (.skipped w n)

def skipUint16Slice : FailState Error Tape Payload := skipSlice 2

def skipUint8Slice : FailState Error Tape Payload := skipSlice 1

def readItemStrings : FailState Error Tape (List Str) := do
  let n ← readUvarint
  if 2 ^ 24 < n then throw (.text (lit "srs: 串数过多 " ++ itoa n))
  else times n readUvarByteSlice

/-- The item types whose payload is a `[]uint16`. -/
def uint16Items : List UInt8 := [sItemQueryType, sItemSourcePort, sItemPort]

/-- The item types whose strings are read and dropped. -/
def stringItems : List UInt8 :=
  [sItemNetwork, sItemSourcePortRange, sItemPortRange, sItemProcessName, sItemProcessPath,
    sItemProcessPathRegex, sItemPackageName, sItemPackageNameRegex, sItemWIFISSID, sItemWIFIBSSID]

/-- The `switch` of `readSRSDefault`, without its last item. -/
def readPayload (S : Sorter (Segment Addr)) (itemType : UInt8) : FailState Error Tape Payload :=
  if itemType = sItemDomain then do
    let s ← readSingSuccinct
    pure (.set s)
  else if itemType = sItemDomainKeyword ∨ itemType = sItemDomainRegex then do
    let ss ← readItemStrings
    pure (.strings ss)
  else if itemType = sItemIPCIDR ∨ itemType = sItemSourceIPCIDR then do
    let s ← readSRSIPSet S
    pure (.ips s)
  else if itemType ∈ uint16Items then skipUint16Slice
  else if itemType = sItemNetworkType then skipUint8Slice
  else if itemType ∈ stringItems then do
    let ss ← readItemStrings
    pure (.strings ss)
  else if itemType = sItemNetworkIsExpensive ∨ itemType = sItemNetworkIsConstrained then pure .none
  else throw (.text (lit "srs: 不支持的 item 类型 " ++ itoa itemType.toNat ++ lit "(可能含 AdGuard/接口地址维度)"))

/-- The loop of `readSRSDefault`: every round takes a byte, so as many rounds as
there are bytes are enough. -/
def readItems (S : Sorter (Segment Addr)) : Nat → FailState Error Tape (List Item × UInt8)
  | 0 => throw .noProgress
  | rounds + 1 => do
    let itemType ← readByte
    if itemType = sItemFinal then do
      let invert ← readByte
      pure ([], invert)
    else do
      let payload ← readPayload S itemType
      let (items, invert) ← readItems S rounds
      pure (⟨itemType, payload⟩ :: items, invert)

def readSRSDefault (S : Sorter (Segment Addr)) : FailState Error Tape SrsRule := do
  let (items, invert) ← ExceptT.mk fun t => (readItems S (t.bytes.length + 1)).run.run t
  pure (.default items invert)

/-- `readSRSLogical`, with the reader of its parts. -/
def readSRSLogical (readRule : FailState Error Tape SrsRule) : FailState Error Tape SrsRule := do
  let mode ← readByte
  let n ← readUvarint
  let rules ← times n readRule
  let invert ← readByte
  pure (.logical mode rules invert)

/-- `readSRSRule`, with `depth` levels left of the 101 that it goes down. -/
def readSRSRule (S : Sorter (Segment Addr)) : Nat → FailState Error Tape SrsRule
  | 0 => throw (.text (lit "srs: logical 嵌套过深"))
  | depth + 1 => do
    let ruleType ← readByte
    if ruleType = 0 then readSRSDefault S
    else if ruleType = 1 then readSRSLogical (readSRSRule S depth)
    else throw (.text (lit "srs: 未知规则类型 " ++ itoa ruleType.toNat))

/-- The loop of `parseSRS` over its rules, from the rule with number `i` on. -/
def readRules (S : Sorter (Segment Addr)) : Nat → Nat → FailState Error Tape (List SrsRule)
  | _, 0 => pure []
  | i, n + 1 => do
    let r ← mapErr (fun e => .text (lit "srs: 规则[" ++ itoa i ++ lit "]:" ++ errorText e))
      (readSRSRule S 101)
    let rs ← readRules S (i + 1) n
    pure (r :: rs)

/-- The part of `parseSRS` behind the decompression. -/
def parseRules (S : Sorter (Segment Addr)) : FailState Error Tape (List SrsRule) := do
  let count ← readUvarint
  readRules S 0 count

structure SrsAcc (R : Type) where
  domains : List SuccinctBits := []
  keywords : List Str := []
  regexes : List R := []
  ips : List IpAddrRangeSet := []

section
variable {R : Type}

/-- What an item adds; `compile` is `regexp.Compile`, whose failures are dropped. -/
def SrsAcc.add (compile : Str → Option R) (acc : SrsAcc R) (item : Item) : SrsAcc R :=
  match item.payload with
  | .set s => { acc with domains := acc.domains ++ [s] }
  | .strings ss =>
    if item.itemType = sItemDomainKeyword then { acc with keywords := acc.keywords ++ ss }
    else if item.itemType = sItemDomainRegex then
      { acc with regexes := acc.regexes ++ ss.filterMap compile }
    else acc
  | .ips s => if item.itemType = sItemIPCIDR then { acc with ips := acc.ips ++ [s] } else acc
  | _ => acc

/-- `parseSRS`: `unzip` gives the bytes that the zlib stream holds, or its error. -/
def parseSRS (unzip : Str → Except Error Str) (compile : Str → Option R)
    (S : Sorter (Segment Addr)) (data : Str) : Except Error (SrsAcc R) :=
  if data.length < 4 ∨ data.take 3 ≠ lit "SRS" then .error (.text (lit "srs: magic 非法"))
  else do
    let raw ← unzip (data.drop 4)
    let rules ← outcome (parseRules S) ⟨raw, .eof, fun _ => none, []⟩
    pure ((itemsOf rules).foldl (SrsAcc.add compile) {})

end

/-! ### The bytes of rules -/

/-- A count and as many bytes as `len` gives it. -/
def Counted (len : Nat → Nat) (n : Nat) (e : Str) : Prop :=
  ∃ v b, e = v ++ b ∧ Encodes v n ∧ b.length = len n

section
variable (len : Nat → Nat → Nat)

def PayloadBytes : Payload → Str → Prop
  | .set _, e => ∃ flag e₁ e₂ e₃ n₁ n₂ n₃, e = flag :: (e₁ ++ e₂ ++ e₃) ∧
      Counted (8 * ·) n₁ e₁ ∧ Counted (8 * ·) n₂ e₂ ∧ Counted id n₃ e₃
  | .strings ss, e => ∃ (v : Str) (parts : List Str), e = v ++ parts.flatten ∧ Encodes v ss.length ∧
      List.Forall₂ (fun s p => Counted id s.length p ∧ s <:+ p) ss parts
  | .ips s, e => ∃ (c : Str) (parts : List Str), e = 1 :: (c ++ parts.flatten) ∧ c.length = 8 ∧
      beNat c = s.rr.length ∧ parts.length = 2 * s.rr.length ∧
      ∀ p ∈ parts, Counted id 4 p ∨ Counted id 16 p
  | .skipped w n, e => Counted (len w) n e
  | .none, e => e = []

inductive ItemsBytes : List Item → Str → Prop
  | nil : ItemsBytes [] []
  | cons {item : Item} {items : List Item} {e e' : Str} (h : PayloadBytes len item.payload e)
      (hs : ItemsBytes items e') : ItemsBytes (item :: items) (item.itemType :: e ++ e')

mutual

inductive RuleBytes : SrsRule → Str → Prop
  | default {items : List Item} {e : Str} (invert : UInt8) (h : ItemsBytes len items e) :
      RuleBytes (.default items invert) (0 :: e ++ [sItemFinal, invert])
  | logical {rules : List SrsRule} {v e : Str} (mode invert : UInt8) (hv : Encodes v rules.length)
      (h : RulesBytes rules e) :
      RuleBytes (.logical mode rules invert) (1 :: mode :: v ++ e ++ [invert])

inductive RulesBytes : List SrsRule → Str → Prop
  | nil : RulesBytes [] []
  | cons {r : SrsRule} {rs : List SrsRule} {e e' : Str} (h : RuleBytes r e)
      (hs : RulesBytes rs e') : RulesBytes (r :: rs) (e ++ e')

end

def FileBytes (rules : List SrsRule) (e : Str) : Prop :=
  ∃ v e', e = v ++ e' ∧ Encodes v rules.length ∧ RulesBytes len rules e'

end

/-! ### What the parser takes -/

/-- The bytes that the parser takes for a skipped slice, behind its count. -/
def taken (w n : Nat) : Nat := (int (int n * w)).toNat

section
variable {len : Nat → Nat → Nat} {S : Sorter (Segment Addr)}

lemma consumes_lift {α : Type} {x : Except Error α} {L : α → Str → Prop}
    (h : ∀ a, x = .ok a → L a []) : Consumes (lift x) L :=
  fun _ a ha => ⟨[], h a ha, rfl⟩

lemma consumes_copyN (n : Int) : Consumes (copyN n) fun _ e => e.length = n.toNat := by
  refine .ite (fun hn => .pure ?_) fun hn => ?_
  · rw [length_nil, Int.toNat_of_nonpos hn]
  · refine (consumes_readFull _).mapErr.bind ?_
    rintro b e ⟨rfl, hlen⟩
    exact .pure (by rw [append_nil, hlen])

lemma consumes_skipSlice (w : Nat) : Consumes (skipSlice w) (PayloadBytes taken) := by
  refine consumes_readUvarint.bind fun n v hv => (consumes_copyN _).bind fun _ b hb => .pure ?_
  rw [append_nil]
  exact ⟨v, b, rfl, hv, hb⟩

lemma consumes_readUvarByteSlice :
    Consumes readUvarByteSlice fun s e => Counted id s.length e ∧ s <:+ e := by
  refine consumes_readUvarint.bind fun n v hv => .ite (fun _ => .throw) fun _ => ?_
  refine (consumes_readFull n).imp ?_
  rintro b e ⟨rfl, rfl⟩
  exact ⟨⟨v, e, rfl, hv, rfl⟩, suffix_append _ _⟩

lemma consumes_readUvarU64Slice :
    Consumes readUvarU64Slice fun _ e => ∃ n, Counted (8 * ·) n e := by
  refine consumes_readUvarint.bind fun n v hv => .ite (fun _ => .throw) fun _ => ?_
  refine (consumes_readFull _).bind ?_
  rintro b e ⟨rfl, hlen⟩
  exact .pure ⟨n, v, e, by rw [append_nil], hv, hlen⟩

lemma consumes_readSingSuccinct :
    Consumes readSingSuccinct fun s e => PayloadBytes len (.set s) e := by
  refine consumes_readByte.bind ?_
  rintro flag e₀ rfl
  refine consumes_readUvarU64Slice.bind fun leaves e₁ h₁ => ?_
  refine consumes_readUvarU64Slice.bind fun labelBitmap e₂ h₂ => ?_
  refine consumes_readUvarByteSlice.bind fun labels e₃ h₃ => consumes_lift fun s _ => ?_
  obtain ⟨n₁, h₁⟩ := h₁
  obtain ⟨n₂, h₂⟩ := h₂
  exact ⟨flag, e₁, e₂, e₃, n₁, n₂, labels.length, by simp, h₁, h₂, h₃.1⟩

lemma consumes_readItemStrings :
    Consumes readItemStrings fun ss e => PayloadBytes len (.strings ss) e := by
  refine consumes_readUvarint.bind fun n v hv => .ite (fun _ => .throw) fun _ => ?_
  refine (consumes_times consumes_readUvarByteSlice n).imp ?_
  rintro ss e ⟨rfl, parts, hparts, rfl⟩
  exact ⟨v, parts, rfl, hv, hparts⟩

lemma consumes_readSRSAddr : Consumes readSRSAddr fun _ e => Counted id 4 e ∨ Counted id 16 e := by
  refine consumes_readUvarint.bind fun n v hv => .ite (fun _ => .throw) fun hn => ?_
  refine (consumes_readFull n).bind ?_
  rintro b e ⟨rfl, hlen⟩
  refine .pure ?_
  rw [append_nil]
  have hn : n = 4 ∨ n = 16 := by omega
  rcases hn with rfl | rfl
  · exact .inl ⟨v, e, rfl, hv, hlen⟩
  · exact .inr ⟨v, e, rfl, hv, hlen⟩

lemma consumes_readSRSRanges : ∀ n, Consumes (readSRSRanges n) fun rr e =>
    rr.length = n ∧ ∃ parts : List Str, e = parts.flatten ∧ parts.length = 2 * n ∧
      ∀ p ∈ parts, Counted id 4 p ∨ Counted id 16 p
  | 0 => .pure ⟨rfl, [], rfl, rfl, by simp⟩
  | n + 1 => by
    refine consumes_readSRSAddr.bind fun first e₁ h₁ => ?_
    refine consumes_readSRSAddr.bind fun last e₂ h₂ => ?_
    refine (consumes_readSRSRanges n).bind ?_
    rintro rr e ⟨rfl, parts, rfl, hlen, hparts⟩
    refine .pure ⟨rfl, e₁ :: e₂ :: parts, by simp, by simp [hlen]; omega, ?_⟩
    intro p hp
    rcases mem_cons.mp hp with rfl | hp
    · exact h₁
    rcases mem_cons.mp hp with rfl | hp
    · exact h₂
    · exact hparts p hp

lemma consumes_readSRSIPSet : Consumes (readSRSIPSet S) fun s e => PayloadBytes len (.ips s) e := by
  refine consumes_readByte.bind ?_
  rintro ver e₀ rfl
  refine .ite (fun _ => .throw) fun hver => (consumes_readFull 8).bind ?_
  rintro c e₁ ⟨rfl, hc⟩
  refine .ite (fun _ => .throw) fun _ => (consumes_readSRSRanges _).bind ?_
  rintro rr e ⟨hrr, parts, rfl, hlen, hparts⟩
  obtain rfl := not_not.mp hver
  have hsort : (S.sort (fun r r' => r.first.compare r'.first < 0) rr).length = rr.length :=
    (S.perm _ rr).length_eq
  exact .pure ⟨e₁, parts, by simp, hc, by rw [hsort, hrr], by rw [hsort, hrr, hlen], hparts⟩

lemma consumes_readPayload (itemType : UInt8) :
    Consumes (readPayload S itemType) (PayloadBytes taken) := by
  have hstrings : Consumes (readItemStrings >>= fun ss => pure (Payload.strings ss))
      (PayloadBytes taken) :=
    consumes_readItemStrings.bind fun ss e h => .pure (by rwa [append_nil])
  refine .ite (fun _ => ?_) fun _ => .ite (fun _ => hstrings) fun _ => .ite (fun _ => ?_) fun _ =>
    .ite (fun _ => consumes_skipSlice 2) fun _ => .ite (fun _ => consumes_skipSlice 1) fun _ =>
    .ite (fun _ => hstrings) fun _ => .ite (fun _ => .pure rfl) fun _ => .throw
  · exact consumes_readSingSuccinct.bind fun s e h => .pure (by rwa [append_nil])
  · exact consumes_readSRSIPSet.bind fun s e h => .pure (by rwa [append_nil])

lemma consumes_readItems : ∀ rounds, Consumes (readItems S rounds) fun x e =>
    ∃ e', e = e' ++ [sItemFinal, x.2] ∧ ItemsBytes taken x.1 e'
  | 0 => .throw
  | rounds + 1 => by
    refine consumes_readByte.bind ?_
    rintro itemType e₀ rfl
    refine .ite (fun hfinal => consumes_readByte.bind ?_) fun _ => ?_
    · rintro invert e rfl
      exact .pure ⟨[], by rw [hfinal]; rfl, .nil⟩
    · refine (consumes_readPayload itemType).bind fun payload e₁ h₁ => ?_
      refine (consumes_readItems rounds).bind ?_
      rintro ⟨items, invert⟩ e ⟨e₂, rfl, h₂⟩
      refine .pure ⟨itemType :: e₁ ++ e₂, by simp, ?_⟩
      exact @ItemsBytes.cons taken ⟨itemType, payload⟩ items e₁ e₂ h₁ h₂

lemma consumes_readSRSDefault :
    Consumes (readSRSDefault S) fun r e => RuleBytes taken r (0 :: e) := by
  have hloop : Consumes
      (ExceptT.mk fun t => (readItems S (t.bytes.length + 1)).run.run t) fun x e =>
      ∃ e', e = e' ++ [sItemFinal, x.2] ∧ ItemsBytes taken x.1 e' :=
    fun t x hx => consumes_readItems (t.bytes.length + 1) t x hx
  refine hloop.bind ?_
  rintro ⟨items, invert⟩ e ⟨e', rfl, h⟩
  refine .pure ?_
  rw [append_nil]
  exact .default invert h

lemma rulesBytes_flatten {rules : List SrsRule} {parts : List Str}
    (h : List.Forall₂ (RuleBytes len) rules parts) : RulesBytes len rules parts.flatten := by
  induction h with
  | nil => exact .nil
  | cons h _ ih => exact .cons h ih

lemma consumes_readSRSLogical {readRule : FailState Error Tape SrsRule}
    (h : Consumes readRule (RuleBytes taken)) :
    Consumes (readSRSLogical readRule) fun r e => RuleBytes taken r (1 :: e) := by
  refine consumes_readByte.bind ?_
  rintro mode e₀ rfl
  refine consumes_readUvarint.bind fun n v hv => (consumes_times h n).bind ?_
  rintro rules e ⟨rfl, parts, hparts, rfl⟩
  refine consumes_readByte.bind ?_
  rintro invert e₁ rfl
  refine .pure ?_
  have hrule := RuleBytes.logical mode invert hv (rulesBytes_flatten hparts)
  simpa using hrule

/-- **What the parser takes for a rule.** -/
lemma consumes_readSRSRule : ∀ depth, Consumes (readSRSRule S depth) (RuleBytes taken)
  | 0 => .throw
  | depth + 1 => by
    refine consumes_readByte.bind ?_
    rintro ruleType e₀ rfl
    refine .ite (fun h => ?_) fun _ => .ite (fun h => ?_) fun _ => .throw
    · rw [h]
      exact consumes_readSRSDefault
    · rw [h]
      exact consumes_readSRSLogical (consumes_readSRSRule depth)

lemma consumes_readRules (i n : Nat) :
    Consumes (readRules S i n) fun rs e => rs.length = n ∧ RulesBytes taken rs e := by
  induction n generalizing i with
  | zero => exact .pure ⟨rfl, .nil⟩
  | succ n ih =>
    refine (consumes_readSRSRule 101).mapErr.bind fun r e h => (ih (i + 1)).bind ?_
    rintro rs e' ⟨rfl, hs⟩
    refine .pure ⟨rfl, ?_⟩
    rw [append_nil]
    exact .cons h hs

lemma consumes_parseRules : Consumes (parseRules S) (FileBytes taken) := by
  refine consumes_readUvarint.bind fun n v hv => (consumes_readRules 0 n).imp ?_
  rintro rs e ⟨rfl, h⟩
  exact ⟨v, e, rfl, hv, h⟩

/-- More rounds than bytes change nothing: the loop never runs out of them. -/
lemma readItems_enough {t : Tape} {rounds rounds' : Nat} (h : t.bytes.length < rounds)
    (h' : t.bytes.length < rounds') :
    (readItems S rounds).run.run t = (readItems S rounds').run.run t := by
  induction rounds generalizing t rounds' with
  | zero => omega
  | succ rounds ih =>
    obtain ⟨rounds', rfl⟩ := Nat.exists_eq_succ_of_ne_zero (show rounds' ≠ 0 by omega)
    rw [readItems, readItems, run_bind, run_bind]
    cases hbyte : outcome readByte t with
    | error e => rfl
    | ok itemType =>
      obtain ⟨e, rfl, ht⟩ := consumes_readByte t itemType hbyte
      have hlen := congrArg List.length ht
      rw [length_append, length_singleton] at hlen
      dsimp only
      split_ifs with hfinal
      · rfl
      · rw [run_bind, run_bind]
        cases hpay : outcome (readPayload S itemType) (after readByte t) with
        | error e => rfl
        | ok payload =>
          obtain ⟨e, -, ht'⟩ := consumes_readPayload itemType _ payload hpay
          have hlen' := congrArg List.length ht'
          rw [length_append] at hlen'
          have hrun := @ih (after (readPayload S itemType) (after readByte t)) rounds' (by omega)
            (by omega)
          have hout : outcome (readItems S rounds) _ = outcome (readItems S rounds') _ :=
            congrArg Prod.fst hrun
          have hafter : after (readItems S rounds) _ = after (readItems S rounds') _ :=
            congrArg Prod.snd hrun
          dsimp only
          rw [run_bind, run_bind, hout, hafter]

end

/-! ### Alignment -/

/-- The length of a skipped slice in bytes is an `int64`. -/
def Item.Fits (item : Item) : Prop :=
  match item.payload with
  | .skipped w n => w * n < 2 ^ 63
  | _ => True

section
variable {len len' : Nat → Nat → Nat}

lemma taken_eq {w n : Nat} (h : w * n < 2 ^ 63) : taken w n = w * n := by
  rcases Nat.eq_zero_or_pos w with rfl | hw
  · simp [taken, int]
  · have hn : n < 2 ^ 63 := (Nat.le_mul_of_pos_left n hw).trans_lt h
    have hint : int (n : Int) = n := int_eq (by omega) (by omega)
    have hprod : int ((n : Int) * w) = ((w * n : Nat) : Int) := by
      rw [show (n : Int) * w = ((w * n : Nat) : Int) by push_cast; ring]
      exact int_eq (by omega) (by omega)
    rw [taken, hint, hprod, Int.toNat_natCast]

variable {e : Str} {rules : List SrsRule}

lemma PayloadBytes.congr {p : Payload} (h : PayloadBytes len p e)
    (heq : ∀ w n, p = .skipped w n → len w n = len' w n) : PayloadBytes len' p e := by
  cases p with
  | skipped w n =>
    obtain ⟨v, b, he, hv, hb⟩ := h
    exact ⟨v, b, he, hv, hb.trans (heq w n rfl)⟩
  | set s => exact h
  | strings ss => exact h
  | ips s => exact h
  | none => exact h

def Agree (len len' : Nat → Nat → Nat) (item : Item) : Prop :=
  ∀ w n, item.payload = .skipped w n → len w n = len' w n

lemma ItemsBytes.congr {items : List Item} (h : ItemsBytes len items e)
    (heq : ∀ item ∈ items, Agree len len' item) : ItemsBytes len' items e := by
  induction h with
  | nil => exact .nil
  | cons h _ ih =>
    exact .cons (h.congr (heq _ mem_cons_self))
      (ih fun item hmem => heq item (mem_cons_of_mem _ hmem))

/-- The bytes of rules depend on the lengths of their skipped slices alone. -/
lemma RulesBytes.congr (h : RulesBytes len rules e) :
    (∀ item ∈ itemsOf rules, Agree len len' item) → RulesBytes len' rules e := by
  refine @RulesBytes.rec len
    (fun r e _ => (∀ item ∈ r.items, Agree len len' item) → RuleBytes len' r e)
    (fun rs e _ => (∀ item ∈ itemsOf rs, Agree len len' item) → RulesBytes len' rs e)
    ?_ ?_ ?_ ?_ rules e h
  · intro items e invert h heq
    rw [SrsRule.items] at heq
    exact .default invert (h.congr heq)
  · intro rules v e mode invert hv _ ih heq
    rw [SrsRule.items] at heq
    exact .logical mode invert hv (ih heq)
  · intro _
    exact .nil
  · intro r rs e e' _ _ ih ih' heq
    rw [itemsOf] at heq
    exact .cons (ih fun item hmem => heq item (mem_append_left _ hmem))
      (ih' fun item hmem => heq item (mem_append_right _ hmem))

lemma ItemsBytes.le_length {items : List Item} (h : ItemsBytes len items e) {item : Item}
    (hmem : item ∈ items) {w n : Nat} (hp : item.payload = .skipped w n) : len w n ≤ e.length := by
  induction h with
  | nil => cases hmem
  | @cons item' items e e' h _ ih =>
    rw [length_append, length_cons]
    rcases mem_cons.mp hmem with rfl | hmem
    · rw [hp] at h
      obtain ⟨v, b, rfl, -, hb⟩ := h
      rw [length_append, hb]
      omega
    · have := ih hmem
      omega

lemma RulesBytes.le_length (h : RulesBytes len rules e) :
    ∀ item ∈ itemsOf rules, ∀ w n, item.payload = .skipped w n → len w n ≤ e.length := by
  refine @RulesBytes.rec len
    (fun r e _ => ∀ item ∈ r.items, ∀ w n, item.payload = .skipped w n → len w n ≤ e.length)
    (fun rs e _ => ∀ item ∈ itemsOf rs, ∀ w n, item.payload = .skipped w n → len w n ≤ e.length)
    ?_ ?_ ?_ ?_ rules e h
  · intro items e invert h item hmem w n hp
    rw [SrsRule.items] at hmem
    have := h.le_length hmem hp
    simp only [length_append, length_cons]
    omega
  · intro rules v e mode invert hv _ ih item hmem w n hp
    rw [SrsRule.items] at hmem
    have := ih item hmem w n hp
    simp only [length_append, length_cons]
    omega
  · intro item hmem
    rw [itemsOf] at hmem
    cases hmem
  · intro r rs e e' _ _ ih ih' item hmem w n hp
    rw [itemsOf] at hmem
    rw [length_append]
    rcases mem_append.mp hmem with hmem | hmem
    · have := ih item hmem w n hp
      omega
    · have := ih' item hmem w n hp
      omega

lemma FileBytes.congr (h : FileBytes len rules e)
    (heq : ∀ item ∈ itemsOf rules, Agree len len' item) : FileBytes len' rules e := by
  obtain ⟨v, e', he, hv, hrules⟩ := h
  exact ⟨v, e', he, hv, hrules.congr heq⟩

lemma FileBytes.le_length (h : FileBytes len rules e) :
    ∀ item ∈ itemsOf rules, ∀ w n, item.payload = .skipped w n → len w n ≤ e.length := by
  obtain ⟨v, e', rfl, -, hrules⟩ := h
  intro item hmem w n hp
  have := hrules.le_length item hmem w n hp
  rw [length_append]
  omega

end

/-- The bytes that the parser took off the tape are laid out as the format says: the
elements of a skipped slice take their width each. -/
def Aligned (t t' : Tape) (rules : List SrsRule) : Prop :=
  ∃ e, t.bytes = e ++ t'.bytes ∧ FileBytes (fun w n => w * n) rules e

/-- **An accepted file is aligned** exactly when the bytes of each skipped slice are
no more than an `int64` counts. A slice of bytes has a length below `2 ^ 63`. -/
theorem aligned_iff (S : Sorter (Segment Addr)) (t : Tape) (hlen : t.bytes.length < 2 ^ 63)
    (rules : List SrsRule) (h : outcome (parseRules S) t = .ok rules) :
    Aligned t (after (parseRules S) t) rules ↔ ∀ item ∈ itemsOf rules, item.Fits := by
  constructor
  · rintro ⟨e, ht, he⟩ item hmem
    rw [Item.Fits]
    split
    · next w n hp =>
      have hle : w * n ≤ e.length := he.le_length item hmem w n hp
      rw [ht, length_append] at hlen
      omega
    · trivial
  · intro hfits
    obtain ⟨e, he, ht⟩ := consumes_parseRules t rules h
    refine ⟨e, ht, he.congr fun item hmem w n hp => taken_eq ?_⟩
    have hfit := hfits item hmem
    rwa [Item.Fits, hp] at hfit

/-- A rule with one port. -/
theorem aligned_port : Aligned (⟨[1, 0, 9, 1, 0, 80, 255, 0], .eof, fun _ => none, []⟩ : Tape)
    ⟨[], .eof, fun _ => none, []⟩ [.default [⟨9, .skipped 2 1⟩] 0] :=
  (aligned_iff (insertionSorter _) ⟨[1, 0, 9, 1, 0, 80, 255, 0], .eof, fun _ => none, []⟩
    (by decide) [.default [⟨9, .skipped 2 1⟩] 0] rfl).mpr (by
      intro item hmem
      rw [itemsOf, SrsRule.items, itemsOf, append_nil, mem_singleton] at hmem
      rw [hmem]
      exact (by norm_num : 2 * 1 < 2 ^ 63))

/-- A rule with `2 ^ 62` ports, and what follows their count. -/
def manyPorts : Tape :=
  ⟨[1, 0, 9, 128, 128, 128, 128, 128, 128, 128, 128, 64, 3, 1, 1, 120, 255, 0], .eof,
    fun _ => none, []⟩

/-- Nothing is skipped, and what follows the count is read as items. -/
theorem aligned_fails : ∃ rules, outcome (parseRules (insertionSorter _)) manyPorts = .ok rules ∧
    itemsOf rules = [⟨9, .skipped 2 (2 ^ 62)⟩, ⟨3, .strings [[120]]⟩] ∧
    ¬ Aligned manyPorts (after (parseRules (insertionSorter _)) manyPorts) rules := by
  refine ⟨[.default [⟨9, .skipped 2 (2 ^ 62)⟩, ⟨3, .strings [[120]]⟩] 0], rfl, rfl, ?_⟩
  rintro ⟨e, ht, he⟩
  have hle : 2 * 2 ^ 62 ≤ e.length :=
    he.le_length ⟨9, .skipped 2 (2 ^ 62)⟩ mem_cons_self 2 (2 ^ 62) rfl
  have hlen := congrArg List.length ht
  rw [length_append, show manyPorts.bytes.length = 18 from rfl] at hlen
  omega

end Ntr.Ruleset
