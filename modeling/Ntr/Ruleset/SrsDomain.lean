/-
The domains of a binary `.srs` rule set (`ParseSRSDomain` in `ruleset/srs.go`).

* `unionMatch_iff`: the union matches what an item of any rule matches;
* `keepsSense_iff`: that is the sense of the rules exactly when every expression compiles, and
  the inverted rules do not tell the domains that no other rule matches apart.
-/
import Ntr.Ruleset.SrsParse

namespace Ntr.Ruleset

open Go Lib.FailState Lib.Segments List

/-! ### The union -/

/-- Regular expressions, and the order of the runes of a domain turned round. -/
structure TextMatch (R : Type) where
  /-- `regexp.Compile`. -/
  compile : Str → Option R
  /-- `Regexp.MatchString`. -/
  matchString : R → Str → Bool
  reverseDomain : Str → Str

/-- `rule.DomainSet`, as far as it is built here. -/
inductive DomainSet (R : Type) where
  | sing (s : SuccinctBits)
  | keywords (ks : List Str)
  | regexes (rs : List R)

section
variable {R : Type} (T : TextMatch R)

/-- The union of `ParseSRSDomain`. -/
def SrsAcc.union (acc : SrsAcc R) : List (DomainSet R) :=
  acc.domains.map .sing ++ (if acc.keywords.length > 0 then [.keywords acc.keywords] else []) ++
    if acc.regexes.length > 0 then [.regexes acc.regexes] else []

def parseSRSDomain (unzip : Str → Except Error Str) (S : Sorter (Segment Addr)) (data : Str) :
    Except Error (List (DomainSet R)) := do
  let acc ← parseSRS unzip T.compile S data
  if acc.union.length = 0 then .error (.text (lit "srs: 无域名维度规则")) else pure acc.union

def DomainSet.matchDomain : DomainSet R → Str → Except Fault Bool
  | .sing s, h => s.has (T.reverseDomain h)
  | .keywords ks, h => .ok (ks.any (contains h))
  | .regexes rs, h => .ok (rs.any (T.matchString · h))

/-- `domainUnion.MatchDomain`. -/
def unionMatch : List (DomainSet R) → Str → Except Fault Bool
  | [], _ => .ok false
  | d :: u, h => do
    if ← d.matchDomain T h then return true
    unionMatch u h

/-! ### The sense of rules -/

/-- The item matches the domain. An expression that does not compile matches nothing. -/
def Item.Matches (item : Item) (h : Str) : Prop :=
  match item.payload with
  | .set s => s.has (T.reverseDomain h) = .ok true
  | .strings ss =>
    item.itemType = sItemDomainKeyword ∧ (∃ kw ∈ ss, contains h kw = true) ∨
      item.itemType = sItemDomainRegex ∧
        ∃ e ∈ ss, ∃ re, T.compile e = some re ∧ T.matchString re h = true
  | _ => False

structure FlatRule where
  items : List Item
  invert : UInt8
  domain : ∀ item ∈ items,
    item.itemType ∈ [sItemDomain, sItemDomainKeyword, sItemDomainRegex]

def FlatRule.rule (r : FlatRule) : SrsRule := .default r.items r.invert

def FlatRule.Hits (r : FlatRule) (h : Str) : Prop := ∃ item ∈ r.items, item.Matches T h

/-- **The sense of a rule**: its items match, or they do not and it is inverted. -/
def FlatRule.Sense (r : FlatRule) (h : Str) : Prop := r.Hits T h ↔ r.invert = 0

def Compiles (rules : List FlatRule) : Prop :=
  ∀ r ∈ rules, ∀ item ∈ r.items, item.itemType = sItemDomainRegex →
    ∀ ss, item.payload = .strings ss → ∀ e ∈ ss, (T.compile e).isSome = true

/-- The succinct sets of the union answer for the domain: no walk panics. -/
def Answers (u : List (DomainSet R)) (h : Str) : Prop := ∀ d ∈ u, ∃ b, d.matchDomain T h = .ok b

/-- **The union keeps the sense of the rules**: it matches a domain exactly when a rule does, and
no rule has a part that is not in the union. -/
def KeepsSense (rules : List FlatRule) (u : List (DomainSet R)) : Prop :=
  (∀ h, Answers T u h → (unionMatch T u h = .ok true ↔ ∃ r ∈ rules, r.Sense T h)) ∧ Compiles T rules

/-- Where no other rule matches, some inverted rule matches exactly when some inverted rule does
not. -/
def Blurs (rules : List FlatRule) (h : Str) : Prop :=
  (∀ r ∈ rules, r.invert = 0 → ¬ r.Hits T h) →
    ((∃ r ∈ rules, r.invert ≠ 0 ∧ r.Hits T h) ↔ ∃ r ∈ rules, r.invert ≠ 0 ∧ ¬ r.Hits T h)

/-! ### What the union matches -/

variable {T} {u : List (DomainSet R)} {h : Str}

lemma unionMatch_eq_true (ha : Answers T u h) :
    unionMatch T u h = .ok true ↔ ∃ d ∈ u, d.matchDomain T h = .ok true := by
  induction u with
  | nil => simp [unionMatch]
  | cons d u ih =>
    obtain ⟨b, hb⟩ := ha d mem_cons_self
    have hrest := ih fun d hd => ha d (mem_cons_of_mem _ hd)
    rw [unionMatch, hb, exists_mem_cons_iff, hb, ← hrest]
    cases b with
    | true => exact iff_of_true rfl (.inl rfl)
    | false => exact (or_iff_right fun hf => (by cases hf)).symm

def SrsAcc.Hits (T : TextMatch R) (acc : SrsAcc R) (h : Str) : Prop :=
  (∃ s ∈ acc.domains, s.has (T.reverseDomain h) = .ok true) ∨
    (∃ kw ∈ acc.keywords, contains h kw = true) ∨ ∃ re ∈ acc.regexes, T.matchString re h = true

/-- **Step lemma**: an item adds what it matches. -/
lemma hits_add (acc : SrsAcc R) (item : Item) :
    (acc.add T.compile item).Hits T h ↔ acc.Hits T h ∨ item.Matches T h := by
  obtain ⟨type, payload⟩ := item
  rw [SrsAcc.add, Item.Matches]
  cases payload with
  | set s =>
    simp only [SrsAcc.Hits, mem_append, mem_singleton, or_and_right, exists_or, exists_eq_left]
    exact or_right_comm
  | strings ss =>
    dsimp only
    split_ifs with hkw hre
    · have hre : type ≠ sItemDomainRegex := by rw [hkw]; decide
      simp only [SrsAcc.Hits, mem_append, or_and_right, exists_or, hkw, hkw ▸ hre, true_and,
        false_and, or_false]
      exact (or_congr_right or_right_comm).trans or_assoc.symm
    · have hswap : (∃ re, (∃ e ∈ ss, T.compile e = some re) ∧ T.matchString re h = true) ↔
          ∃ e ∈ ss, ∃ re, T.compile e = some re ∧ T.matchString re h = true := by tauto
      simp only [SrsAcc.Hits, mem_append, mem_filterMap, or_and_right, exists_or, hre,
        hre ▸ hkw, true_and, false_and, false_or, or_assoc, hswap]
    · simp [hkw, hre]
  | ips s =>
    dsimp only
    split_ifs <;> simp [SrsAcc.Hits]
  | skipped w n => simp
  | none => simp

lemma hits_foldl (items : List Item) (acc : SrsAcc R) :
    (items.foldl (SrsAcc.add T.compile) acc).Hits T h ↔
      acc.Hits T h ∨ ∃ item ∈ items, item.Matches T h := by
  induction items generalizing acc with
  | nil => simp
  | cons item items ih => rw [foldl_cons, ih, hits_add, exists_mem_cons_iff, or_assoc]

lemma exists_mem_itemsOf {rules : List FlatRule} {P : Item → Prop} :
    (∃ item ∈ itemsOf (rules.map FlatRule.rule), P item) ↔
      ∃ r ∈ rules, ∃ item ∈ r.items, P item := by
  induction rules with
  | nil => simp [itemsOf]
  | cons r rules ih =>
    rw [map_cons, itemsOf, exists_mem_cons_iff, ← ih, FlatRule.rule, SrsRule.items]
    simp only [mem_append, or_and_right, exists_or]

lemma exists_mem_union (acc : SrsAcc R) :
    (∃ d ∈ acc.union, d.matchDomain T h = .ok true) ↔ acc.Hits T h := by
  have hkw : (∃ d ∈ if acc.keywords.length > 0 then [DomainSet.keywords acc.keywords] else [],
      d.matchDomain T h = .ok true) ↔ ∃ kw ∈ acc.keywords, contains h kw = true := by
    cases acc.keywords <;> simp [DomainSet.matchDomain]
  have hre : (∃ d ∈ if acc.regexes.length > 0 then [DomainSet.regexes acc.regexes] else [],
      d.matchDomain T h = .ok true) ↔ ∃ re ∈ acc.regexes, T.matchString re h = true := by
    cases acc.regexes <;> simp [DomainSet.matchDomain]
  rw [SrsAcc.union, SrsAcc.Hits, ← hkw, ← hre]
  simp only [mem_append, or_and_right, exists_or, or_assoc]
  simp [DomainSet.matchDomain]

end

section
variable {R : Type} {T : TextMatch R} {unzip : Str → Except Error Str} {S : Sorter (Segment Addr)}
  {data raw : Str} {rules : List FlatRule} {u : List (DomainSet R)}

/-- **The union matches what an item of any rule matches**, whatever their flags. -/
lemma unionMatch_iff (hraw : unzip (data.drop 4) = .ok raw)
    (hrules : outcome (parseRules S) (⟨raw, .eof, fun _ => none, []⟩ : Tape) =
      .ok (rules.map FlatRule.rule))
    (hset : parseSRSDomain T unzip S data = .ok u) {h : Str} (ha : Answers T u h) :
    unionMatch T u h = .ok true ↔ ∃ r ∈ rules, r.Hits T h := by
  have hhits := @hits_foldl R T h (itemsOf (rules.map FlatRule.rule)) {}
  rw [parseSRSDomain, parseSRS] at hset
  split_ifs at hset with hmagic
  · cases hset
  · rw [hraw] at hset
    change (outcome (parseRules S) _ >>= _) >>= _ = _ at hset
    rw [hrules] at hset
    change (if _ then _ else _) = _ at hset
    split at hset
    · cases hset
    · rw [← Except.ok.inj hset] at ha ⊢
      rw [unionMatch_eq_true ha, exists_mem_union, hhits]
      rw [exists_mem_itemsOf, or_iff_right (by simp [SrsAcc.Hits])]
      exact Iff.rfl

/-- **When the union keeps the sense of flat rules.** -/
theorem keepsSense_iff (hraw : unzip (data.drop 4) = .ok raw)
    (hrules : outcome (parseRules S) (⟨raw, .eof, fun _ => none, []⟩ : Tape) =
      .ok (rules.map FlatRule.rule))
    (hset : parseSRSDomain T unzip S data = .ok u) :
    KeepsSense T rules u ↔ (∀ h, Answers T u h → Blurs T rules h) ∧ Compiles T rules := by
  refine and_congr_left fun _ => forall₂_congr fun h ha => ?_
  rw [unionMatch_iff hraw hrules hset ha]
  have hsplit : (∃ r ∈ rules, r.Hits T h) ↔
      (∃ r ∈ rules, r.invert = 0 ∧ r.Hits T h) ∨ ∃ r ∈ rules, r.invert ≠ 0 ∧ r.Hits T h := by
    rw [← exists_or]
    refine exists_congr fun r => ?_
    by_cases hinv : r.invert = 0 <;> simp [hinv]
  have hsense : (∃ r ∈ rules, r.Sense T h) ↔
      (∃ r ∈ rules, r.invert = 0 ∧ r.Hits T h) ∨ ∃ r ∈ rules, r.invert ≠ 0 ∧ ¬ r.Hits T h := by
    rw [← exists_or]
    refine exists_congr fun r => ?_
    by_cases hinv : r.invert = 0 <;> simp [FlatRule.Sense, hinv]
  have hplain : (∀ r ∈ rules, r.invert = 0 → ¬ r.Hits T h) ↔
      ¬ ∃ r ∈ rules, r.invert = 0 ∧ r.Hits T h := by
    push Not
    exact Iff.rfl
  rw [hsplit, hsense, Blurs, hplain]
  by_cases hA : ∃ r ∈ rules, r.invert = 0 ∧ r.Hits T h
  · exact iff_of_true (iff_of_true (.inl hA) (.inl hA)) fun h => absurd hA h
  · rw [or_iff_right hA, or_iff_right hA]
    exact (imp_iff_right hA).symm

end

def plainText : TextMatch Unit := ⟨fun _ => none, fun _ _ => false, fun s => s.reverse⟩

/-- A file with one rule, the keyword `x`, inverted or not. -/
def keywordFile (invert : UInt8) : Str := lit "SRS" ++ [1, 1, 0, 3, 1, 1, 120, 255, invert]

def keywordRule (invert : UInt8) : FlatRule := ⟨[⟨3, .strings [[120]]⟩], invert, by decide⟩

lemma hits_keywordRule (invert : UInt8) (h : Str) :
    (keywordRule invert).Hits plainText h ↔ contains h [120] = true := by
  simp [FlatRule.Hits, keywordRule, Item.Matches, sItemDomainKeyword, sItemDomainRegex]

lemma compiles_keywordRule (invert : UInt8) : Compiles plainText [keywordRule invert] := by
  simp [Compiles, keywordRule, sItemDomainRegex]

theorem keepsSense_plain : KeepsSense plainText [keywordRule 0] [.keywords [[120]]] := by
  refine (keepsSense_iff (show (.ok : Str → Except Error Str) _ = .ok _ from rfl) ?_
    (show parseSRSDomain plainText .ok (insertionSorter _) (keywordFile 0) = .ok _ from rfl)).mpr
    ⟨fun h _ _ => ?_, compiles_keywordRule 0⟩
  · rfl
  · exact iff_of_false (by simp [keywordRule]) (by simp [keywordRule])

/-- **An inverted rule** is matched as if it were not. -/
theorem inverted_matched :
    parseSRSDomain plainText .ok (insertionSorter _) (keywordFile 1) = .ok [.keywords [[120]]] ∧
      unionMatch plainText [.keywords [[120]]] (lit "x") = .ok true ∧
      ¬ (keywordRule 1).Sense plainText (lit "x") ∧
      ¬ KeepsSense plainText [keywordRule 1] [.keywords [[120]]] := by
  have hmatch : unionMatch plainText [.keywords [[120]]] (lit "x") = .ok true := by decide +kernel
  have hsense : ¬ (keywordRule 1).Sense plainText (lit "x") := by
    rw [FlatRule.Sense, hits_keywordRule]
    decide +kernel
  refine ⟨rfl, hmatch, hsense, fun h => ?_⟩
  have hanswers : Answers plainText [.keywords [[120]]] (lit "x") := by
    simp [Answers, DomainSet.matchDomain]
  obtain ⟨r, hr, hx⟩ := (h.1 (lit "x") hanswers).mp hmatch
  exact hsense (mem_singleton.mp hr ▸ hx)

end Ntr.Ruleset
