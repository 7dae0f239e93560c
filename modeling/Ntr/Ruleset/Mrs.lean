/-
The domain matcher of a binary `.mrs` rule set.

* `SuccinctBits.step`, `matchDomain`: `mihomoDomainSet.MatchDomain`, a walk along
  the tree with a stack of wildcards to come back to;
* `explore` (**the walk from a node**): it finds a pattern, or comes to a dead end
  with the stack as it was, or stops where the domain ends inside a pattern.
-/
import Ntr.Lib.Machine
import Ntr.Ruleset.Layout
import Ntr.Ruleset.Pattern

namespace Ntr.Ruleset

open Go Louds Lib List SuccinctBits

/-! ### The matcher -/

/-- `wildcardCursor`. -/
structure Cursor where
  bmIdx : Int
  index : Nat

structure Search where
  i : Nat
  nodeId : Int
  bmIdx : Int
  stack : List Cursor

/-- `revLowerAt(key, i)` for every `i`. -/
def revLower (key : Str) : Str := key.reverse.map lowerByte

/-- The key that `MatchDomain` walks along: with a byte above ASCII the runes are
turned around instead of the bytes. `reverseRunes` is Go's conversion to runes and
back around their reversal. -/
def normKey (reverseRunes : Str → Str) (key : Str) : Str :=
  if key.any (0x80 ≤ ·) then ((reverseRunes key).map lowerByte).reverse else key

/-- The first dot of the key from `j` on, or its end. -/
def dotFrom (k : Str) (j : Nat) : Nat := j + ((k.drop j).takeWhile (· ≠ domainStepByte)).length

namespace SuccinctBits

/-- The search for a dot among the labels from a place on. -/
def findDot (s : SuccinctBits) (nextNodeId : Int) : Nat → Int → Except Fault (Option Int)
  | 0, _ => .error .spin
  | rounds + 1, nextBmIdx =>
    if nextBmIdx - nextNodeId < s.labels.length then do
      let l ← nth s.labels (nextBmIdx - nextNodeId)
      if l = domainStepByte then .ok (some nextBmIdx)
      else findDot s nextNodeId rounds (nextBmIdx + 1)
    else .ok none

/-- Behind the last label of a node: back to the wildcard seen last, which takes
the rest of its label. -/
def resume (s : SuccinctBits) (k : Str) (w : Search) : Except Fault (Search ⊕ Bool) :=
  match w.stack with
  | [] => .ok (.inr false)
  | cursor :: stack => do
    let (nextNodeId, nextBmIdx) ← s.child cursor.bmIdx
    let j := dotFrom k cursor.index
    if j = k.length then do
      let leaf ← getBit s.leaves nextNodeId
      if leaf then .ok (.inr true) else .ok (.inl { w with stack })
    else do
      let found ← s.findDot nextNodeId (s.labels.length + 1) nextBmIdx
      match found with
      | some bmIdx => .ok (.inl { i := j, nodeId := nextNodeId, bmIdx, stack })
      | none => .ok (.inr false)

/-- The label of the current character: to the child, or to the end. -/
def descend (s : SuccinctBits) (k : Str) (w : Search) : Except Fault (Search ⊕ Bool) := do
  let (nodeId, bmIdx) ← s.child w.bmIdx
  if w.i + 1 < k.length then .ok (.inl { i := w.i + 1, nodeId, bmIdx, stack := w.stack })
  else do
    let leaf ← getBit s.leaves nodeId
    .ok (.inr leaf)

/-- One round of the loop over the labels of a node. -/
def step (s : SuccinctBits) (k : Str) (w : Search) : Except Fault (Search ⊕ Bool) := do
  let c ← nth k w.i
  let last ← getBit s.labelBitmap w.bmIdx
  if last then s.resume k w
  else do
    let label ← nth s.labels (w.bmIdx - w.nodeId)
    if label = complexWildcardByte then .ok (.inr true)
    else if label = wildcardByte then
      .ok (.inl { w with bmIdx := w.bmIdx + 1, stack := ⟨w.bmIdx, w.i⟩ :: w.stack })
    else if label = c then s.descend k w
    else .ok (.inl { w with bmIdx := w.bmIdx + 1 })

/-- `mihomoDomainSet.MatchDomain`, with at most `n` rounds. -/
def matchDomain (reverseRunes : Str → Str) (n : Nat) (m : Option SuccinctBits) (key : Str) :
    Except Fault Bool :=
  match m with
  | none => .ok false
  | some s =>
    let k := revLower (normKey reverseRunes key)
    if k = [] then getBit s.leaves 0 else Machine.run (s.step k) .spin n ⟨0, 0, 0, []⟩

end SuccinctBits

/-! ### The reader -/

section
open FailState

/-- A number as `%d` writes it. -/
def decimal (n : Int) : Str := if n < 0 then lit "-" ++ itoa n.natAbs else itoa n.toNat

variable {σ : Type} [Channel σ]

/-- `binary.Read` into an `int64`. -/
def readInt64 : FailState Error σ Int := do
  let b ← readFull 8
  pure (int (beNat b))

def readU64Slice : FailState Error σ (List UInt64) := do
  let n ← readInt64
  if n < 1 ∨ 2 ^ 28 < n then throw (.text (lit "mrs: []u64 长度非法 " ++ decimal n))
  else do
    let b ← readFull (8 * n.toNat)
    pure (decodeWords n.toNat b)

def readDomainSetBin : FailState Error σ SuccinctBits := do
  let ver ← readByte
  if ver ≠ 1 then
    throw (.text (lit "mrs: DomainSet 版本 " ++ itoa ver.toNat ++ lit "≠1"))
  else do
    let leaves ← readU64Slice
    let labelBitmap ← readU64Slice
    let n ← readInt64
    if n < 1 ∨ 2 ^ 34 < n then throw (.text (lit "mrs: labels 长度非法 " ++ decimal n))
    else do
      let labels ← readFull n.toNat
      pure (newSuccinctBits leaves labelBitmap labels)

def writeMrs (keys : List Str) : Str :=
  1 :: (putBE 8 (pack (leavesOf keys)).length ++ wordBytes (pack (leavesOf keys)) ++
    (putBE 8 (pack (bitsOf keys)).length ++ wordBytes (pack (bitsOf keys))) ++
    (putBE 8 (labelsOf keys).length ++ labelsOf keys))

variable {rest : Str} {t : Tape}

lemma succeeds_readInt64 {n : Nat} {P : Int → Tape → Prop}
    (hn : n < 2 ^ 63) (ht : t.bytes = putBE 8 n ++ rest) (hP : P n { t with bytes := rest }) :
    Succeeds readInt64 t P := by
  have hint : int (beNat (putBE 8 n)) = n := by
    rw [beNat_putBE, Nat.mod_eq_of_lt (by omega)]
    exact int_eq (by omega) (by omega)
  rw [readInt64, succeeds_bind, succeeds_readFull]
  refine ⟨putBE 8 n, rest, ht, length_putBE 8 n, ?_⟩
  rw [succeeds_pure, hint]
  exact hP

lemma succeeds_readU64Slice {ws : List UInt64}
    {P : List UInt64 → Tape → Prop} (hpos : 1 ≤ ws.length) (hmax : ws.length ≤ 2 ^ 28)
    (ht : t.bytes = putBE 8 ws.length ++ wordBytes ws ++ rest)
    (hP : P ws { t with bytes := rest }) : Succeeds readU64Slice t P := by
  rw [append_assoc] at ht
  rw [readU64Slice, succeeds_bind]
  refine succeeds_readInt64 (by omega) ht ?_
  rw [if_neg (by omega), succeeds_bind, succeeds_readFull]
  refine ⟨wordBytes ws, rest, rfl, by rw [length_wordBytes, Int.toNat_natCast], ?_⟩
  rw [succeeds_pure, Int.toNat_natCast, decodeWords_wordBytes]
  exact hP

/-- **A written set is read back**, and nothing behind it is taken. -/
lemma succeeds_readDomainSetBin {keys : List Str}
    {P : SuccinctBits → Tape → Prop} (hfew : (trie keys).length < 2 ^ 31)
    (hkeys : 1 ≤ (labelsOf keys).length) (ht : t.bytes = writeMrs keys ++ rest)
    (hP : P (newSuccinctBits (pack (leavesOf keys)) (pack (bitsOf keys)) (labelsOf keys))
      { t with bytes := rest }) : Succeeds readDomainSetBin t P := by
  have htrie := length_trie keys
  have hbits := length_bitsOf keys
  have hleaves : (pack (leavesOf keys)).length = ((trie keys).length + 63) / 64 := by
    rw [length_pack, leavesOf, length_map]
  have hbitmap := length_pack (bitsOf keys)
  rw [writeMrs, cons_append, append_assoc, append_assoc] at ht
  rw [readDomainSetBin, succeeds_bind, succeeds_readByte]
  refine ⟨1, _, ht, ?_⟩
  rw [if_neg (by decide), succeeds_bind]
  refine succeeds_readU64Slice (by omega) (by omega) rfl ?_
  rw [succeeds_bind]
  refine succeeds_readU64Slice (by omega) (by omega) rfl ?_
  rw [succeeds_bind]
  refine succeeds_readInt64 (by omega) (append_assoc _ _ _) ?_
  rw [if_neg (by omega), succeeds_bind, succeeds_readFull]
  refine ⟨labelsOf keys, rest, rfl, by rw [Int.toNat_natCast], ?_⟩
  rw [succeeds_pure]
  exact hP

end

/-! ### Single rounds -/

section
variable {keys : List Str} {s : SuccinctBits} {v j i : Nat} {p k : Str} {l c : UInt8}
  {stack : List Cursor}

/-- The search at the label with number `j` of the node with number `v`. -/
def atLabel (keys : List Str) (i v j : Nat) (stack : List Cursor) : Search :=
  ⟨i, v, (place keys v + j : Nat), stack⟩

lemma step_label (stack : List Cursor) (h : Layout keys s) (hv : (trie keys)[v]? = some p)
    (hl : (labels keys p)[j]? = some l) (hi : k[i]? = some c) :
    s.step k (atLabel keys i v j stack) =
      if l = complexWildcardByte then .ok (.inr true)
      else if l = wildcardByte then
        .ok (.inl (atLabel keys i v (j + 1) (⟨(place keys v + j : Nat), i⟩ :: stack)))
      else if l = c then s.descend k (atLabel keys i v j stack)
      else .ok (.inl (atLabel keys i v (j + 1) stack)) := by
  obtain ⟨hbit, htext⟩ := h.label hv hl
  simp only [atLabel, step, nth_natCast hi, ok_bind, hbit, htext, Bool.false_eq_true, if_false]
  rfl

lemma step_dead {w : Search} (hi : k[w.i]? = some c)
    (hlast : getBit s.labelBitmap w.bmIdx = .ok true) : s.step k w = s.resume k w := by
  rw [step, nth_natCast hi, ok_bind, hlast, ok_bind, if_pos rfl]

lemma descend_label (stack : List Cursor) (h : Layout keys s) (hv : (trie keys)[v]? = some p)
    (hl : (labels keys p)[j]? = some l) : ∃ v', (trie keys)[v']? = some (p ++ [l]) ∧
      s.descend k (atLabel keys i v j stack) =
        if i + 1 < k.length then .ok (.inl (atLabel keys (i + 1) v' 0 stack))
        else .ok (.inr (p ++ [l] ∈ keys)) := by
  obtain ⟨v', hv', -, hchild⟩ := h.child hv hl
  refine ⟨v', hv', ?_⟩
  rw [descend, atLabel, hchild, ok_bind]
  split_ifs with hlt
  · rfl
  · change (getBit s.leaves v' >>= _) = _
    rw [h.leaf hv', ok_bind]

lemma drop_dotFrom (k : Str) (i : Nat) :
    k.drop (dotFrom k i) = (k.drop i).dropWhile (· ≠ domainStepByte) := by
  have hsplit := takeWhile_append_dropWhile (p := (· ≠ domainStepByte)) (l := k.drop i)
  rw [dotFrom, ← drop_drop]
  exact (congrArg (List.drop _) hsplit).symm.trans drop_left

lemma le_dotFrom (k : Str) (i : Nat) : i ≤ dotFrom k i := Nat.le_add_right _ _

lemma dotFrom_le (k : Str) (hi : i ≤ k.length) : dotFrom k i ≤ k.length := by
  have hle := (takeWhile_sublist (l := k.drop i) (· ≠ domainStepByte)).length_le
  rw [length_drop] at hle
  rw [dotFrom]
  omega

lemma getElem?_dotFrom (h : dotFrom k i < k.length) : k[dotFrom k i]? = some domainStepByte := by
  obtain ⟨b, hb⟩ : ∃ b, k[dotFrom k i]? = some b := ⟨_, getElem?_eq_getElem h⟩
  have hhead := head?_dropWhile_not (· ≠ domainStepByte) (k.drop i)
  rw [← drop_dotFrom, head?_drop, hb] at hhead
  rw [hb]
  simpa using hhead

lemma findDot_first (h : Layout keys s) (hv : (trie keys)[v]? = some p)
    (hl : (labels keys p)[0]? = some domainStepByte) (rounds : Nat) :
    s.findDot v (rounds + 1) (place keys v) = .ok (some (place keys v : Nat)) := by
  have htext := (h.label hv hl).2
  rw [Nat.add_zero] at htext
  have hin : (place keys v : Int) - v < s.labels.length := by
    by_contra hout
    have hnone : s.labels[((place keys v : Int) - v).toNat]? = none :=
      getElem?_eq_none (by omega)
    rw [nth, hnone] at htext
    cases htext
  rw [findDot, if_pos hin, htext, ok_bind, if_pos rfl]

lemma resume_end (h : Layout keys s) (hv : (trie keys)[v]? = some p)
    (hl : (labels keys p)[j]? = some wildcardByte) (w : Search)
    (hw : w.stack = ⟨(place keys v + j : Nat), i⟩ :: stack) (hdot : dotFrom k i = k.length) :
    s.resume k w =
      if p ++ [wildcardByte] ∈ keys then .ok (.inr true) else .ok (.inl { w with stack }) := by
  obtain ⟨v', hv', -, hchild⟩ := h.child hv hl
  rw [resume, hw]
  change (s.child _ >>= _) = _
  rw [hchild, ok_bind]
  change (if dotFrom k i = k.length then _ else _) = _
  rw [if_pos hdot, h.leaf hv', ok_bind]
  split_ifs <;> simp_all

/-- A wildcard in front of a dot, where a pattern goes on with a dot. -/
lemma resume_dot (h : Layout keys s) (hv : (trie keys)[v]? = some p)
    (hl : (labels keys p)[j]? = some wildcardByte) (w : Search)
    (hw : w.stack = ⟨(place keys v + j : Nat), i⟩ :: stack) (hdot : dotFrom k i ≠ k.length)
    (hnext : (labels keys (p ++ [wildcardByte]))[0]? = some domainStepByte) :
    ∃ v', (trie keys)[v']? = some (p ++ [wildcardByte]) ∧
      s.resume k w = .ok (.inl (atLabel keys (dotFrom k i) v' 0 stack)) := by
  obtain ⟨v', hv', -, hchild⟩ := h.child hv hl
  refine ⟨v', hv', ?_⟩
  rw [resume, hw]
  change (s.child _ >>= _) = _
  rw [hchild, ok_bind]
  change (if dotFrom k i = k.length then _ else (s.findDot v' _ (place keys v') >>= _)) = _
  rw [if_neg hdot, findDot_first h hv' hnext, ok_bind]
  rfl

end

/-! ### The walk from a node -/

section
open Machine

variable (keys : List Str) (k : Str)

/-- A key goes through the node and on with one of the labels, and what it has
from there on fits the rest of the domain. -/
def LiveIn (p ls r : Str) : Prop := ∃ l ∈ ls, ∃ t, p ++ l :: t ∈ keys ∧ Fits (l :: t) r

/-- The domain ends inside a pattern: a part of a key, and no key itself, fits
all of it. -/
def Cut : Prop := ∃ q ∈ keys, ∃ p ∈ q.inits, p ∉ keys ∧ Fits p k

/-- The domain goes on behind a wildcard that ends its pattern, and no other
pattern goes on there. -/
def Overrun : Prop :=
  ∃ q ∈ keys, q.getLast? = some wildcardByte ∧ (∀ q' ∈ keys, ¬ q ++ [domainStepByte] <+: q') ∧
    Fits (q ++ [domainStepByte, complexWildcardByte]) k

/-- The node has taken the key up to `r`. -/
def Follows (p r : Str) : Prop := ∀ t, Fits (p ++ t) k ↔ Fits t r

inductive Outcome (s : SuccinctBits) (w : Search) (live : Prop) : Prop
  /-- A pattern is found. -/
  | found (h : Ends (s.step k) w true) (hlive : live)
  /-- A dead end, with the stack as it was. -/
  | dead (w' : Search) (h : Leads (s.step k) w w') (hi : w'.i < k.length)
      (hlast : getBit s.labelBitmap w'.bmIdx = .ok true) (hstack : w'.stack = w.stack)
      (hlive : ¬ live)
  /-- The domain ends inside a pattern. -/
  | cut (h : Ends (s.step k) w false) (hcut : Cut keys k)

variable {keys k} {s : SuccinctBits} {v j i : Nat} {p : Str} {c : UInt8} {stack : List Cursor}

lemma Outcome.of_leads {w w' : Search} {live live' : Prop} (h : Leads (s.step k) w w')
    (hstack : w'.stack = w.stack) (hlive : live' ↔ live) (ho : Outcome keys k s w' live') :
    Outcome keys k s w live := by
  cases ho with
  | found h' hl => exact .found (h.ends h') (hlive.mp hl)
  | dead w'' h' hi hlast hst hl =>
    exact .dead w'' (h.trans h') hi hlast (hst.trans hstack) (hlive.not.mp hl)
  | cut h' hc => exact .cut (h.ends h') hc

lemma getElem?_of_lt (hi : i < k.length) : ∃ c, k[i]? = some c ∧ k.drop i = c :: k.drop (i + 1) :=
  ⟨k[i], getElem?_eq_getElem hi, drop_eq_getElem_cons hi⟩

variable {r ls : Str}

lemma Follows.byte (h : Follows k p (c :: r)) (hp : c ≠ complexWildcardByte)
    (hs : c ≠ wildcardByte) : Follows k (p ++ [c]) r := fun t => by
  rw [append_assoc, singleton_append, h, fits_byte hp hs]
  constructor
  · rintro ⟨r', hr, ht⟩
    rwa [(List.cons.inj hr).2]
  · exact fun ht => ⟨r, rfl, ht⟩

lemma Follows.star (h : Follows k p r) :
    Follows k (p ++ [wildcardByte]) (r.dropWhile (· ≠ domainStepByte)) := fun t => by
  rw [append_assoc, singleton_append, h, fits_star]

/-- What the walk from the nodes further on is known to do. -/
def Further (keys : List Str) (k : Str) (s : SuccinctBits) (i : Nat) : Prop :=
  ∀ i' v p stack, i < i' → i' < k.length → (trie keys)[v]? = some p → Follows k p (k.drop i') →
    Outcome keys k s (atLabel keys i' v 0 stack) (LiveIn keys p (labels keys p) (k.drop i'))

lemma explore_byte (stack : List Cursor) (h : Layout keys s) (hfar : Further keys k s i)
    (hv : (trie keys)[v]? = some p) (hl : (labels keys p)[j]? = some c)
    (hp : c ≠ complexWildcardByte) (hs : c ≠ wildcardByte) (hi : k[i]? = some c)
    (hfollows : Follows k p (k.drop i)) : Outcome keys k s (atLabel keys i v j stack)
      (∃ t, p ++ c :: t ∈ keys ∧ Fits (c :: t) (k.drop i)) := by
  have hdrop := drop_of_getElem? hi
  rw [hdrop] at hfollows
  have hnext := hfollows.byte hp hs
  have hfit : ∀ t, Fits (c :: t) (k.drop i) ↔ Fits t (k.drop (i + 1)) := fun t => by
    rw [← hnext, append_assoc, singleton_append, hfollows, hdrop]
  obtain ⟨v', hv', hdesc⟩ := descend_label (k := k) (i := i) stack h hv hl
  have hstep := step_label stack h hv hl hi
  rw [if_neg hp, if_neg hs, if_pos rfl, hdesc] at hstep
  by_cases hmore : i + 1 < k.length
  · rw [if_pos hmore] at hstep
    refine Outcome.of_leads (leads_of_step hstep) rfl ?_ (hfar (i + 1) v' _ stack (by omega) hmore
      hv' hnext)
    constructor
    · rintro ⟨l, -, t, hmem, hfits⟩
      rw [append_assoc, singleton_append] at hmem
      exact ⟨l :: t, hmem, (hfit _).mpr hfits⟩
    · rintro ⟨t, hmem, hfits⟩
      rw [hfit] at hfits
      cases t with
      | nil =>
        rw [fits_nil, drop_eq_nil_iff] at hfits
        omega
      | cons l t =>
        refine ⟨l, mem_labels.mpr ⟨_, hmem, ?_⟩, t, by simpa using hmem, hfits⟩
        exact ⟨t, by simp⟩
  · rw [if_neg hmore] at hstep
    have hend : k.drop (i + 1) = [] := drop_eq_nil_of_le (by omega)
    rw [hend] at hnext
    by_cases hmem : p ++ [c] ∈ keys
    · rw [decide_eq_true hmem] at hstep
      exact .found (ends_of_step hstep) ⟨[], hmem, (hfit []).mpr (by rw [hend]; rfl)⟩
    · rw [decide_eq_false hmem] at hstep
      obtain ⟨q, hq, hpre⟩ := mem_labels.mp (mem_of_getElem? hl)
      refine .cut (ends_of_step hstep) ⟨q, hq, p ++ [c], (mem_inits _ _).mpr hpre, hmem, ?_⟩
      have hall := hnext []
      rw [append_nil] at hall
      exact hall.mpr rfl

lemma Starred.label (hstar : Starred keys) (h : c ∈ labels keys (p ++ [wildcardByte])) :
    c = domainStepByte := by
  obtain ⟨q, hq, t, rfl⟩ := mem_labels.mp h
  rw [append_assoc, append_assoc, singleton_append] at hq
  rcases hstar _ _ hq with hnil | ⟨t', ht⟩
  · simp at hnil
  · exact (List.cons.inj ht).1

lemma Starred.head (hstar : Starred keys) (h : domainStepByte ∈ labels keys (p ++ [wildcardByte])) :
    (labels keys (p ++ [wildcardByte]))[0]? = some domainStepByte := by
  obtain ⟨c, cs, hcs⟩ := exists_cons_of_ne_nil (ne_nil_of_mem h)
  have hc : c = domainStepByte := hstar.label (by rw [hcs]; exact mem_cons_self)
  rw [hcs, getElem?_cons_zero, hc]

lemma liveIn_star (hstar : Starred keys) (hls : ¬ LiveIn keys p ls r) :
    LiveIn keys p (wildcardByte :: ls) r ↔
      (p ++ [wildcardByte] ∈ keys ∧ r.dropWhile (· ≠ domainStepByte) = []) ∨
      ∃ t, p ++ [wildcardByte] ++ domainStepByte :: t ∈ keys ∧
        Fits (domainStepByte :: t) (r.dropWhile (· ≠ domainStepByte)) := by
  constructor
  · rintro ⟨l, hl, t, hmem, hfits⟩
    rcases mem_cons.mp hl with rfl | hl
    · rw [fits_star] at hfits
      rcases hstar _ _ hmem with rfl | ⟨t', rfl⟩
      · exact .inl ⟨hmem, hfits⟩
      · exact .inr ⟨t', by simpa using hmem, hfits⟩
    · exact absurd ⟨l, hl, t, hmem, hfits⟩ hls
  · rintro (⟨hmem, hr⟩ | ⟨t, hmem, hfits⟩)
    · exact ⟨_, mem_cons_self, [], hmem, fits_star.mpr hr⟩
    · exact ⟨_, mem_cons_self, _, by simpa using hmem, fits_star.mpr hfits⟩

/-- Behind the wildcard label of a node: the labels after it first, then the
wildcard itself. -/
lemma explore_star (h : Layout keys s) (hstar : Starred keys) (hkey : IsKey k)
    (hover : ¬ Overrun keys k) (hfar : Further keys k s i) (hv : (trie keys)[v]? = some p)
    (hl : (labels keys p)[j]? = some wildcardByte) (hi : i < k.length)
    (hfollows : Follows k p (k.drop i))
    (hrest : ∀ stack, Outcome keys k s (atLabel keys i v (j + 1) stack)
      (LiveIn keys p ((labels keys p).drop (j + 1)) (k.drop i))) :
    Outcome keys k s (atLabel keys i v j stack)
      (LiveIn keys p ((labels keys p).drop j) (k.drop i)) := by
  obtain ⟨c, hc, -⟩ := getElem?_of_lt hi
  have hpush := step_label stack h hv hl hc
  rw [if_neg (by decide), if_pos rfl] at hpush
  rw [drop_of_getElem? hl]
  cases hrest (⟨(place keys v + j : Nat), i⟩ :: stack) with
  | found h' hlive =>
    obtain ⟨l, hmem, hl'⟩ := hlive
    exact .found ((leads_of_step hpush).ends h') ⟨l, mem_cons_of_mem _ hmem, hl'⟩
  | cut h' hcut => exact .cut ((leads_of_step hpush).ends h') hcut
  | dead w' h' hi' hlast hstack hlive =>
    have hlead := (leads_of_step hpush).trans h'
    obtain ⟨c', hc', -⟩ := getElem?_of_lt hi'
    have hback := step_dead hc' hlast
    have hw' : w'.stack = ⟨(place keys v + j : Nat), i⟩ :: stack := hstack
    have hiff := liveIn_star (p := p) hstar hlive
    rw [← drop_dotFrom] at hiff
    by_cases hdot : dotFrom k i = k.length
    · -- the wildcard takes the rest of the domain
      have hnil : k.drop (dotFrom k i) = [] := by rw [hdot, drop_length]
      rw [resume_end h hv hl w' hw' hdot] at hback
      rw [hnil] at hiff
      by_cases hleaf : p ++ [wildcardByte] ∈ keys
      · rw [if_pos hleaf] at hback
        exact .found (hlead.ends (ends_of_step hback)) (hiff.mpr (.inl ⟨hleaf, rfl⟩))
      · rw [if_neg hleaf] at hback
        refine .dead _ (hlead.trans (leads_of_step hback)) hi' hlast rfl fun hlive' => ?_
        rcases hiff.mp hlive' with ⟨hmem, -⟩ | ⟨t, -, hfits⟩
        · exact hleaf hmem
        · obtain ⟨r', hr', -⟩ := fits_dot.mp hfits
          cases hr'
    · have hlt : dotFrom k i < k.length := lt_of_le_of_ne (dotFrom_le k hi.le) hdot
      obtain ⟨b, hb, hdrop⟩ := getElem?_of_lt hlt
      obtain rfl : b = domainStepByte := Option.some.inj (hb.symm.trans (getElem?_dotFrom hlt))
      by_cases hgo : domainStepByte ∈ labels keys (p ++ [wildcardByte])
      · -- a pattern goes on behind the wildcard
        obtain ⟨v', hv', hres⟩ := resume_dot h hv hl w' hw' hdot (hstar.head hgo)
        rw [hres] at hback
        have hfar' : Further keys k s (dotFrom k i) := fun i' v p stack hlt =>
          hfar i' v p stack ((le_dotFrom k i).trans_lt hlt)
        have hnext := explore_byte stack h hfar' hv' (hstar.head hgo) (by decide)
          (by decide) hb (by rw [drop_dotFrom]; exact hfollows.star)
        refine Outcome.of_leads (hlead.trans (leads_of_step hback)) rfl ?_ hnext
        rw [hiff, or_iff_right]
        rw [hdrop]
        simp
      · -- no pattern goes on, but the domain does
        refine absurd ⟨p ++ [wildcardByte], ?_, getLast?_concat, ?_, ?_⟩ hover
        · obtain ⟨q, hq, t, rfl⟩ := mem_labels.mp (mem_of_getElem? hl)
          have hq' := hq
          rw [append_assoc, singleton_append] at hq'
          rcases hstar _ _ hq' with rfl | ⟨t', rfl⟩
          · exact hq'
          · exact absurd (mem_labels.mpr ⟨_, hq, t', by simp⟩) hgo
        · intro q' hq' hpre
          exact hgo (mem_labels.mpr ⟨q', hq', by simpa using hpre⟩)
        · rw [append_assoc, singleton_append, hfollows, fits_star, ← drop_dotFrom, hdrop, fits_dot]
          refine ⟨_, rfl, fits_plus.mpr fun hend => hkey.dot (k.take (dotFrom k i)) ?_⟩
          rw [hend] at hdrop
          rw [← hdrop, take_append_drop]

lemma liveIn_cons_ne {l : UInt8} (hp : l ≠ complexWildcardByte)
    (hs : l ≠ wildcardByte) (hc : l ≠ c) :
    LiveIn keys p (l :: ls) (c :: r) ↔ LiveIn keys p ls (c :: r) := by
  constructor
  · rintro ⟨l', hl', t, hmem, hfits⟩
    rcases mem_cons.mp hl' with rfl | hl'
    · obtain ⟨r', hr, -⟩ := (fits_byte hp hs).mp hfits
      exact absurd (List.cons.inj hr).1.symm hc
    · exact ⟨l', hl', t, hmem, hfits⟩
  · rintro ⟨l', hl', ht⟩
    exact ⟨l', mem_cons_of_mem _ hl', ht⟩

/-- Behind the label of the current byte the labels are greater, and none of them
takes it. -/
lemma liveIn_cons_self (hc : complexWildcardByte < c) (hls : (c :: ls).Pairwise (· < ·)) :
    LiveIn keys p (c :: ls) (c :: r) ↔ ∃ t, p ++ c :: t ∈ keys ∧ Fits (c :: t) (c :: r) := by
  have hgreater : ∀ l ∈ ls, complexWildcardByte < l ∧ c < l := fun l hl =>
    have hlt := rel_of_pairwise_cons hls hl
    ⟨UInt8.lt_trans hc hlt, hlt⟩
  constructor
  · rintro ⟨l, hl, t, hmem, hfits⟩
    rcases mem_cons.mp hl with rfl | hl
    · exact ⟨t, hmem, hfits⟩
    · obtain ⟨hplus, hlt⟩ := hgreater l hl
      have hp : l ≠ complexWildcardByte := fun h => absurd hplus (by rw [h]; decide)
      have hs : l ≠ wildcardByte := fun h => absurd hplus (by rw [h]; decide)
      obtain ⟨r', hr, -⟩ := (fits_byte hp hs).mp hfits
      rw [(List.cons.inj hr).1] at hlt
      exact absurd hlt (UInt8.lt_irrefl _)
  · rintro ⟨t, hmem, hfits⟩
    exact ⟨c, mem_cons_self, t, hmem, hfits⟩

lemma explore_labels (h : Layout keys s) (hstar : Starred keys) (hkey : IsKey k)
    (hover : ¬ Overrun keys k) (hfar : Further keys k s i) (hv : (trie keys)[v]? = some p)
    (hi : i < k.length) (hfollows : Follows k p (k.drop i)) (m : Nat) :
    ∀ j, (labels keys p).length = j + m → ∀ stack, Outcome keys k s (atLabel keys i v j stack)
      (LiveIn keys p ((labels keys p).drop j) (k.drop i)) := by
  obtain ⟨c, hc, hdrop⟩ := getElem?_of_lt hi
  induction m with
  | zero =>
    intro j hj stack
    obtain rfl : j = (labels keys p).length := hj.symm
    refine .dead _ (Leads.refl _) hi (h.last hv) rfl ?_
    rw [drop_length]
    rintro ⟨l, hl, -⟩
    simp at hl
  | succ m ih =>
    intro j hj stack
    have hplain := hkey.plain c (mem_of_getElem? hc)
    obtain ⟨l, hl⟩ : ∃ l, (labels keys p)[j]? = some l :=
      ⟨_, getElem?_eq_getElem (by omega)⟩
    have hnext := ih (j + 1) (by omega)
    have hstep := step_label stack h hv hl hc
    by_cases hp : l = complexWildcardByte
    · rw [if_pos hp] at hstep
      obtain ⟨q, hq, t, rfl⟩ := mem_labels.mp (mem_of_getElem? hl)
      refine .found (ends_of_step hstep) ⟨l, ?_, t, by simpa using hq, ?_⟩
      · rw [drop_of_getElem? hl]
        exact mem_cons_self
      · rw [hp, fits_plus, hdrop]
        simp
    by_cases hs : l = wildcardByte
    · subst hs
      exact explore_star h hstar hkey hover hfar hv hl hi hfollows hnext
    rw [if_neg hp, if_neg hs] at hstep
    by_cases hlc : l = c
    · subst hlc
      have hbyte := explore_byte stack h hfar hv hl hp hs hc hfollows
      have hsorted := (pairwise_labels keys p).sublist (drop_sublist j _)
      rw [drop_of_getElem? hl] at hsorted ⊢
      rw [hdrop] at hbyte ⊢
      exact Outcome.of_leads (Leads.refl _) rfl (liveIn_cons_self hplain hsorted).symm hbyte
    · rw [if_neg hlc] at hstep
      refine Outcome.of_leads (leads_of_step hstep) rfl ?_ (hnext stack)
      rw [drop_of_getElem? hl, hdrop, liveIn_cons_ne hp hs hlc]

/-- **The walk from a node.** -/
lemma explore (h : Layout keys s) (hstar : Starred keys) (hkey : IsKey k)
    (hover : ¬ Overrun keys k) (n : Nat) :
    ∀ i v p stack, k.length = i + n → 0 < n → (trie keys)[v]? = some p → Follows k p (k.drop i) →
      Outcome keys k s (atLabel keys i v 0 stack) (LiveIn keys p (labels keys p) (k.drop i)) := by
  induction n using Nat.strong_induction_on with
  | _ n ih =>
    intro i v p stack hn hpos hv hfollows
    have hfar : Further keys k s i := fun i' v p stack hlt hlt' hv hf =>
      ih (k.length - i') (by omega) i' v p stack (by omega) (by omega) hv hf
    exact explore_labels h hstar hkey hover hfar hv (by omega) hfollows _ 0 (Nat.zero_add _).symm
      stack

/-- The labels of a node from one on, where a pattern without wildcard fits. -/
lemma ends_labels (h : Layout keys s) (hkey : IsKey k) (hv : (trie keys)[v]? = some p)
    (hi : k[i]? = some c) {l₀ : UInt8} (hl₀ : l₀ = complexWildcardByte ∨ l₀ = c)
    (hdesc : l₀ = c → ∀ j stack, (labels keys p)[j]? = some c →
      Ends (s.step k) (atLabel keys i v j stack) true) (m : Nat) :
    ∀ j, (labels keys p).length = j + m → l₀ ∈ (labels keys p).drop j → ∀ stack,
      Ends (s.step k) (atLabel keys i v j stack) true := by
  have hplain := hkey.plain c (mem_of_getElem? hi)
  induction m with
  | zero =>
    intro j hj hmem
    rw [drop_eq_nil_of_le (by omega)] at hmem
    simp at hmem
  | succ m ih =>
    intro j hj hmem stack
    obtain ⟨l, hl⟩ : ∃ l, (labels keys p)[j]? = some l :=
      ⟨_, getElem?_eq_getElem (by omega)⟩
    have hstep := step_label stack h hv hl hi
    rw [drop_of_getElem? hl] at hmem
    by_cases hp : l = complexWildcardByte
    · rw [if_pos hp] at hstep
      exact ends_of_step hstep
    by_cases hlc : l = c
    · -- a plus would stand in front of the byte
      refine hdesc (hl₀.resolve_left fun hplus => ?_) j stack (hlc ▸ hl)
      have hsorted := (pairwise_labels keys p).sublist (drop_sublist j _)
      rw [drop_of_getElem? hl] at hsorted
      rcases mem_cons.mp hmem with heq | hmem
      · exact hp (heq ▸ hplus)
      · have hlt := rel_of_pairwise_cons hsorted hmem
        rw [hplus, hlc] at hlt
        exact UInt8.lt_irrefl _ (UInt8.lt_trans hlt hplain)
    have hrest : l₀ ∈ (labels keys p).drop (j + 1) := by
      refine mem_of_ne_of_mem ?_ hmem
      rcases hl₀ with rfl | rfl
      · exact Ne.symm hp
      · exact Ne.symm hlc
    rw [if_neg hp] at hstep
    by_cases hs : l = wildcardByte
    · rw [if_pos hs] at hstep
      exact (leads_of_step hstep).ends (ih (j + 1) (by omega) hrest _)
    · rw [if_neg hs, if_neg hlc] at hstep
      exact (leads_of_step hstep).ends (ih (j + 1) (by omega) hrest _)

lemma ends_of_starFree (h : Layout keys s) (hkey : IsKey k) (n : Nat) :
    ∀ i v p stack t, k.length = i + n → 0 < n → (trie keys)[v]? = some p → p ++ t ∈ keys →
      wildcardByte ∉ t → Fits t (k.drop i) → Ends (s.step k) (atLabel keys i v 0 stack) true := by
  induction n with
  | zero => omega
  | succ n ih =>
    intro i v p stack t hn _ hv hmem hstar hfits
    obtain ⟨c, hc, hdrop⟩ := getElem?_of_lt (show i < k.length by omega)
    have hplain := hkey.plain c (mem_of_getElem? hc)
    cases t with
    | nil =>
      rw [fits_nil, hdrop] at hfits
      cases hfits
    | cons l t =>
      have hs : l ≠ wildcardByte := fun h => hstar (h ▸ mem_cons_self)
      have hl : l ∈ labels keys p := mem_labels.mpr ⟨_, hmem, t, by simp⟩
      by_cases hp : l = complexWildcardByte
      · have hne : l ≠ c := fun hlc => by
          rw [← hlc, hp] at hplain
          exact UInt8.lt_irrefl _ hplain
        exact ends_labels h hkey hv hc (.inl hp) (fun hlc => absurd hlc hne) _ 0
          (Nat.zero_add _).symm hl stack
      · obtain ⟨r', hr, hfits⟩ := (fits_byte hp hs).mp hfits
        rw [hdrop] at hr
        obtain ⟨rfl, rfl⟩ := List.cons.inj hr
        refine ends_labels h hkey hv hc (.inr rfl) (fun _ j stack hj => ?_) _ 0
          (Nat.zero_add _).symm hl stack
        obtain ⟨v', hv', hdesc⟩ := descend_label (k := k) (i := i) stack h hv hj
        have hstep := step_label stack h hv hj hc
        rw [if_neg hp, if_neg hs, if_pos rfl, hdesc] at hstep
        have hmem' : p ++ [c] ++ t ∈ keys := by simpa using hmem
        have hstar' : wildcardByte ∉ t := fun ht => hstar (mem_cons_of_mem _ ht)
        split_ifs at hstep with hmore
        · exact (leads_of_step hstep).ends
            (ih (i + 1) v' _ stack t (by omega) (by omega) hv' hmem' hstar' hfits)
        · have hnil : t = [] := by
            rw [drop_eq_nil_of_le (by omega)] at hfits
            cases t with
            | nil => rfl
            | cons l t =>
              exfalso
              have hs' : l ≠ wildcardByte := fun h => hstar' (h ▸ mem_cons_self)
              by_cases hp' : l = complexWildcardByte
              · rw [hp', fits_plus] at hfits
                exact hfits rfl
              · obtain ⟨r', hr', -⟩ := (fits_byte hp' hs').mp hfits
                cases hr'
          rw [hnil, append_nil] at hmem'
          rw [decide_eq_true hmem'] at hstep
          exact ends_of_step hstep

end

/-! ### The matcher of a set -/

section
open Machine

variable {S : List Pattern} {d : Domain} {s : SuccinctBits}

/-- The domains on which the search gives up nothing: a pattern without wildcard
matches, or no wildcard runs over the end of its pattern and, if any pattern
matches at all, the domain does not end inside another one. -/
def Safe (S : List Pattern) (d : Domain) : Prop :=
  (∃ P ∈ S, P.StarFree ∧ P.Matches d) ∨ ¬ Overrun (patternKeys S) d.key ∧
      (¬ Cut (patternKeys S) d.key ∨ ∀ P ∈ S, ¬ P.Matches d)

lemma Domain.key_ne_nil (d : Domain) : d.key ≠ [] := join_ne_nil d.ne

lemma follows_nil (k : Str) : Follows k [] (k.drop 0) := fun _ => Iff.rfl

lemma liveIn_root : LiveIn (patternKeys S) [] (labels (patternKeys S) []) (d.key.drop 0) ↔
    ∃ P ∈ S, P.Matches d := by
  rw [drop_zero]
  constructor
  · rintro ⟨l, -, t, hmem, hfits⟩
    obtain ⟨P, hP, hstored⟩ := mem_map.mp hmem
    rw [nil_append] at hstored
    exact ⟨P, hP, (fits_stored P d).mp (hstored ▸ hfits)⟩
  · rintro ⟨P, hP, hmatch⟩
    have hfits := (fits_stored P d).mpr hmatch
    have hmem : P.stored ∈ patternKeys S := mem_map_of_mem hP
    cases ht : P.stored with
    | nil =>
      rw [ht, fits_nil] at hfits
      exact absurd hfits d.key_ne_nil
    | cons l t =>
      rw [ht] at hfits hmem
      exact ⟨l, mem_labels.mpr ⟨_, hmem, t, rfl⟩, t, hmem, hfits⟩

lemma ends_of_safe (h : Layout (patternKeys S) s) (hsafe : Safe S d) :
    ∃ b, Ends (s.step d.key) (atLabel (patternKeys S) 0 0 0 []) b ∧
      (b = true ↔ ∃ P ∈ S, P.Matches d) := by
  have hkey := isKey_key d
  have hpos : 0 < d.key.length := length_pos_iff.mpr d.key_ne_nil
  rcases hsafe with ⟨P, hP, hfree, hmatch⟩ | ⟨hover, hcut⟩
  · refine ⟨true, ?_, iff_of_true rfl ⟨P, hP, hmatch⟩⟩
    exact ends_of_starFree h hkey _ 0 0 [] [] P.stored (Nat.zero_add _).symm hpos (trie_zero _)
      (mem_map_of_mem hP) hfree.wildcard_notMem ((fits_stored P d).mpr hmatch)
  · have hwalk := explore h (starred_patternKeys S) hkey hover d.key.length 0 0 [] []
      (Nat.zero_add _).symm hpos (trie_zero _) (follows_nil _)
    cases hwalk with
    | found hend hlive => exact ⟨true, hend, iff_of_true rfl (liveIn_root.mp hlive)⟩
    | dead w' hlead hi hlast hstack hlive =>
      obtain ⟨c, hc, -⟩ := getElem?_of_lt hi
      have hstep := step_dead hc hlast
      have hempty : w'.stack = [] := hstack
      rw [resume, hempty] at hstep
      exact ⟨false, hlead.ends (ends_of_step hstep),
        iff_of_false (by simp) (liveIn_root.not.mp hlive)⟩
    | cut hend hc =>
      have hno := hcut.resolve_left (not_not_intro hc)
      refine ⟨false, hend, iff_of_false (by simp) ?_⟩
      rintro ⟨P, hP, hm⟩
      exact hno P hP hm

def letter (b : UInt8) (h : complexWildcardByte < b ∧ b ≠ domainStepByte) : Word :=
  ⟨[b], by simpa using h, by simp⟩

/-- `c`. -/
def wordC : Word := letter 0x63 (by decide)

/-- `*.c`. -/
def starC : Pattern := ⟨[.word wordC, .star], false, .inl (by simp)⟩

/-- `a.c`. -/
def domainAC : Domain := ⟨[wordC, letter 0x61 (by decide)], by simp⟩

/-- `xa.c`. -/
def plainXAC : Pattern :=
  ⟨[.word wordC, .word ⟨[0x61, 0x78], by simp; decide, by simp⟩], false, .inl (by simp)⟩

lemma Pattern.stored_ne_nil (P : Pattern) : P.stored ≠ [] := by
  obtain ⟨_ | ⟨_ | w, ls⟩, plus, hne⟩ := P
  · simp [stored, parts, hne.resolve_left (not_not_intro rfl), join]
  · simp [stored, parts, join_cons, Label.text]
  · simp [stored, parts, join_cons, Label.text, w.ne]

lemma safe_of_starFree (hS : ∀ P ∈ S, P.StarFree) (d : Domain) : Safe S d := by
  by_cases hm : ∃ P ∈ S, P.Matches d
  · obtain ⟨P, hP, hmatch⟩ := hm
    exact .inl ⟨P, hP, hS P hP, hmatch⟩
  · refine .inr ⟨?_, .inr fun P hP hmatch => hm ⟨P, hP, hmatch⟩⟩
    rintro ⟨q, hq, hlast, -⟩
    obtain ⟨P, hP, rfl⟩ := mem_map.mp hq
    exact (hS P hP).wildcard_notMem (mem_of_getLast? hlast)

lemma labelsOf_pos (hne : S ≠ []) : 1 ≤ (labelsOf (patternKeys S)).length := by
  obtain ⟨P, hP⟩ := exists_mem_of_ne_nil S hne
  obtain ⟨l, p, hp⟩ := exists_cons_of_ne_nil P.stored_ne_nil
  have hl : l ∈ labels (patternKeys S) [] :=
    mem_labels.mpr ⟨_, mem_map_of_mem hP, p, hp.symm⟩
  exact length_pos_of_mem (mem_flatMap.mpr ⟨[], mem_of_getElem? (trie_zero _), hl⟩)

end

end Ntr.Ruleset
