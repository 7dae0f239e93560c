/-
The domain matcher of a binary `.srs` rule set.

* `has_iff_matches` (**the walk**): on the layout of a set the matcher says of a
  key without a newline whether an entry matches it.
-/
import Mathlib.Data.List.DropRight
import Ntr.Ruleset.Layout

namespace Ntr.Ruleset

open Go Louds Lib Lib.FailState List

/-! ### The matcher -/

/-- `'\r'`: behind the suffix `.x`. -/
def prefixLabel : UInt8 := 0x0D

/-- `'\n'`: behind the suffix `x`, which is itself meant too. -/
def rootLabel : UInt8 := 0x0A

/-- `'.'`. -/
def dot : UInt8 := 0x2E

/-- How the loop over the labels of a node ends: `return false`, `return true`,
or at the label of the current character. -/
inductive Look where
  | miss
  | hit
  | child (bmIdx : Int)
  deriving DecidableEq

namespace SuccinctBits

/-- The test of `has` at the label behind a root suffix: the key goes on with a
dot, and the child is a leaf. -/
def rootHit (s : SuccinctBits) (nextLabel currentChar : UInt8) (bmIdx : Int) : Except Fault Bool :=
  if nextLabel = rootLabel then do
    let nextNodeId ← s.countZeros (bmIdx + 1)
    if currentChar = dot then getBit s.leaves nextNodeId else .ok false
  else .ok false

/-- The loop of `has` over the labels of a node. -/
def look (s : SuccinctBits) (nodeId : Int) (currentChar : UInt8) : Nat → Int → Except Fault Look
  | 0, _ => .error .spin
  | rounds + 1, bmIdx => do
    if ← getBit s.labelBitmap bmIdx then return .miss
    let nextLabel ← nth s.labels (bmIdx - nodeId)
    if nextLabel = prefixLabel then return .hit
    if ← s.rootHit nextLabel currentChar bmIdx then return .hit
    if nextLabel = currentChar then return .child bmIdx
    look s nodeId currentChar rounds (bmIdx + 1)

/-- The loop of `has` behind the last character. -/
def lookEnd (s : SuccinctBits) (nodeId : Int) : Nat → Int → Except Fault Bool
  | 0, _ => .error .spin
  | rounds + 1, bmIdx => do
    if ← getBit s.labelBitmap bmIdx then return false
    let nextLabel ← nth s.labels (bmIdx - nodeId)
    if nextLabel = prefixLabel ∨ nextLabel = rootLabel then return true
    lookEnd s nodeId rounds (bmIdx + 1)

/-- The loop of `has` over the key. -/
def hasFrom (s : SuccinctBits) : Str → Int → Int → Except Fault Bool
  | [], nodeId, bmIdx => do
    if ← getBit s.leaves nodeId then return true
    s.lookEnd nodeId s.rounds bmIdx
  | currentChar :: key, nodeId, bmIdx => do
    match ← s.look nodeId currentChar s.rounds bmIdx with
    | .miss => return false
    | .hit => return true
    | .child bmIdx =>
      let (nodeId, bmIdx) ← s.child bmIdx
      hasFrom s key nodeId bmIdx

def has (s : SuccinctBits) (key : Str) : Except Fault Bool := s.hasFrom key 0 0

end SuccinctBits

/-! ### The reader -/

def readUvarU64Slice {σ : Type} [Channel σ] : FailState Error σ (List UInt64) := do
  let n ← readUvarint
  if 2 ^ 28 < n then throw (.text (lit "srs: []u64 过长 " ++ itoa n))
  else do
    let b ← readFull (8 * n)
    pure (decodeWords n b)

def readUvarByteSlice {σ : Type} [Channel σ] : FailState Error σ Str := do
  let n ← readUvarint
  if 2 ^ 34 < n then throw (.text (lit "srs: []byte 过长 " ++ itoa n))
  else readFull n

/-- The index of the highest one, `-1` if there is none; `Nat.log2` of a word is
`63 - bits.LeadingZeros64`. -/
def lastOneIndex : List UInt64 → Nat → Int → Int
  | [], _, last => last
  | w :: ws, wi, last =>
    lastOneIndex ws (wi + 1) (if w ≠ 0 then ((64 * wi + w.toNat.log2 : Nat) : Int) else last)

/-- The check of `readSingSuccinct` and the words it adds to `leaves`. -/
def checkSuccinct (leaves labelBitmap : List UInt64) (labels : Str) : Except Error SuccinctBits :=
  let onesCount := (labelBitmap.map onesCount64).sum
  let zerosCount := lastOneIndex labelBitmap 0 (-1) + 1 - onesCount
  if (onesCount : Int) ≠ zerosCount + 1 ∨ (labels.length : Int) ≠ zerosCount then
    .error (.text (lit "srs: succinct set 损坏"))
  else
    let lw := (onesCount + 63) / 64
    .ok (newSuccinctBits (leaves ++ List.replicate (lw - leaves.length) 0) labelBitmap labels)

def readSingSuccinct {σ : Type} [Channel σ] : FailState Error σ SuccinctBits := do
  let _ ← readByte
  let leaves ← readUvarU64Slice
  let labelBitmap ← readUvarU64Slice
  let labels ← readUvarByteSlice
  lift (checkSuccinct leaves labelBitmap labels)

/-! ### Entries -/

/-- A reversed domain name: no control characters up to the marks. -/
structure Name where
  bytes : Str
  plain : ∀ b ∈ bytes, prefixLabel < b

inductive Entry where
  /-- The name. -/
  | exact (x : Name)
  /-- The name and all below it. -/
  | root (x : Name)
  /-- All below the name. -/
  | suffix (x : Name)

namespace Entry

/-- The name of an entry, with the dot behind it if only what is below is meant. -/
def base : Entry → Str
  | exact x => x.bytes
  | root x => x.bytes
  | suffix x => x.bytes ++ [dot]

def mark : Entry → Str
  | exact _ => []
  | root _ => [rootLabel]
  | suffix _ => [prefixLabel]

def stored (e : Entry) : Str := e.base ++ e.mark

def Matches : Entry → Str → Prop
  | exact x, key => key = x.bytes
  | root x, key => key = x.bytes ∨ x.bytes ++ [dot] <+: key
  | suffix x, key => x.bytes ++ [dot] <+: key

instance : ∀ (e : Entry) (key : Str), Decidable (e.Matches key)
  | exact x, key => inferInstanceAs (Decidable (key = x.bytes))
  | root x, key => inferInstanceAs (Decidable (key = x.bytes ∨ x.bytes ++ [dot] <+: key))
  | suffix x, key => inferInstanceAs (Decidable (x.bytes ++ [dot] <+: key))

lemma base_plain (e : Entry) : ∀ b ∈ e.base, prefixLabel < b := by
  cases e with
  | exact x => exact x.plain
  | root x => exact x.plain
  | suffix x =>
    intro b hb
    rcases mem_append.mp hb with hb | hb
    · exact x.plain b hb
    · rw [mem_singleton.mp hb]
      decide

lemma base_isPrefix {e : Entry} {key : Str} (h : e.Matches key) : e.base <+: key := by
  cases e with
  | exact x => exact h ▸ prefix_rfl
  | root x =>
    rcases h with rfl | h
    · exact prefix_rfl
    · exact (prefix_append _ _).trans h
  | suffix x => exact h

end Entry

/-! ### The labels of a node -/

def seek (c : UInt8) (root : Bool) : Str → Int → Look
  | [], _ => .miss
  | l :: ls, b =>
    if l = prefixLabel then .hit
    else if l = rootLabel ∧ root then .hit
    else if l = c then .child b
    else seek c root ls (b + 1)

section
variable {c : UInt8} {root : Bool} {ls : Str} {b b' : Int}

lemma seek_hit (h : seek c root ls b = .hit) : prefixLabel ∈ ls ∨ rootLabel ∈ ls ∧ root = true := by
  induction ls generalizing b with
  | nil => simp [seek] at h
  | cons l ls ih =>
    rw [seek] at h
    split_ifs at h with hp hr hc
    · exact .inl (hp ▸ mem_cons_self)
    · exact .inr ⟨hr.1 ▸ mem_cons_self, hr.2⟩
    · rcases ih h with hp | ⟨hr, hroot⟩
      · exact .inl (mem_cons_of_mem _ hp)
      · exact .inr ⟨mem_cons_of_mem _ hr, hroot⟩

lemma seek_child (h : seek c root ls b = .child b') :
    c ≠ prefixLabel ∧ ∃ j : Nat, ls[j]? = some c ∧ b' = b + j := by
  induction ls generalizing b with
  | nil => simp [seek] at h
  | cons l ls ih =>
    rw [seek] at h
    split_ifs at h with hp hr hc
    · cases h
      exact ⟨hc ▸ hp, 0, by simp [hc], by simp⟩
    · obtain ⟨hne, j, hj, rfl⟩ := ih h
      exact ⟨hne, j + 1, by simpa using hj, by push_cast; ring⟩

lemma seek_ne_miss (h : c ∈ ls) : seek c root ls b ≠ .miss := by
  induction ls generalizing b with
  | nil => simp at h
  | cons l ls ih =>
    rw [seek]
    split_ifs with hp hr hc
    · simp
    · simp
    · simp
    · exact ih (mem_of_ne_of_mem (Ne.symm hc) h)

/-- A mark that decides is seen when it stands in front of the character. -/
lemma seek_of_mark {m : UInt8} (hm : m = prefixLabel ∨ m = rootLabel ∧ root = true)
    (hls : ls.Pairwise (· < ·)) (hmem : m ∈ ls) (hc : c ∈ ls → m ≤ c) :
    seek c root ls b = .hit := by
  induction ls generalizing b with
  | nil => simp at hmem
  | cons l ls ih =>
    obtain ⟨hlt, hls⟩ := pairwise_cons.mp hls
    rw [seek]
    split_ifs with hp hr heq
    · rfl
    · rfl
    · -- the character comes first, so the mark would be greater
      subst heq
      have hle := hc mem_cons_self
      rcases mem_cons.mp hmem with rfl | hmem
      · rcases hm with rfl | hm
        · exact absurd rfl hp
        · exact absurd hm hr
      · exact absurd (hlt m hmem) (UInt8.not_lt.mpr hle)
    · refine ih hls ?_ fun h => hc (mem_cons_of_mem _ h)
      rcases mem_cons.mp hmem with rfl | hmem
      · rcases hm with rfl | hm
        · exact absurd rfl hp
        · exact absurd hm hr
      · exact hmem

end

section
variable {keys : List Str} {s : SuccinctBits} {v : Nat} {p : Str}

lemma rootHit_eq (h : Layout keys s) (hv : (trie keys)[v]? = some p) {l : UInt8} {j : Nat}
    (hl : (labels keys p)[j]? = some l) (c : UInt8) : s.rootHit l c (place keys v + j : Nat) =
      .ok (l = rootLabel ∧ (decide (c = dot ∧ p ++ [rootLabel] ∈ keys) = true)) := by
  obtain ⟨v', hv', hzeros, -⟩ := h.child hv hl
  rw [SuccinctBits.rootHit]
  split_ifs with hroot hdot
  · rw [hzeros, ok_bind, h.leaf hv', hroot]
    simp [hdot]
  · rw [hzeros, ok_bind]
    simp [hdot]
  · simp [hroot]

lemma look_eq (h : Layout keys s) (hv : (trie keys)[v]? = some p) (c : UInt8) (rounds j : Nat)
    (hj : j ≤ (labels keys p).length) (hrounds : (labels keys p).length < j + rounds) :
    s.look v c rounds (place keys v + j : Nat) =
      .ok (seek c (c = dot ∧ p ++ [rootLabel] ∈ keys) ((labels keys p).drop j)
        (place keys v + j : Nat)) := by
  induction rounds generalizing j with
  | zero => omega
  | succ rounds ih =>
    rw [SuccinctBits.look]
    rcases hj.eq_or_lt with rfl | hlt
    · rw [h.last hv, ok_bind, if_pos rfl, drop_length, seek]
      rfl
    · obtain ⟨l, hl⟩ : ∃ l, (labels keys p)[j]? = some l := ⟨_, getElem?_eq_getElem hlt⟩
      obtain ⟨hbit, htext⟩ := h.label hv hl
      rw [hbit, ok_bind, if_neg (by simp), htext, ok_bind, rootHit_eq h hv hl, ok_bind,
        drop_of_getElem? hl, seek]
      simp only [decide_eq_true_iff (p := _ ∧ _)]
      split_ifs with hp hroot hc
      · rfl
      · rfl
      · rfl
      · exact ih (j + 1) hlt (by omega)

lemma look_node (h : Layout keys s) (hv : (trie keys)[v]? = some p) (c : UInt8) :
    s.look v c s.rounds (place keys v) =
      .ok (seek c (c = dot ∧ p ++ [rootLabel] ∈ keys) (labels keys p) (place keys v)) :=
  look_eq h hv c s.rounds 0 (Nat.zero_le _) (by rw [Nat.zero_add]; exact h.length_labels_lt hv)

lemma lookEnd_eq (h : Layout keys s) (hv : (trie keys)[v]? = some p) (rounds j : Nat)
    (hj : j ≤ (labels keys p).length) (hrounds : (labels keys p).length < j + rounds) :
    s.lookEnd v rounds (place keys v + j : Nat) =
      .ok (∃ l ∈ (labels keys p).drop j, l = prefixLabel ∨ l = rootLabel) := by
  induction rounds generalizing j with
  | zero => omega
  | succ rounds ih =>
    rw [SuccinctBits.lookEnd]
    rcases hj.eq_or_lt with rfl | hlt
    · rw [h.last hv, ok_bind, if_pos rfl, drop_length]
      rfl
    · obtain ⟨l, hl⟩ : ∃ l, (labels keys p)[j]? = some l := ⟨_, getElem?_eq_getElem hlt⟩
      obtain ⟨hbit, htext⟩ := h.label hv hl
      rw [hbit, ok_bind, if_neg (by simp), htext, ok_bind, drop_of_getElem? hl]
      split_ifs with hmark
      · rw [decide_eq_true ⟨l, mem_cons_self, hmark⟩]
        rfl
      · have hnext := ih (j + 1) hlt (by omega)
        rw [show ((place keys v + j : Nat) : Int) + 1 = (place keys v + (j + 1) : Nat) by omega,
          hnext]
        simp [hmark]

lemma lookEnd_node (h : Layout keys s) (hv : (trie keys)[v]? = some p) :
    s.lookEnd v s.rounds (place keys v) =
      .ok (∃ l ∈ labels keys p, l = prefixLabel ∨ l = rootLabel) :=
  lookEnd_eq h hv s.rounds 0 (Nat.zero_le _) (by rw [Nat.zero_add]; exact h.length_labels_lt hv)

end

/-! ### The nodes of a set of entries -/

namespace Entry

lemma prefix_stored_iff {e : Entry} {q : Str} : q <+: e.stored ↔ q <+: e.base ∨ q = e.stored := by
  cases e with
  | exact x =>
    rw [stored, mark, append_nil]
    exact ⟨.inl, fun h => h.elim id fun h => h ▸ prefix_rfl⟩
  | root x =>
    rw [stored, mark, prefix_concat_iff, or_comm]
  | suffix x =>
    rw [stored, mark, prefix_concat_iff, or_comm]

lemma concat_inj {α : Type} {p q : List α} {a b : α} : p ++ [a] = q ++ [b] ↔ q = p ∧ [b] = [a] := by
  constructor
  · intro h
    obtain ⟨rfl, hab⟩ := append_inj' h rfl
    exact ⟨rfl, hab.symm⟩
  · rintro ⟨rfl, hab⟩
    rw [hab]

/-- A stored entry that ends with a character up to the marks ends with its mark. -/
lemma concat_eq_stored {e : Entry} {p : Str} {c : UInt8} (hc : c ≤ prefixLabel) :
    p ++ [c] = e.stored ↔ e.base = p ∧ e.mark = [c] := by
  cases e with
  | exact x =>
    refine iff_of_false (fun h => ?_) (by simp [mark])
    rw [stored, mark, append_nil] at h
    exact absurd (base_plain _ c (h ▸ mem_append_right _ mem_cons_self)) (UInt8.not_lt.mpr hc)
  | root x => exact concat_inj
  | suffix x => exact concat_inj

end Entry

section
variable {E : List Entry} {p : Str} {c : UInt8}

def storedKeys (E : List Entry) : List Str := E.map Entry.stored

lemma mem_storedKeys {k : Str} : k ∈ storedKeys E ↔ ∃ e ∈ E, k = e.stored := by
  simp only [storedKeys, mem_map, eq_comm]

lemma mem_labels_iff :
    c ∈ labels (storedKeys E) p ↔ ∃ e ∈ E, p ++ [c] <+: e.base ∨ p ++ [c] = e.stored := by
  simp only [mem_labels, storedKeys, mem_map, exists_exists_and_eq_and, Entry.prefix_stored_iff]

lemma mem_labels_mark (hc : c ≤ prefixLabel) :
    c ∈ labels (storedKeys E) p ↔ ∃ e ∈ E, e.base = p ∧ e.mark = [c] := by
  rw [mem_labels_iff]
  refine exists_congr fun e => and_congr_right fun _ => ?_
  rw [Entry.concat_eq_stored hc, or_iff_right]
  intro h
  exact absurd (e.base_plain c (h.subset (mem_append_right _ mem_cons_self))) (UInt8.not_lt.mpr hc)

lemma mem_stored_mark (hc : c ≤ prefixLabel) :
    p ++ [c] ∈ storedKeys E ↔ ∃ e ∈ E, e.base = p ∧ e.mark = [c] := by
  rw [mem_storedKeys]
  exact exists_congr fun e => and_congr_right fun _ => Entry.concat_eq_stored hc

lemma plain_of_mem_labels (h : c ∈ labels (storedKeys E) p) (hp : c ≠ prefixLabel)
    (hr : c ≠ rootLabel) : prefixLabel < c := by
  obtain ⟨e, he, hpre | heq⟩ := mem_labels_iff.mp h
  · exact e.base_plain c (hpre.subset (mem_append_right _ mem_cons_self))
  · by_contra hle
    obtain ⟨-, hmark⟩ := (Entry.concat_eq_stored (UInt8.not_lt.mp hle)).mp heq
    cases e with
    | exact x => simp [Entry.mark] at hmark
    | root x => exact hr (singleton_inj.mp hmark).symm
    | suffix x => exact hp (singleton_inj.mp hmark).symm

lemma end_iff (hp : ∀ b ∈ p, prefixLabel < b) :
    (p ∈ storedKeys E ∨ ∃ l ∈ labels (storedKeys E) p, l = prefixLabel ∨ l = rootLabel) ↔
      ∃ e ∈ E, p <+: e.base ∧ e.Matches p := by
  constructor
  · rintro (hmem | ⟨l, hl, hmark⟩)
    · obtain ⟨e, he, rfl⟩ := mem_storedKeys.mp hmem
      cases e with
      | exact x => exact ⟨_, he, by simp [Entry.stored, Entry.base, Entry.mark, Entry.Matches]⟩
      | root x => exact absurd (hp rootLabel (mem_append_right _ mem_cons_self)) (by decide)
      | suffix x =>
        exact absurd (hp prefixLabel (mem_append_right _ mem_cons_self)) (by decide)
    · have hle : l ≤ prefixLabel := by
        rcases hmark with rfl | rfl <;> decide
      obtain ⟨e, he, rfl, hm⟩ := (mem_labels_mark hle).mp hl
      refine ⟨e, he, prefix_rfl, ?_⟩
      cases e with
      | exact x => simp [Entry.mark] at hm
      | root x => exact .inl rfl
      | suffix x => exact prefix_rfl
  · rintro ⟨e, he, hpre, hmatch⟩
    have hbase : e.base = p := (e.base_isPrefix hmatch).eq_of_length_le hpre.length_le
    cases e with
    | exact x => exact .inl (mem_storedKeys.mpr ⟨_, he, by simp [Entry.stored, Entry.mark, hbase]⟩)
    | root x =>
      exact .inr ⟨rootLabel, (mem_labels_mark (by decide)).mpr ⟨_, he, hbase, rfl⟩, .inr rfl⟩
    | suffix x =>
      exact .inr ⟨prefixLabel, (mem_labels_mark (by decide)).mpr ⟨_, he, hbase, rfl⟩, .inl rfl⟩

lemma matches_of_hit {b : Int} {key : Str}
    (h : seek c (c = dot ∧ p ++ [rootLabel] ∈ storedKeys E) (labels (storedKeys E) p) b = .hit) :
    ∃ e ∈ E, p <+: e.base ∧ e.Matches (p ++ c :: key) := by
  rcases seek_hit h with hp | ⟨-, hroot⟩
  · obtain ⟨e, he, rfl, hm⟩ := (mem_labels_mark (by decide)).mp hp
    refine ⟨e, he, prefix_rfl, ?_⟩
    cases e with
    | exact x => simp [Entry.mark] at hm
    | root x => simp [Entry.mark, rootLabel, prefixLabel] at hm
    | suffix x => exact prefix_append _ _
  · obtain ⟨rfl, hmem⟩ := of_decide_eq_true hroot
    obtain ⟨e, he, rfl, hm⟩ := (mem_stored_mark (by decide)).mp hmem
    refine ⟨e, he, prefix_rfl, ?_⟩
    cases e with
    | exact x => simp [Entry.mark] at hm
    | root x => exact .inr (by simp [Entry.base])
    | suffix x => simp [Entry.mark, rootLabel, prefixLabel] at hm

lemma hit_or_mem_of_matches {e : Entry} (b : Int) {key : Str} (he : e ∈ E) (hc : c ≠ rootLabel)
    (hpre : p <+: e.base) (hmatch : e.Matches (p ++ c :: key)) :
    seek c (c = dot ∧ p ++ [rootLabel] ∈ storedKeys E) (labels (storedKeys E) p) b = .hit ∨
      p ++ [c] <+: e.base := by
  have hsorted := pairwise_labels (storedKeys E) p
  have hlow : ∀ {m : UInt8}, m ≤ prefixLabel → c ∈ labels (storedKeys E) p → m ≤ c := by
    intro m hm hmem
    by_cases hp : c = prefixLabel
    · exact hp ▸ hm
    · exact UInt8.le_of_lt (UInt8.lt_of_le_of_lt hm (plain_of_mem_labels hmem hp hc))
  have hbase := e.base_isPrefix hmatch
  obtain ⟨t, ht⟩ := hpre
  cases t with
  | nil =>
    -- the name ends at this node, so its mark is a label here
    rw [append_nil] at ht
    have hlonger : ∀ {q : Str}, q = p → p ++ c :: key ≠ q := by
      rintro q rfl h
      simp at h
    left
    cases e with
    | exact x => exact absurd hmatch (hlonger ht.symm)
    | root x =>
      have hdot := hmatch.resolve_left (hlonger ht.symm)
      rw [← show p = x.bytes from ht, prefix_append_right_inj, cons_prefix_cons] at hdot
      have hmem : ∃ e ∈ E, e.base = p ∧ e.mark = [rootLabel] := ⟨_, he, ht.symm, rfl⟩
      refine seek_of_mark (.inr ⟨rfl, ?_⟩) hsorted ((mem_labels_mark (by decide)).mpr hmem)
        (hlow (by decide))
      exact decide_eq_true ⟨hdot.1.symm, (mem_stored_mark (by decide)).mpr hmem⟩
    | suffix x =>
      exact seek_of_mark (.inl rfl) hsorted
        ((mem_labels_mark (by decide)).mpr ⟨_, he, ht.symm, rfl⟩) (hlow (by decide))
  | cons d t =>
    rw [← ht, prefix_append_right_inj, cons_prefix_cons] at hbase
    right
    rw [← ht, hbase.1, prefix_append_right_inj, cons_prefix_cons]
    exact ⟨rfl, List.nil_prefix⟩

end

/-! ### The walk -/

section
variable {E : List Entry} {s : SuccinctBits}

/-- **The walk from a node.** It tells whether an entry whose name goes through
the node matches. -/
lemma hasFrom_eq (h : Layout (storedKeys E) s) (key : Str) (hkey : rootLabel ∉ key) (v : Nat)
    (p : Str) (hv : (trie (storedKeys E))[v]? = some p) (hp : ∀ b ∈ p, prefixLabel < b) :
    s.hasFrom key v (place (storedKeys E) v) =
      .ok (∃ e ∈ E, p <+: e.base ∧ e.Matches (p ++ key)) := by
  induction key generalizing v p with
  | nil =>
    rw [SuccinctBits.hasFrom, h.leaf hv, ok_bind, lookEnd_node h hv, append_nil]
    by_cases hleaf : p ∈ storedKeys E
    · rw [if_pos (decide_eq_true hleaf), decide_eq_true ((end_iff hp).mp (.inl hleaf))]
      rfl
    · rw [if_neg (by simpa using hleaf)]
      congr 1
      rw [decide_eq_decide, ← end_iff hp, or_iff_right hleaf]
  | cons c key ih =>
    have hc : c ≠ rootLabel := fun h => hkey (h ▸ mem_cons_self)
    rw [SuccinctBits.hasFrom, look_node h hv, ok_bind]
    cases hseek : seek c (c = dot ∧ p ++ [rootLabel] ∈ storedKeys E) (labels (storedKeys E) p)
        (place (storedKeys E) v) with
    | miss =>
      symm
      congr 1
      rw [decide_eq_false_iff_not]
      rintro ⟨e, he, hpre, hmatch⟩
      rcases hit_or_mem_of_matches (place (storedKeys E) v) he hc hpre hmatch with hhit | hmem
      · rw [hseek] at hhit
        cases hhit
      · exact seek_ne_miss (mem_labels_iff.mpr ⟨e, he, .inl hmem⟩) hseek
    | hit =>
      symm
      congr 1
      exact decide_eq_true (matches_of_hit hseek)
    | child b =>
      obtain ⟨hne, j, hj, rfl⟩ := seek_child hseek
      obtain ⟨v', hv', -, hchild⟩ := h.child hv hj
      have hplain := plain_of_mem_labels (mem_of_getElem? hj) hne hc
      have hp' : ∀ b ∈ p ++ [c], prefixLabel < b := by
        intro b hb
        rcases mem_append.mp hb with hb | hb
        · exact hp b hb
        · rwa [mem_singleton.mp hb]
      have hnext := ih (fun hmem => hkey (mem_cons_of_mem _ hmem)) v' _ hv' hp'
      change (s.child _ >>= _) = _
      rw [show (place (storedKeys E) v : Int) + (j : Nat) = (place (storedKeys E) v + j : Nat) by
        push_cast; rfl, hchild, ok_bind]
      change s.hasFrom key v' (place (storedKeys E) v') = _
      rw [hnext, append_assoc, singleton_append]
      congr 1
      rw [decide_eq_decide]
      refine exists_congr fun e => and_congr_right fun he => ?_
      refine and_congr_left fun hm => ⟨(prefix_append _ _).trans, fun hpre => ?_⟩
      refine (hit_or_mem_of_matches (place (storedKeys E) v) he hc hpre hm).resolve_left fun hhit => ?_
      rw [hseek] at hhit
      cases hhit

/-- **On the layout of a set the matcher decides whether an entry matches.** -/
lemma has_iff_matches (h : Layout (storedKeys E) s) {key : Str} (hkey : rootLabel ∉ key) :
    s.has key = .ok (∃ e ∈ E, e.Matches key) := by
  have hroot := hasFrom_eq h key hkey 0 [] (trie_zero _) (by simp)
  rw [place_zero] at hroot
  rw [SuccinctBits.has, ← Nat.cast_zero, hroot]
  simp

end

/-! ### Writing and reading a set -/

/-- The words of the leaves as a writer that only sets bits leaves them: without
the zero words at the end. -/
def leafWords (keys : List Str) : List UInt64 := (pack (leavesOf keys)).rdropWhile (· = 0)

def u64Slice (ws : List UInt64) : Str := putUvarint ws.length ++ wordBytes ws

def byteSlice (b : Str) : Str := putUvarint b.length ++ b

def writeSing (keys : List Str) : Str :=
  0 :: (u64Slice (leafWords keys) ++ u64Slice (pack (bitsOf keys)) ++ byteSlice (labelsOf keys))

section
variable {keys : List Str}

lemma sum_onesCount64 (bs : List Bool) (n : Nat) :
    ((List.range n).map fun w => onesCount64 (packWord (bs.drop (64 * w)))).sum
      = ones bs (64 * n) := by
  induction n with
  | zero => simp
  | succ n ih =>
    have hcount : onesCount64 (packWord (bs.drop (64 * n))) =
        ones bs (64 * n + 64) - ones bs (64 * n) := countP_packWord bs n le_rfl
    have hle := ones_mono bs (show 64 * n ≤ 64 * n + 64 by omega)
    rw [range_succ, map_append, sum_append, ih, map_singleton,
      sum_singleton, hcount, show 64 * (n + 1) = 64 * n + 64 by omega]
    omega

lemma sum_onesCount64_pack (bs : List Bool) : ((pack bs).map onesCount64).sum = bs.count true := by
  rw [pack, map_map]
  refine (sum_onesCount64 bs _).trans ?_
  rw [ones, take_of_length_le (by omega)]

lemma lastOneIndex_concat (ws : List UInt64) (w : UInt64) (wi : Nat) (last : Int) (hw : w ≠ 0) :
    lastOneIndex (ws ++ [w]) wi last = (64 * (wi + ws.length) + w.toNat.log2 : Nat) := by
  induction ws generalizing wi last with
  | nil => simp [lastOneIndex, hw]
  | cons v ws ih =>
    rw [cons_append, lastOneIndex, ih, length_cons, Nat.add_right_comm, Nat.add_assoc]

lemma log2_packWord {bs : List Bool} {k : Nat} (hk : k < 64) (hlen : bs.length = k + 1)
    (hone : bs[k]? = some true) : packWord bs ≠ 0 ∧ (packWord bs).toNat.log2 = k := by
  have hbit : (packWord bs).toNat.testBit k = true := by
    rw [testBit_packWord _ hk, getD_eq_getElem?_getD, hone, Option.getD_some]
  have hge : 2 ^ k ≤ (packWord bs).toNat := Nat.ge_two_pow_of_testBit hbit
  have hlt : (packWord bs).toNat < 2 ^ (k + 1) := by
    refine Nat.lt_pow_two_of_testBit _ fun i hi => ?_
    by_cases h64 : i < 64
    · rw [testBit_packWord _ h64, getD_eq_default _ _ (by omega)]
    · exact Nat.testBit_lt_two_pow ((packWord bs).toNat_lt.trans_le
        (Nat.pow_le_pow_right (by omega) (by omega)))
  have hne : (packWord bs).toNat ≠ 0 := by
    have := Nat.one_le_two_pow (n := k)
    omega
  exact ⟨fun h => hne (by rw [h, UInt64.toNat_zero]), (Nat.log2_eq_iff hne).mpr ⟨hge, hlt⟩⟩

lemma lastOneIndex_pack {bs : List Bool} {n : Nat} (hlen : bs.length = n + 1)
    (hone : bs[n]? = some true) : lastOneIndex (pack bs) 0 (-1) = (n : Nat) := by
  have hdrop : (bs.drop (64 * (n / 64))).length = n % 64 + 1 := by
    rw [length_drop]
    omega
  have hlast : (bs.drop (64 * (n / 64)))[n % 64]? = some true := by
    rw [getElem?_drop, Nat.div_add_mod, hone]
  obtain ⟨hne, hlog⟩ := log2_packWord (Nat.mod_lt n (by omega)) hdrop hlast
  rw [pack, show (bs.length + 63) / 64 = n / 64 + 1 by omega, range_succ, map_append,
    map_singleton, lastOneIndex_concat _ _ _ _ hne, hlog, length_map, length_range,
    Nat.zero_add, Nat.div_add_mod]

lemma rdropWhile_append_replicate (ws : List UInt64) :
    ws.rdropWhile (· = 0) ++ List.replicate (ws.length - (ws.rdropWhile (· = 0)).length) 0 = ws := by
  have hzeros : ws.rtakeWhile (· = 0) = List.replicate (ws.rtakeWhile (· = 0)).length 0 :=
    eq_replicate_of_mem fun w hw => by simpa using mem_rtakeWhile_imp hw
  have hsplit : ws.rdropWhile (· = 0) ++ ws.rtakeWhile (· = 0) = ws :=
    rdropWhile_append_rtakeWhile
  have hlen := congrArg List.length hsplit
  rw [length_append] at hlen
  rw [← hlen, Nat.add_sub_cancel_left, ← hzeros, hsplit]

/-- The arrays of a set pass the check, and the leaves are filled up. -/
lemma checkSuccinct_eq (keys : List Str) :
    checkSuccinct (leafWords keys) (pack (bitsOf keys)) (labelsOf keys) =
      .ok (newSuccinctBits (pack (leavesOf keys)) (pack (bitsOf keys)) (labelsOf keys)) := by
  have hones : ((pack (bitsOf keys)).map onesCount64).sum = (labelsOf keys).length + 1 := by
    rw [sum_onesCount64_pack, bitsOf, count_unary, length_degs, length_trie]
  have hlast : lastOneIndex (pack (bitsOf keys)) 0 (-1) = (2 * (labelsOf keys).length : Nat) :=
    lastOneIndex_pack (length_bitsOf keys) (getElem?_bitsOf_last keys)
  have hwords : ((labelsOf keys).length + 1 + 63) / 64 = (pack (leavesOf keys)).length := by
    rw [length_pack, leavesOf, length_map, length_trie]
  have hfill := rdropWhile_append_replicate (pack (leavesOf keys))
  rw [checkSuccinct, hones, hlast, if_neg (by push_cast; omega), hwords]
  exact congrArg (fun ws => Except.ok (newSuccinctBits ws _ _)) hfill

lemma succeeds_readUvarU64Slice {ws : List UInt64} {t : Tape} {rest : Str}
    {P : List UInt64 → Tape → Prop} (hws : ws.length ≤ 2 ^ 28) (ht : t.bytes = u64Slice ws ++ rest)
    (hP : P ws { t with bytes := rest }) : Succeeds readUvarU64Slice t P := by
  rw [u64Slice, append_assoc] at ht
  rw [readUvarU64Slice, succeeds_bind]
  refine succeeds_readUvarint (encodes_putUvarint (hws.trans_lt (by norm_num))) ht ?_
  rw [if_neg (not_lt.mpr hws), succeeds_bind, succeeds_readFull]
  refine ⟨wordBytes ws, rest, rfl, length_wordBytes ws, ?_⟩
  rw [succeeds_pure, decodeWords_wordBytes]
  exact hP

lemma succeeds_readUvarByteSlice {b : Str} {t : Tape} {rest : Str} {P : Str → Tape → Prop}
    (hb : b.length ≤ 2 ^ 34) (ht : t.bytes = byteSlice b ++ rest)
    (hP : P b { t with bytes := rest }) : Succeeds readUvarByteSlice t P := by
  rw [byteSlice, append_assoc] at ht
  rw [readUvarByteSlice, succeeds_bind]
  refine succeeds_readUvarint (encodes_putUvarint (hb.trans_lt (by norm_num))) ht ?_
  rw [if_neg (not_lt.mpr hb), succeeds_readFull]
  exact ⟨b, rest, rfl, rfl, hP⟩

/-- **A written set is read back**, and nothing behind it is taken. -/
lemma succeeds_readSingSuccinct {t : Tape} {rest : Str} {P : SuccinctBits → Tape → Prop}
    (hfew : (trie keys).length < 2 ^ 31) (ht : t.bytes = writeSing keys ++ rest)
    (hP : P (newSuccinctBits (pack (leavesOf keys)) (pack (bitsOf keys)) (labelsOf keys))
      { t with bytes := rest }) : Succeeds readSingSuccinct t P := by
  have htrie := length_trie keys
  have hleaves : (leafWords keys).length ≤ 2 ^ 28 := by
    refine (List.rdropWhile_prefix _ _).length_le.trans ?_
    rw [length_pack, leavesOf, length_map]
    omega
  have hbits : (pack (bitsOf keys)).length ≤ 2 ^ 28 := by
    rw [length_pack, length_bitsOf]
    omega
  rw [writeSing, cons_append, append_assoc, append_assoc] at ht
  rw [readSingSuccinct, succeeds_bind, succeeds_readByte]
  refine ⟨0, _, ht, ?_⟩
  rw [succeeds_bind]
  refine succeeds_readUvarU64Slice hleaves rfl ?_
  rw [succeeds_bind]
  refine succeeds_readUvarU64Slice hbits rfl ?_
  rw [succeeds_bind]
  refine succeeds_readUvarByteSlice (by omega) rfl ?_
  rw [succeeds_lift, checkSuccinct_eq]
  exact ⟨_, rfl, hP⟩

end

/-- **The matcher of a written set.** Read back, the set is walked as its entries
say. -/
theorem has_written (E : List Entry) (hfew : (trie (storedKeys E)).length < 2 ^ 31) {key : Str}
    (hkey : rootLabel ∉ key) (t : Tape) {rest : Str}
    (ht : t.bytes = writeSing (storedKeys E) ++ rest) : Succeeds readSingSuccinct t fun s t' =>
      t'.bytes = rest ∧ s.has key = .ok (∃ e ∈ E, e.Matches key) :=
  succeeds_readSingSuccinct hfew ht ⟨rfl, has_iff_matches (layout_pack hfew) hkey⟩

def oneRoot : List Entry := [.root ⟨[0x61], by simp; decide⟩]

/-- A name below the suffix is found. -/
theorem has_written_oneRoot :
    Succeeds readSingSuccinct (⟨writeSing (storedKeys oneRoot), .eof, fun _ => none, []⟩ : Tape)
      fun s t' => t'.bytes = [] ∧ s.has [0x61, 0x2E, 0x62] = .ok true :=
  has_written oneRoot (by decide +kernel) (show rootLabel ∉ [0x61, 0x2E, 0x62] by decide) _
    (append_nil _).symm

/-- A newline in the key is taken for the mark: the name with its mark in front
is found, and no entry matches it. -/
theorem has_newline :
    (newSuccinctBits (pack (leavesOf (storedKeys oneRoot))) (pack (bitsOf (storedKeys oneRoot)))
        (labelsOf (storedKeys oneRoot))).has [0x61, rootLabel] = .ok true ∧
      ¬ ∃ e ∈ oneRoot, e.Matches [0x61, rootLabel] := by
  decide +kernel

end Ntr.Ruleset
