/-
The layout of a set of keys in a compressed domain set: its prefix tree, level
by level.

* `Layout s keys`: the arrays of `s` answer every question of a matcher as this
  layout says; `layout_pack`: the packed arrays do, while an `int32` counts the
  nodes;
* `Layout.label`, `Layout.last`, `Layout.child`: what a matcher sees that stands
  at a node, one label after the other, and where it goes from there.
-/
import Ntr.Ruleset.Succinct

namespace Ntr.Ruleset

open Go Louds List

def allBytes : Str := (List.range 256).map UInt8.ofNat

section
variable (keys : List Str)

def labels (p : Str) : Str := labelsAt allBytes keys p

def trie : List Str := nodes allBytes keys

def degs : List Nat := degrees (kidsAt allBytes keys) (trie keys)

def bitsOf : List Bool := unary (degs keys)

def labelsOf : Str := (trie keys).flatMap (labels keys)

def leavesOf : List Bool := (trie keys).map fun p => p ∈ keys

def place (v : Nat) : Nat := start (degs keys) v

/-- The two lines by which a matcher goes to the child at `bmIdx`: its number and
where its labels begin. -/
def SuccinctBits.child (s : SuccinctBits) (bmIdx : Int) : Except Fault (Int × Int) := do
  let nodeId ← s.countZeros (bmIdx + 1)
  let sel ← s.selectIthOne (nodeId - 1)
  return (nodeId, sel + 1)

/-- The rounds after which a loop over the bitmap has left it. -/
def SuccinctBits.rounds (s : SuccinctBits) : Nat := 64 * s.labelBitmap.length + 1

structure Layout (s : SuccinctBits) : Prop where
  bit : ∀ {i : Nat} {b : Bool}, (bitsOf keys)[i]? = some b → getBit s.labelBitmap i = .ok b
  leaf : ∀ {v : Nat} {p : Str}, (trie keys)[v]? = some p → getBit s.leaves v = .ok (p ∈ keys)
  text : ∀ {i : Nat} {c : UInt8}, (labelsOf keys)[i]? = some c → nth s.labels i = .ok c
  zeros : ∀ {i : Nat}, i ≤ (bitsOf keys).length →
    s.countZeros i = .ok (i - ones (bitsOf keys) i : Nat)
  select : ∀ {i p : Nat}, IsSelect (bitsOf keys) i p → s.selectIthOne i = .ok (p : Nat)
  size : (bitsOf keys).length ≤ 64 * s.labelBitmap.length

end

variable {keys : List Str} {s : SuccinctBits} {v j : Nat} {p : Str} {c : UInt8}

/-! ### The tree -/

lemma mem_allBytes (c : UInt8) : c ∈ allBytes :=
  mem_map.mpr ⟨c.toNat, mem_range.mpr c.toNat_lt, UInt8.ofNat_toNat⟩

lemma pairwise_allBytes : allBytes.Pairwise (· < ·) := by
  refine pairwise_map.mpr (pairwise_lt_range.imp_of_mem fun {a b} ha hb hab => ?_)
  rw [UInt8.lt_iff_toNat_lt, UInt8.toNat_ofNat_of_lt' (mem_range.mp ha),
    UInt8.toNat_ofNat_of_lt' (mem_range.mp hb)]
  exact hab

lemma mem_labels : c ∈ labels keys p ↔ ∃ k ∈ keys, p ++ [c] <+: k := by
  rw [labels, mem_labelsAt, and_iff_right (mem_allBytes c)]

lemma pairwise_labels (keys : List Str) (p : Str) : (labels keys p).Pairwise (· < ·) :=
  pairwise_allBytes.sublist filter_sublist

lemma length_kidsAt : (kidsAt allBytes keys p).length = (labels keys p).length := by
  rw [kidsAt, length_map, labels]

lemma getElem?_degs (hv : (trie keys)[v]? = some p) :
    (degs keys)[v]? = some (labels keys p).length := by
  rw [degs, getElem?_degrees hv, length_kidsAt]

lemma length_degs (keys : List Str) : (degs keys).length = (trie keys).length := by
  rw [degs, degrees, length_map]

lemma trie_zero (keys : List Str) : (trie keys)[0]? = some [] := breadthFirst_nodes.getElem?_zero

@[simp]
lemma place_zero (keys : List Str) : place keys 0 = 0 := start_zero _

lemma le_place : v ≤ place keys v := Nat.le_add_left _ _

lemma getElem?_labelsOf (hv : (trie keys)[v]? = some p) (hj : (labels keys p)[j]? = some c) :
    (labelsOf keys)[place keys v + j - v]? = some c := by
  have hplace : place keys v + j - v = ((degs keys).take v).sum + j := by
    rw [place, start]
    omega
  have hdegs : degs keys = (trie keys).map fun q => (labels keys q).length :=
    List.map_congr_left fun q _ => length_kidsAt
  rw [hplace, hdegs, labelsOf, getElem?_flatMap hv (List.getElem?_eq_some_iff.mp hj).1, hj]

lemma length_trie (keys : List Str) : (trie keys).length = (labelsOf keys).length + 1 := by
  have hlabels : (labelsOf keys).length = (degs keys).sum := by
    rw [labelsOf, length_flatMap, degs, degrees]
    simp only [length_kidsAt]
  rw [hlabels]
  exact breadthFirst_nodes.length_nodes

lemma length_bitsOf (keys : List Str) : (bitsOf keys).length = 2 * (labelsOf keys).length + 1 := by
  have hlen : (trie keys).length = (degs keys).sum + 1 := breadthFirst_nodes.length_nodes
  have htrie := length_trie keys
  rw [bitsOf, length_unary, length_degs]
  omega

lemma getElem?_bitsOf_last (keys : List Str) :
    (bitsOf keys)[2 * (labelsOf keys).length]? = some true := by
  have hlen := length_bitsOf keys
  have htrie := length_trie keys
  obtain ⟨p, hp⟩ : ∃ p, (trie keys)[(labelsOf keys).length]? = some p :=
    ⟨_, getElem?_eq_getElem (by omega)⟩
  have hend := getElem?_unary_end (getElem?_degs hp)
  have hnext := start_succ (getElem?_degs hp)
  have hstart : start (degs keys) ((labelsOf keys).length + 1) = (bitsOf keys).length := by
    rw [bitsOf, length_unary, start, take_of_length_le (by rw [length_degs]; omega),
      length_degs, htrie]
  rw [show 2 * (labelsOf keys).length = start (degs keys) (labelsOf keys).length
    + (labels keys p).length by omega]
  exact hend

/-! ### Walking the arrays -/

lemma drop_of_getElem? {α : Type} {l : List α} {j : Nat} {a : α} (h : l[j]? = some a) :
    l.drop j = a :: l.drop (j + 1) := by
  obtain ⟨hlt, rfl⟩ := List.getElem?_eq_some_iff.mp h
  exact List.drop_eq_getElem_cons hlt

namespace Layout

/-- A label of a node: no end bit, and the label itself. -/
lemma label (h : Layout keys s) (hv : (trie keys)[v]? = some p)
    (hj : (labels keys p)[j]? = some c) :
    getBit s.labelBitmap (place keys v + j : Nat) = .ok false ∧
      nth s.labels ((place keys v + j : Nat) - v) = .ok c := by
  have hlt : j < (labels keys p).length := (List.getElem?_eq_some_iff.mp hj).1
  have hle : v ≤ place keys v + j := le_place.trans (Nat.le_add_right _ _)
  refine ⟨h.bit (getElem?_unary_of_lt (getElem?_degs hv) hlt), ?_⟩
  rw [← Nat.cast_sub hle]
  exact h.text (getElem?_labelsOf hv hj)

lemma last (h : Layout keys s) (hv : (trie keys)[v]? = some p) :
    getBit s.labelBitmap (place keys v + (labels keys p).length : Nat) = .ok true :=
  h.bit (getElem?_unary_end (getElem?_degs hv))

lemma length_labels_lt (h : Layout keys s) (hv : (trie keys)[v]? = some p) :
    (labels keys p).length < s.rounds := by
  have hlt := (List.getElem?_eq_some_iff.mp (getElem?_unary_end (getElem?_degs hv))).1
  have hsize : (unary (degs keys)).length ≤ 64 * s.labelBitmap.length := h.size
  rw [SuccinctBits.rounds]
  omega

/-- **To a child.** The place of a label leads to the node that is longer by it. -/
lemma child (h : Layout keys s) (hv : (trie keys)[v]? = some p)
    (hj : (labels keys p)[j]? = some c) : ∃ v', (trie keys)[v']? = some (p ++ [c]) ∧
      s.countZeros ((place keys v + j : Nat) + 1) = .ok (v' : Nat) ∧
      s.child (place keys v + j : Nat) = .ok ((v' : Nat), (place keys v' : Nat)) := by
  have hlt : j < (labels keys p).length := (List.getElem?_eq_some_iff.mp hj).1
  have hkid : (kidsAt allBytes keys p)[j]? = some (p ++ [c]) := by
    rw [kidsAt, List.getElem?_map, ← labels, hj, Option.map_some]
  have hv' := breadthFirst_nodes.getElem?_kid hv hkid
  set v' := place keys v + j + 1 - v with hdef
  have hones : ones (bitsOf keys) (place keys v + j + 1) = v := by
    rw [Nat.add_assoc]
    exact ones_unary (getElem?_degs hv) hlt
  have hin : place keys v + j + 1 ≤ (bitsOf keys).length :=
    (List.getElem?_eq_some_iff.mp (getElem?_unary_of_lt (getElem?_degs hv) hlt)).1
  have hzeros : s.countZeros ((place keys v + j : Nat) + 1) = .ok (v' : Nat) := by
    have hz := h.zeros hin
    rw [hones] at hz
    exact_mod_cast hz
  have hpos : 0 < v' := by
    have : v ≤ place keys v := le_place
    omega
  -- the one that ends the node before the child stands right in front of the child
  obtain ⟨q, hq⟩ : ∃ q, (trie keys)[v' - 1]? = some q := by
    refine ⟨_, List.getElem?_eq_getElem ?_⟩
    have := (List.getElem?_eq_some_iff.mp hv').1
    exact (Nat.sub_le _ _).trans_lt this
  have hselect := h.select (isSelect_unary (getElem?_degs hq))
  have hnext := start_succ (getElem?_degs hq)
  rw [Nat.sub_add_cancel hpos] at hnext
  refine ⟨v', hv', hzeros, ?_⟩
  rw [SuccinctBits.child, hzeros]
  change (s.selectIthOne ((v' : Int) - 1) >>= _) = _
  rw [show (v' : Int) - 1 = ((v' - 1 : Nat) : Int) by omega, hselect]
  change Except.ok _ = Except.ok _
  rw [place, hnext]
  push_cast
  rfl

end Layout

/-! ### The packed arrays -/

/-- **The packed arrays are laid out so**, while an `int32` counts the nodes. -/
lemma layout_pack (hfew : (trie keys).length < 2 ^ 31) :
    Layout keys (newSuccinctBits (pack (leavesOf keys)) (pack (bitsOf keys)) (labelsOf keys)) := by
  have hcount : (bitsOf keys).count true < 2 ^ 31 := by
    rwa [bitsOf, count_unary, length_degs]
  exact {
    bit := getBit_pack
    leaf := fun {v p} hv => getBit_pack (by rw [leavesOf, getElem?_map, hv, Option.map_some])
    text := nth_natCast
    zeros := countZeros_pack _ _ ((ones_le_count _ _).trans_lt hcount)
    select := selectIthOne_pack _ _ hcount
    size := by
      change (bitsOf keys).length ≤ 64 * (pack (bitsOf keys)).length
      rw [length_pack]
      omega }

end Ntr.Ruleset
