/-
Level-order unary degree sequences: the shape of a rooted tree as one string of
bits.

* `unary degs`: every node writes a zero for each child and a one behind them;
  `start degs v` is where the node with number `v` begins;
* `BreadthFirst kids root nodes`: the nodes in the order in which a queue visits
  them; `BreadthFirst.getElem?_kid` (**navigation**): the child behind the zero
  at a place has as its number the zeros up to and with that place;
* `Trie`: the prefix tree of a list of keys, its nodes named by their prefixes;
  `breadthFirst_nodes`: the levels one after the other enumerate it.
-/
import Mathlib.Data.List.Infix
import Mathlib.Tactic

namespace Ntr.Louds

open List

/-! ### Bit strings -/

/-- The ones among the first `i` bits. -/
def ones (bs : List Bool) (i : Nat) : Nat := (bs.take i).count true

/-- The one at place `p` is the one with number `i`, counted from zero. -/
def IsSelect (bs : List Bool) (i p : Nat) : Prop := bs[p]? = some true ∧ ones bs p = i

@[simp]
lemma ones_zero (bs : List Bool) : ones bs 0 = 0 := by
  simp [ones]

lemma ones_succ (bs : List Bool) (i : Nat) :
    ones bs (i + 1) = ones bs i + (bs[i]?.getD false).toNat := by
  rw [ones, take_add_one, count_append]
  cases h : bs[i]? with
  | none => simp [ones]
  | some b => cases b <;> simp [ones]

lemma ones_le (bs : List Bool) (i : Nat) : ones bs i ≤ i :=
  count_le_length.trans (length_take_le _ _)

variable {i j d v : Nat} {degs : List Nat}

lemma ones_mono (bs : List Bool) (h : i ≤ j) : ones bs i ≤ ones bs j :=
  (take_sublist_take_left h).count_le true

lemma ones_append (bs cs : List Bool) (i : Nat) :
    ones (bs ++ cs) (bs.length + i) = bs.count true + ones cs i := by
  rw [ones, take_length_add_append, count_append, ones]

lemma ones_append_of_le {bs : List Bool} (cs : List Bool) (h : i ≤ bs.length) :
    ones (bs ++ cs) i = ones bs i := by
  rw [ones, take_append_of_le_length h, ones]

/-- Between two places there are no more ones than places. -/
lemma ones_le_add (bs : List Bool) (h : i ≤ j) : ones bs j ≤ ones bs i + (j - i) := by
  induction j, h using Nat.le_induction with
  | base => simp
  | succ j hij ih =>
    have hbit := Bool.toNat_le (bs[j]?.getD false)
    rw [ones_succ]
    omega

/-- A one that is counted is somewhere. -/
lemma exists_isSelect_of_lt {bs : List Bool} : ∀ {n : Nat}, i < ones bs n → ∃ p < n, IsSelect bs i p
  | 0, h => by simp at h
  | n + 1, h => by
    by_cases hn : i < ones bs n
    · obtain ⟨p, hp, hsel⟩ := exists_isSelect_of_lt hn
      exact ⟨p, hp.trans (Nat.lt_succ_self n), hsel⟩
    · refine ⟨n, Nat.lt_succ_self n, ?_⟩
      have hstep := ones_succ bs n
      cases hb : bs[n]? with
      | none => rw [hb] at hstep; simp at hstep; omega
      | some b =>
        cases b with
        | false => rw [hb] at hstep; simp at hstep; omega
        | true =>
          rw [hb, Option.getD_some, Bool.toNat_true] at hstep
          exact ⟨hb, by omega⟩

/-! ### Degree sequences -/

/-- A zero for every child, then a one. -/
def unary (degs : List Nat) : List Bool :=
  degs.flatMap fun d => List.replicate d false ++ [true]

/-- Where the node with number `v` begins. -/
def start (degs : List Nat) (v : Nat) : Nat := (degs.take v).sum + v

lemma unary_cons (d : Nat) (degs : List Nat) :
    unary (d :: degs) = (List.replicate d false ++ [true]) ++ unary degs := by
  rw [unary, flatMap_cons, unary]

@[simp]
lemma start_zero (degs : List Nat) : start degs 0 = 0 := by
  simp [start]

lemma start_cons_succ (d : Nat) (degs : List Nat) (v : Nat) :
    start (d :: degs) (v + 1) = (d + 1) + start degs v := by
  simp only [start, take_succ_cons, sum_cons]
  omega

lemma start_succ (h : degs[v]? = some d) : start degs (v + 1) = start degs v + d + 1 := by
  simp only [start, take_add_one, h, sum_append, Option.toList_some, sum_singleton]
  omega

lemma length_unary (degs : List Nat) : (unary degs).length = degs.sum + degs.length := by
  induction degs with
  | nil => rfl
  | cons d degs ih =>
    rw [unary_cons, length_append, ih]
    simp only [length_append, length_replicate, length_cons, length_nil, sum_cons]
    omega

lemma count_unary (degs : List Nat) : (unary degs).count true = degs.length := by
  induction degs with
  | nil => rfl
  | cons d degs ih => simp [unary_cons, ih, count_replicate]

lemma length_block (d : Nat) : (List.replicate d false ++ [true]).length = d + 1 := by
  simp

lemma getElem?_unary_of_lt (h : degs[v]? = some d) (hj : j < d) :
    (unary degs)[start degs v + j]? = some false := by
  induction degs generalizing v with
  | nil => simp at h
  | cons e degs ih =>
    cases v with
    | zero =>
      obtain rfl : e = d := by simpa using h
      rw [start_zero, Nat.zero_add, unary_cons, append_assoc,
        getElem?_append_left (by simpa using hj)]
      simp [hj]
    | succ v =>
      rw [start_cons_succ, unary_cons, Nat.add_assoc, ← length_block e,
        getElem?_append_right (Nat.le_add_right _ _), Nat.add_sub_cancel_left]
      exact ih (by simpa using h)

lemma getElem?_unary_end (h : degs[v]? = some d) : (unary degs)[start degs v + d]? = some true := by
  induction degs generalizing v with
  | nil => simp at h
  | cons e degs ih =>
    cases v with
    | zero =>
      obtain rfl : e = d := by simpa using h
      rw [start_zero, Nat.zero_add, unary_cons, append_assoc, getElem?_append_right (by simp)]
      simp
    | succ v =>
      rw [start_cons_succ, unary_cons, Nat.add_assoc, ← length_block e,
        getElem?_append_right (Nat.le_add_right _ _), Nat.add_sub_cancel_left]
      exact ih (by simpa using h)

lemma ones_unary (h : degs[v]? = some d) (hj : j ≤ d) :
    ones (unary degs) (start degs v + j) = v := by
  induction degs generalizing v with
  | nil => simp at h
  | cons e degs ih =>
    cases v with
    | zero =>
      obtain rfl : e = d := by simpa using h
      rw [start_zero, Nat.zero_add, unary_cons, append_assoc,
        ones_append_of_le _ (by simpa using hj)]
      simp [ones, take_replicate, count_replicate]
    | succ v =>
      rw [start_cons_succ, unary_cons, Nat.add_assoc, ← length_block e, ones_append,
        ih (by simpa using h)]
      simp [count_replicate, Nat.add_comm]

lemma isSelect_unary (h : degs[v]? = some d) : IsSelect (unary degs) v (start degs v + d) :=
  ⟨getElem?_unary_end h, ones_unary h le_rfl⟩

/-! ### Breadth-first numbering -/

section
variable {α β : Type*} {v : Nat} {x : α}

lemma getElem?_flatMap {f : α → List β} {l : List α} {j : Nat} (h : l[v]? = some x)
    (hj : j < (f x).length) :
    (l.flatMap f)[((l.map fun y => (f y).length).take v).sum + j]? = (f x)[j]? := by
  induction l generalizing v with
  | nil => simp at h
  | cons y l ih =>
    cases v with
    | zero =>
      obtain rfl : y = x := by simpa using h
      rw [flatMap_cons, take_zero, sum_nil, Nat.zero_add, getElem?_append_left hj]
    | succ v =>
      rw [flatMap_cons, map_cons, take_succ_cons, sum_cons, Nat.add_assoc,
        getElem?_append_right (Nat.le_add_right _ _), Nat.add_sub_cancel_left]
      exact ih (by simpa using h)

/-- The nodes in the order of a queue: behind the root the children of the nodes,
node after node. -/
structure BreadthFirst (kids : α → List α) (root : α) (nodes : List α) : Prop where
  nodes_eq : nodes = root :: nodes.flatMap kids

/-- The degrees of the nodes. -/
def degrees (kids : α → List α) (nodes : List α) : List Nat := nodes.map fun x => (kids x).length

variable {kids : α → List α} {root : α} {nodes : List α}

lemma getElem?_degrees (h : nodes[v]? = some x) :
    (degrees kids nodes)[v]? = some (kids x).length := by
  rw [degrees, getElem?_map, h, Option.map_some]

lemma BreadthFirst.getElem?_zero (h : BreadthFirst kids root nodes) : nodes[0]? = some root := by
  rw [h.nodes_eq, getElem?_cons_zero]

/-- **Navigation.** The zeros up to and with the `j`-th child of a node number
that child. -/
lemma BreadthFirst.getElem?_kid (h : BreadthFirst kids root nodes) {j : Nat} {y : α}
    (hv : nodes[v]? = some x) (hj : (kids x)[j]? = some y) :
    nodes[start (degrees kids nodes) v + j + 1 - v]? = some y := by
  have hlt : j < (kids x).length := (List.getElem?_eq_some_iff.mp hj).1
  have hplace : start (degrees kids nodes) v + j + 1 - v
      = ((degrees kids nodes).take v).sum + j + 1 := by
    rw [start]
    omega
  rw [hplace, h.nodes_eq, List.getElem?_cons_succ, ← h.nodes_eq, degrees, getElem?_flatMap hv hlt,
    hj]

/-- One child for every zero, and a root besides. -/
lemma BreadthFirst.length_nodes (h : BreadthFirst kids root nodes) :
    nodes.length = (degrees kids nodes).sum + 1 := by
  have hlen := congrArg List.length h.nodes_eq
  rwa [length_cons, length_flatMap] at hlen

end

/-! ### The prefix tree of a list of keys -/

section
variable {α : Type*} [DecidableEq α] (letters : List α) (keys : List (List α))

/-- The letters by which some key goes on behind a prefix, in the order of the
alphabet. -/
def labelsAt (p : List α) : List α := letters.filter fun c => ∃ k ∈ keys, p ++ [c] <+: k

/-- The prefixes that are longer by one letter. -/
def kidsAt (p : List α) : List (List α) := (labelsAt letters keys p).map fun c => p ++ [c]

/-- The prefixes of one length. -/
def level : Nat → List (List α)
  | 0 => [[]]
  | n + 1 => (level n).flatMap (kidsAt letters keys)

/-- The length of the longest key. -/
def height : Nat := (keys.map List.length).foldr max 0

/-- All nodes, level after level. -/
def nodes : List (List α) := (List.range (height keys + 1)).flatMap (level letters keys)

variable {letters keys} {p : List α}

lemma length_of_mem_level {n : Nat} (h : p ∈ level letters keys n) : p.length = n := by
  induction n generalizing p with
  | zero => simpa [level] using h
  | succ n ih =>
    obtain ⟨q, hq, hp⟩ := mem_flatMap.mp h
    obtain ⟨c, -, rfl⟩ := mem_map.mp hp
    rw [length_append, ih hq, length_singleton]

omit [DecidableEq α] in
lemma length_le_height {k : List α} (h : k ∈ keys) : k.length ≤ height keys := by
  induction keys with
  | nil => simp at h
  | cons k' keys ih =>
    rw [height, map_cons, foldr_cons]
    rcases mem_cons.mp h with rfl | h
    · exact le_max_left _ _
    · exact (ih h).trans (le_max_right _ _)

/-- Nothing goes on behind a prefix as long as the longest key. -/
lemma kidsAt_eq_nil (h : height keys ≤ p.length) : kidsAt letters keys p = [] := by
  rw [kidsAt, map_eq_nil_iff, labelsAt, filter_eq_nil_iff]
  rintro c - hc
  obtain ⟨k, hk, hp⟩ := of_decide_eq_true hc
  have hle := hp.length_le.trans (length_le_height hk)
  rw [length_append, length_singleton] at hle
  omega

/-- **The levels enumerate the tree breadth first.** -/
lemma breadthFirst_nodes : BreadthFirst (kidsAt letters keys) [] (nodes letters keys) := by
  refine ⟨?_⟩
  have hlast : (level letters keys (height keys)).flatMap (kidsAt letters keys) = [] :=
    flatMap_eq_nil_iff.mpr fun p hp => kidsAt_eq_nil (length_of_mem_level hp).ge
  calc nodes letters keys = level letters keys 0
          ++ (List.range (height keys)).flatMap fun n => level letters keys (n + 1) := by
        rw [nodes, range_succ_eq_map, flatMap_cons, flatMap_map]
    _ = [] :: (List.range (height keys)).flatMap fun n =>
          (level letters keys n).flatMap (kidsAt letters keys) := rfl
    _ = [] :: (List.range (height keys + 1)).flatMap fun n =>
          (level letters keys n).flatMap (kidsAt letters keys) := by
        rw [range_succ, flatMap_append, flatMap_singleton, hlast, append_nil]
    _ = [] :: (nodes letters keys).flatMap (kidsAt letters keys) := by
        rw [nodes, flatMap_assoc]

lemma mem_labelsAt {c : α} :
    c ∈ labelsAt letters keys p ↔ c ∈ letters ∧ ∃ k ∈ keys, p ++ [c] <+: k := by
  rw [labelsAt, mem_filter, decide_eq_true_iff]

end

end Ntr.Louds
