/-
The layers of a stack (`core/compile/compile.go`, `service/stack.go`): a set of
layers in any order becomes one stack, from the bottom to the top.

* `order`: the layers by band, with the checks between neighbours; `order_eq_ok`
  says which stack it gives, `order_perm` that the order in which the layers are
  written does not matter.
-/
import Mathlib.Data.List.FinRange
import Mathlib.Data.List.Sort
import Ntr.Go.Strings

namespace Ntr.Stack

open Go
open List (Perm)
open scoped List Relator

/-! ### Descriptors -/

/-- `AnyDescriptor`, over nodes `N` of the configuration, parsed configurations
`C` and built layers `B`. Bands and sorts are `uint8`, capabilities `uint16`. -/
structure AnyDescriptor (N C B : Type) where
  name : Str
  band : UInt8
  /-- `In`: the sorts that the layer may stand on, any if there is none. -/
  ins : List UInt8
  out : UInt8
  requires : List UInt16
  requiresAdjacent : List UInt16
  provides : List UInt16
  parse : Option N → Except Str C
  build : C → Except Str B

/-- The errors of `Order`, with the values their texts show. -/
inductive OrderErr where
  | emptyStack
  | bandConflict (lower upper : Str) (band : UInt8)
  | shapeAdjacency (lower : Str) (out : UInt8) (upper : Str) (ins : List UInt8)
  | capAdjacency (layer : Str) (id : UInt16) (lower : Str) (provides : List UInt16)
  | capMissing (layer : Str) (id : UInt16)
  deriving DecidableEq

/-- `%v` of a list of numbers. -/
def fmtList (ns : List Nat) : Str := lit "[" ++ (lit " ").intercalate (ns.map itoa) ++ lit "]"

/-- `Error`, where `quote` is the verb `%q`. -/
def OrderErr.text (quote : Str → Str) : OrderErr → Str
  | .emptyStack => lit "compile: empty stack"
  | .bandConflict lower upper band =>
    lit "compile: two layers occupy the same Band: " ++ quote lower ++ lit " and " ++
      quote upper ++ lit " both at Band " ++ itoa band.toNat
  | .shapeAdjacency lower out upper ins =>
    lit "compile: shape mismatch between adjacent layers: " ++ quote lower ++ lit "(out=" ++
      itoa out.toNat ++ lit ") → " ++ quote upper ++ lit "(in=" ++
      fmtList (ins.map UInt8.toNat) ++ lit ")"
  | .capAdjacency layer id lower provides =>
    lit "compile: RequiresAdjacent not provided by immediate lower: " ++ quote layer ++
      lit " needs cap " ++ itoa id.toNat ++ lit " adjacently; lower " ++ lower ++
      lit " provides " ++ fmtList (provides.map UInt16.toNat)
  | .capMissing layer id =>
    lit "compile: Requires not provided by any lower layer: " ++ quote layer ++
      lit " needs cap " ++ itoa id.toNat ++ lit ", no lower layer provides it"

section
variable {N C B : Type}

/-! ### The order of the layers -/

def NotAbove (a b : AnyDescriptor N C B) : Prop := a.band ≤ b.band

instance decidableNotAbove : DecidableRel (NotAbove (N := N) (C := C) (B := B)) :=
  fun a b => inferInstanceAs (Decidable (a.band ≤ b.band))

instance totalNotAbove : Std.Total (NotAbove (N := N) (C := C) (B := B)) :=
  ⟨fun a b => UInt8.le_total a.band b.band⟩

instance transNotAbove : IsTrans (AnyDescriptor N C B) NotAbove :=
  ⟨fun _ _ _ => UInt8.le_trans⟩

def byBand (layers : List (AnyDescriptor N C B)) : List (AnyDescriptor N C B) :=
  layers.insertionSort NotAbove

def bandConflict : List (AnyDescriptor N C B) → Option OrderErr
  | lower :: layer :: rest =>
    if layer.band = lower.band then some (.bandConflict lower.name layer.name layer.band)
    else bandConflict (layer :: rest)
  | _ => none

/-- The shape of the layer below, which the bottom layer does not have. -/
def checkShape (lower : Option (AnyDescriptor N C B)) (layer : AnyDescriptor N C B) :
    Option OrderErr :=
  match lower with
  | none => none
  | some l =>
    if layer.ins ≠ [] ∧ l.out ∉ layer.ins then
      some (.shapeAdjacency l.name l.out layer.name layer.ins)
    else none

def lowerName (lower : Option (AnyDescriptor N C B)) : Str :=
  (lower.map (·.name)).getD (lit "(none)")

def lowerProvides (lower : Option (AnyDescriptor N C B)) : List UInt16 :=
  (lower.map (·.provides)).getD []

/-- The loop over `RequiresAdjacent`. -/
def checkAdjacent (lower : Option (AnyDescriptor N C B)) (layer : AnyDescriptor N C B) :
    Option OrderErr :=
  (layer.requiresAdjacent.find? fun id => id ∉ lowerProvides lower).map fun id =>
    .capAdjacency layer.name id (lowerName lower) (lowerProvides lower)

/-- The loop over `Requires`. -/
def checkRequires (provided : List UInt16) (layer : AnyDescriptor N C B) : Option OrderErr :=
  (layer.requires.find? fun id => id ∉ provided).map fun id => .capMissing layer.name id

/-- The three checks from the bottom to the top, where `provided` collects what
the layers below provide. -/
def checkLayers :
    Option (AnyDescriptor N C B) → List UInt16 → List (AnyDescriptor N C B) → Option OrderErr
  | _, _, [] => none
  | lower, provided, layer :: rest =>
    (checkShape lower layer).or <| (checkAdjacent lower layer).or <|
      (checkRequires provided layer).or <|
        checkLayers (some layer) (provided ++ layer.provides) rest

def order (layers : List (AnyDescriptor N C B)) : Except OrderErr (List (AnyDescriptor N C B)) :=
  match layers with
  | [] => .error .emptyStack
  | _ :: _ =>
    match (bandConflict (byBand layers)).or (checkLayers none [] (byBand layers)) with
    | some e => .error e
    | none => .ok (byBand layers)

/-! ### What the checks ask -/

def Compatible (lower layer : AnyDescriptor N C B) : Prop :=
  layer.ins = [] ∨ lower.out ∈ layer.ins

/-- Every layer finds in the layers below it what it requires, and what it
requires adjacently in the one right below it. -/
structure Supplied (stack : List (AnyDescriptor N C B)) : Prop where
  requires : ∀ below layer above, stack = below ++ layer :: above →
    ∀ id ∈ layer.requires, ∃ l ∈ below, id ∈ l.provides
  adjacent : ∀ below layer above, stack = below ++ layer :: above →
    ∀ id ∈ layer.requiresAdjacent, ∃ l, below.getLast? = some l ∧ id ∈ l.provides

/-- A stack, from the bottom, whose layers fit on each other. -/
structure Fits (stack : List (AnyDescriptor N C B)) : Prop where
  shapes : stack.IsChain Compatible
  supplied : Supplied stack

section
variable {lower : Option (AnyDescriptor N C B)} {layer : AnyDescriptor N C B}
  {provided : List UInt16} {stack : List (AnyDescriptor N C B)}

lemma checkShape_eq_none : checkShape lower layer = none ↔ ∀ l ∈ lower, Compatible l layer := by
  cases lower with
  | none => simp [checkShape]
  | some l => simp [checkShape, Compatible, or_iff_not_imp_left]

lemma checkAdjacent_eq_none : checkAdjacent lower layer = none ↔
    ∀ id ∈ layer.requiresAdjacent, ∃ l, lower = some l ∧ id ∈ l.provides := by
  simp only [checkAdjacent, Option.map_eq_none_iff, List.find?_eq_none, decide_eq_true_eq, not_not]
  cases lower with
  | none => simp [lowerProvides]
  | some l => simp [lowerProvides]

lemma checkRequires_eq_none :
    checkRequires provided layer = none ↔ ∀ id ∈ layer.requires, id ∈ provided := by
  simp [checkRequires]

/-- Bands that ascend do so strictly exactly when no two neighbours share one. -/
lemma bandConflict_eq_none (hsorted : stack.Pairwise NotAbove) :
    bandConflict stack = none ↔ stack.Pairwise fun a b => a.band < b.band := by
  induction stack with
  | nil => simp [bandConflict]
  | cons a rest ih =>
    have htail := hsorted.of_cons
    cases rest with
    | nil => simp [bandConflict]
    | cons b rest =>
      have hab : a.band ≤ b.band := List.rel_of_pairwise_cons hsorted List.mem_cons_self
      rw [bandConflict]
      split_ifs with heq
      · simp [heq]
      · have hlt : a.band < b.band := UInt8.lt_of_le_of_ne hab (Ne.symm heq)
        rw [ih htail, List.pairwise_cons (a := a)]
        refine ⟨fun h => ⟨fun c hc => ?_, h⟩, And.right⟩
        rcases List.mem_cons.mp hc with rfl | hc
        · exact hlt
        · exact UInt8.lt_trans hlt (List.rel_of_pairwise_cons h hc)

/-- The checks from any point on, over the layers `below` that went before. -/
lemma checkLayers_eq_none (stack below : List (AnyDescriptor N C B)) :
    checkLayers below.getLast? (below.flatMap (·.provides)) stack = none ↔
      ∀ mid layer above, stack = mid ++ layer :: above →
        (∀ l ∈ (below ++ mid).getLast?, Compatible l layer) ∧
        (∀ id ∈ layer.requiresAdjacent, ∃ l, (below ++ mid).getLast? = some l ∧ id ∈ l.provides) ∧
        ∀ id ∈ layer.requires, ∃ l ∈ below ++ mid, id ∈ l.provides := by
  induction stack generalizing below with
  | nil => simp [checkLayers]
  | cons layer rest ih =>
    have hnext := ih (below ++ [layer])
    rw [List.getLast?_concat, List.flatMap_append, List.flatMap_singleton] at hnext
    simp only [checkLayers, Option.or_eq_none_iff, hnext, checkShape_eq_none,
      checkAdjacent_eq_none, checkRequires_eq_none, List.mem_flatMap]
    refine ⟨?_, fun h => ?_⟩
    · rintro ⟨hshape, hadj, hreq, hrest⟩ mid layer' above heq
      cases mid with
      | nil =>
        obtain ⟨rfl, rfl⟩ := List.cons.inj heq
        rw [List.append_nil]
        exact ⟨hshape, hadj, hreq⟩
      | cons m mid =>
        obtain ⟨rfl, htail⟩ := List.cons.inj heq
        simpa using hrest mid layer' above htail
    · obtain ⟨hshape, hadj, hreq⟩ := h [] layer rest rfl
      rw [List.append_nil] at hshape hadj hreq
      refine ⟨hshape, hadj, hreq, fun mid layer' above htail => ?_⟩
      simpa using h (layer :: mid) layer' above (by rw [htail, List.cons_append])

lemma isChain_iff_split {R : AnyDescriptor N C B → AnyDescriptor N C B → Prop} :
    stack.IsChain R ↔ ∀ below layer above, stack = below ++ layer :: above →
      ∀ l ∈ below.getLast?, R l layer := by
  rw [List.isChain_iff_forall_rel_of_append_cons_cons]
  refine ⟨fun h below layer above heq l hl => ?_, fun h a b l₁ l₂ heq => ?_⟩
  · obtain ⟨init, rfl⟩ := List.getLast?_eq_some_iff.mp hl
    exact h (by rw [heq, List.append_assoc, List.singleton_append])
  · exact h (l₁ ++ [a]) b l₂ (by rw [heq, List.append_assoc, List.singleton_append]) a (by simp)

/-- **The three checks together.** -/
lemma checkLayers_none_iff : checkLayers none [] stack = none ↔ Fits stack := by
  have h := checkLayers_eq_none stack []
  simp only [List.getLast?_nil, List.flatMap_nil, List.nil_append] at h
  rw [h]
  refine ⟨fun h => ⟨isChain_iff_split.mpr fun below layer above heq =>
      (h below layer above heq).1, ⟨?_, ?_⟩⟩, fun hfits below layer above heq => ⟨?_, ?_, ?_⟩⟩
  · exact fun below layer above heq => (h below layer above heq).2.2
  · exact fun below layer above heq => (h below layer above heq).2.1
  · exact isChain_iff_split.mp hfits.shapes below layer above heq
  · exact hfits.supplied.adjacent below layer above heq
  · exact hfits.supplied.requires below layer above heq

end

section
variable {layers layers' stack : List (AnyDescriptor N C B)}

lemma perm_byBand (layers : List (AnyDescriptor N C B)) : (byBand layers).Perm layers :=
  List.perm_insertionSort _ _

lemma pairwise_byBand (layers : List (AnyDescriptor N C B)) : (byBand layers).Pairwise NotAbove :=
  List.pairwise_insertionSort _ _

lemma nodup_band_iff (hsorted : stack.Pairwise NotAbove) :
    (stack.map (·.band)).Nodup ↔ stack.Pairwise fun a b => a.band < b.band := by
  rw [List.Nodup, List.pairwise_map]
  refine ⟨fun hne => (hsorted.and hne).imp fun h => UInt8.lt_of_le_of_ne h.1 h.2, fun hlt => ?_⟩
  exact hlt.imp fun h => UInt8.ne_of_lt h

lemma byBand_eq_of_perm (hperm : stack.Perm layers)
    (hbands : stack.Pairwise fun a b => a.band < b.band) : byBand layers = stack := by
  have hle : stack.Pairwise NotAbove := hbands.imp UInt8.le_of_lt
  refine ((perm_byBand layers).trans hperm.symm).eq_of_pairwise ?_ (pairwise_byBand layers) hle
  intro a b ha hb hab hba
  have hmem : a ∈ stack := (hperm.trans (perm_byBand layers).symm).mem_iff.mpr ha
  exact List.inj_on_of_nodup_map ((nodup_band_iff hle).mpr hbands) hmem hb
    (UInt8.le_antisymm hab hba)

/-- **The stack of `Order`**: the layers in strictly ascending bands, if they
fit on each other. -/
lemma order_eq_ok : order layers = .ok stack ↔
    layers ≠ [] ∧ stack.Perm layers ∧ (stack.Pairwise fun a b => a.band < b.band) ∧
      Fits stack := by
  cases layers with
  | nil => simp [order]
  | cons a rest =>
    have hsorted := pairwise_byBand (a :: rest)
    rw [order]
    set sorted := byBand (a :: rest) with hdef
    cases herr : (bandConflict sorted).or (checkLayers none [] sorted) with
    | none =>
      obtain ⟨hconflict, hlayers⟩ := Option.or_eq_none_iff.mp herr
      have hbands := (bandConflict_eq_none hsorted).mp hconflict
      have hfits := checkLayers_none_iff.mp hlayers
      refine ⟨fun h => ?_, fun h => congrArg _ (byBand_eq_of_perm h.2.1 h.2.2.1)⟩
      rw [← Except.ok.inj h]
      exact ⟨List.cons_ne_nil _ _, perm_byBand _, hbands, hfits⟩
    | some e =>
      refine iff_of_false (by simp) ?_
      rintro ⟨-, hperm, hbands, hfits⟩
      rw [hdef, byBand_eq_of_perm hperm hbands, checkLayers_none_iff.mpr hfits,
        (bandConflict_eq_none (hbands.imp UInt8.le_of_lt)).mpr hbands] at herr
      cases herr

lemma order_perm (hperm : layers.Perm layers') :
    order layers = .ok stack ↔ order layers' = .ok stack := by
  have hnil : layers = [] ↔ layers' = [] :=
    ⟨fun h => (h ▸ hperm).nil_eq.symm, fun h => (h ▸ hperm).eq_nil⟩
  have hstack : stack.Perm layers ↔ stack.Perm layers' :=
    ⟨fun h => h.trans hperm, fun h => h.trans hperm.symm⟩
  rw [order_eq_ok, order_eq_ok, ne_eq, ne_eq, hnil, hstack]

/-- `Order` accepts the layers. -/
def Accepted (layers : List (AnyDescriptor N C B)) : Prop := ∃ stack, order layers = .ok stack

lemma accepted_iff : Accepted layers ↔
    layers ≠ [] ∧ (layers.map (·.band)).Nodup ∧ Fits (byBand layers) := by
  have hbands : (layers.map (·.band)).Nodup ↔
      (byBand layers).Pairwise fun a b => a.band < b.band := by
    rw [← nodup_band_iff (pairwise_byBand layers)]
    exact (((perm_byBand layers).map _).nodup_iff).symm
  simp only [Accepted, order_eq_ok, hbands]
  refine ⟨?_, fun h => ⟨_, h.1, perm_byBand layers, h.2.1, h.2.2⟩⟩
  rintro ⟨stack, hne, hperm, hlt, hfits⟩
  rw [byBand_eq_of_perm hperm hlt]
  exact ⟨hne, hlt, hfits⟩

/-- **`Order` is a function of the set of layers.** Written in another order they
give the same stack or are rejected as well; they are accepted exactly when there
is a layer, all bands differ, and in the order of the bands the layers fit on each
other; the stack then has the layers in that order. -/
theorem order_of_layers (layers : List (AnyDescriptor N C B)) : (∀ layers', layers.Perm layers' →
      (∀ stack, order layers = .ok stack ↔ order layers' = .ok stack) ∧
      (Accepted layers ↔ Accepted layers')) ∧
    (Accepted layers ↔ layers ≠ [] ∧ (layers.map (·.band)).Nodup ∧ Fits (byBand layers)) ∧
    ∀ stack, order layers = .ok stack →
      stack.Perm layers ∧ stack.Pairwise fun a b => a.band < b.band := by
  refine ⟨fun layers' hperm => ⟨fun stack => order_perm hperm, ?_⟩, accepted_iff, ?_⟩
  · exact exists_congr fun stack => order_perm hperm
  · intro stack h
    obtain ⟨-, hstack, hbands, -⟩ := order_eq_ok.mp h
    exact ⟨hstack, hbands⟩

/-- No layers meet every condition, and are rejected. -/
theorem order_empty : ¬ Accepted ([] : List (AnyDescriptor Unit Unit Unit)) ∧
    (([] : List (AnyDescriptor Unit Unit Unit)).map (·.band)).Nodup ∧
    Fits (byBand ([] : List (AnyDescriptor Unit Unit Unit))) := by
  refine ⟨?_, List.nodup_nil, ⟨.nil, ⟨?_, ?_⟩⟩⟩
  · rintro ⟨stack, h⟩
    cases h
  · intro below layer above h
    simp [byBand] at h
  · intro below layer above h
    simp [byBand] at h

end

end

/-! ### Building the stack -/

section
variable {N C B : Type}

/-- The registry of descriptors, each under its own name. -/
structure Registry (N C B : Type) where
  lookup : Str → Option (AnyDescriptor N C B)
  name_of_lookup : ∀ name d, lookup name = some d → d.name = name

structure LayerSpec (N : Type) where
  name : Str
  node : Option N

structure Kinds (B : Type) where
  baseTransport : B → Bool
  streamTransport : B → Bool

/-- The results of `buildStack`. -/
structure Built (B : Type) where
  base : Option B
  below : List B
  top : Option B
  deriving DecidableEq

/-- The loop that looks up the layers, where `seen` holds the names so far. -/
def describe (R : Registry N C B) (quote : Str → Str) :
    List Str → List (LayerSpec N) → Except Str (List (AnyDescriptor N C B))
  | _, [] => .ok []
  | seen, l :: ls =>
    match R.lookup l.name with
    | none => .error (lit "service: 未知层 " ++ quote l.name)
    | some d =>
      if l.name ∈ seen then .error (lit "service: 层 " ++ quote l.name ++ lit " 重复")
      else (describe R quote (l.name :: seen) ls).map (d :: ·)

def nodeOf (layers : List (LayerSpec N)) (name : Str) : Option N :=
  (layers.find? (·.name = name)).bind (·.node)

def buildLayer (quote : Str → Str) (node : Option N) (d : AnyDescriptor N C B) : Except Str B :=
  match d.parse node with
  | .error e => .error (lit "service: 解析层 " ++ quote d.name ++ lit " 配置:" ++ e)
  | .ok cfg =>
    match d.build cfg with
    | .error e => .error (lit "service: 构建层 " ++ quote d.name ++ lit ":" ++ e)
    | .ok built => .ok built

/-- The loop over the ordered layers. The last one is the top; the first one may
be a base; every other one has to carry streams. -/
def raise (K : Kinds B) (quote : Str → Str) (node : Str → Option N) :
    Bool → Built B → List (AnyDescriptor N C B) → Except Str (Built B)
  | _, s, [] => .ok s
  | first, s, d :: rest =>
    match buildLayer quote (node d.name) d with
    | .error e => .error e
    | .ok built =>
      if rest.isEmpty then .ok { s with top := some built }
      else if first && K.baseTransport built then
        raise K quote node false { s with base := some built } rest
      else if K.streamTransport built then
        raise K quote node false { s with below := s.below ++ [built] } rest
      else .error (lit "service: 层 " ++ quote d.name ++ lit " 不是 StreamTransport(不能叠在协议之下)")

def buildStack (R : Registry N C B) (K : Kinds B) (quote : Str → Str)
    (layers : List (LayerSpec N)) : Except Str (Built B) :=
  if layers.isEmpty then .error (lit "service: 空层集")
  else
    match describe R quote [] layers with
    | .error e => .error e
    | .ok descs =>
      match order descs with
      | .error e => .error (e.text quote)
      | .ok ordered => raise K quote (nodeOf layers) true ⟨none, [], none⟩ ordered

variable {R : Registry N C B} {K : Kinds B} {quote : Str → Str}
  {layers layers' : List (LayerSpec N)} {descs : List (AnyDescriptor N C B)}

/-- The descriptors of the layers, if all are known and none comes twice. -/
lemma describe_eq_ok (seen : List Str) : describe R quote seen layers = .ok descs ↔
    layers.map (R.lookup ·.name) = descs.map some ∧ (layers.map (·.name)).Nodup ∧
      ∀ l ∈ layers, l.name ∉ seen := by
  induction layers generalizing seen descs with
  | nil => cases descs <;> simp [describe]
  | cons l ls ih =>
    rw [describe]
    cases hd : R.lookup l.name with
    | none => cases descs <;> simp [hd]
    | some d =>
      by_cases hseen : l.name ∈ seen
      · simp [hseen]
      · have hmap : (describe R quote (l.name :: seen) ls).map (d :: ·) = .ok descs ↔
            ∃ ds, describe R quote (l.name :: seen) ls = .ok ds ∧ d :: ds = descs := by
          cases describe R quote (l.name :: seen) ls <;> simp [Except.map]
        simp only [if_neg hseen]
        rw [hmap]
        simp only [ih, List.map_cons, hd, List.nodup_cons, List.mem_cons, not_or, forall_eq_or_imp]
        constructor
        · rintro ⟨ds, ⟨hlook, hnodup, hnew⟩, rfl⟩
          refine ⟨by rw [hlook, List.map_cons], ⟨?_, hnodup⟩, hseen, fun l' hl' => (hnew l' hl').2⟩
          intro hmem
          obtain ⟨l', hl', hname⟩ := List.mem_map.mp hmem
          exact (hnew l' hl').1 hname
        · rintro ⟨hlook, ⟨hfresh, hnodup⟩, -, hnew⟩
          cases descs with
          | nil => cases hlook
          | cons d' ds =>
            obtain ⟨hd', hlook⟩ := List.cons.inj hlook
            refine ⟨ds, ⟨hlook, hnodup, fun l' hl' => ⟨fun hname => ?_, hnew l' hl'⟩⟩, ?_⟩
            · exact hfresh (hname ▸ List.mem_map_of_mem hl')
            · rw [Option.some.inj hd']

lemma find?_of_mem (hnodup : (layers.map (·.name)).Nodup) {l : LayerSpec N} (hl : l ∈ layers) :
    layers.find? (·.name = l.name) = some l := by
  induction layers with
  | nil => cases hl
  | cons a rest ih =>
    rw [List.map_cons, List.nodup_cons] at hnodup
    rcases List.mem_cons.mp hl with rfl | hmem
    · simp
    · have hne : a.name ≠ l.name := fun h => hnodup.1 (h ▸ List.mem_map_of_mem hmem)
      rw [List.find?_cons_of_neg (by simpa using hne), ih hnodup.2 hmem]

lemma nodeOf_perm (hperm : layers.Perm layers') (hnodup : (layers.map (·.name)).Nodup) :
    nodeOf layers = nodeOf layers' := by
  have hnodup' : (layers'.map (·.name)).Nodup := (hperm.map _).nodup_iff.mp hnodup
  funext name
  by_cases hname : ∃ l ∈ layers, l.name = name
  · obtain ⟨l, hl, rfl⟩ := hname
    rw [nodeOf, nodeOf, find?_of_mem hnodup hl, find?_of_mem hnodup' (hperm.mem_iff.mp hl)]
  · have hnone : ∀ ls : List (LayerSpec N), ls.Perm layers → ls.find? (·.name = name) = none := by
      intro ls hls
      rw [List.find?_eq_none]
      intro l hl hl'
      exact hname ⟨l, hls.mem_iff.mp hl, by simpa using hl'⟩
    rw [nodeOf, nodeOf, hnone _ (.refl _), hnone _ hperm.symm]

lemma describe_perm (hperm : layers.Perm layers') (h : describe R quote [] layers = .ok descs) :
    ∃ descs', describe R quote [] layers' = .ok descs' ∧ descs.Perm descs' := by
  obtain ⟨hlook, hnodup, -⟩ := (describe_eq_ok []).mp h
  have hmap := hperm.map (R.lookup ·.name)
  rw [hlook] at hmap
  obtain ⟨descs', hlook', hdescs⟩ :
      Relation.Comp (· = List.map some ·) List.Perm (layers'.map (R.lookup ·.name)) descs := by
    rw [List.eq_map_comp_perm]
    exact hmap.symm
  exact ⟨descs', (describe_eq_ok []).mpr ⟨hlook', (hperm.map _).nodup_iff.mp hnodup, by simp⟩,
    hdescs.symm⟩

lemma buildStack_of_perm (hperm : layers.Perm layers') {s : Built B}
    (h : buildStack R K quote layers = .ok s) : buildStack R K quote layers' = .ok s := by
  rw [buildStack] at h ⊢
  rw [← hperm.isEmpty_eq]
  split_ifs at h ⊢ with hne
  cases hdescs : describe R quote [] layers with
  | error e => simp [hdescs] at h
  | ok descs =>
    obtain ⟨descs', hdescs', hp⟩ := describe_perm hperm hdescs
    cases horder : order descs with
    | error e => simp [hdescs, horder] at h
    | ok ordered =>
      have horder' := (order_perm hp).mp horder
      have hnodup := ((describe_eq_ok []).mp hdescs).2.1
      simp only [hdescs, horder] at h
      simp only [hdescs', horder']
      rw [← nodeOf_perm hperm hnodup, h]

/-- **Two configurations that list the same layers build the same stack**, or
both build none. -/
theorem buildStack_perm (R : Registry N C B) (K : Kinds B) (quote : Str → Str) {n : Nat}
    (layers : Fin n → LayerSpec N) (σ : Equiv.Perm (Fin n)) (s : Built B) :
    buildStack R K quote (List.ofFn (layers ∘ σ)) = .ok s ↔
      buildStack R K quote (List.ofFn layers) = .ok s := by
  have hperm := σ.ofFn_comp_perm layers
  exact ⟨buildStack_of_perm hperm, buildStack_of_perm hperm.symm⟩

end

end Ntr.Stack
