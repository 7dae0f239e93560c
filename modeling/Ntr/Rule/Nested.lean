/-
What `Compile` looks at inside composites.

At the top of a table every CIDR entry of a leaf has to parse and every network has to be
`tcp` or `udp`; `validateComposite` looks at neither.

* `leaves_checked_iff`: the leaves of an accepted table are all of the kind that
  `Compile` accepts at the top exactly if those inside its composites have no such
  entries.
-/
import Ntr.Rule.Blind

namespace Ntr.Routing

open Go

/-- The entries of a leaf are well formed: the CIDRs parse and the networks are known. -/
structure Dims.WellFormed (T : TextLib) (d : Dims) : Prop where
  cidr : ∀ c ∈ d.ipCIDR, ∃ p, T.parsePrefix c = .ok p
  network : ∀ nw ∈ d.network, nw = lit "tcp" ∨ nw = lit "udp"

/-! ### Malformed entries are passed over -/

def parses (T : TextLib) (c : Str) : Bool := (T.parsePrefix c).isOk

/-- A network that `Compile` knows. -/
def knownNetwork (nw : Str) : Bool := nw == lit "tcp" || nw == lit "udp"

def Dims.sanitize (T : TextLib) (d : Dims) : Dims :=
  { d with ipCIDR := d.ipCIDR.filter (parses T), network := d.network.filter knownNetwork }

mutual

/-- The rule without the malformed entries, at any depth. -/
def Rule.sanitize (T : TextLib) : Rule → Rule
  | ⟨d, op, sub, neg, toOut⟩ => ⟨d.sanitize T, op, sanitizeAll T sub, neg, toOut⟩

/-- `Rule.sanitize` of the sub-rules. -/
def sanitizeAll (T : TextLib) : List Rule → List Rule
  | [] => []
  | s :: ss => s.sanitize T :: sanitizeAll T ss

end

section
variable {T : TextLib} {c : EvalCtx}

lemma any_filter_of_imp {p f : Str → Bool} (h : ∀ x, f x = true → p x = true) (l : List Str) :
    (l.filter p).any f = l.any f := by
  rw [List.any_filter]
  congr 1
  funext x
  cases hf : f x with
  | false => rw [Bool.and_false]
  | true => rw [h x hf, Bool.and_true]

lemma contains_filter_knownNetwork {nw : Str} (hnw : knownNetwork nw = true) (nws : List Str) :
    (nws.filter knownNetwork).contains nw = nws.contains nw := by
  rw [Bool.eq_iff_iff, List.contains_iff_mem, List.contains_iff_mem, List.mem_filter]
  exact and_iff_left hnw

/-- A question over a known network, or without one, does not meet a malformed entry. -/
lemma matchLeaf_sanitize (hc : c.network = [] ∨ knownNetwork c.network = true) (d : Dims) :
    matchLeaf T (d.sanitize T) c = matchLeaf T d c := by
  have hnet : (!c.network.isEmpty && (d.network.filter knownNetwork).contains c.network) =
      (!c.network.isEmpty && d.network.contains c.network) := by
    rcases hc with hnil | hknown
    · rw [hnil]
      rfl
    · rw [contains_filter_knownNetwork hknown]
  have hproc : ∀ p, (d.sanitize T).namesProcess p = d.namesProcess p := by
    rintro (_ | ⟨name, path⟩) <;> rfl
  rw [matchLeaf, matchLeaf, hproc]
  simp only [Dims.sanitize, hnet]
  congr 6
  funext ip
  congr 1
  refine any_filter_of_imp (fun cc hcc => ?_) _
  rw [parses]
  cases hparse : T.parsePrefix cc with
  | ok p => rfl
  | error err => simp [hparse] at hcc

mutual

/-- **Malformed entries** inside a composite never match, and under a `not` they always
do: the evaluator is that of the composite without them. -/
lemma compileEval_sanitize (hc : c.network = [] ∨ knownNetwork c.network = true) : ∀ r : Rule,
    compileEval T (r.sanitize T) c = compileEval T r c
  | ⟨d, op, sub, neg, _⟩ => by
    rw [Rule.sanitize, compileEval, compileEval, matchLeaf_sanitize hc, evalAnd_sanitize hc,
      evalOr_sanitize hc]

lemma evalAnd_sanitize (hc : c.network = [] ∨ knownNetwork c.network = true) :
    ∀ sub : List Rule, evalAnd T (sanitizeAll T sub) c = evalAnd T sub c
  | [] => rfl
  | s :: ss => by
    rw [sanitizeAll, evalAnd, evalAnd, compileEval_sanitize hc s, evalAnd_sanitize hc ss]

lemma evalOr_sanitize (hc : c.network = [] ∨ knownNetwork c.network = true) :
    ∀ sub : List Rule, evalOr T (sanitizeAll T sub) c = evalOr T sub c
  | [] => rfl
  | s :: ss => by
    rw [sanitizeAll, evalOr, evalOr, compileEval_sanitize hc s, evalOr_sanitize hc ss]

end

end

/-! ### Leaves of accepted tables -/

section
variable {T : TextLib}

/-- `Compile` takes the leaf at the top of a table as well, for every target. -/
def Dims.AcceptedAtTop (T : TextLib) (d : Dims) : Prop :=
  ∀ toOut dflt : Str, toOut ≠ [] → dflt ≠ [] →
    ∃ e, compile T [{ toDims := d, toOut := toOut }] dflt = .ok e

lemma acceptedAtTop_iff {d : Dims} : d.AcceptedAtTop T ↔ d.Accepted T := by
  constructor
  · intro h
    obtain ⟨e, he⟩ := h (lit "A") (lit "D") (by decide) (by decide)
    exact ((compile_eq_ok_iff.mp he).2.1 _ List.mem_cons_self).2
  · intro h toOut dflt hto hdflt
    exact ⟨_, compile_eq_ok_iff.mpr ⟨hdflt, List.forall_mem_singleton.mpr ⟨hto, h⟩, rfl⟩⟩

mutual

/-- Of the leaves of a composite `validateComposite` knows only that each has one
dimension. -/
lemma eachLeaf_of_validateComposite : ∀ r : Rule, validateComposite r = none → r.op ≠ [] →
    r.EachLeaf fun d => d.dimCount = 1
  | ⟨d, op, sub, neg, _⟩, h, hop => by
    rw [validateComposite] at h
    rw [Rule.EachLeaf, if_neg hop]
    split_ifs at h
    exact eachLeafSub_of_validateSubs sub h

lemma eachLeafSub_of_validateSubs : ∀ sub : List Rule, validateSubs sub = none →
    eachLeafSub (fun d => d.dimCount = 1) sub
  | [], _ => by rw [eachLeafSub]; trivial
  | s :: ss, h => by
    rw [validateSubs] at h
    rw [eachLeafSub]
    split_ifs at h with hto hop hdim
    · cases hv : validateComposite s with
      | some err => simp [hv] at h
      | none =>
        rw [hv] at h
        exact ⟨eachLeaf_of_validateComposite s hv hop, eachLeafSub_of_validateSubs ss h⟩
    · rw [not_not] at hop hdim
      exact ⟨(eachLeaf_of_leaf hop).mpr hdim, eachLeafSub_of_validateSubs ss h⟩

end

mutual

lemma Rule.EachLeaf.and {P Q : Dims → Prop} : ∀ {r : Rule}, r.EachLeaf P → r.EachLeaf Q →
    r.EachLeaf fun d => P d ∧ Q d
  | ⟨d, op, sub, neg, _⟩, h, h' => by
    rw [Rule.EachLeaf] at h h' ⊢
    split_ifs at h h' ⊢ with hop
    · exact ⟨h, h'⟩
    · exact eachLeafSub_and h h'

lemma eachLeafSub_and {P Q : Dims → Prop} : ∀ {sub : List Rule}, eachLeafSub P sub →
    eachLeafSub Q sub → eachLeafSub (fun d => P d ∧ Q d) sub
  | [], _, _ => by rw [eachLeafSub]; trivial
  | s :: ss, h, h' => by
    rw [eachLeafSub] at h h' ⊢
    exact ⟨h.1.and h'.1, eachLeafSub_and h.2 h'.2⟩

end

end

/-- **Leaves at any depth**: of an accepted table all leaves are accepted at the top as
well, with CIDRs that parse and networks that are known, exactly if the leaves inside
its composites are well formed. -/
theorem leaves_checked_iff (T : TextLib) (rs : List Rule) (dflt : Str) (e : Engine)
    (he : compile T rs dflt = .ok e) :
    (∀ r ∈ rs, r.EachLeaf fun d => d.AcceptedAtTop T ∧ d.WellFormed T) ↔
      ∀ r ∈ rs, r.op ≠ [] → r.EachLeaf (Dims.WellFormed T) := by
  obtain ⟨-, hacc, -⟩ := compile_eq_ok_iff.mp he
  constructor
  · intro h r hr _
    exact (h r hr).imp fun d hd => hd.2
  · intro h r hr
    have hdims := (hacc r hr).2
    by_cases hop : r.op = []
    · rw [if_pos hop] at hdims
      exact (eachLeaf_of_leaf hop).mpr ⟨acceptedAtTop_iff.mpr hdims, hdims.cidr, hdims.network⟩
    · rw [if_neg hop] at hdims
      refine ((eachLeaf_of_validateComposite r hdims hop).and (h r hr hop)).imp fun d hd => ?_
      exact ⟨acceptedAtTop_iff.mpr ⟨hd.1, hd.2.cidr, hd.2.network⟩, hd.2⟩

def udpRule : Rule := { op := lit "or", sub := [{ network := [lit "udp"] }], toOut := lit "A" }

theorem leaves_checked_udpRule : ∃ e, compile asciiText [udpRule] (lit "D") = .ok e ∧
    ∀ r ∈ [udpRule], r.EachLeaf fun d => d.AcceptedAtTop asciiText ∧ d.WellFormed asciiText := by
  have hop : lit "or" ≠ [] := by decide
  have hleaf : ({ network := [lit "udp"] } : Dims).WellFormed asciiText := ⟨by simp, by simp⟩
  refine ⟨_, rfl, (leaves_checked_iff asciiText [udpRule] (lit "D") _ rfl).mpr ?_⟩
  rintro r hr -
  obtain rfl := List.mem_singleton.mp hr
  simpa [udpRule, Rule.EachLeaf, eachLeafSub, hop] using hleaf

def badCidrRule : Rule :=
  { op := lit "and", sub := [{ ipCIDR := [lit "10.0.0.0/33"] }], neg := true, toOut := lit "A" }

def badNetworkRule : Rule :=
  { op := lit "or", sub := [{ network := [lit "TCP"] }], toOut := lit "B" }

/-- The leaves are rejected at the top of a table; inside of composites they are
accepted, and then the first rule takes every question and the second one none. -/
theorem malformed_leaves_accepted : (∃ e, compile asciiText [badCidrRule] (lit "D") = .ok e ∧
      ∀ c, e.routeConnIPs asciiText c = lit "A") ∧
    (∃ e, compile asciiText [badNetworkRule] (lit "D") = .ok e ∧
      e.routeConnIPs asciiText { dst := {}, network := lit "tcp" } = lit "D") ∧
    compile asciiText [{ ipCIDR := [lit "10.0.0.0/33"], toOut := lit "A" }] (lit "D") =
      .error (.cidr 0 (lit "10.0.0.0/33") []) ∧
    compile asciiText [{ network := [lit "TCP"], toOut := lit "B" }] (lit "D") =
      .error (.network 0 (lit "TCP")) := by
  have he : compile asciiText [badCidrRule] (lit "D") = .ok _ := rfl
  refine ⟨⟨_, he, fun c => ?_⟩, ⟨_, rfl, by decide +kernel⟩, rfl, rfl⟩
  have hleaf : ∀ c, matchLeaf asciiText { ipCIDR := [lit "10.0.0.0/33"] } c = false := by
    intro c
    simp [matchLeaf, asciiText]
  have hans : badCidrRule.answers asciiText c = true := by
    have hop : lit "and" ≠ [] := by decide
    simp [badCidrRule, Rule.answers, compileEval, evalAnd, hop, hleaf]
  rw [routeConnIPs_singleton he, hans]
  rfl

end Ntr.Routing
