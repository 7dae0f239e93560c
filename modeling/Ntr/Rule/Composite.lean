/-
Leaves inside composites.

A composite evaluates its leaves with `matchLeaf`, a leaf of the table is
looked up in the indexes; the two are written separately.

* `evalAnd_eq_all`, `evalOr_eq_any`: the loops of a composite;
* `matchLeaf_eq_holds`: the two evaluators agree on a leaf whose entries are
  `Uniform`: no suffix entry is empty after normalisation, and lower-casing
  leaves the set of its protocol names as it is;
* `wrap_route_eq_iff`: wrapping a leaf leaves every table's routing unchanged
  exactly for these leaves.  `matchLeaf` compares protocol names as they are
  written, where the index holds them in lower case, and it tests for an empty
  suffix, which the label walk never asks for.
-/
import Ntr.Rule.FirstMatch

namespace Ntr.Routing

open Go Lib List Dims

/-! ### The evaluator of a composite -/

lemma evalAnd_eq_all (T : TextLib) (c : EvalCtx) : ∀ sub : List Rule,
    evalAnd T sub c = sub.all (fun s => compileEval T s c)
  | [] => rfl
  | s :: ss => by
      rw [evalAnd, all_cons, evalAnd_eq_all T c ss]
      cases compileEval T s c <;> rfl

lemma evalOr_eq_any (T : TextLib) (c : EvalCtx) : ∀ sub : List Rule,
    evalOr T sub c = sub.any (fun s => compileEval T s c)
  | [] => rfl
  | s :: ss => by
      rw [evalOr, any_cons, evalOr_eq_any T c ss]
      cases compileEval T s c <;> rfl

lemma compileEval_leaf (T : TextLib) {r : Rule} (hleaf : r.op = []) (c : EvalCtx) :
    compileEval T r c = matchLeaf T r.toDims c := by
  obtain ⟨d, op, sub, neg, out⟩ := r
  simp only at hleaf
  simp [compileEval, hleaf]

/-! ### Wrapping a leaf -/

/-- The composite whose only sub-rule is `r`, with the target of `r`. -/
def Rule.wrap (r : Rule) (op : Str) : Rule :=
  { op := op, sub := [{ r with toOut := [] }], toOut := r.toOut }

variable {T : TextLib} {r : Rule} {op : Str}

lemma op_ne_nil (hop : op = lit "and" ∨ op = lit "or") : op ≠ [] := by
  rcases hop with rfl | rfl <;> decide

lemma wrap_accepted (hop : op = lit "and" ∨ op = lit "or") (hleaf : r.op = [])
    (hacc : r.Accepted T) : (r.wrap op).Accepted T := by
  obtain ⟨hto, hdims⟩ := hacc
  rw [if_pos hleaf] at hdims
  refine ⟨hto, ?_⟩
  have hne : (r.wrap op).op ≠ [] := op_ne_nil hop
  have hbad : ¬ (op ≠ lit "and" ∧ op ≠ lit "or") := by tauto
  have hzero : ({} : Dims).dimCount = 0 := rfl
  rw [if_neg hne]
  simp [Rule.wrap, validateComposite, validateSubs, hbad, hzero, hleaf, hdims.one]

lemma compileEval_wrap (hop : op = lit "and" ∨ op = lit "or") (hleaf : r.op = [])
    (c : EvalCtx) : compileEval T (r.wrap op) c = matchLeaf T r.toDims c := by
  have hsub := compileEval_leaf T (r := { r with toOut := [] }) hleaf c
  have hne := op_ne_nil hop
  rw [Rule.wrap, compileEval, if_neg hne, evalAnd_eq_all, evalOr_eq_any]
  simp [hsub]

/-! ### The two evaluators of a leaf -/

structure Dims.Uniform (T : TextLib) (d : Dims) : Prop where
  suffix : ∀ s ∈ d.domainSuffix, normSuffix T s ≠ []
  protocol : ∀ p, p ≠ [] → (p ∈ d.protocol ↔ p ∈ d.protocol.map (toLower T.toUnicode))

lemma matchLeaf_eq_holds {d : Dims} (hd : d.Uniform T) (c : EvalCtx) :
    matchLeaf T d c = (d.walked T).holds T c := by
  rw [walked_eq_self hd.suffix]
  have hproto : (!c.proto.isEmpty && d.protocol.contains c.proto) =
      (!c.proto.isEmpty && d.protocol.any (fun p => toLower T.toUnicode p == c.proto)) := by
    by_cases hp : c.proto = []
    · simp [hp]
    · have := hd.protocol c.proto hp
      rw [Bool.eq_iff_iff]
      simpa [hp, List.isEmpty_iff] using this
  have hproc : ((!d.processName.isEmpty || !d.processPath.isEmpty) && d.namesProcess c.proc) =
      d.namesProcess c.proc := by
    cases c.proc with
    | none => simp [namesProcess]
    | some p =>
      cases hn : d.processName <;> cases hp : d.processPath <;>
        simp [namesProcess, hn, hp]
  rw [matchLeaf, holds, hproto, hproc]
  simp only [holdsDomain, holdsIP, Prefix.contains_masked]
  ac_rfl

lemma Dims.dimCount_eq_sum (d : Dims) :
    d.dimCount = (if d.domain = [] then 0 else 1) + (if d.domainSuffix = [] then 0 else 1) +
      (if d.domainKeyword = [] then 0 else 1) + (if d.ipCIDR = [] then 0 else 1) +
      (if d.port = [] then 0 else 1) + (if d.network = [] then 0 else 1) +
      (if d.protocol = [] then 0 else 1) + (if d.geoIP = [] then 0 else 1) +
      (if d.geoSite = [] then 0 else 1) + (if d.processName = [] then 0 else 1) +
      (if d.processPath = [] then 0 else 1) := by
  simp only [dimCount, count_cons, count_nil, beq_true, Bool.not_eq_true',
    isEmpty_eq_false_iff, ne_eq, ite_not]
  ring

/-- A leaf with one dimension has no entries in the others: here those beside
its suffixes. -/
lemma Dims.only_suffix {d : Dims} (hone : d.dimCount = 1) (hs : d.domainSuffix ≠ []) :
    ∃ ss, d = { domainSuffix := ss } := by
  rw [dimCount_eq_sum, if_neg hs] at hone
  obtain ⟨_, ss, _, _, _, _, _, _, _, _, _⟩ := d
  simp only [mk.injEq, exists_and_left, exists_and_right, exists_eq', true_and]
  constructorm* _ ∧ _ <;> by_contra hne <;> rw [if_neg hne] at hone <;> omega

lemma Dims.only_protocol {d : Dims} (hone : d.dimCount = 1) (hp : d.protocol ≠ []) :
    ∃ ps, d = { protocol := ps } := by
  rw [dimCount_eq_sum, if_neg hp] at hone
  obtain ⟨_, _, _, _, _, _, ps, _, _, _, _⟩ := d
  simp only [mk.injEq, exists_and_left, exists_and_right, exists_eq', true_and]
  constructorm* _ ∧ _ <;> by_contra hne <;> rw [if_neg hne] at hone <;> omega

/-- Where the evaluators agree on every question the leaf is uniform: the
domain `.` tells an empty suffix, and each protocol name tells itself. -/
lemma uniform_of_matchLeaf_eq {d : Dims} (hone : d.dimCount = 1)
    (h : ∀ c, matchLeaf T d c = (d.walked T).holds T c) : d.Uniform T := by
  refine ⟨fun s hs hnil => ?_, fun p hp => ?_⟩
  · obtain ⟨ss, rfl⟩ := only_suffix hone (ne_nil_of_mem hs)
    have hroot : normDomain T (lit ".") = [] := rfl
    have hyes : matchLeaf T { domainSuffix := ss } { dst := Socksaddr.fromFqdn (lit ".") 0 } =
        true := by
      simp only [matchLeaf, Bool.or_eq_true, Bool.and_eq_true, any_eq_true]
      exact Or.inl (Or.inl (Or.inl (Or.inl (Or.inl
        ⟨rfl, Or.inl (Or.inl (Or.inr ⟨s, hs, Or.inl (by simp [hroot, hnil])⟩))⟩))))
    have hno := h { dst := Socksaddr.fromFqdn (lit ".") 0 }
    rw [hyes] at hno
    have hdot : lit "." ≠ [] := by decide
    simp [holds, walked, holdsDomain, holdsIP, namesProcess, EvalCtx.proc,
      hroot, hasSuffix, hdot] at hno
  · by_cases hempty : d.protocol = []
    · simp [hempty]
    · obtain ⟨ps, rfl⟩ := only_protocol hone hempty
      have hask := h { dst := {}, proto := p }
      have hfqdn : ({} : Socksaddr).isFqdn = false := rfl
      have hip : ipSet {} [] = [] := rfl
      rw [Bool.eq_iff_iff] at hask
      simpa [matchLeaf, holds, walked, namesProcess, EvalCtx.proc, hp, hfqdn, hip] using hask

/-! ### Replacing a leaf of a table -/

lemma answering_congr {rs rs' : List Rule} {c c' : EvalCtx}
    (h : rs.map (fun r => r.answers T c) = rs'.map (fun r => r.answers T c')) (i : Nat) :
    answering T i rs c = answering T i rs' c' := by
  have hset : ∀ (l : List Rule) (c : EvalCtx), answering T i l c =
      {o | ∃ j, (l.map (fun r => r.answers T c))[j]? = some true ∧ o = UInt32.ofNat (i + j)} := by
    intro l c
    ext o
    simp only [answering, getElem?_map, Option.map_eq_some_iff, Set.mem_ofPred_eq]
    constructor
    · rintro ⟨j, r, hj, hans, rfl⟩
      exact ⟨j, ⟨r, hj, hans⟩, rfl⟩
    · rintro ⟨j, ⟨r, hj, hans⟩, rfl⟩
      exact ⟨j, r, hj, hans, rfl⟩
  rw [hset, hset, h]

lemma routeConnIPs_congr {rs rs' : List Rule} {dflt : Str} {e e' : Engine} {c c' : EvalCtx}
    (he : compile T rs dflt = .ok e) (he' : compile T rs' dflt = .ok e')
    (hans : rs.map (fun r => r.answers T c) = rs'.map (fun r => r.answers T c'))
    (hto : rs.map (·.toOut) = rs'.map (·.toOut)) : e'.routeConnIPs T c' = e.routeConnIPs T c := by
  have hleast := isLeast_best_answering he c
  rw [answering_congr hans] at hleast
  have hbest := (isLeast_best_answering he' c').unique hleast
  rw [routeConnIPs_eq_targetAt he, routeConnIPs_eq_targetAt he', hbest, targetAt, targetAt, hto]

lemma routeConnIPs_singleton {dflt : Str} {e : Engine} (he : compile T [r] dflt = .ok e)
    (c : EvalCtx) : e.routeConnIPs T c = if r.answers T c then r.toOut else dflt := by
  rw [routeConnIPs_eq_find? he (by simp), find?_singleton]
  cases r.answers T c <;> rfl

lemma answers_wrap (hop : op = lit "and" ∨ op = lit "or") (hleaf : r.op = []) (c : EvalCtx) :
    (r.wrap op).answers T c = matchLeaf T r.toDims c := by
  have hne : (r.wrap op).op ≠ [] := op_ne_nil hop
  rw [Rule.answers, if_neg hne, compileEval_wrap hop hleaf]

/-- **Leaves inside and outside a composite**: for a leaf that `Compile`
accepts, wrapping it in an `and` or an `or` of one sub-rule leaves the routing
of every accepted table unchanged, for every question, exactly if the leaf is
uniform. -/
theorem wrap_route_eq_iff (T : TextLib) (r : Rule) (op : Str)
    (hop : op = lit "and" ∨ op = lit "or") (hleaf : r.op = []) (hacc : r.Accepted T) :
    (∀ pre post dflt e, compile T (pre ++ r :: post) dflt = .ok e →
      ∃ e', compile T (pre ++ r.wrap op :: post) dflt = .ok e' ∧
        ∀ c, e'.routeConnIPs T c = e.routeConnIPs T c) ↔ r.toDims.Uniform T := by
  have hwrap := wrap_accepted hop hleaf hacc
  constructor
  · intro h
    have hone : r.toDims.dimCount = 1 := by
      have hdims := hacc.2
      rw [if_pos hleaf] at hdims
      exact hdims.one
    -- the table of this one rule, with a default that is not its target
    have hdflt : r.toOut ++ [0] ≠ [] := by simp
    have hne : r.toOut ≠ r.toOut ++ [0] := by simp
    have he := compile_eq_ok_iff.mpr ⟨hdflt, forall_mem_singleton.mpr hacc, rfl⟩
    obtain ⟨e', he', hroute⟩ := h [] [] _ _ he
    refine uniform_of_matchLeaf_eq hone fun c => ?_
    have hc := hroute c
    rw [nil_append] at he'
    rw [routeConnIPs_singleton he, routeConnIPs_singleton he', answers_wrap hop hleaf,
      Rule.answers, if_pos hleaf] at hc
    cases hm : matchLeaf T r.toDims c <;> cases hh : (r.toDims.walked T).holds T c <;>
      simp_all [Rule.wrap]
  · intro hd pre post dflt e he
    obtain ⟨hdflt, hall, -⟩ := compile_eq_ok_iff.mp he
    have hall' : ∀ x ∈ pre ++ r.wrap op :: post, x.Accepted T := by
      intro x hx
      rcases mem_append.mp hx with hx | hx
      · exact hall x (mem_append_left _ hx)
      · rcases mem_cons.mp hx with rfl | hx
        · exact hwrap
        · exact hall x (mem_append_right _ (mem_cons_of_mem _ hx))
    have he' := compile_eq_ok_iff.mpr ⟨hdflt, hall', rfl⟩
    refine ⟨_, he', fun c => routeConnIPs_congr he he' ?_ ?_⟩
    · have hans : r.answers T c = (r.wrap op).answers T c := by
        rw [answers_wrap hop hleaf, matchLeaf_eq_holds hd, Rule.answers, if_pos hleaf]
      simp [hans]
    · simp [Rule.wrap]

def sniffedRule : Rule := { protocol := [lit "tls", lit "http"], toOut := lit "A" }

theorem wrap_route_eq_sniffedRule : sniffedRule.Accepted asciiText ∧
    ∀ pre post dflt e, compile asciiText (pre ++ sniffedRule :: post) dflt = .ok e →
      ∃ e', compile asciiText (pre ++ sniffedRule.wrap (lit "or") :: post) dflt = .ok e' ∧
        ∀ c, e'.routeConnIPs asciiText c = e.routeConnIPs asciiText c := by
  have hlower : sniffedRule.protocol.map (toLower asciiText.toUnicode) = sniffedRule.protocol := by
    decide
  have hacc : sniffedRule.Accepted asciiText :=
    ⟨by decide, rfl, by simp [sniffedRule], by simp [sniffedRule]⟩
  refine ⟨hacc, (wrap_route_eq_iff asciiText sniffedRule (lit "or") (Or.inr rfl) rfl hacc).mpr
    ⟨by simp [sniffedRule], fun p _ => ?_⟩⟩
  rw [hlower]

def capitalRule : Rule := { protocol := [lit "TLS"], toOut := lit "A" }

def dotRule : Rule := { domainSuffix := [lit "."], toOut := lit "A" }

/-- A sniffed `tls` meets the first rule of the table but not the composite of
it; the domain `.` meets the composite of the suffix rule but not the rule. -/
theorem wrap_route_ne : (∃ e e', compile asciiText [capitalRule] (lit "D") = .ok e ∧
    compile asciiText [capitalRule.wrap (lit "or")] (lit "D") = .ok e' ∧
      e.routeConnIPs asciiText { dst := {}, proto := lit "tls" } = lit "A" ∧
        e'.routeConnIPs asciiText { dst := {}, proto := lit "tls" } = lit "D") ∧
    (∃ e e', compile asciiText [dotRule] (lit "D") = .ok e ∧
      compile asciiText [dotRule.wrap (lit "or")] (lit "D") = .ok e' ∧
        e.routeConnIPs asciiText { dst := Socksaddr.fromFqdn (lit ".") 80 } = lit "D" ∧
        e'.routeConnIPs asciiText { dst := Socksaddr.fromFqdn (lit ".") 80 } = lit "A") := by
  have hcap : compile asciiText [capitalRule] (lit "D") = .ok _ := rfl
  have hcap' : compile asciiText [capitalRule.wrap (lit "or")] (lit "D") = .ok _ := rfl
  have hdot : compile asciiText [dotRule] (lit "D") = .ok _ := rfl
  have hdot' : compile asciiText [dotRule.wrap (lit "or")] (lit "D") = .ok _ := rfl
  refine ⟨⟨_, _, hcap, hcap', ?_, ?_⟩, ⟨_, _, hdot, hdot', ?_, ?_⟩⟩
  · exact (routeConnIPs_singleton hcap _).trans (by decide)
  · exact (routeConnIPs_singleton hcap' _).trans (by decide)
  · exact (routeConnIPs_singleton hdot _).trans (by decide)
  · exact (routeConnIPs_singleton hdot' _).trans (by decide)

end Ntr.Routing
