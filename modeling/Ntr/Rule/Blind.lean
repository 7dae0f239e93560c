/-
Questions that a table cannot tell apart.

* `Rule.Every P`: the dimensions of the rule and of all its sub-rules, at any
  depth, meet `P`; `Rule.EachLeaf P`: those of the leaves that an evaluator
  comes to do;
* `routeConnIPs_of_eachLeaf`: where every leaf that meets `P` gives two
  questions the same answer, a table of such leaves routes them alike;
* `routeConnIPs_of_noNetwork`: a table without a network rule at any depth does
  not look at the network.
-/
import Ntr.Rule.Composite

namespace Ntr.Routing

open Go

mutual

/-- The dimensions of the rule and of its sub-rules meet `P`. -/
def Rule.Every (P : Dims → Prop) : Rule → Prop
  | ⟨d, _, sub, _, _⟩ => P d ∧ everySub P sub

/-- `Rule.Every` of the sub-rules. -/
def everySub (P : Dims → Prop) : List Rule → Prop
  | [] => True
  | s :: ss => s.Every P ∧ everySub P ss

end

mutual

/-- The leaves of the rule meet `P`. The sub-rules of a leaf are not looked at. -/
def Rule.EachLeaf (P : Dims → Prop) : Rule → Prop
  | ⟨d, op, sub, _, _⟩ => if op = [] then P d else eachLeafSub P sub

/-- `Rule.EachLeaf` of the sub-rules. -/
def eachLeafSub (P : Dims → Prop) : List Rule → Prop
  | [] => True
  | s :: ss => s.EachLeaf P ∧ eachLeafSub P ss

end

section
variable {T : TextLib} {P Q : Dims → Prop} {c c' : EvalCtx}

mutual

lemma Rule.Every.eachLeaf : ∀ {r : Rule}, r.Every P → r.EachLeaf P
  | ⟨d, op, sub, neg, _⟩, h => by
    rw [Rule.Every] at h
    rw [Rule.EachLeaf]
    split
    · exact h.1
    · exact eachLeafSub_of_everySub h.2

lemma eachLeafSub_of_everySub : ∀ {sub : List Rule}, everySub P sub → eachLeafSub P sub
  | [], _ => by rw [eachLeafSub]; trivial
  | s :: ss, h => by
    rw [everySub] at h
    rw [eachLeafSub]
    exact ⟨Rule.Every.eachLeaf h.1, eachLeafSub_of_everySub h.2⟩

end

mutual

lemma Rule.EachLeaf.imp (h : ∀ d, P d → Q d) : ∀ {r : Rule}, r.EachLeaf P → r.EachLeaf Q
  | ⟨d, op, sub, neg, _⟩, hr => by
    rw [Rule.EachLeaf] at hr ⊢
    split at hr
    · next hop => rw [if_pos hop]; exact h d hr
    · next hop => rw [if_neg hop]; exact eachLeafSub_imp h hr

lemma eachLeafSub_imp (h : ∀ d, P d → Q d) : ∀ {sub : List Rule}, eachLeafSub P sub →
    eachLeafSub Q sub
  | [], _ => by rw [eachLeafSub]; trivial
  | s :: ss, hs => by
    rw [eachLeafSub] at hs ⊢
    exact ⟨Rule.EachLeaf.imp h hs.1, eachLeafSub_imp h hs.2⟩

end

lemma eachLeaf_of_leaf {r : Rule} (hop : r.op = []) : r.EachLeaf P ↔ P r.toDims := by
  obtain ⟨d, op, sub, neg, toOut⟩ := r
  rw [Rule.EachLeaf, if_pos hop]

mutual

lemma compileEval_of_eachLeaf : ∀ r : Rule,
    (r.EachLeaf fun d => matchLeaf T d c = matchLeaf T d c') →
      compileEval T r c = compileEval T r c'
  | ⟨d, op, sub, neg, _⟩, h => by
    rw [Rule.EachLeaf] at h
    rw [compileEval, compileEval]
    split at h
    · next hop => rw [if_pos hop, if_pos hop, h]
    · next hop => rw [if_neg hop, if_neg hop, evalAnd_of_eachLeaf sub h, evalOr_of_eachLeaf sub h]

lemma evalAnd_of_eachLeaf : ∀ sub : List Rule,
    (eachLeafSub (fun d => matchLeaf T d c = matchLeaf T d c') sub) →
      evalAnd T sub c = evalAnd T sub c'
  | [], _ => by rw [evalAnd, evalAnd]
  | s :: ss, h => by
    rw [eachLeafSub] at h
    rw [evalAnd, evalAnd, compileEval_of_eachLeaf s h.1, evalAnd_of_eachLeaf ss h.2]

lemma evalOr_of_eachLeaf : ∀ sub : List Rule,
    (eachLeafSub (fun d => matchLeaf T d c = matchLeaf T d c') sub) →
      evalOr T sub c = evalOr T sub c'
  | [], _ => by rw [evalOr, evalOr]
  | s :: ss, h => by
    rw [eachLeafSub] at h
    rw [evalOr, evalOr, compileEval_of_eachLeaf s h.1, evalOr_of_eachLeaf ss h.2]

end

/-- The two evaluators of a leaf do not tell the questions apart. -/
def Alike (T : TextLib) (c c' : EvalCtx) (d : Dims) : Prop :=
  matchLeaf T d c = matchLeaf T d c' ∧ (d.walked T).holds T c = (d.walked T).holds T c'

lemma answers_of_eachLeaf {r : Rule} (h : r.EachLeaf (Alike T c c')) :
    r.answers T c = r.answers T c' := by
  rw [Rule.answers, Rule.answers]
  split
  · next hop => exact ((eachLeaf_of_leaf hop).mp h).2
  · exact compileEval_of_eachLeaf r (h.imp fun d hd => hd.1)

/-- A table of leaves that do not tell two questions apart routes them alike. -/
lemma routeConnIPs_of_eachLeaf {rs : List Rule} {dflt : Str} {e : Engine}
    (he : compile T rs dflt = .ok e) (hrs : ∀ r ∈ rs, r.EachLeaf (Alike T c c')) :
    e.routeConnIPs T c = e.routeConnIPs T c' := by
  refine (routeConnIPs_congr he he ?_ rfl).symm
  exact List.map_congr_left fun r hr => answers_of_eachLeaf (hrs r hr)

end

def Rule.NoNetwork (r : Rule) : Prop := r.Every fun d => d.network = []

lemma proc_of_src_zero (dst : Socksaddr) (ips : List Addr) (network proto : Str)
    (finder : Option ProcessFinder) :
    EvalCtx.proc ⟨dst, ips, .zero, network, proto, finder⟩ = none := by
  cases finder <;> rfl

/-- **Tables without network rules** give a question without a source the same
answer for every network. -/
theorem routeConnIPs_of_noNetwork {T : TextLib} {rs : List Rule} {dflt : Str} {e : Engine}
    (he : compile T rs dflt = .ok e) (hrs : ∀ r ∈ rs, r.NoNetwork) (dst : Socksaddr)
    (ips : List Addr) (network network' proto : Str) (finder : Option ProcessFinder) :
    e.routeConnIPs T ⟨dst, ips, .zero, network, proto, finder⟩ =
      e.routeConnIPs T ⟨dst, ips, .zero, network', proto, finder⟩ := by
  refine routeConnIPs_of_eachLeaf he fun r hr => (hrs r hr).eachLeaf.imp fun d hd => ⟨?_, ?_⟩
  · simp [matchLeaf, hd, proc_of_src_zero]
  · simp [Dims.holds, Dims.holdsDomain, Dims.holdsIP, Dims.walked, hd, proc_of_src_zero]

end Ntr.Routing
