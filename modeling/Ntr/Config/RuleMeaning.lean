/-
What of a rule of the configuration is in effect.

`specToRule` copies some of the keys of a rule: those of the leaf dimensions for a leaf,
and `sub`, `not` and `op` for a composite. Keys of the other kind are dropped before
`Compile` can see them.

* `Rule.live`: the part of a rule that its evaluators read;
* `keeps_iff_plain`: all conditions of a rule are kept exactly if no leaf has a `not` or
  a `sub` and no composite has a leaf dimension.
-/
import Ntr.Config.Router
import Ntr.Rule.Blind

namespace Ntr.Config

open Go Routing List

/-! ### The live part of a rule -/

def live (r : Rule) : Rule :=
  if r.op = [] then { toDims := r.toDims, toOut := r.toOut }
  else { op := r.op, sub := r.sub, neg := r.neg, toOut := r.toOut }

lemma answers_live (T : TextLib) (r : Rule) (c : EvalCtx) :
    (live r).answers T c = r.answers T c := by
  obtain ⟨d, op, sub, neg, toOut⟩ := r
  rw [live]
  split
  · next hop =>
    rw [Rule.answers, Rule.answers, if_pos rfl, if_pos hop]
  · next hop =>
    rw [Rule.answers, Rule.answers, if_neg hop, if_neg hop, compileEval, compileEval, if_neg hop,
      if_neg hop]

lemma compileEval_live (T : TextLib) (r : Rule) (c : EvalCtx) :
    compileEval T (live r) c = compileEval T r c := by
  obtain ⟨d, op, sub, neg, toOut⟩ := r
  rw [live]
  split
  · next hop => rw [compileEval, compileEval, if_pos rfl, if_pos hop]
  · next hop => rw [compileEval, compileEval, if_neg hop, if_neg hop]

/-! ### Conditions that are kept -/

/-- The set behind the name of a provider is one of the sets. -/
def SetKept (E : Env) (S : RuleSources) (ips : List IPSet) (doms : List DomainSet) (name : Str) :
    Prop :=
  ∃ pv, S.providers name = some pv ∧
    if pv.behavior = lit "ipcidr" then ∃ set ∈ ips, E.loadIP pv = .ok set
    else ∃ set ∈ doms, E.loadDomain pv = .ok set

/-- Every entry of every dimension of the configuration is one of the rule, the sets as
they are resolved. -/
structure DimsKept (E : Env) (S : RuleSources) (rs : RuleSpec) (d : Dims) : Prop where
  domain : rs.domain ⊆ d.domain
  domainSuffix : rs.domainSuffix ⊆ d.domainSuffix
  domainKeyword : rs.domainKeyword ⊆ d.domainKeyword
  ipCIDR : rs.ipCIDR ⊆ d.ipCIDR
  port : rs.port ⊆ d.port
  network : rs.network ⊆ d.network
  protocol : rs.protocol ⊆ d.protocol
  geoIP : rs.geoIP ≠ [] → ∃ set ∈ d.geoIP, S.geoIP rs.geoIP = .ok set
  geoSite : ∀ code ∈ rs.geoSite, ∃ set ∈ d.geoSite, S.geoSite code = .ok set
  ruleSet : ∀ name ∈ rs.ruleSet, SetKept E S d.geoIP d.geoSite name
  processName : rs.processName ⊆ d.processName
  processPath : rs.processPath ⊆ d.processPath

mutual

/-- **Every condition is kept**: the dimensions, the `not` and the sub-rules of a rule of
the configuration are in the live part of the rule, and so on below. -/
def Keeps (E : Env) (S : RuleSources) : RuleSpec → Rule → Prop
  | rs@⟨_, _, _, _, _, _, _, _, _, _, _, _, op, sub, neg, _⟩, r =>
    DimsKept E S rs (live r).toDims ∧ (live r).op = op ∧ (live r).neg = neg ∧
      KeepsAll E S sub (live r).sub

/-- `Keeps` of the sub-rules, one by one. -/
def KeepsAll (E : Env) (S : RuleSources) : List RuleSpec → List Rule → Prop
  | [], rs => rs = []
  | _ :: _, [] => False
  | s :: ss, r :: rs => Keeps E S s r ∧ KeepsAll E S ss rs

end

/-- No leaf dimension is set. -/
structure RuleSpec.NoDims (rs : RuleSpec) : Prop where
  domain : rs.domain = []
  domainSuffix : rs.domainSuffix = []
  domainKeyword : rs.domainKeyword = []
  ipCIDR : rs.ipCIDR = []
  port : rs.port = []
  network : rs.network = []
  protocol : rs.protocol = []
  geoIP : rs.geoIP = []
  geoSite : rs.geoSite = []
  ruleSet : rs.ruleSet = []
  processName : rs.processName = []
  processPath : rs.processPath = []

mutual

/-- A leaf has no `not` and no `sub`, a composite has no leaf dimension, and so on
below. -/
def Plain : RuleSpec → Prop
  | rs@⟨_, _, _, _, _, _, _, _, _, _, _, _, op, sub, neg, _⟩ =>
    if op = [] then neg = false ∧ sub = [] else rs.NoDims ∧ PlainAll sub

/-- `Plain` of the sub-rules. -/
def PlainAll : List RuleSpec → Prop
  | [] => True
  | s :: ss => Plain s ∧ PlainAll ss

end

/-! ### Leaves -/

section
variable {E : Env} {S : RuleSources}

lemma siteSets_eq_ok {codes : List Str} {sets : List DomainSet} (h : siteSets S codes = .ok sets) :
    ∀ code ∈ codes, ∃ set ∈ sets, S.geoSite code = .ok set := by
  induction codes generalizing sets with
  | nil => exact fun _ h => absurd h not_mem_nil
  | cons code codes ih =>
    rw [siteSets] at h
    cases hcode : S.geoSite code with
    | error err => rw [hcode] at h; cases h
    | ok ds =>
      rw [hcode] at h
      cases hrest : siteSets S codes with
      | error err => rw [hrest] at h; cases h
      | ok rest =>
        rw [hrest] at h
        obtain rfl := Except.ok.inj h
        intro code' hmem
        rcases mem_cons.mp hmem with rfl | hmem
        · exact ⟨ds, mem_cons_self, hcode⟩
        · obtain ⟨set, hset, hok⟩ := ih hrest code' hmem
          exact ⟨set, mem_cons_of_mem _ hset, hok⟩

variable {doms : List DomainSet} {ips : List IPSet}

lemma SetKept.mono {ips' : List IPSet} {doms' : List DomainSet} {name : Str}
    (hips : ips ⊆ ips') (hdoms : doms ⊆ doms') (h : SetKept E S ips doms name) :
    SetKept E S ips' doms' name := by
  obtain ⟨pv, hpv, hset⟩ := h
  refine ⟨pv, hpv, ?_⟩
  split_ifs at hset ⊢
  · exact hset.imp fun set h => ⟨hips h.1, h.2⟩
  · exact hset.imp fun set h => ⟨hdoms h.1, h.2⟩

lemma ruleSets_cons_eq_ok {name : Str} {names : List Str}
    (h : ruleSets E S (name :: names) = .ok (ips, doms)) :
    SetKept E S ips doms name ∧ ∃ ips' doms', ruleSets E S names = .ok (ips', doms') ∧
      ips' ⊆ ips ∧ doms' ⊆ doms := by
  rw [ruleSets] at h
  cases hpv : S.providers name with
  | none => rw [hpv] at h; cases h
  | some pv =>
    rw [hpv] at h
    dsimp only at h
    split_ifs at h with hip
    · cases hload : E.loadIP pv with
      | error err => rw [hload] at h; cases h
      | ok set =>
        rw [hload] at h
        cases hrest : ruleSets E S names with
        | error err => rw [hrest] at h; cases h
        | ok rest =>
          rw [hrest] at h
          obtain ⟨rfl, rfl⟩ := Prod.mk.inj (Except.ok.inj h)
          refine ⟨⟨pv, hpv, ?_⟩, _, _, rfl, subset_cons_self _ _, List.Subset.refl _⟩
          rw [if_pos hip]
          exact ⟨set, mem_cons_self, hload⟩
    · cases hload : E.loadDomain pv with
      | error err => rw [hload] at h; cases h
      | ok set =>
        rw [hload] at h
        cases hrest : ruleSets E S names with
        | error err => rw [hrest] at h; cases h
        | ok rest =>
          rw [hrest] at h
          obtain ⟨rfl, rfl⟩ := Prod.mk.inj (Except.ok.inj h)
          refine ⟨⟨pv, hpv, ?_⟩, _, _, rfl, List.Subset.refl _, subset_cons_self _ _⟩
          rw [if_neg hip]
          exact ⟨set, mem_cons_self, hload⟩

lemma ruleSets_eq_ok {names : List Str}
    (h : ruleSets E S names = .ok (ips, doms)) : ∀ name ∈ names, SetKept E S ips doms name := by
  induction names generalizing ips doms with
  | nil => exact fun _ h => absurd h not_mem_nil
  | cons name names ih =>
    obtain ⟨hname, ips', doms', hrest, hips, hdoms⟩ := ruleSets_cons_eq_ok h
    intro name' hmem
    rcases mem_cons.mp hmem with rfl | hmem
    · exact hname
    · exact (ih hrest name' hmem).mono hips hdoms

/-- A leaf becomes a leaf with all its dimensions, and without a `not` or sub-rules. -/
lemma leafToRule_eq_ok {rs : RuleSpec} {r : Rule} (h : leafToRule E S rs = .ok r) :
    DimsKept E S rs r.toDims ∧ r.op = [] := by
  obtain ⟨geoSets, hgeo, hfinish⟩ : ∃ geoSets : List IPSet,
      (rs.geoIP ≠ [] → ∃ set ∈ geoSets, S.geoIP rs.geoIP = .ok set) ∧
        ∃ sites ips doms, siteSets S rs.geoSite = .ok sites ∧
          ruleSets E S rs.ruleSet = .ok (ips, doms) ∧ r =
            { domain := rs.domain, domainSuffix := rs.domainSuffix
              domainKeyword := rs.domainKeyword, ipCIDR := rs.ipCIDR, port := rs.port
              network := rs.network, protocol := rs.protocol
              geoIP := geoSets ++ ips, geoSite := sites ++ doms
              processName := rs.processName, processPath := rs.processPath
              toOut := rs.toOut } := by
    rw [leafToRule] at h
    cases hsites : siteSets S rs.geoSite with
    | error err =>
      simp only [hsites] at h
      split_ifs at h
      split at h <;> cases h
    | ok sites =>
      cases hsets : ruleSets E S rs.ruleSet with
      | error err =>
        simp only [hsites, hsets] at h
        split_ifs at h
        split at h <;> cases h
      | ok sets =>
        simp only [hsites, hsets] at h
        split_ifs at h with hnil
        · exact ⟨[], fun h => absurd hnil h, sites, sets.1, sets.2, rfl, rfl,
            (Except.ok.inj h).symm⟩
        · split at h
          · cases h
          · next set hset =>
            exact ⟨[set], fun _ => ⟨set, mem_cons_self, hset⟩, sites, sets.1, sets.2, rfl,
              rfl, (Except.ok.inj h).symm⟩
  obtain ⟨sites, ips, doms, hsites, hsets, rfl⟩ := hfinish
  refine ⟨⟨fun _ h => h, fun _ h => h, fun _ h => h, fun _ h => h, fun _ h => h, fun _ h => h,
    fun _ h => h, fun hne => ?_, fun code hcode => ?_, fun name hname => ?_, fun _ h => h,
    fun _ h => h⟩, rfl⟩
  · obtain ⟨set, hset, hok⟩ := hgeo hne
    exact ⟨set, mem_append_left _ hset, hok⟩
  · obtain ⟨set, hset, hok⟩ := siteSets_eq_ok hsites code hcode
    exact ⟨set, mem_append_left _ hset, hok⟩
  · exact (ruleSets_eq_ok hsets name hname).mono (subset_append_right _ _) (subset_append_right _ _)

end

/-! ### Trees -/

section
variable {E : Env} {S : RuleSources}

/-- A rule without dimensions keeps those of a rule of the configuration only if that has
none. -/
lemma dimsKept_nil_iff {rs : RuleSpec} : DimsKept E S rs {} ↔ rs.NoDims := by
  have hnil : ∀ {α : Type} {l : List α}, l ⊆ [] → l = [] := subset_nil.mp
  constructor
  · intro h
    have hgeoIP : rs.geoIP = [] := by
      by_contra hne
      obtain ⟨set, hset, -⟩ := h.geoIP hne
      exact absurd hset not_mem_nil
    have hgeoSite : rs.geoSite = [] := by
      refine eq_nil_iff_forall_not_mem.mpr fun code hcode => ?_
      obtain ⟨set, hset, -⟩ := h.geoSite code hcode
      exact absurd hset not_mem_nil
    have hruleSet : rs.ruleSet = [] := by
      refine eq_nil_iff_forall_not_mem.mpr fun name hname => ?_
      obtain ⟨pv, -, hset⟩ := h.ruleSet name hname
      split_ifs at hset
      · obtain ⟨set, hset, -⟩ := hset
        exact absurd hset not_mem_nil
      · obtain ⟨set, hset, -⟩ := hset
        exact absurd hset not_mem_nil
    exact ⟨hnil h.domain, hnil h.domainSuffix, hnil h.domainKeyword, hnil h.ipCIDR, hnil h.port,
      hnil h.network, hnil h.protocol, hgeoIP, hgeoSite, hruleSet, hnil h.processName,
      hnil h.processPath⟩
  · intro h
    obtain ⟨hd, hs, hk, hc, hp, hn, hpr, hi, hg, hr, hpn, hpp⟩ := h
    constructor
    all_goals simp [hd, hs, hk, hc, hp, hn, hpr, hi, hg, hr, hpn, hpp]

mutual

lemma keeps_iff : ∀ {rs : RuleSpec} {r : Rule}, specToRule E S rs = .ok r →
    (Keeps E S rs r ↔ Plain rs)
  | rs@⟨_, _, _, _, _, _, _, _, _, _, _, _, op, sub, neg, _⟩, r, h => by
    rw [specToRule] at h
    rw [Keeps, Plain]
    split_ifs at h with hop
    · cases hsub : specsToRules E S sub with
      | error err => rw [hsub] at h; cases h
      | ok rules =>
        rw [hsub] at h
        obtain rfl := Except.ok.inj h
        rw [live, if_neg hop, if_neg hop, dimsKept_nil_iff, keepsAll_iff hsub]
        simp
    · rw [not_not] at hop
      obtain ⟨hdims, hleaf⟩ := leafToRule_eq_ok h
      rw [live, if_pos hleaf, if_pos hop]
      cases sub with
      | nil =>
        rw [KeepsAll]
        exact ⟨fun h => ⟨h.2.2.1.symm, rfl⟩, fun h => ⟨hdims, hop.symm, h.1.symm, rfl⟩⟩
      | cons s ss =>
        rw [KeepsAll]
        exact ⟨fun h => h.2.2.2.elim, fun h => (by cases h.2)⟩

lemma keepsAll_iff : ∀ {rss : List RuleSpec} {rules : List Rule},
    specsToRules E S rss = .ok rules → (KeepsAll E S rss rules ↔ PlainAll rss)
  | [], rules, h => by
    rw [specsToRules] at h
    obtain rfl := Except.ok.inj h
    simp [KeepsAll, PlainAll]
  | rs :: rss, rules, h => by
    rw [specsToRules] at h
    cases hr : specToRule E S rs with
    | error err => rw [hr] at h; cases h
    | ok r =>
      rw [hr] at h
      cases hrest : specsToRules E S rss with
      | error err => rw [hrest] at h; cases h
      | ok rest =>
        rw [hrest] at h
        obtain rfl := Except.ok.inj h
        rw [KeepsAll, PlainAll, keeps_iff hr, keepsAll_iff hrest]

end

end

/-- Surroundings for rules without databases and providers. -/
def ruleEnv : Env := plainEnv fun _ => []

def noSources : RuleSources := ⟨fun _ => .error [], fun _ => .error [], fun _ => none⟩

/-- Anything but a domain, on one port. -/
def plainSpec : RuleSpec :=
  { op := lit "and", toOut := lit "A"
    sub := [{ port := [443] }, { op := lit "or", neg := true, sub := [{ domain := [lit "a"] }] }] }

/-- Not below a domain. -/
def negatedLeaf : RuleSpec := { domainSuffix := [lit "corp"], neg := true, toOut := lit "A" }

/-- A domain, on one port. -/
def mixedComposite : RuleSpec :=
  { domain := [lit "a"], op := lit "and", sub := [{ port := [443] }], toOut := lit "A" }

end Ntr.Config
