/-
The `routing:` block (`buildRouter`): the rules of the configuration become
rules of the engine, with the geo databases and rule providers behind their
names.
-/
import Ntr.Config.Outbounds

namespace Ntr.Config

open Go Routing

mutual

/-- `walkSpecs` on one rule: whether the rule or one below it meets `p`. -/
def walkSpec (p : RuleSpec → Bool) : RuleSpec → Bool
  | r@⟨_, _, _, _, _, _, _, _, _, _, _, _, _, sub, _, _⟩ => p r || walkSpecs p sub

def walkSpecs (p : RuleSpec → Bool) : List RuleSpec → Bool
  | [] => false
  | r :: rs => walkSpec p r || walkSpecs p rs

end

/-- What the leaves of a rule are resolved with: the databases, where they are
open, and the providers. -/
structure RuleSources where
  geoIP : List Str → Except Err IPSet
  geoSite : Str → Except Err DomainSet
  providers : Str → Option RuleProviderSpec

/-- The loop over the `geosite` entries of a leaf. -/
def siteSets (S : RuleSources) : List Str → Except Err (List DomainSet)
  | [] => .ok []
  | code :: codes =>
    match S.geoSite code with
    | .error err => .error (lit "geosite:" ++ err)
    | .ok ds =>
      match siteSets S codes with
      | .error err => .error err
      | .ok rest => .ok (ds :: rest)

/-- The loop over the `rule-set` entries of a leaf: a provider goes to the
address sets or the domain sets by its behaviour. -/
def ruleSets (E : Env) (S : RuleSources) : List Str → Except Err (List IPSet × List DomainSet)
  | [] => .ok ([], [])
  | name :: names =>
    match S.providers name with
    | none => .error (lit "rule-set 引用未定义 provider " ++ E.text.quote name)
    | some pv =>
      if pv.behavior = lit "ipcidr" then
        match E.loadIP pv with
        | .error err => .error err
        | .ok ips =>
          match ruleSets E S names with
          | .error err => .error err
          | .ok (is, ds) => .ok (ips :: is, ds)
      else
        match E.loadDomain pv with
        | .error err => .error err
        | .ok dom =>
          match ruleSets E S names with
          | .error err => .error err
          | .ok (is, ds) => .ok (is, dom :: ds)

/-- A leaf of `specToRule`. -/
def leafToRule (E : Env) (S : RuleSources) (rs : RuleSpec) : Except Err Rule :=
  let finish (geoSets : List IPSet) : Except Err Rule :=
    match siteSets S rs.geoSite with
    | .error err => .error err
    | .ok sites =>
      match ruleSets E S rs.ruleSet with
      | .error err => .error err
      | .ok (ips, doms) => .ok
          { domain := rs.domain, domainSuffix := rs.domainSuffix
            domainKeyword := rs.domainKeyword, ipCIDR := rs.ipCIDR, port := rs.port
            network := rs.network, protocol := rs.protocol
            geoIP := geoSets ++ ips, geoSite := sites ++ doms
            processName := rs.processName, processPath := rs.processPath, toOut := rs.toOut }
  if rs.geoIP = [] then finish []
  else
    match S.geoIP rs.geoIP with
    | .error err => .error (lit "geoip:" ++ err)
    | .ok set => finish [set]

mutual

/-- `specToRule`. A composite keeps its operator, its sub-rules, its `not` and
its target; the other fields are not looked at. -/
def specToRule (E : Env) (S : RuleSources) : RuleSpec → Except Err Rule
  | rs@⟨_, _, _, _, _, _, _, _, _, _, _, _, op, sub, neg, toOut⟩ =>
    if op ≠ [] then
      match specsToRules E S sub with
      | .error err => .error err
      | .ok sub => .ok { op := op, sub := sub, neg := neg, toOut := toOut }
    else leafToRule E S rs

def specsToRules (E : Env) (S : RuleSources) : List RuleSpec → Except Err (List Rule)
  | [] => .ok []
  | rs :: rss =>
    match specToRule E S rs with
    | .error err => .error err
    | .ok r =>
      match specsToRules E S rss with
      | .error err => .error err
      | .ok rest => .ok (r :: rest)

end

def checkProvider (E : Env) (outs : Outs) (ps : RuleProviderSpec) : Option Err :=
  if ps.url = [] then none
  else if ps.detour = [] then
    some (lit "config: rule-provider " ++ E.text.quote ps.name ++
      lit " 是远程 url,需 detour 出站(绝不隐式直连)")
  else if outs.byName ps.detour = none then
    some (lit "config: rule-provider " ++ E.text.quote ps.name ++ lit " detour " ++
      E.text.quote ps.detour ++ lit " 未在 outbounds 定义")
  else none

/-- The address database, which is opened if some rule asks for it. -/
def openGeoIP (E : Env) (spec : RoutingSpec) : Except Err (List Str → Except Err IPSet) :=
  if walkSpecs (fun r => r.geoIP ≠ []) spec.rules then
    if spec.geoIPPath = [] then
      .error (lit "config: 用了 geoip 规则但缺 routing.geoip-path(mmdb 或 V2Ray geoip.dat 路径)")
    else E.geoIP spec.geoIPPath
  else .ok fun _ => .error []

/-- The domain database, which is opened if some rule asks for it. -/
def openGeoSite (E : Env) (spec : RoutingSpec) : Except Err (Str → Except Err DomainSet) :=
  if walkSpecs (fun r => r.geoSite ≠ []) spec.rules then
    if spec.geoSitePath = [] then
      .error (lit "config: 用了 geosite 规则但缺 routing.geosite-path(geosite.dat 路径)")
    else E.geoSite spec.geoSitePath
  else .ok fun _ => .error []

/-- `config: routing.rules[i]`. -/
def ruleErr (i : Nat) (tail : Str) : Err := lit "config: routing.rules[" ++ itoa i ++ lit "]" ++ tail

/-- The loop over the rules, from number `i` on. -/
def routingRules (E : Env) (S : RuleSources) (outs : Outs) :
    Nat → List RuleSpec → Except Err (List Rule)
  | _, [] => .ok []
  | i, rs :: rss =>
    if outs.byName rs.toOut = none then
      .error (ruleErr i (lit ".to " ++ E.text.quote rs.toOut ++ lit " 未在 outbounds 定义"))
    else
      match specToRule E S rs with
      | .error err => .error (ruleErr i (lit ":" ++ err))
      | .ok r =>
        match routingRules E S outs (i + 1) rss with
        | .error err => .error err
        | .ok rest => .ok (r :: rest)

def buildRouter (E : Env) (spec : RoutingSpec) (outs : Outs) : Except Err Engine :=
  if outs.byName spec.dflt = none then
    .error (lit "config: routing.default " ++ E.text.quote spec.dflt ++ lit " 未在 outbounds 定义")
  else
    match spec.ruleProviders.findSome? (checkProvider E outs) with
    | some err => .error err
    | none =>
      match openGeoIP E spec with
      | .error err => .error err
      | .ok geoIP =>
        match openGeoSite E spec with
        | .error err => .error err
        | .ok geoSite =>
          let providers := fun name => spec.ruleProviders.reverse.find? (·.name = name)
          match routingRules E ⟨geoIP, geoSite, providers⟩ outs 0 spec.rules with
          | .error err => .error err
          | .ok rules =>
            match compile E.text rules spec.dflt with
            | .error err => .error (err.message E.text.toUnicode)
            | .ok eng => .ok eng

end Ntr.Config
