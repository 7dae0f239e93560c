/-
The rule engine (`rule/engine.go`): an ordered rule table compiled into one
index per dimension.

* `compile`: the table is checked rule by rule and every leaf goes into the
  index of its dimension under its ordinal, every composite into the list of
  evaluators; an index keeps the least ordinal of each key (`putMin`).

Ordinals are 32-bit, as in the source: the rule at index `i` has the ordinal
`i` modulo `2 ^ 32`, and the largest ordinal `ordNone` stands for no match.
The geo and rule-set predicates, the process finder, the text form of a CIDR
and the Unicode tables are parameters.
-/
import Ntr.Socksaddr

namespace Ntr.Routing

open Go

/-- `rule.IPSet`, by its only method `MatchIP`. -/
abbrev IPSet := Addr → Bool

/-- `rule.DomainSet`, by its only method `MatchDomain`. -/
abbrev DomainSet := Str → Bool

/-- `rule.ProcessFinder`: the name and the path of the process behind a
source address, `none` for `ok = false`. -/
abbrev ProcessFinder := Str → AddrPort → Option (Str × Str)

/-- The library functions the engine calls on text: the Unicode tables and
`netip.ParsePrefix`, which gives a prefix or the text of its error. -/
structure TextLib extends Unicode where
  parsePrefix : Str → Except Str Prefix

/-- Text functions for tables of ASCII entries without CIDRs. -/
def asciiText : TextLib where
  lowerRunes := id
  quote := id
  parsePrefix _ := .error []

/-- The leaf dimensions of `rule.Rule`. -/
structure Dims where
  domain : List Str := []
  domainSuffix : List Str := []
  domainKeyword : List Str := []
  ipCIDR : List Str := []
  port : List UInt16 := []
  network : List Str := []
  protocol : List Str := []
  geoIP : List IPSet := []
  geoSite : List DomainSet := []
  processName : List Str := []
  processPath : List Str := []

/-- `rule.Rule`. With an empty `op` the rule is a leaf, otherwise it combines
its sub-rules; `neg` is the field `Not` and `toOut` the field `To`. -/
structure Rule extends Dims where
  op : Str := []
  sub : List Rule := []
  neg : Bool := false
  toOut : Str := []

/-- `dimCount`: the number of dimensions that are set. -/
def Dims.dimCount (d : Dims) : Nat :=
  [!d.domain.isEmpty, !d.domainSuffix.isEmpty, !d.domainKeyword.isEmpty, !d.ipCIDR.isEmpty,
    !d.port.isEmpty, !d.network.isEmpty, !d.protocol.isEmpty, !d.geoIP.isEmpty,
    !d.geoSite.isEmpty, !d.processName.isEmpty, !d.processPath.isEmpty].count true

/-- `ordNone`: no rule matched. -/
def ordNone : UInt32 := 0xFFFFFFFF

/-- `normDomain`: one trailing dot removed, then lower case. -/
def normDomain (T : TextLib) (d : Str) : Str := toLower T.toUnicode (trimSuffix d (lit "."))

/-- The key of a `domain_suffix` entry: a leading dot is dropped first. -/
def normSuffix (T : TextLib) (s : Str) : Str := normDomain T (trimPrefix s (lit "."))

/-! ### One routing question -/

/-- `evalCtx`: the data one routing call is about. -/
structure EvalCtx where
  dst : Socksaddr
  ips : List Addr := []
  src : AddrPort := .zero
  network : Str := []
  proto : Str := []
  finder : Option ProcessFinder := none

/-- `evalCtx.proc`: the process behind the source. The source looks it up at
most once in a call and keeps the answer. -/
def EvalCtx.proc (c : EvalCtx) : Option (Str × Str) :=
  match c.finder with
  | some f => if c.src.isValid then f c.network c.src else none
  | none => none

/-- `ipSet`: an IP destination stands for itself, a domain for the addresses
it resolved to. -/
def ipSet (dst : Socksaddr) (resolved : List Addr) : List Addr :=
  if dst.isIP then [dst.addr.unmap] else resolved

/-- The comparison of a process with the process entries of a leaf. -/
def Dims.namesProcess (d : Dims) : Option (Str × Str) → Bool
  | some (name, path) => d.processName.contains name || d.processPath.contains path
  | none => false

/-- `matchLeaf`: the evaluator of a leaf inside a composite. -/
def matchLeaf (T : TextLib) (r : Dims) (c : EvalCtx) : Bool :=
  (c.dst.isFqdn &&
    let host := normDomain T c.dst.fqdn
    r.domain.any (fun d => host == normDomain T d) ||
    r.domainSuffix.any (fun s =>
      host == normSuffix T s || hasSuffix host (lit "." ++ normSuffix T s)) ||
    r.domainKeyword.any (fun k => contains host (toLower T.toUnicode k)) ||
    r.geoSite.any (fun ds => ds host)) ||
  (ipSet c.dst c.ips).any (fun ip =>
    r.ipCIDR.any (fun cc =>
      match T.parsePrefix cc with
      | .ok p => p.masked.contains ip
      | .error _ => false) ||
    r.geoIP.any (fun gs => gs ip)) ||
  r.port.contains c.dst.port ||
  (!c.network.isEmpty && r.network.contains c.network) ||
  (!c.proto.isEmpty && r.protocol.contains c.proto) ||
  ((!r.processName.isEmpty || !r.processPath.isEmpty) && r.namesProcess c.proc)

mutual

/-- `compileEval`: the evaluator of a rule, applied to a context. The flag
`Not` of a leaf is not looked at. -/
def compileEval (T : TextLib) : Rule → EvalCtx → Bool
  | ⟨d, op, sub, neg, _⟩, c =>
    if op = [] then matchLeaf T d c
    else
      let f := if op = lit "and" then evalAnd T sub c else evalOr T sub c
      if neg then !f else f

/-- The loop of an `and` composite. -/
def evalAnd (T : TextLib) : List Rule → EvalCtx → Bool
  | [], _ => true
  | s :: ss, c => if !compileEval T s c then false else evalAnd T ss c

/-- The loop of an `or` composite. -/
def evalOr (T : TextLib) : List Rule → EvalCtx → Bool
  | [], _ => false
  | s :: ss, c => if compileEval T s c then true else evalOr T ss c

end

/-! ### Checks -/

mutual

/-- `ruleUsesIP`: an IP dimension is set here or in a sub-rule. -/
def ruleUsesIP : Rule → Bool
  | ⟨d, _, sub, _, _⟩ => !d.ipCIDR.isEmpty || !d.geoIP.isEmpty || anyUsesIP sub

def anyUsesIP : List Rule → Bool
  | [] => false
  | r :: rs => ruleUsesIP r || anyUsesIP rs

end

/-- The errors of `validateComposite`. -/
inductive CompositeError where
  | badOp (op : Str)
  | emptySub
  | leafDims
  | subTo
  | subDims (n : Nat)

mutual

/-- `validateComposite`: `none` where the source returns a nil error. -/
def validateComposite : Rule → Option CompositeError
  | ⟨d, op, sub, _, _⟩ =>
    if op ≠ lit "and" ∧ op ≠ lit "or" then some (.badOp op)
    else if sub.isEmpty then some .emptySub
    else if d.dimCount ≠ 0 then some .leafDims
    else validateSubs sub

def validateSubs : List Rule → Option CompositeError
  | [] => none
  | s :: ss =>
    if s.toOut ≠ [] then some .subTo
    else if s.op ≠ [] then
      match validateComposite s with
      | some e => some e
      | none => validateSubs ss
    else if s.dimCount ≠ 1 then some (.subDims s.dimCount)
    else validateSubs ss

end

/-- The errors of `Compile`; `rule[i]` is the index of the rule. -/
inductive CompileError where
  | emptyDefault
  | missingTo (i : Nat)
  | composite (i : Nat) (e : CompositeError)
  | dims (i n : Nat)
  | cidr (i : Nat) (c err : Str)
  | network (i : Nat) (nw : Str)

def CompositeError.message (U : Unicode) : CompositeError → Str
  | badOp op => lit "组合规则 op " ++ U.quote op ++ lit " 须为 and/or"
  | emptySub => lit "组合规则 sub 不可为空"
  | leafDims => lit "组合规则不可同时带叶子维度谓词(维度应写在 sub 子规则里)"
  | subTo => lit "子规则不可带 to(只有顶层规则派发出站)"
  | subDims n => lit "子规则须恰好一个维度谓词或为嵌套组合,实为 " ++ itoa n ++ lit " 维度"

def CompileError.message (U : Unicode) : CompileError → Str
  | emptyDefault => lit "rule: routing.default 不可为空(未命中兜底出站)"
  | missingTo i => lit "rule[" ++ itoa i ++ lit "]: 缺 to(目标出站)"
  | composite i e => lit "rule[" ++ itoa i ++ lit "]:" ++ e.message U
  | dims i n => lit "rule[" ++ itoa i ++ lit "]: 须恰好一个维度谓词,实为 " ++ itoa n ++
      lit "(组合规则请用 op: and/or)"
  | cidr i c err => lit "rule[" ++ itoa i ++ lit "]: ip-cidr " ++ U.quote c ++
      lit " 解析失败:" ++ err
  | network i nw => lit "rule[" ++ itoa i ++ lit "]: network " ++ U.quote nw ++
      lit " 须为 tcp/udp"

/-! ### The compiled engine -/

/-- A Go map from keys to ordinals. -/
abbrev OrdMap (κ : Type) := κ → Option UInt32

/-- `putMin`: the entry of `k` becomes the lesser of its value and `ord`. -/
def putMin {κ : Type} [DecidableEq κ] (m : OrdMap κ) (k : κ) (ord : UInt32) : OrdMap κ :=
  match m k with
  | none => Function.update m k (some ord)
  | some o => if ord < o then Function.update m k (some ord) else m

/-- The entries `cidrEntry`, `kwEntry`, `geoEntry`, `siteEntry` and
`evalRule`: a value with its ordinal. -/
structure Entry (α : Type) where
  val : α
  ord : UInt32

structure Engine where
  targets : List Str := []
  dflt : Str
  exact : OrdMap Str := fun _ => none
  suffix : OrdMap Str := fun _ => none
  keyword : List (Entry Str) := []
  cidr : List (Entry Prefix) := []
  geoip : List (Entry IPSet) := []
  geosite : List (Entry DomainSet) := []
  ports : OrdMap UInt16 := fun _ => none
  netw : OrdMap Str := fun _ => none
  protocol : OrdMap Str := fun _ => none
  procName : OrdMap Str := fun _ => none
  procPath : OrdMap Str := fun _ => none
  hasProc : Bool := false
  hasIP : Bool := false
  logical : List (Entry (EvalCtx → Bool)) := []
  hasLogical : Bool := false

/-- One loop of `Compile` over the entries of a leaf, into a map. -/
def putAll {κ : Type} [DecidableEq κ] (m : OrdMap κ) (ks : List κ) (ord : UInt32) : OrdMap κ :=
  ks.foldl (fun m k => putMin m k ord) m

/-- The loop of `Compile` over the CIDR entries of a leaf. -/
def parseCIDRs (T : TextLib) (i : Nat) : List Str → Except CompileError (List Prefix)
  | [] => .ok []
  | c :: cs =>
    match T.parsePrefix c with
    | .error err => .error (.cidr i c err)
    | .ok p =>
      match parseCIDRs T i cs with
      | .error e => .error e
      | .ok ps => .ok (p.masked :: ps)

/-- The check of the loop of `Compile` over the networks of a leaf. -/
def checkNetworks (i : Nat) : List Str → Option CompileError
  | [] => none
  | nw :: nws =>
    if nw ≠ lit "tcp" ∧ nw ≠ lit "udp" then some (.network i nw) else checkNetworks i nws

/-- The leaf `d` entered into the indexes under `ord`; `cidrs` are its parsed
CIDR entries. -/
def Engine.addLeaf (T : TextLib) (e : Engine) (d : Dims) (cidrs : List Prefix) (ord : UInt32) :
    Engine :=
  { e with
    exact := putAll e.exact (d.domain.map (normDomain T)) ord
    suffix := putAll e.suffix (d.domainSuffix.map (normSuffix T)) ord
    keyword := e.keyword ++ d.domainKeyword.map (fun k => ⟨toLower T.toUnicode k, ord⟩)
    cidr := e.cidr ++ cidrs.map (fun p => ⟨p, ord⟩)
    ports := putAll e.ports d.port ord
    netw := putAll e.netw d.network ord
    protocol := putAll e.protocol (d.protocol.map (toLower T.toUnicode)) ord
    geoip := e.geoip ++ d.geoIP.map (fun gs => ⟨gs, ord⟩)
    geosite := e.geosite ++ d.geoSite.map (fun ds => ⟨ds, ord⟩)
    procName := putAll e.procName d.processName ord
    procPath := putAll e.procPath d.processPath ord
    hasProc := e.hasProc || !d.processName.isEmpty || !d.processPath.isEmpty }

/-- The composite `r` entered into the list of evaluators. -/
def Engine.addLogical (T : TextLib) (e : Engine) (r : Rule) (ord : UInt32) : Engine :=
  { e with logical := e.logical ++ [⟨compileEval T r, ord⟩], hasLogical := true }

/-- The target and the IP flag, recorded for a rule of either kind. -/
def Engine.addTarget (e : Engine) (r : Rule) : Engine :=
  { e with targets := e.targets ++ [r.toOut], hasIP := e.hasIP || ruleUsesIP r }

/-- The body of the loop of `Compile`, for the rule `r` at index `i`. -/
def compileRule (T : TextLib) (i : Nat) (r : Rule) (e : Engine) : Except CompileError Engine :=
  if r.toOut = [] then .error (.missingTo i)
  else
    let ord := UInt32.ofNat i
    let e := e.addTarget r
    if r.op ≠ [] then
      match validateComposite r with
      | some err => .error (.composite i err)
      | none => .ok (e.addLogical T r ord)
    else if r.dimCount ≠ 1 then .error (.dims i r.dimCount)
    else
      match parseCIDRs T i r.ipCIDR with
      | .error err => .error err
      | .ok cidrs =>
        match checkNetworks i r.network with
        | some err => .error err
        | none => .ok (e.addLeaf T r.toDims cidrs ord)

/-- The loop of `Compile` from index `i` on. -/
def compileFrom (T : TextLib) (i : Nat) : List Rule → Engine → Except CompileError Engine
  | [], e => .ok e
  | r :: rs, e =>
    match compileRule T i r e with
    | .error err => .error err
    | .ok e => compileFrom T (i + 1) rs e

def compile (T : TextLib) (rules : List Rule) (dflt : Str) : Except CompileError Engine :=
  if dflt = [] then .error .emptyDefault else compileFrom T 0 rules { dflt := dflt }

/-! ### Routing -/

/-- `if o, ok := m[k]; ok && o < best { best = o }`. -/
def takeKey (best : UInt32) : Option UInt32 → UInt32
  | none => best
  | some o => if o < best then o else best

/-- `if entry.ord < best && hit(entry) { best = entry.ord }` over a list. -/
def takeEntries {α : Type} (hit : α → Bool) (es : List (Entry α)) (best : UInt32) : UInt32 :=
  es.foldl (fun best x => if x.ord < best ∧ hit x.val = true then x.ord else best) best

/-- The walk along the label parents of `s`: `a.b.c`, `b.c`, `c`. -/
def suffixWalk (m : OrdMap Str) (s : Str) (best : UInt32) : UInt32 :=
  if s = [] then best
  else
    match _h : afterByte 0x2E s with
    | none => takeKey best (m s)
    | some t => suffixWalk m t (takeKey best (m s))
termination_by s.length
decreasing_by exact afterByte_length_lt _h

namespace Engine

/-- The domain dimensions of `dimsBest`. -/
def domainBest (e : Engine) (host : Str) (best : UInt32) : UInt32 :=
  let best := takeKey best (e.exact host)
  let best := suffixWalk e.suffix host best
  let best := takeEntries (fun kw => contains host kw) e.keyword best
  takeEntries (fun ds => ds host) e.geosite best

/-- The IP dimensions of `dimsBest`, for each address in turn. -/
def ipBest (e : Engine) (ips : List Addr) (best : UInt32) : UInt32 :=
  ips.foldl (fun best ip =>
    takeEntries (fun gs => gs ip) e.geoip (takeEntries (fun p => p.contains ip) e.cidr best)) best

/-- `dimsBest`: the least ordinal over the dimensions of the destination. -/
def dimsBest (T : TextLib) (e : Engine) (c : EvalCtx) : UInt32 :=
  let best := ordNone
  let best := if c.network ≠ [] then takeKey best (e.netw c.network) else best
  let best := if c.proto ≠ [] then takeKey best (e.protocol c.proto) else best
  let best := if c.dst.isFqdn then e.domainBest (normDomain T c.dst.fqdn) best else best
  let best := e.ipBest (ipSet c.dst c.ips) best
  takeKey best (e.ports c.dst.port)

/-- The process dimensions, looked at only with a finder and a valid source. -/
def procBest (e : Engine) (c : EvalCtx) (best : UInt32) : UInt32 :=
  if e.hasProc && c.finder.isSome && c.src.isValid then
    match c.proc with
    | some (name, path) => takeKey (takeKey best (e.procName name)) (e.procPath path)
    | none => best
  else best

def logicalBest (e : Engine) (c : EvalCtx) (best : UInt32) : UInt32 :=
  if e.hasLogical then takeEntries (fun eval => eval c) e.logical best else best

/-- The least matching ordinal that `RouteConnIPs` ends up with. -/
def best (T : TextLib) (e : Engine) (c : EvalCtx) : UInt32 :=
  e.logicalBest c (e.procBest c (e.dimsBest T c))

def routeConnIPs (T : TextLib) (e : Engine) (c : EvalCtx) : Str :=
  if e.best T c = ordNone then e.dflt else e.targets.getD (e.best T c).toNat []

end Engine

end Ntr.Routing
