/-
`Build`: a configuration becomes a list of instances that can be run.

* `applyUserLimits`: the limits of the top-level users, one shared unit for
  each user.

The timeouts that `Build` pushes to the relay and the memory limit it sets for
the process are not part of the registry and are left out.
-/
import Ntr.Config.Inbounds
import Ntr.Config.Router

namespace Ntr.Config

open Go Meter Lib

/-! ### Lifecycle timeouts -/

/-- One second, in the unit of `time.Duration`. -/
def second : Int := 1000000000

/-- `dur`: an empty or invalid text stands for the default. -/
def dur (E : Env) (s : Str) (dflt : Int) : Int :=
  if s = [] then dflt
  else
    match E.parseDuration s with
    | .ok d => if 0 < d then d else dflt
    | .error _ => dflt

def File.handshakeTimeout (E : Env) (f : File) : Int :=
  dur E ((f.lifecycle.map (·.handshake)).getD []) (10 * second)

def File.tcpIdle (E : Env) (f : File) : Int :=
  dur E ((f.lifecycle.map (·.tcpIdle)).getD []) (300 * second)

/-! ### Instances -/

/-- What the running part of an instance was made from. All but the last two
close over the objects of the `Build` they come from, so over its file. -/
inductive Source where
  | group (f : File) (g : Outbound)
  | inbound (f : File) (i : Inbound) (binds : List CredBinding)
  | bridge (f : File) (b : Bridge)
  | memGuard (f : File)
  | metrics (f : File)
  | rateSampler
  | reaper (tcpIdle : Int)

/-- What the field `Hash` of an instance is taken of. -/
inductive Hashed where
  | nothing
  | value (a : HashArg)
  | rateSampler
  | reaper (tcpIdle : Int)

/-- The text of the field `Hash`. -/
def Hashed.text (E : Env) : Hashed → Str
  | .nothing => []
  | .value a => E.hashOf a
  | .rateSampler => lit "rate-sampler"
  | .reaper tcpIdle => lit "reaper:" ++ E.durationString tcpIdle

structure Instance where
  listen : Str
  hashed : Hashed
  src : Source

/-- The field `Hash`. -/
def Instance.hash (E : Env) (i : Instance) : Str := i.hashed.text E

/-! ### Before the inbound loop -/

/-- Whether the metrics are on (`metricReg ≠ nil`). -/
def File.metering (f : File) : Bool := f.metrics.any fun m => m.listen ≠ []

def authProto (E : Env) (i : Inbound) : Str :=
  if E.isProxyProto i.typ ∨ (E.session i.typ).any (·.hasInbound) then i.typ else []

/-- The loop that collects `inboundNames` and `stackProtos`, from number `n` on. -/
def inboundTable (E : Env) :
    Nat → List Inbound → List Str → (Str → List Str) → Except Err (List Str × (Str → List Str))
  | _, [], names, protos => .ok (names, protos)
  | n, i :: is, names, protos =>
    if E.isProxyProto i.typ ∧ i.name = [] then
      .error (lit "config: 入站 #" ++ itoa n ++ lit "(type " ++ E.text.quote i.typ ++
        lit ")是第4章新格式,必须写 name (E-INBOUND-NONAME)")
    else if i.inboundName = [] then inboundTable E (n + 1) is names protos
    else if i.inboundName ∈ names then
      .error (lit "config: 入站口名重复 " ++ E.text.quote i.inboundName ++ lit " (E-INBOUND-DUP)")
    else
      inboundTable E (n + 1) is (i.inboundName :: names) <|
        if authProto E i = [] then protos
        else Function.update protos i.inboundName [authProto E i]

/-- The bindings of the file, with the checks that come before the inbound
loop. -/
def fileBindings (E : Env) (f : File) : Except Err (List CredBinding) :=
  match inboundTable E 0 f.inbounds [] fun _ => [] with
  | .error err => .error err
  | .ok (names, protos) =>
    match desugar E f.users names protos with
    | .error err => .error err
    | .ok bindings =>
      match bindings.find? fun b => !f.metering && b.limit.isSome with
      | some b => .error (lit "config: user " ++ E.text.quote b.name ++
          lit " 配了 rate/max-conns/max-ips 但未启用 metrics:(per-user 限额依赖计量子系统;请加 metrics: 块或去掉限额)")
      | none => .ok bindings

/-- `bindingsByInbound[name]`. -/
def bindingsFor (bindings : List CredBinding) (name : Str) : List CredBinding :=
  bindings.filter fun b => b.inbound = name

/-- The engine of the `routing:` block, where there is one. -/
def fileRouter (E : Env) (f : File) (outs : Outs) : Except Err (Option Ntr.Routing.Engine) :=
  match f.routing with
  | none => .ok none
  | some spec =>
    match buildRouter E spec outs with
    | .error err => .error err
    | .ok eng => .ok (some eng)

structure Prepared where
  table : OutTable
  router : Option Ntr.Routing.Engine
  bindings : List CredBinding

/-- The part of `Build` before the inbound loop. -/
def prepare (E : Env) (f : File) : Except Err Prepared :=
  match f.memGuard.bind E.buildMemGuard with
  | some err => .error err
  | none =>
    match buildGate E f.limits with
    | .error err => .error (lit "config: limits:" ++ err)
    | .ok _ =>
      match buildOuts E f with
      | .error err => .error err
      | .ok table =>
        match fileRouter E f table.outs with
        | .error err => .error err
        | .ok router =>
          match fileBindings E f with
          | .error err => .error err
          | .ok bindings => .ok ⟨table, router, bindings⟩

def Prepared.ctx (p : Prepared) (f : File) : InboundCtx where
  table := p.table
  binds := bindingsFor p.bindings
  metering := f.metering

/-! ### After the inbound loop -/

/-- The first loop of the user limits: the numbers of the bindings that carry a
limit. -/
def limitedIDs : List CredBinding → BuildM (List (CredBinding × CredID))
  | [] => pure []
  | b :: bs => do
      if b.limit.isNone then limitedIDs bs
      else do
        let id ← idForBill b.billID
        let rest ← limitedIDs bs
        pure ((b, id) :: rest)

def LimitRef.limits (E : Env) (l : LimitRef) : Limits where
  maxConns := l.maxConns.toNat
  rate := E.rateOfUInt l.rate
  maxIPs := l.maxIPs.toNat

/-- The second loop of the user limits, for one user: all its numbers get one
shared unit, with the limit of the last binding. -/
def shareLimits (E : Env) (xs : List (CredBinding × CredID)) (r : Registry) (name : Str) :
    Registry :=
  let own := xs.filter fun x => x.1.name = name
  match own.getLast?.bind fun x => x.1.limit with
  | some l => r.setLimitsShared (own.map (·.2)) (l.limits E)
  | none => r

def applyUserLimits (E : Env) (bindings : List CredBinding) : BuildM Unit := do
  let xs ← limitedIDs bindings
  FailState.step fun r => ((), (xs.map fun x => x.1.name).dedup.foldl (shareLimits E xs) r)

/-- The key of the map `inboundHash`: the entry's `Listen` as it is written, or
the interface of a `tun`. -/
def Inbound.hashKey (i : Inbound) : Str :=
  if i.typ = lit "tun" then lit "tun:" ++ i.ifName else i.listen

/-- The map `inboundHash`: the last entry with a key counts. -/
def inboundHash (f : File) (bindings : List CredBinding) (key : Str) : Hashed :=
  match f.inbounds.reverse.find? fun i => i.hashKey = key with
  | some i => .value (.inbound i (bindingsFor bindings i.inboundName) f.lifecycle)
  | none => .nothing

def instanceListen (E : Env) (i : Inbound) : Str :=
  if i.kind E = .tun then lit "tun:" ++ i.ifName else i.composed.listen

/-- The instances of the groups and inbounds, with their hashes. -/
def firstInstances (E : Env) (f : File) (p : Prepared) : List Instance :=
  let groups := p.table.loops.map fun g => (lit "group:" ++ g.name, Source.group f g)
  let inbounds := f.inbounds.map fun i => (instanceListen E i,
    Source.inbound f i.composed (bindingsFor p.bindings i.composed.inboundName))
  (groups ++ inbounds).map fun (listen, src) =>
    { listen := listen, hashed := inboundHash f p.bindings listen, src := src }

/-- The loop over the bridges, from number `n` on. -/
def bridgeInstances (E : Env) (f : File) (outs : Outs) :
    Nat → List Bridge → Except Err (List Instance)
  | _, [] => .ok []
  | n, b :: bs =>
    if b.portal = [] then
      .error (lit "config: bridge #" ++ itoa n ++ lit " 缺 portal(拨 Portal 的出站名)")
    else if outs.byName b.portal = none then
      .error (lit "config: bridge #" ++ itoa n ++ lit " 引用未定义出站 " ++ E.text.quote b.portal)
    else
      match bridgeInstances E f outs (n + 1) bs with
      | .error err => .error err
      | .ok rest => .ok <|
          { listen := lit "reverse-bridge#" ++ itoa n ++ lit "→" ++ b.portal
            hashed := .value (.bridge b), src := .bridge f b } :: rest

/-- `parseAccess`: its error. -/
def parseAccess (E : Env) : List Str → Option Err
  | [] => none
  | a :: as =>
    match E.text.parsePrefix (E.trimSpace a) with
    | .ok _ => parseAccess E as
    | .error _ =>
      match E.parseAddr (E.trimSpace a) with
      | .ok _ => parseAccess E as
      | .error _ => some (lit "非法条目 " ++ E.text.quote (E.trimSpace a) ++ lit "(需 IP 或 CIDR)")

def metricsInstances (E : Env) (f : File) : Except Err (List Instance) :=
  match f.metrics with
  | none => .ok []
  | some m =>
    if m.listen = [] then .ok []
    else
      match parseAccess E m.access with
      | some err => .error (lit "config: metrics.access:" ++ err)
      | none => .ok
          [{ listen := lit "metrics:" ++ m.listen, hashed := .value (.metrics m)
             src := .metrics f },
           { listen := lit "rate-sampler", hashed := .rateSampler, src := .rateSampler },
           { listen := lit "reaper", hashed := .reaper (f.tcpIdle E)
             src := .reaper (f.tcpIdle E) }]

/-- The part of `Build` after the limits: the bridges, the memory guard and the
metrics. -/
def lastInstances (E : Env) (f : File) (p : Prepared) : Except Err (List Instance) :=
  match bridgeInstances E f p.table.outs 0 f.bridges with
  | .error err => .error err
  | .ok bridges =>
    let guard := f.memGuard.toList.map fun s : MemGuardSpec =>
      ({ listen := lit "mem-guard", hashed := .value (.memGuard s), src := .memGuard f } : Instance)
    match metricsInstances E f with
    | .error err => .error err
    | .ok metrics =>
      let insts := firstInstances E f p ++ bridges ++ guard ++ metrics
      if insts.isEmpty then .error (lit "config: 无 inbounds / bridges") else .ok insts

/-- `Build`, on the registry it is handed. -/
def build (E : Env) (f : File) : BuildM (List Instance) := do
  let p ← FailState.lift (prepare E f)
  buildInbounds E (p.ctx f) 0 f.inbounds
  if f.metering then applyUserLimits E p.bindings
  FailState.lift (lastInstances E f p)

end Ntr.Config
