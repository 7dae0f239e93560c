/-
The inbounds of a configuration: the body of the second loop of `Build`.

The code here works on the shared meter registry, which keeps what was done to
it when the build fails later on (`BuildM`).
-/
import Ntr.Config.Desugar
import Ntr.Config.Outbounds
import Ntr.Lib.FailState

namespace Ntr.Config

open Go Meter Lib FailState

/-- Code of `Build`: it may fail, and it works on the registry. -/
abbrev BuildM (α : Type) := FailState Err Registry α

/-- `reg.IDForBill(bill)`. -/
def idForBill (bill : Str) : BuildM CredID := step fun r => r.idForBill bill

def failIf (err : Option Err) : BuildM Unit :=
  match err with
  | some err => throw err
  | none => pure ()

/-! ### Limits in the configuration -/

/-- `buildGate`: the gate of one layer of limits, `none` for no limit. -/
def buildGate (E : Env) (l : Option LimitsSpec) : Except Err (Option (Int × F64)) :=
  match l with
  | none => .ok none
  | some l =>
    let newGate (rate : F64) := if l.maxConns = 0 ∧ rate.isZero then none else some (l.maxConns, rate)
    if l.rate = [] then .ok (newGate ⟨0⟩)
    else
      match E.parseRate l.rate with
      | .error err => .error err
      | .ok r => .ok (newGate r)

def toInt (E : Env) : Option Yaml → Option Int
  | some (.int n) => if -2 ^ 63 ≤ n ∧ n < 2 ^ 63 then some n else none
  | some (.float x) => some (E.floatToInt x)
  | _ => none

def positive (n : Option Int) : Option Int := n.filter (0 < ·)

/-- The rate of a user of an inbound; a text that is no rate is passed over. -/
def userRate (E : Env) (u : YamlMap) : Option F64 :=
  (((YamlMap.str u (lit "rate")).filter (· ≠ [])).bind fun s => (E.parseRate s).toOption).filter
    F64.isPos

/-- `parseUserLimits`: the limits of a user of an inbound, `none` for none. -/
def parseUserLimits (E : Env) (u : YamlMap) : Option Limits :=
  let maxConns := positive (toInt E (u.lookup (lit "max-conns")))
  let maxIPs := positive (toInt E (u.lookup (lit "max-ips")))
  let rate := userRate E u
  if maxConns.isSome ∨ maxIPs.isSome ∨ rate.isSome then
    some { maxConns := maxConns.getD 0, maxIPs := maxIPs.getD 0, rate := rate.getD ⟨0⟩ }
  else none

def userSecret (u : YamlMap) : Str :=
  (([lit "uuid", lit "password", lit "psk"].filterMap (YamlMap.str u)).find? (· ≠ [])).getD []

/-! ### Credentials -/

/-- `config: 入站 name` with the text of an error behind it. -/
def inboundErr (name tail : Str) : Err := lit "config: 入站 " ++ name ++ tail

/-- The users of one binding; `n` keys of its bill were given before. -/
def layerUsers (billID : Str) : Nat → List AuthLayer → List SessionUser
  | _, [] => []
  | n, l :: ls =>
    { tag := if 0 < n then billID ++ lit "#" ++ itoa n else billID
      secret := l.key, fields := l.fields.getD [] } :: layerUsers billID (n + 1) ls

/-- The loop over the bindings of an inbound in `sessionUsersFromBinds` and in
the batch branch of `buildProxyInbound`; only the first refuses bindings. -/
def bindUsers (refuse : CredBinding → Option Err) :
    List CredBinding → (Str → Nat) → BuildM (List SessionUser)
  | [], _ => pure []
  | b :: bs, seen => do
      failIf (refuse b)
      let _ ← idForBill b.billID
      let n := seen b.billID
      let rest ← bindUsers refuse bs (Function.update seen b.billID (n + b.layers.length))
      pure (layerUsers b.billID n b.layers ++ rest)

/-- `service.StaticAuth`: the credential under a scheme and a key. -/
abbrev AuthTable := Str × Str → Option CredID

/-- The loop over the layers of a binding in `buildProxyInbound`. -/
def registerLayers (E : Env) (i : Inbound) (billID : Str) (id : CredID) :
    List AuthLayer → AuthTable → BuildM AuthTable
  | [], auth => pure auth
  | l :: ls, auth => do
      let key ← lift <|
        match E.authKey i l.key with
        | .error err => .error (inboundErr i.inboundName (lit " 凭据 " ++ billID ++ lit ":" ++ err))
        | .ok key => .ok key
      match auth (l.scheme, key) with
      | some prev =>
        if prev ≠ id then do
          let other ← step fun r => (r.bill prev, r)
          throw (inboundErr i.inboundName (lit " 凭据 " ++ billID ++ lit " 与 " ++ other ++
            lit " 派生出同一鉴权键 (E-KEY-DUP)"))
        else registerLayers E i billID id ls (Function.update auth (l.scheme, key) (some id))
      | none => registerLayers E i billID id ls (Function.update auth (l.scheme, key) (some id))

/-- The loop over the bindings of an inbound in `buildProxyInbound`. -/
def registerBinds (E : Env) (i : Inbound) : List CredBinding → AuthTable → BuildM Unit
  | [], _ => pure ()
  | b :: bs, auth => do
      let id ← idForBill b.billID
      let auth ← registerLayers E i b.billID id b.layers auth
      registerBinds E i bs auth

/-- The loop over the inbound's own users in `buildProxyInbound`, from number
`j` on. A user without a secret is passed over. -/
def registerUsers (E : Env) (i : Inbound) (metering : Bool) : Nat → List YamlMap → BuildM Unit
  | _, [] => pure ()
  | j, u :: us =>
    if userSecret u = [] then registerUsers E i metering (j + 1) us
    else do
      failIf <|
        match E.authKey i (userSecret u) with
        | .error err => some (inboundErr i.listen (lit " 用户 #" ++ itoa j ++ lit ":" ++ err))
        | .ok _ => none
      let id ← idForBill (i.inboundName ++ lit "#" ++ itoa j)
      match parseUserLimits E u with
      | some l =>
        failIf <|
          if metering then none
          else some (inboundErr i.listen (lit " 用户 #" ++ itoa j ++
            lit " 配了限额但未启用 metrics:(限额会静默失效)"))
        step fun r => ((), r.setLimits id l)
      | none => pure ()
      registerUsers E i metering (j + 1) us

/-! ### Protocol inbounds -/

def buildProxyInbound (E : Env) (i : Inbound) (binds : List CredBinding) (metering : Bool) :
    BuildM ProxyCaps := do
  failIf ((E.synthLayers i).map fun err => inboundErr i.inboundName (lit ":" ++ err))
  let caps ← lift <|
    match E.buildStack i with
    | .error err => .error (inboundErr i.listen (lit ":" ++ err))
    | .ok caps => .ok caps
  if caps.registrar ∧ binds ≠ [] then do
    let users ← bindUsers (fun _ => none) binds fun _ => 0
    failIf ((E.registerUsers i users).map fun err =>
      inboundErr i.inboundName (lit " 注册顶层 users:" ++ err))
  else if !caps.codec then
    failIf <|
      if binds ≠ [] then
        some (inboundErr i.inboundName (lit " 配了 users 但协议 " ++ E.text.quote i.typ ++
          lit " 不支持 per-user 凭据 (E-USERS-NO-CODEC)"))
      else none
  else if binds ≠ [] then registerBinds E i binds fun _ => none
  else registerUsers E i metering 0 i.users
  pure caps

/-- The users of a session inbound without bindings: the string fields of each
entry. -/
def inlineSessionUsers (users : List YamlMap) : List SessionUser :=
  users.map fun u =>
    { tag := (YamlMap.str u (lit "name")).getD []
      secret := (YamlMap.str u (lit "password")).getD []
      fields := u.filterMap fun (k, v) => match v with | .str s => some (k, s) | _ => none }

/-- `sessionPluginEnv`: what a session plugin is given, its users. -/
def sessionPluginEnv (E : Env) (i : Inbound) (binds : List CredBinding) (metering : Bool) :
    BuildM (List SessionUser) := do
  failIf ((E.tlsNode i).map fun err => lit "tls 块:" ++ err)
  let _ ← lift <|
    match buildGate E i.limits with
    | .error err => .error (inboundErr i.inboundName (lit "(limits):" ++ err))
    | .ok gate => .ok gate
  let users ←
    if binds ≠ [] then
      bindUsers (fun b =>
        if b.limit.isSome ∧ !metering then
          some (inboundErr i.inboundName (lit " 用户 " ++ E.text.quote b.name ++
            lit " 配了限额但未启用 metrics:(限额会静默失效)"))
        else none) binds fun _ => 0
    else pure (inlineSessionUsers i.users)
  failIf (E.inboundNode i)
  pure users

/-- `buildSessionPluginInbound` and `buildSessionPluginHandler`, by the
constructor of the plugin. -/
def buildSession (E : Env) (new : Inbound → List SessionUser → Option Err) (i : Inbound)
    (binds : List CredBinding) (metering : Bool) : BuildM Unit :=
  mapErr (fun err => inboundErr i.listen (lit "(" ++ i.typ ++ lit "):" ++ err)) do
    let users ← sessionPluginEnv E i binds metering
    failIf (new i users)

/-! ### One inbound -/

/-- What the inbounds of one `Build` have in common. -/
structure InboundCtx where
  table : OutTable
  binds : Str → List CredBinding
  metering : Bool

/-- One entry of `parseHijack`. -/
def parseHijackEntry (E : Env) (s : Str) : Option Err :=
  let (host, port) := match splitHostPort s with
    | .ok hp => hp
    | .error _ => (s, lit "53")
  match E.atoi port with
  | none => some (lit "dns-hijack 端口非法 " ++ E.text.quote s)
  | some pn =>
    if pn ≤ 0 ∨ 65535 < pn then some (lit "dns-hijack 端口非法 " ++ E.text.quote s)
    else if host = lit "any" ∨ host = lit "*" ∨ host = [] then none
    else
      match E.parseAddr host with
      | .ok _ => none
      | .error err => some (lit "dns-hijack 地址非法 " ++ E.text.quote s ++ lit ":" ++ err)

/-- The branch `tun` of the type switch. -/
def buildTun (E : Env) (c : InboundCtx) (i : Inbound) : BuildM Unit := do
  failIf ((i.dnsHijack.findSome? (parseHijackEntry E)).map fun err =>
    lit "config: 入站 tun dns-hijack:" ++ err)
  failIf <|
    if i.dnsHijack ≠ [] ∧ !c.table.resolver then
      some (lit "config: 入站 tun 用了 dns-hijack,但未启用 dns:(需 dns.enabled=true 提供 resolver)")
    else none
  failIf ((E.newTun i).map fun err => lit "config: 入站 tun:" ++ err)

/-- The gate of an inbound whose connections the runtime accepts. -/
def finishInbound (E : Env) (i : Inbound) : BuildM Unit := do
  let _ ← lift <|
    match buildGate E i.limits with
    | .error err => .error (inboundErr i.listen (lit "(limits):" ++ err))
    | .ok gate => .ok gate
  pure ()

/-- The branches of the loop over the inbounds: session plugins with a listener
of their own, stacks of layers, the built-in types, and session plugins whose
connections the runtime accepts. -/
inductive InboundKind where
  | plugin
  | stack
  | dns
  | tun
  | tunnel
  | transparent
  | handler
  | unknown
  deriving DecidableEq

/-- The branch that an inbound goes to; the plugins come before the type
switch. -/
def Inbound.kind (E : Env) (i : Inbound) : InboundKind :=
  if (E.session i.typ).any (·.newInbound) then .plugin
  else if E.isProxyProto i.typ ∨ i.typ = [] ∨ i.typ = lit "proxy" then .stack
  else if i.typ = lit "dns" then .dns
  else if i.typ = lit "tun" then .tun
  else if i.typ = lit "tunnel" then .tunnel
  else if i.typ = lit "redirect" ∨ i.typ = lit "tproxy" then .transparent
  else if (E.session i.typ).any (·.newHandler) then .handler
  else .unknown

/-- The branches themselves. A stack on a base transport of its own has no gate. -/
def buildByKind (E : Env) (c : InboundCtx) (i : Inbound) (binds : List CredBinding) : BuildM Unit :=
  match i.kind E with
  | .plugin => buildSession E E.newSessionInbound i binds c.metering
  | .stack => do
      let caps ← buildProxyInbound E i binds c.metering
      if caps.base ∧ !i.isPortal then pure () else finishInbound E i
  | .dns => failIf <|
      if c.table.resolver then none
      else some (inboundErr i.listen (lit "(dns)需启用 dns:(dns.enabled=true 提供 resolver)"))
  | .tun => buildTun E c i
  | .tunnel =>
    failIf ((E.newTunnel i).map fun err => inboundErr i.listen (lit "(tunnel):" ++ err))
  | .transparent => failIf ((E.newTransparent i).map fun err =>
    inboundErr i.listen (lit "(" ++ i.typ ++ lit "):" ++ err))
  | .handler => do
      buildSession E E.newSessionHandler i binds c.metering
      finishInbound E i
  | .unknown => throw (inboundErr i.listen (lit " 未知 type " ++ E.text.quote i.typ))

/-- The entry as the loop works on it, with its listen address in full. -/
def Inbound.composed (i : Inbound) : Inbound := { i with listen := i.listenAddr }

@[simp]
lemma Inbound.composed_kind (E : Env) (i : Inbound) : i.composed.kind E = i.kind E := rfl

/-- The body of the loop over the inbounds, for the entry of number `n`. -/
def buildInbound (E : Env) (c : InboundCtx) (n : Nat) (i : Inbound) : BuildM Unit := do
  failIf <|
    if i.composed.listen = [] ∧ i.typ ≠ lit "tun" then
      some (lit "config: 入站 #" ++ itoa n ++ lit " 缺 listen")
    else none
  let outName := if i.outbound = [] then lit "direct" else i.outbound
  failIf <|
    if c.table.outs.byName outName = none then
      some (inboundErr i.composed.listen (lit " 引用了未定义的出站 " ++ E.text.quote outName))
    else none
  buildByKind E c i.composed (c.binds i.composed.inboundName)

/-- The loop over the inbounds, from number `n` on. -/
def buildInbounds (E : Env) (c : InboundCtx) : Nat → List Inbound → BuildM Unit
  | _, [] => pure ()
  | n, i :: is => do
      buildInbound E c n i
      buildInbounds E c (n + 1) is

end Ntr.Config
