/-
The configuration file (`config.File`) after YAML decoding, and what the
configuration layer calls outside its own package.

* `Env`: the constructors of protocols, transports and outbounds, the parsers
  of the Go library and the geo databases. A constructor gives the text of its
  error, `none` for success.
-/
import Ntr.Rule.Engine
import Ntr.Meter.Registry

namespace Ntr.Config

open Go

/-- The text of an error. -/
abbrev Err := Str

/-- A decoded YAML value. -/
inductive Yaml where
  | null
  | bool (b : Bool)
  | int (n : Int)
  | float (x : F64)
  | str (s : Str)
  | seq (xs : List Yaml)
  | map (kvs : List (Str × Yaml))

/-- A decoded YAML mapping, in the order of its keys. -/
abbrev YamlMap := List (Str × Yaml)

/-- The string under a key, as in `m[k].(string)`. -/
def YamlMap.str (m : YamlMap) (k : Str) : Option Str :=
  match m.lookup k with
  | some (.str s) => some s
  | _ => none

/-! ### Inbounds -/

structure LimitsSpec where
  rate : Str := []
  maxConns : Int := 0

structure Inbound where
  name : Str := []
  listen : Str := []
  port : UInt16 := 0
  typ : Str := []
  extra : YamlMap := []
  users : List YamlMap := []
  tls : YamlMap := []
  outbound : Str := []
  ifName : Str := []
  dnsHijack : List Str := []
  limits : Option LimitsSpec := none
  rest : YamlMap := []

namespace Inbound

def listenAddr (i : Inbound) : Str :=
  if i.port = 0 then i.listen
  else
    match splitHostPort i.listen with
    | .ok _ => i.listen
    | .error _ =>
      joinHostPort (if i.listen = [] then lit "0.0.0.0" else i.listen) (itoa i.port.toNat)

def inboundName (i : Inbound) : Str := if i.name ≠ [] then i.name else i.listenAddr

def isPortal (i : Inbound) : Bool := YamlMap.str i.extra (lit "mode") = some (lit "portal")

end Inbound

/-! ### Outbounds and routing -/

structure MuxSpec where
  protocol : Str := []
  rest : YamlMap := []

structure Outbound where
  name : Str := []
  typ : Str := []
  server : Str := []
  sni : Str := []
  insecure : Bool := false
  fingerprint : Str := []
  dialer : Str := []
  mux : Option MuxSpec := none
  mode : Str := []
  members : List Str := []
  interval : Str := []
  rest : YamlMap := []

/-- `RuleSpec`; `neg` is the key `not`. -/
structure RuleSpec where
  domain : List Str := []
  domainSuffix : List Str := []
  domainKeyword : List Str := []
  ipCIDR : List Str := []
  port : List UInt16 := []
  network : List Str := []
  protocol : List Str := []
  geoIP : List Str := []
  geoSite : List Str := []
  ruleSet : List Str := []
  processName : List Str := []
  processPath : List Str := []
  op : Str := []
  sub : List RuleSpec := []
  neg : Bool := false
  toOut : Str := []

structure RuleProviderSpec where
  name : Str := []
  behavior : Str := []
  path : Str := []
  url : Str := []
  detour : Str := []

structure RoutingSpec where
  dflt : Str := []
  rules : List RuleSpec := []
  geoIPPath : Str := []
  geoSitePath : Str := []
  ruleProviders : List RuleProviderSpec := []

/-! ### The name service -/

structure FakeIPSpec where
  enabled : Bool := false
  inet4Range : Str := []
  inet6Range : Str := []
  exclude : List Str := []

structure NameserverSpec where
  detour : Str := []
  rest : YamlMap := []

structure DNSSpec where
  enabled : Bool := false
  detour : Str := []
  nameservers : List NameserverSpec := []
  hosts : List (Str × List Str) := []
  fakeIP : Option FakeIPSpec := none
  rest : YamlMap := []

/-! ### Users -/

/-- `KeySpec`: the credentials of one protocol, scalars and named fields; a
`null` in a list of named fields is the nil map. -/
structure KeySpec where
  values : List Str := []
  maps : List (Option (List (Str × Str))) := []

structure User where
  name : Str := []
  on : List Str := []
  off : List Str := []
  keys : List (Str × KeySpec) := []
  rate : Str := []
  maxConns : UInt32 := 0
  maxIPs : UInt32 := 0
  onExceedIPs : Str := []

structure LimitRef where
  rate : UInt64
  maxConns : UInt32
  maxIPs : UInt32
  deriving DecidableEq

/-- `principal.AuthLayer`: a scalar credential is `key`, a compound one
`fields`. -/
structure AuthLayer where
  scheme : Str
  key : Str := []
  fields : Option (List (Str × Str)) := none
  deriving DecidableEq

structure CredBinding where
  inbound : Str
  layers : List AuthLayer
  billID : Str
  name : Str
  limit : Option LimitRef
  deriving DecidableEq

def billIDOf (name inbound : Str) : Str := name ++ lit "@" ++ inbound

/-! ### The file -/

structure Bridge where
  portal : Str := []
  controlDomain : Str := []
  pool : Int := 0

structure MetricsSpec where
  listen : Str := []
  access : List Str := []

structure MemGuardSpec where
  limit : Str := []
  soft : Str := []
  hard : Str := []

structure LifecycleSpec where
  handshake : Str := []
  tcpIdle : Str := []
  udpIdle : Str := []
  halfCloseIdle : Str := []

/-- `File`, without the registry, which `Build` takes and gives back. -/
structure File where
  inbounds : List Inbound := []
  outbounds : List Outbound := []
  bridges : List Bridge := []
  dns : Option DNSSpec := none
  metrics : Option MetricsSpec := none
  limits : Option LimitsSpec := none
  routing : Option RoutingSpec := none
  users : List User := []
  memGuard : Option MemGuardSpec := none
  lifecycle : Option LifecycleSpec := none

/-! ### What lies outside -/

/-- The parts of a session protocol plugin that are there. -/
structure SessionCaps where
  newOutbound : Bool := false
  newInbound : Bool := false
  newHandler : Bool := false

def SessionCaps.hasInbound (s : SessionCaps) : Bool := s.newInbound || s.newHandler

/-- What a built inbound stack can do: take users as a batch, derive
authentication keys from secrets, listen through a base transport. -/
structure ProxyCaps where
  registrar : Bool := false
  codec : Bool := false
  base : Bool := false

/-- A user handed to a session plugin or to a user registrar. -/
structure SessionUser where
  tag : Str
  secret : Str
  fields : List (Str × Str) := []

/-- The values that `hashOf` is applied to. -/
inductive HashArg where
  | inbound (i : Inbound) (binds : List CredBinding) (lifecycle : Option LifecycleSpec)
  | bridge (b : Bridge)
  | memGuard (s : MemGuardSpec)
  | metrics (s : MetricsSpec)

structure Env where
  text : Ntr.Routing.TextLib
  parseAddr : Str → Except Err Addr
  parseDuration : Str → Except Err Int
  parsePort : Str → Option UInt16
  atoi : Str → Option Int
  trimSpace : Str → Str
  durationString : Int → Str
  parseRate : Str → Except Err F64
  rateToUInt : F64 → UInt64
  rateOfUInt : UInt64 → F64
  floatToInt : F64 → Int
  isProxyProto : Str → Bool
  session : Str → Option SessionCaps
  newSessionOutbound : Outbound → Option Err
  buildUpstream : Outbound → Option Err
  newMux : Outbound → Option Err
  newMuxCool : Outbound → Option Err
  newWireguard : Outbound → Option Err
  newGroup : Outbound → Option Err
  newResolver : DNSSpec → Option Err
  geoIP : Str → Except Err (List Str → Except Err Ntr.Routing.IPSet)
  geoSite : Str → Except Err (Str → Except Err Ntr.Routing.DomainSet)
  loadIP : RuleProviderSpec → Except Err Ntr.Routing.IPSet
  loadDomain : RuleProviderSpec → Except Err Ntr.Routing.DomainSet
  buildMemGuard : MemGuardSpec → Option Err
  synthLayers : Inbound → Option Err
  buildStack : Inbound → Except Err ProxyCaps
  authKey : Inbound → Str → Except Err Str
  registerUsers : Inbound → List SessionUser → Option Err
  tlsNode : Inbound → Option Err
  inboundNode : Inbound → Option Err
  newSessionInbound : Inbound → List SessionUser → Option Err
  newSessionHandler : Inbound → List SessionUser → Option Err
  newTun : Inbound → Option Err
  newTunnel : Inbound → Option Err
  newTransparent : Inbound → Option Err
  hashOf : HashArg → Str

/-- Surroundings for small files: `trojan` is the one protocol, every
constructor succeeds, and only the secret `bad` gives no key. -/
def plainEnv (hashOf : HashArg → Str) : Env where
  text := Ntr.Routing.asciiText
  parseAddr _ := .error []
  parseDuration _ := .error []
  parsePort _ := some 443
  atoi _ := none
  trimSpace := id
  durationString _ := []
  parseRate _ := .error []
  rateToUInt _ := 0
  rateOfUInt _ := ⟨0⟩
  floatToInt _ := 0
  isProxyProto t := t = lit "trojan"
  session _ := none
  newSessionOutbound _ := none
  buildUpstream _ := none
  newMux _ := none
  newMuxCool _ := none
  newWireguard _ := none
  newGroup _ := none
  newResolver _ := none
  geoIP _ := .error []
  geoSite _ := .error []
  loadIP _ := .error []
  loadDomain _ := .error []
  buildMemGuard _ := none
  synthLayers _ := none
  buildStack _ := .ok { codec := true }
  authKey _ secret := if secret = lit "bad" then .error (lit "no key") else .ok secret
  registerUsers _ _ := none
  tlsNode _ := none
  inboundNode _ := none
  newSessionInbound _ _ := none
  newSessionHandler _ _ := none
  newTun _ := none
  newTunnel _ := none
  newTransparent _ := none
  hashOf := hashOf

end Ntr.Config
