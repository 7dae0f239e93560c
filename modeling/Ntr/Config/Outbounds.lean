/-
The outbound table of a configuration: the first half of `Build`.

Each entry of `outbounds:` gives one object, numbered by its place; the object
`0` is the `direct` outbound that is always there.  A group holds the objects
of its members, an upstream with a `dialer` looks the name up when it dials.
-/
import Ntr.Config.Spec

namespace Ntr.Config

open Go

/-- The number of an outbound object. -/
abbrev ObjID := Nat

/-- An outbound object: `upstream` stands for `*upstream.Outbound`, `leaf` for
the types that pass no dial on to another outbound. -/
inductive Node where
  | leaf
  | upstream (server : Str)
  | group (members : List (Str × ObjID))
  deriving DecidableEq

/-- The map `outs`, with the objects it refers to. -/
structure Outs where
  byName : Str → Option ObjID
  node : ObjID → Node

/-- `outs[name] = obj`. -/
def Outs.put (s : Outs) (name : Str) (id : ObjID) (n : Node) : Outs where
  byName := Function.update s.byName name (some id)
  node := Function.update s.node id n

/-- The table before the first entry: only `direct`. -/
def Outs.initial : Outs where
  byName := Function.update (fun _ => none) (lit "direct") (some 0)
  node _ := .leaf

/-- An entry of the table with the number of its object. -/
structure Entry where
  id : ObjID
  spec : Outbound

/-- The result of the first pass: the table and the entries left for later. -/
structure FirstPass where
  outs : Outs
  pendingGroups : List Entry := []
  dnsOutbounds : List Entry := []

/-- `config: 出站 "name"` with the text of an error behind it. -/
def outboundErr (E : Env) (o : Outbound) (tail : Str) : Err :=
  lit "config: 出站 " ++ E.text.quote o.name ++ tail

def putLeaf (E : Env) (x : Entry) (s : FirstPass) (label : Str) : Option Err → Except Err FirstPass
  | some err => .error (outboundErr E x.spec (label ++ lit ":" ++ err))
  | none => .ok { s with outs := s.outs.put x.spec.name x.id .leaf }

/-- The branch `proxy` of the type switch. -/
def addProxy (E : Env) (x : Entry) (s : FirstPass) : Except Err FirstPass :=
  let o := x.spec
  if E.isProxyProto o.typ ∧ (o.sni ≠ [] ∨ o.insecure ∨ o.fingerprint ≠ []) then
    .error (outboundErr E o (lit "(type " ++ o.typ ++
      lit "):sni/insecure/client-fingerprint 须写在 tls: 层块内,顶层不生效"))
  else
    match E.buildUpstream o with
    | some err => .error (outboundErr E o (lit ":" ++ err))
    | none =>
      match o.mux with
      | none => .ok { s with outs := s.outs.put o.name x.id (.upstream o.server) }
      | some m =>
        if m.protocol = lit "cool" ∨ m.protocol = lit "mux.cool" ∨ m.protocol = lit "xray" then
          putLeaf E x s (lit "(mux.cool)") (E.newMuxCool o)
        else putLeaf E x s (lit "(mux)") (E.newMux o)

def isGroupType (t : Str) : Bool :=
  t = lit "select" ∨ t = lit "urltest" ∨ t = lit "fallback" ∨ t = lit "load-balance"

/-- The modes of a `block` outbound. -/
def isBlockMode (m : Str) : Bool :=
  m = [] ∨ m = lit "reject" ∨ m = lit "rst" ∨ m = lit "drop" ∨ m = lit "silent" ∨
    m = lit "blackhole"

/-- The body of the first loop of `Build` over the outbounds. -/
def addOutbound (E : Env) (x : Entry) (s : FirstPass) : Except Err FirstPass :=
  let o := x.spec
  let otyp := if E.isProxyProto o.typ then lit "proxy" else o.typ
  if o.name = [] then .error (lit "config: 出站缺 name")
  else if (E.session o.typ).any (·.newOutbound) then
    putLeaf E x s (lit "(" ++ o.typ ++ lit ")") (E.newSessionOutbound o)
  else if isGroupType otyp then .ok { s with pendingGroups := s.pendingGroups ++ [x] }
  else if otyp = lit "direct" ∨ otyp = [] then
    .ok { s with outs := s.outs.put o.name x.id .leaf }
  else if otyp = lit "dns" then .ok { s with dnsOutbounds := s.dnsOutbounds ++ [x] }
  else if otyp = lit "block" then
    if isBlockMode o.mode then .ok { s with outs := s.outs.put o.name x.id .leaf }
    else .error (outboundErr E o (lit "(block)未知 mode " ++ E.text.quote o.mode ++
      lit "(仅 reject/drop)"))
  else if otyp = lit "proxy" then addProxy E x s
  else if otyp = lit "wireguard" then putLeaf E x s (lit "(wireguard)") (E.newWireguard o)
  else .error (outboundErr E o (lit " 未知 type " ++ E.text.quote o.typ))

/-- The first loop of `Build` over the outbounds. -/
def addOutbounds (E : Env) : List Entry → FirstPass → Except Err FirstPass
  | [], s => .ok s
  | x :: xs, s =>
    match addOutbound E x s with
    | .error err => .error err
    | .ok s => addOutbounds E xs s

/-! ### Groups -/

/-- The members of a group, resolved: `none` where a member is a group that is
still to be made. -/
def groupMembers (E : Env) (isGroup : Str → Bool) (outs : Outs) (g : Outbound) :
    List Str → Except Err (Option (List (Str × ObjID)))
  | [] => .ok (some [])
  | m :: ms =>
    match outs.byName m with
    | none =>
      if isGroup m then .ok none
      else .error (lit "config: 策略组 " ++ E.text.quote g.name ++ lit " 成员 " ++
        E.text.quote m ++ lit " 未定义出站")
    | some id =>
      match groupMembers E isGroup outs g ms with
      | .error err => .error err
      | .ok none => .ok none
      | .ok (some rest) => .ok (some ((m, id) :: rest))

/-- `buildOneGroup`: its errors. A group without members is one of them. -/
def buildOneGroup (E : Env) (g : Outbound) : Option Err :=
  if g.interval ≠ [] then
    match E.parseDuration g.interval with
    | .error err => some (lit "config: 策略组 " ++ E.text.quote g.name ++ lit " interval " ++
        E.text.quote g.interval ++ lit ":" ++ err)
    | .ok _ => if g.members = [] then some (lit "group: 无成员") else E.newGroup g
  else if g.members = [] then some (lit "group: 无成员")
  else E.newGroup g

/-- What one pass over the groups leaves: the table, the groups it could not
make, those that need a health loop, and whether it made any. -/
structure GroupPass where
  outs : Outs
  next : List Entry := []
  loops : List Outbound := []
  progress : Bool := false

/-- One pass over the groups that are still to be made. -/
def groupPass (E : Env) (isGroup : Str → Bool) : List Entry → GroupPass → Except Err GroupPass
  | [], s => .ok s
  | x :: xs, s =>
    match groupMembers E isGroup s.outs x.spec x.spec.members with
    | .error err => .error err
    | .ok none => groupPass E isGroup xs { s with next := s.next ++ [x] }
    | .ok (some ms) =>
      match buildOneGroup E x.spec with
      | some err => .error err
      | none =>
        groupPass E isGroup xs
          { s with
            outs := s.outs.put x.spec.name x.id (.group ms)
            loops := if x.spec.typ = lit "select" then s.loops else s.loops ++ [x.spec]
            progress := true }

/-- A pass makes each group or leaves it, so one with progress leaves fewer. -/
lemma groupPass_length {E : Env} {isGroup : Str → Bool} :
    ∀ {xs : List Entry} {s s' : GroupPass}, groupPass E isGroup xs s = .ok s' →
      s'.next.length + s'.progress.toNat ≤ s.next.length + xs.length + s.progress.toNat
  | [], s, s', h => by
      obtain rfl : s = s' := by simpa [groupPass] using h
      simp
  | x :: xs, s, s', h => by
      simp only [groupPass] at h
      split at h
      · cases h
      · have hlen := groupPass_length h
        simp only [List.length_append, List.length_cons, List.length_nil] at hlen ⊢
        omega
      · split at h
        · cases h
        · have hlen := groupPass_length h
          simp only [List.length_cons, Bool.toNat_true] at hlen ⊢
          omega

/-- The passes of `buildGroups`, while each of them makes a group. -/
def groupPasses (E : Env) (isGroup : Str → Bool) (remaining : List Entry) (outs : Outs)
    (loops : List Outbound) : Except Err (Outs × List Outbound) :=
  if remaining = [] then .ok (outs, loops)
  else
    match _h : groupPass E isGroup remaining { outs := outs, loops := loops } with
    | .error err => .error err
    | .ok s =>
      if _hp : s.progress = true then groupPasses E isGroup s.next s.outs s.loops
      else .error (lit "config: 策略组成环或成员悬空(无法拓扑建成):[" ++
        List.intercalate (lit " ") (s.next.map fun x => x.spec.name) ++ lit "]")
termination_by remaining.length
decreasing_by
  have hlen := groupPass_length _h
  simp only [_hp, Bool.toNat_true, List.length_nil, Bool.toNat_false] at hlen
  omega

/-- `buildGroups`: the table with the groups, and those with a health loop. -/
def buildGroups (E : Env) (pending : List Entry) (outs : Outs) :
    Except Err (Outs × List Outbound) :=
  groupPasses E (fun n => pending.any fun x => x.spec.name = n) pending outs []

/-! ### Dialers -/

/-- The map `edge`: the dialer of the last entry of each name that has one,
empty where there is none. -/
def dialerEdge (specs : List Outbound) (n : Str) : Str :=
  specs.foldl (fun d o => if o.dialer ≠ [] ∧ o.name = n then o.dialer else d) []

/-- The keys of the map `edge`. -/
def dialerKeys (specs : List Outbound) : List Str :=
  (specs.filter fun o => o.dialer ≠ []).map (·.name)

lemma unseen_length_lt {keys seen : List Str} {n : Str} (hn : n ∉ seen) (hk : n ∈ keys) :
    (keys.filter (· ∉ n :: seen)).length < (keys.filter (· ∉ seen)).length := by
  have hsub : keys.filter (· ∉ n :: seen) = (keys.filter (· ∉ seen)).filter (· ≠ n) := by
    rw [List.filter_filter]
    congr 1
    ext x
    simp [not_or]
  rw [hsub, List.length_filter_lt_length_iff_exists]
  exact ⟨n, by simp [hn, hk], by simp⟩

/-- The walk along the dialers from `n`: the first name it comes to again. A
name without a dialer ends it. -/
def dialerCycle (specs : List Outbound) (n : Str) (seen : List Str) : Option Str :=
  if n = [] then none
  else if _hs : n ∈ seen then some n
  else if _hk : n ∈ dialerKeys specs then
    dialerCycle specs (dialerEdge specs n) (n :: seen)
  else none
termination_by ((dialerKeys specs).filter (· ∉ seen)).length
decreasing_by exact unseen_length_lt _hs _hk

def parseDialTarget (E : Env) (server : Str) : Except Err Socksaddr :=
  match splitHostPort server with
  | .error _ => .error (lit "address " ++ server)
  | .ok (host, port) =>
    match E.parsePort port with
    | none => .error (lit "端口 " ++ E.text.quote port ++ lit " 非法")
    | some p =>
      match E.parseAddr host with
      | .ok ip => .ok (Socksaddr.fromIPPort ⟨ip, p⟩)
      | .error _ => .ok (Socksaddr.fromFqdn host p)

/-- The base dial of each upstream: the name of the outbound it goes through
and the target it asks it for. -/
abbrev BaseDials := ObjID → Option (Str × Socksaddr)

/-- The last loop of `wireDialers`. -/
def wireAll (E : Env) (outs : Outs) : List Outbound → BaseDials → Except Err BaseDials
  | [], d => .ok d
  | o :: os, d =>
    if o.dialer = [] then wireAll E outs os d
    else
      match outs.byName o.dialer with
      | none => .error (outboundErr E o (lit " 的 dialer " ++ E.text.quote o.dialer ++
          lit " 未定义"))
      | some _ =>
        match outs.byName o.name with
        | none => .error (outboundErr E o (lit " 非 stream 类,不支持 dialer(会话式协议自管连接)"))
        | some id =>
          match outs.node id with
          | .upstream server =>
            match parseDialTarget E server with
            | .error err => .error (outboundErr E o (lit " 的 dialer 上游地址 " ++
                E.text.quote server ++ lit " 非法: " ++ err))
            | .ok dst => wireAll E outs os (Function.update d id (some (o.dialer, dst)))
          | _ => .error (outboundErr E o
              (lit " 非 stream 类,不支持 dialer(会话式协议自管连接)"))

def wireDialers (E : Env) (specs : List Outbound) (outs : Outs) : Except Err BaseDials :=
  match (dialerKeys specs).findSome? fun n => dialerCycle specs n [] with
  | some n => .error (lit "config: dialer 链成环(涉及出站 " ++ E.text.quote n ++ lit ")")
  | none => wireAll E outs specs (fun _ => none)

/-! ### The name service -/

/-- `parseHosts`: its error. -/
def parseHosts (E : Env) : List (Str × List Str) → Option Err
  | [] => none
  | (name, ips) :: hosts =>
    match ips.find? fun s => (E.parseAddr s).toOption.isNone with
    | some s => some (lit "config: dns.hosts[" ++ E.text.quote name ++ lit "] 非法 IP " ++
        E.text.quote s)
    | none => parseHosts E hosts

/-- `parseFakeIP`: the two ranges, `none` where fake addresses are off. -/
def parseFakeIP (E : Env) (spec : Option FakeIPSpec) :
    Except Err (Option (Prefix × Option Prefix)) :=
  match spec with
  | none => .ok none
  | some s =>
    if !s.enabled then .ok none
    else
      let v4s := if s.inet4Range = [] then lit "198.18.0.0/15" else s.inet4Range
      match E.text.parsePrefix v4s with
      | .error err =>
        .error (lit "config: dns.fake-ip.inet4-range " ++ E.text.quote v4s ++ lit ":" ++ err)
      | .ok v4 =>
        if !v4.ip.unmap.is4 then
          .error (lit "config: dns.fake-ip.inet4-range " ++ E.text.quote v4s ++ lit " 不是 IPv4 段")
        else if s.inet6Range = [] then .ok (some (v4.masked, none))
        else
          match E.text.parsePrefix s.inet6Range with
          | .error err => .error (lit "config: dns.fake-ip.inet6-range " ++
              E.text.quote s.inet6Range ++ lit ":" ++ err)
          | .ok v6 =>
            if !v6.ip.is6 || v6.ip.is4In6 then
              .error (lit "config: dns.fake-ip.inet6-range " ++
                E.text.quote s.inet6Range ++ lit " 不是 IPv6 段")
            else .ok (some (v4.masked, some v6.masked))

def resolveDetour (E : Env) (spec : DNSSpec) (outs : Outs) (ns : NameserverSpec) : Option Err :=
  let name := if ns.detour = [] then spec.detour else ns.detour
  if name = [] then
    some (lit "config: dns nameserver 缺 detour 出站且无默认 dns.detour(绝不隐式直连)")
  else if outs.byName name = none then
    some (lit "config: dns nameserver detour 引用未定义出站 " ++ E.text.quote name)
  else none

/-- `buildResolver`: its error. -/
def buildResolver (E : Env) (spec : Option DNSSpec) (outs : Outs) : Option Err :=
  match spec with
  | none => some (lit "config: 使用了 type=dns 出站,但未启用 dns:(需 dns.enabled=true)")
  | some spec =>
    if !spec.enabled then
      some (lit "config: 使用了 type=dns 出站,但未启用 dns:(需 dns.enabled=true)")
    else if spec.nameservers = [] then some (lit "config: dns 至少需一个 nameserver")
    else
      match spec.nameservers.findSome? (resolveDetour E spec outs) with
      | some err => some err
      | none =>
        match parseHosts E spec.hosts with
        | some err => some err
        | none =>
          match parseFakeIP E spec.fakeIP with
          | .error err => some err
          | .ok _ => E.newResolver spec

/-! ### The table -/

/-- The finished table: `outs`, the base dials, the groups with a health loop,
and whether there is a resolver. -/
structure OutTable where
  outs : Outs
  dials : BaseDials
  loops : List Outbound
  resolver : Bool

/-- The entries of the table, numbered from `1`. -/
def numbered (specs : List Outbound) : List Entry :=
  specs.zipIdx.map fun x => ⟨x.2 + 1, x.1⟩

/-- The part of `Build` that makes the outbounds. -/
def buildOuts (E : Env) (f : File) : Except Err OutTable :=
  match addOutbounds E (numbered f.outbounds) { outs := Outs.initial } with
  | .error err => .error err
  | .ok first =>
    match buildGroups E first.pendingGroups first.outs with
    | .error err => .error err
    | .ok (outs, loops) =>
      if first.dnsOutbounds ≠ [] ∨ f.dns.any (·.enabled) then
        match buildResolver E f.dns outs with
        | some err => .error err
        | none =>
          let outs := first.dnsOutbounds.foldl (fun s x => s.put x.spec.name x.id .leaf) outs
          match wireDialers E f.outbounds outs with
          | .error err => .error err
          | .ok dials => .ok ⟨outs, dials, loops, true⟩
      else
        match wireDialers E f.outbounds outs with
        | .error err => .error err
        | .ok dials => .ok ⟨outs, dials, loops, false⟩

end Ntr.Config
