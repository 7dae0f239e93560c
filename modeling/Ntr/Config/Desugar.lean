/-
The top-level `users:` block (`config/desugar.go`): each user becomes one
binding for each inbound it may use and each combination of its keys.
-/
import Ntr.Config.Spec

namespace Ntr.Config

open Go

/-- `OnAll`: the reserved word for all inbounds. -/
def onAll : Str := lit "all"

def User.allowsAllInbounds (u : User) : Bool := u.on = [] ∨ onAll ∈ u.on

/-! ### Credentials -/

structure CredValue where
  scalar : Str := []
  fields : Option (List (Str × Str)) := none
  deriving DecidableEq

/-- `sortedKeys`: the keys of a map in byte order. -/
def sortedKeys (ks : List Str) : List Str := ks.dedup.insertionSort (· ≤ ·)

/-- `creds`: scalars first, then the named fields. -/
def KeySpec.creds (k : KeySpec) : List CredValue :=
  k.values.map (fun v => { scalar := v }) ++ k.maps.map (fun m => { fields := m })

def KeySpec.empty (k : KeySpec) : Bool := k.values = [] ∧ k.maps = []

/-- `dupKey`: a scalar as it is, named fields as `k=v` in the order of their
names. -/
def CredValue.dupKey (c : CredValue) : Str :=
  match c.fields with
  | none => c.scalar
  | some fs => (sortedKeys (fs.map (·.1))).flatMap fun k =>
    k ++ lit "=" ++ (fs.lookup k).getD [] ++ [0]

/-- The credentials of a user under one protocol, `none` where it has none. -/
def User.credsFor (u : User) (proto : Str) : Option (List CredValue) :=
  match u.keys.lookup proto with
  | some k => if k.empty then none else some k.creds
  | none => none

/-! ### One user -/

/-- `config: user "name"` with the text of an error behind it. -/
def userErr (E : Env) (u : User) (tail : Str) : Err :=
  lit "config: user " ++ E.text.quote u.name ++ tail

/-- The loop over `on`. -/
def checkOn (E : Env) (u : User) (names : List Str) : Option Err :=
  match u.on.find? fun ib => ib ≠ onAll ∧ ib ∉ names with
  | some ib => some (userErr E u (lit " 的 on 引用未知口 " ++ E.text.quote ib ++
      lit " (E-INBOUND-UNKNOWN)"))
  | none =>
    if onAll ∈ u.on ∧ 1 < u.on.length then
      some (userErr E u (lit " 的 on 含保留字 all 时不能再列具名口(all 即全开;要收窄就去掉 all)"))
    else none

/-- The loop over `off`. -/
def checkOff (E : Env) (u : User) (names : List Str) : Option Err :=
  match u.off.find? fun ib => ib = onAll ∨ ib ∉ names with
  | some ib =>
    if ib = onAll then
      some (userErr E u (lit " 的 off 不支持保留字 all(要全屏蔽请把该 user 删掉或逐口列出)"))
    else some (userErr E u (lit " 的 off 引用未知口 " ++ E.text.quote ib ++ lit " (E-INBOUND-UNKNOWN)"))
  | none => none

def buildLimitRef (E : Env) (u : User) : Except Err (Option LimitRef) :=
  if u.onExceedIPs ≠ [] ∧ u.onExceedIPs ≠ lit "reject" then
    .error (userErr E u (lit " on-exceed-ips " ++ E.text.quote u.onExceedIPs ++
      lit " 未实现(当前仅 reject)"))
  else if u.rate = [] ∧ u.maxConns = 0 ∧ u.maxIPs = 0 then .ok none
  else if u.rate = [] then .ok (some ⟨0, u.maxConns, u.maxIPs⟩)
  else
    match E.parseRate u.rate with
    | .error err =>
      .error (userErr E u (lit " rate " ++ E.text.quote u.rate ++ lit ": " ++ err))
    | .ok r => .ok (some ⟨E.rateToUInt r, u.maxConns, u.maxIPs⟩)

def allowedInbounds (u : User) (all : List Str) : List Str :=
  (if u.allowsAllInbounds then all else u.on.filter (· ≠ onAll)).filter (· ∉ u.off)

/-- One layer of a binding: the protocol with one credential for it. -/
def authLayer (proto : Str) (v : CredValue) : AuthLayer :=
  match v.fields with
  | some fs => { scheme := proto, fields := some fs }
  | none => { scheme := proto, key := v.scalar }

/-- `expandLayers`: one binding for each choice of a credential in every
layer. -/
def expandLayers (u : User) (ib : Str) (layerVals : List (Str × List CredValue))
    (limit : Option LimitRef) : List CredBinding :=
  let combos := layerVals.foldl (fun combos (p, vs) =>
    combos.flatMap fun c => vs.map fun v => c ++ [authLayer p v]) [[]]
  combos.map fun layers =>
    { inbound := ib, layers := layers, billID := billIDOf u.name ib, name := u.name,
      limit := limit }

/-- The map `keyOwner`. -/
abbrev KeyOwner := Str → Option Str

/-- The check of one layer against the keys that others use, which enters the
keys on the way. -/
def claimKeys (E : Env) (u : User) (ib p : Str) : List CredValue → KeyOwner → Except Err KeyOwner
  | [], o => .ok o
  | v :: vs, o =>
    let k := ib ++ [0] ++ p ++ [0] ++ v.dupKey
    match o k with
    | some owner =>
      if owner ≠ u.name then
        .error (userErr E u (lit " 与 " ++ E.text.quote owner ++ lit " 在口 " ++
          E.text.quote ib ++ lit " 的协议 " ++ E.text.quote p ++
          lit " 上用了同一把密钥 (E-KEY-DUP):鉴权无法区分、计费会串号"))
      else claimKeys E u ib p vs (Function.update o k (some u.name))
    | none => claimKeys E u ib p vs (Function.update o k (some u.name))

/-- `claimKeys` for every layer. -/
def claimLayers (E : Env) (u : User) (ib : Str) :
    List (Str × List CredValue) → KeyOwner → Except Err KeyOwner
  | [], o => .ok o
  | (p, vs) :: ls, o =>
    match claimKeys E u ib p vs o with
    | .error err => .error err
    | .ok o => claimLayers E u ib ls o

/-- The loop that collects the credentials of a stack and ends at the first
protocol `missing` without any; the layers from there on stay empty. -/
def collectLayers (u : User) : List Str → List (Str × List CredValue) × Option Str
  | [] => ([], none)
  | p :: ps =>
    match u.credsFor p with
    | none => ((p :: ps).map fun q => (q, []), some p)
    | some vs => ((p, vs) :: (collectLayers u ps).1, (collectLayers u ps).2)

/-- The body of the loop over the inbounds of a user. A missing protocol of empty
name does not count as missing (`missing != ""`). -/
def desugarInbound (E : Env) (u : User) (limit : Option LimitRef) (protos : List Str) (ib : Str)
    (o : KeyOwner) : Except Err (KeyOwner × List CredBinding) :=
  if protos = [] then .ok (o, [])
  else
    match (collectLayers u protos).2.filter (· ≠ []) with
    | some missing =>
      if !u.allowsAllInbounds ∧ ib ∈ u.on then
        .error (userErr E u (lit " on 了口 " ++ E.text.quote ib ++ lit " 但缺该口栈所需协议 " ++
          E.text.quote missing ++ lit " 的密钥 (E-KEY-MISSING)"))
      else .ok (o, [])
    | none =>
      match claimLayers E u ib (collectLayers u protos).1 o with
      | .error err => .error err
      | .ok o => .ok (o, expandLayers u ib (collectLayers u protos).1 limit)

def desugarInbounds (E : Env) (u : User) (limit : Option LimitRef) (stackProtos : Str → List Str) :
    List Str → KeyOwner → Except Err (KeyOwner × List CredBinding)
  | [], o => .ok (o, [])
  | ib :: ibs, o =>
    match desugarInbound E u limit (stackProtos ib) ib o with
    | .error err => .error err
    | .ok (o, bs) =>
      match desugarInbounds E u limit stackProtos ibs o with
      | .error err => .error err
      | .ok (o, rest) => .ok (o, bs ++ rest)

/-! ### All users -/

/-- The loop of `Desugar` over the users. -/
def desugarUsers (E : Env) (names : List Str) (stackProtos : Str → List Str) :
    List User → List Str → KeyOwner → Except Err (List CredBinding)
  | [], _, _ => .ok []
  | u :: us, seen, o =>
    if u.name = [] then .error (lit "config: 存在缺 name 的 user 块")
    else if u.name ∈ seen then
      .error (lit "config: user 重名 " ++ E.text.quote u.name ++ lit " (E-USER-DUP)")
    else
      match checkOn E u names with
      | some err => .error err
      | none =>
        match checkOff E u names with
        | some err => .error err
        | none =>
          match buildLimitRef E u with
          | .error err => .error err
          | .ok limit =>
            match desugarInbounds E u limit stackProtos
                (sortedKeys (allowedInbounds u names)) o with
            | .error err => .error err
            | .ok (o, bs) =>
              match desugarUsers E names stackProtos us (u.name :: seen) o with
              | .error err => .error err
              | .ok rest => .ok (bs ++ rest)

def desugar (E : Env) (users : List User) (inboundNames : List Str)
    (stackProtos : Str → List Str) : Except Err (List CredBinding) :=
  desugarUsers E inboundNames stackProtos users [] fun _ => none

end Ntr.Config
