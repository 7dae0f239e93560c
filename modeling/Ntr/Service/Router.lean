/-
The rule router and the ways on which flows reach it (`service/router.go`,
`service/inbound.go`, `service/muxcool.go`).

* `RuleRouter.route`: a fake address is taken back to its domain, the rule
  engine names an outbound, the table gives it; `domainRewriteOutbound` puts
  the domain in the place of the address at the dial;
* `resolve_skipped`: a table without IP rules routes alike whatever a domain
  resolves to, so `route` may leave the resolver alone;
* `routed_iff`: the outbound is the one that the engine names for the real
  network, except for UDP sub-streams of Mux.cool, which are routed as `tcp`.
-/
import Ntr.Rule.Gates
import Ntr.Proto.Socks

namespace Ntr.Service

open Go Routing Proto

/-! ### Outbounds -/

/-- A `link.PacketConn` that an outbound gave for a dial: the outbound, the
address it was dialled with, and whether it is a full-cone socket, which sends
each datagram to the datagram's own address. -/
structure Socket (ο : Type) where
  out : ο
  dialled : Socksaddr
  fullCone : Bool
  deriving DecidableEq

/-- What the parts outside the router answer at one moment. -/
structure World (ο : Type) where
  /-- The live mapping of the fake-ip pool. -/
  fake : Addr → Option Str
  lookupCached : Str → Option (List Addr)
  /-- `LookupReal`, `none` for an error. -/
  lookupReal : Str → Option (List Addr)
  /-- Whether a `DialPacket` goes through, and if so what socket it gives. -/
  dialPacket : ο → Socksaddr → Option (Socket ο)

/-- The outbound that a resolver gives: one of the table, or one of the table
behind `domainRewriteOutbound`. -/
inductive Outbound (ο : Type) where
  | plain (out : ο)
  | domainRewrite (inner : ο) (dst : Socksaddr)
  deriving DecidableEq

namespace Outbound

variable {ο : Type}

def table : Outbound ο → ο
  | plain out => out
  | domainRewrite inner _ => inner

/-- The address that a `DialStream` or `DialPacket` to `dst` hands to the
outbound of the table. -/
def dialled : Outbound ο → Socksaddr → Socksaddr
  | plain _, dst => dst
  | domainRewrite _ d, _ => d

end Outbound

/-! ### The router -/

/-- `RuleRouter`. The flags say whether `Fake` and `Resolver` are set. -/
structure RuleRouter (ο : Type) where
  text : TextLib
  engine : Engine
  outs : Str → Option ο
  hasFake : Bool
  finder : Option ProcessFinder
  hasResolver : Bool

namespace RuleRouter

variable {ο : Type} (r : RuleRouter ο) (w : World ο)

/-- `routeDst`: the destination with a live fake address taken back. -/
def routeDst (dst : Socksaddr) : Socksaddr :=
  if r.hasFake ∧ dst.isIP then
    match w.fake dst.addr with
    | some domain => Socksaddr.fromFqdn domain dst.port
    | none => dst
  else dst

def resolveForRouting (host : Str) : List Addr :=
  match w.lookupCached host with
  | some ips => ips
  | none => (w.lookupReal host).getD []

/-- The addresses that the engine is given for a domain. -/
def routeIPs (dst : Socksaddr) : List Addr :=
  if dst.isFqdn ∧ r.hasResolver ∧ r.engine.hasIP then resolveForRouting w dst.fqdn else []

/-- The answer of the rule engine for a destination: the name of an outbound. -/
def target (dst : Socksaddr) (src : AddrPort) (network proto : Str) : Str :=
  let routeDst := r.routeDst w dst
  r.engine.routeConnIPs r.text ⟨routeDst, r.routeIPs w routeDst, src, network, proto, r.finder⟩

def errUnknown (target : Str) : Str :=
  lit "route: 规则命中目标出站 " ++ r.text.quote target ++ lit " 未在 outbounds 定义"

def route (dst : Socksaddr) (src : AddrPort) (network proto : Str) : Except Str (Outbound ο) :=
  let target := r.target w dst src network proto
  match r.outs target with
  | none => .error (r.errUnknown target)
  | some out =>
    if r.routeDst w dst ≠ dst then .ok (.domainRewrite out (r.routeDst w dst)) else .ok (.plain out)

/-- `Resolve`; `proto` is the sniffed protocol that the context carries. -/
def resolve (dst : Socksaddr) (proto : Str) : Except Str (Outbound ο) :=
  r.route w dst .zero (lit "tcp") proto

/-- `ResolveConn`, which `resolveOut` prefers. -/
def resolveConn (dst : Socksaddr) (src : AddrPort) (network proto : Str) :
    Except Str (Outbound ο) :=
  r.route w dst src network proto

/-- `Fake` knows the address of `dst`, as that of `domain`. -/
def Live (dst : Socksaddr) (domain : Str) : Prop :=
  r.hasFake = true ∧ dst.isIP = true ∧ w.fake dst.addr = some domain

variable {r w}

lemma routeDst_of_live {dst : Socksaddr} {domain : Str} (h : r.Live w dst domain) :
    r.routeDst w dst = Socksaddr.fromFqdn domain dst.port := by
  obtain ⟨hfake, hip, hdom⟩ := h
  rw [routeDst, if_pos ⟨hfake, hip⟩, hdom]

lemma fromFqdn_ne_of_isIP {dst : Socksaddr} (h : dst.isIP = true) (domain : Str) (port : UInt16) :
    Socksaddr.fromFqdn domain port ≠ dst := by
  rintro rfl
  simp [Socksaddr.isIP, Socksaddr.fromFqdn, Addr.isValid] at h

lemma table_of_route {dst : Socksaddr} {src : AddrPort} {network proto : Str} :
    (r.route w dst src network proto).toOption.map Outbound.table =
      r.outs (r.target w dst src network proto) := by
  rw [route]
  cases r.outs (r.target w dst src network proto) with
  | none => rfl
  | some out =>
    dsimp only
    split_ifs <;> rfl

/-- **The dial of a live fake address carries its domain.** -/
lemma dialled_of_route {dst : Socksaddr} {src : AddrPort} {network proto domain : Str}
    {out : Outbound ο} (h : r.Live w dst domain) (hr : r.route w dst src network proto = .ok out) :
    out.dialled dst = Socksaddr.fromFqdn domain dst.port := by
  have hne : r.routeDst w dst ≠ dst := by
    rw [routeDst_of_live h]
    exact fromFqdn_ne_of_isIP h.2.1 domain dst.port
  rw [route] at hr
  cases hout : r.outs (r.target w dst src network proto) with
  | none => simp [hout] at hr
  | some o =>
    simp only [hout, if_pos hne, Except.ok.injEq] at hr
    rw [← hr, ← routeDst_of_live h]
    rfl

end RuleRouter

/-! ### The resolver left alone -/

/-- `route` with `ips` for the addresses that the destination resolved to. -/
def RuleRouter.routeGiven {ο : Type} (r : RuleRouter ο) (w : World ο) (ips : List Addr)
    (dst : Socksaddr) (src : AddrPort) (network proto : Str) : Except Str (Outbound ο) :=
  let routeDst := r.routeDst w dst
  let target := r.engine.routeConnIPs r.text ⟨routeDst, ips, src, network, proto, r.finder⟩
  match r.outs target with
  | none => .error (r.errUnknown target)
  | some out => if routeDst ≠ dst then .ok (.domainRewrite out routeDst) else .ok (.plain out)

/-- **Without IP rules the resolver does not matter**: the engine answers alike
for all lists of addresses, and the router decides as it would have with any of
them. -/
theorem resolve_skipped {ο : Type} (r : RuleRouter ο) (rs : List Rule) (dflt : Str)
    (he : compile r.text rs dflt = .ok r.engine) (hip : r.engine.hasIP = false) :
    (∀ (dst : Socksaddr) (ips ips' : List Addr) (src : AddrPort) (network proto : Str)
        (finder : Option ProcessFinder),
      r.engine.routeConnIPs r.text ⟨dst, ips, src, network, proto, finder⟩ =
        r.engine.routeConnIPs r.text ⟨dst, ips', src, network, proto, finder⟩) ∧
    ∀ (w : World ο) (ips : List Addr) (dst : Socksaddr) (src : AddrPort) (network proto : Str),
      r.route w dst src network proto = r.routeGiven w ips dst src network proto := by
  have hblind := routeConnIPs_of_noIP he hip
  refine ⟨hblind, fun w ips dst src network proto => ?_⟩
  rw [RuleRouter.route, RuleRouter.routeGiven, RuleRouter.target,
    hblind _ ips (r.routeIPs w (r.routeDst w dst))]

/-- Everything but the port 53, by a negated composite. -/
def notPort53 : Rule :=
  { op := lit "or", neg := true, sub := [{ port := [53] }], toOut := lit "A" }

/-- A table with a nested rule under a negation. -/
theorem resolve_skipped_notPort53 : ∃ e, compile asciiText [notPort53] (lit "B") = .ok e ∧
    e.hasIP = false ∧
    let r : RuleRouter Str := ⟨asciiText, e, some, false, none, true⟩
    let w (ips : List Addr) : World Str :=
      ⟨fun _ => none, fun _ => some ips, fun _ => none, fun _ _ => none⟩
    ∀ ips, r.route (w ips) (Socksaddr.fromFqdn (lit "a.example") 80) .zero (lit "tcp") [] =
      r.routeGiven (w ips) [] (Socksaddr.fromFqdn (lit "a.example") 80) .zero (lit "tcp") [] := by
  refine ⟨_, rfl, rfl, ?_⟩
  intro r w ips
  exact (resolve_skipped r [notPort53] (lit "B") rfl rfl).2 (w ips) [] _ _ _ _

/-! ### Landing paths -/

inductive Landing where
  /-- `HandleStream`, with the address of the client. -/
  | stream (src : AddrPort)
  /-- A TCP sub-stream that a library has taken apart: `DispatchStream`, and
  `NewConnection` of sing-mux. -/
  | substream
  /-- `resolverOutbound.DialStream`. -/
  | adapterStream
  /-- `resolverOutbound.DialPacket`. -/
  | adapterPacket
  /-- A new target of the UDP NAT. -/
  | datagram
  /-- A sub-stream of Mux.cool: `DialTarget`. -/
  | muxCool (network : Network)
  deriving DecidableEq

namespace Landing

def network : Landing → Network
  | stream _ | substream | adapterStream => .tcp
  | adapterPacket | datagram => .udp
  | muxCool network => network

def src : Landing → AddrPort
  | stream src => src
  | _ => .zero

/-- The call by which the path asks for its outbound. -/
def resolve {ο : Type} (r : RuleRouter ο) (w : World ο) (dst : Socksaddr) (proto : Str) :
    Landing → Except Str (Outbound ο)
  | stream src => r.resolveConn w dst src (lit "tcp") proto
  | substream => r.resolve w dst proto
  | adapterStream => r.resolveConn w dst .zero (lit "tcp") proto
  | adapterPacket => r.resolveConn w dst .zero (lit "udp") proto
  | datagram => r.resolveConn w dst .zero (lit "udp") proto
  -- `DialTarget` looks at its network only after it has its outbound.
  | muxCool _ => r.resolve w dst proto

def isMuxCool : Landing → Bool
  | muxCool _ => true
  | _ => false

end Landing

section
variable {ο : Type} (r : RuleRouter ο) (w : World ο) (dst : Socksaddr) (proto : Str)

/-- The outbound of the table that a landing path comes to. -/
def chosen (p : Landing) : Option ο := (p.resolve r w dst proto).toOption.map Outbound.table

/-- The outbound that the rule engine names for the destination and a network. -/
def answer (src : AddrPort) (network : Network) : Option ο :=
  r.outs (r.target w dst src network.toStr proto)

/-- The path comes to the outbound that the engine names for the flow's real
network, which is the outbound of the same flow outside of Mux.cool. -/
def Routed (p : Landing) : Prop :=
  chosen r w dst proto p = answer r w dst proto p.src p.network ∧
    ∀ q : Landing, q.isMuxCool = false → q.network = p.network → q.src = p.src →
      chosen r w dst proto p = chosen r w dst proto q

variable {r w dst proto}

/-- What a path comes to: the answer for the network that it passes on. -/
lemma chosen_eq (p : Landing) : chosen r w dst proto p =
    answer r w dst proto p.src (if p.isMuxCool then .tcp else p.network) := by
  cases p <;> exact RuleRouter.table_of_route

lemma routed_of_answer {p : Landing}
    (h : p = .muxCool .udp → answer r w dst proto .zero .tcp = answer r w dst proto .zero .udp) :
    Routed r w dst proto p := by
  have hans : chosen r w dst proto p = answer r w dst proto p.src p.network := by
    rw [chosen_eq]
    cases p with
    | muxCool network =>
      cases network with
      | tcp => rfl
      | udp => exact h rfl
    | _ => rfl
  refine ⟨hans, fun q hq hnet hsrc => ?_⟩
  rw [hans, chosen_eq, hq, hnet, hsrc]
  rfl

/-- Where the table has no network rule at any depth, every path is routed with
its real network. -/
theorem routed_of_noNetwork {rs : List Rule} {dflt : Str}
    (he : compile r.text rs dflt = .ok r.engine) (hrs : ∀ rule ∈ rs, rule.NoNetwork)
    (p : Landing) : Routed r w dst proto p := by
  refine routed_of_answer fun _ => ?_
  rw [answer, answer, RuleRouter.target, RuleRouter.target]
  exact congrArg r.outs (routeConnIPs_of_noNetwork he hrs _ _ _ _ _ _)

/-- **Every flow is routed with its real network**, on every path and for every
rule table, except that the UDP sub-streams of Mux.cool get the answer for
`tcp`: they are routed right exactly where the table answers alike. -/
theorem routed_iff (r : RuleRouter ο) (w : World ο) (dst : Socksaddr) (proto : Str) (p : Landing) :
    Routed r w dst proto p ↔
      (p = .muxCool .udp → answer r w dst proto .zero .tcp = answer r w dst proto .zero .udp) := by
  refine ⟨?_, routed_of_answer⟩
  rintro ⟨hans, -⟩ rfl
  rw [chosen_eq] at hans
  exact hans

/-- UDP goes to `block`, the rest to `direct`: a DNS query inside Mux.cool goes
to `direct`. -/
theorem muxCool_udp_as_tcp :
    ∃ e, compile asciiText [{ network := [lit "udp"], toOut := lit "block" }] (lit "direct") =
        .ok e ∧
      let r : RuleRouter Str := ⟨asciiText, e, some, false, none, false⟩
      let w : World Str := ⟨fun _ => none, fun _ => none, fun _ => none, fun _ _ => none⟩
      let dns : Socksaddr := ⟨.v4 0x08080808, [], 53⟩
      chosen r w dns [] (.muxCool .udp) = some (lit "direct") ∧
        answer r w dns [] .zero .udp = some (lit "block") ∧ ¬ Routed r w dns [] (.muxCool .udp) := by
  refine ⟨_, rfl, ?_⟩
  intro r w dns
  have hchosen : chosen r w dns [] (.muxCool .udp) = some (lit "direct") := by decide +kernel
  have hans : answer r w dns [] .zero .udp = some (lit "block") := by decide +kernel
  refine ⟨hchosen, hans, fun h => ?_⟩
  have heq : some (lit "direct") = some (lit "block") := (hchosen.symm.trans h.1).trans hans
  exact absurd heq (by decide +kernel)

end

end Ntr.Service
