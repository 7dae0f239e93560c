/-
The admission of flows (`service/admit.go`) and the paths on which they land
(`service/inbound.go`, `service/udp.go`).

* `Node`: the gates, the memory guard and the registry that all inbounds
  share, the flows with their connections, the closers that switches have
  started, and a log of what happened;
* `Node.admitConn`: the one entrance; a refusal closes what the path handed to
  it, an admission enters it in the registry;
* `handleStream` to `sessionTunnelAdmit`: the paths, each up to the point where
  it relays or returns. They differ in what they hand to the entrance, and
  `servePacket` does not come to it;
* `Node.act`: the steps of a node, among them the switches.

A failed handshake on an inbound with a decoy is relayed to the decoy and not
to an outbound; such a flow does not land.
-/
import Ntr.Meter.Live

namespace Ntr.Service

open Go Meter

/-- A flow of a client. -/
abbrev FlowID := Nat

def client (f : FlowID) : Closer := 2 * f

def upstream (f : FlowID) : Closer := 2 * f + 1

/-! ### Gates and the memory guard -/

/-- `meter.Gate`: a bound on the connections of the process or of an inbound. -/
structure Gate where
  maxConns : Int
  live : Int := 0
  rejected : Nat := 0
  deriving DecidableEq, Repr

def Gate.tryAcquire (g : Gate) : Gate × Bool :=
  if g.maxConns = 0 ∨ g.live < g.maxConns then ({ g with live := g.live + 1 }, true)
  else ({ g with rejected := g.rejected + 1 }, false)

def Gate.release (g : Gate) : Gate := { g with live := g.live - 1 }

/-- The gates of an admitter in turn; where one is shut, those before it are
released. -/
def acquireGates : List Ref → List Gate → List Gate × Bool
  | [], gates => (gates, true)
  | i :: rest, gates =>
    match gates[i]? with
    | none => acquireGates rest gates
    | some g =>
      let (g, ok) := g.tryAcquire
      if ok then
        let (gates, ok) := acquireGates rest (gates.set i g)
        if ok then (gates, true) else (gates.modify i Gate.release, false)
      else (gates.set i g, false)

def releaseGates (refs : List Ref) (gates : List Gate) : List Gate :=
  refs.foldl (fun gates i => gates.modify i Gate.release) gates

inductive MemPhase where
  | normal
  | soft
  | hard
  deriving DecidableEq, Repr

/-- `Admitter`: whether it meters, its gates, and whether a memory guard is
set. -/
structure Admitter where
  metered : Bool := true
  gates : List Ref := []
  guarded : Bool := false
  deriving DecidableEq, Repr

/-! ### The node -/

/-- What the log tells of a flow: `AdmitConn` returned for it, its release was
called, bytes of its client were relayed, the landing call returned. -/
inductive Event where
  | admitted (f : FlowID)
  | refused (f : FlowID)
  | released (f : FlowID)
  | relayed (f : FlowID)
  | returned (f : FlowID)
  deriving DecidableEq, Repr

/-- The paths on which a flow lands: a stream, a mux carrier, a stream out of a
library's own mux and a UDP stream of a proxy inbound; native UDP; a stream,
a packet connection and the hook of a session protocol; a tunnel. -/
inductive Path where
  | stream
  | carrier
  | substream
  | packet
  | native
  | sessionStream
  | sessionPacket
  | sessionHook
  | tunnel
  deriving DecidableEq, Repr

/-- The arguments of a landing call: its admitter, the credential and source of
the flow, the time, and whether the outbound is dialled (for UDP over a
stream, whether the stream becomes a packet connection). -/
structure Call where
  adm : Admitter
  who : CredID
  src : Addr
  now : Int := 0
  dial : Bool := true
  deriving DecidableEq, Repr

/-- What the release of an admission holds: the number of the connection,
where it was metered. -/
structure Ticket where
  conn : Option ConnID
  deriving DecidableEq, Repr

/-- A flow that has landed: its call, what it has been admitted with, and
whether it is relaying. -/
structure Flow where
  path : Path
  call : Call
  ticket : Option Ticket := none
  running : Bool := false
  deriving DecidableEq, Repr

structure Node where
  reg : Registry := {}
  gates : List Gate := []
  phase : MemPhase := .normal
  flows : FlowID → Option Flow := fun _ => none
  closed : Closer → Bool := fun _ => false
  spawned : List Closer := []
  log : List Event := []

namespace Node

/-- `Close` on each of the connections. -/
def closeAll (s : Node) (cs : List Closer) : Node :=
  { s with closed := fun c => s.closed c || cs.contains c }

def emit (s : Node) (e : Event) : Node := { s with log := s.log ++ [e] }

def setFlow (s : Node) (f : FlowID) (fl : Flow) : Node :=
  { s with flows := Function.update s.flows f (some fl) }

/-- `AdmitConn`, for the flow `f`. -/
def admitConn (s : Node) (f : FlowID) (k : Call) (closers : List Closer) : Node × Option Ticket :=
  if k.adm.guarded = true ∧ s.phase ≠ .normal then
    ((s.closeAll closers).emit (.refused f), none)
  else
    let acquired := acquireGates k.adm.gates s.gates
    let s := { s with gates := acquired.1 }
    if acquired.2 = false then ((s.closeAll closers).emit (.refused f), none)
    else if k.adm.metered = true then
      let opened := s.reg.openConn k.who k.src closers k.now
      let s := { s with reg := opened.1 }
      match opened.2 with
      | none =>
        let s := { s with gates := releaseGates k.adm.gates s.gates }
        ((s.closeAll closers).emit (.refused f), none)
      | some c => (s.emit (.admitted f), some ⟨some c⟩)
    else (s.emit (.admitted f), some ⟨none⟩)

/-- The release that `AdmitConn` returns. -/
def release (s : Node) (f : FlowID) (k : Call) (t : Ticket) : Node :=
  let reg := match t.conn with
    | some c => s.reg.done k.who k.src c
    | none => s.reg
  { s with reg := reg, gates := releaseGates k.adm.gates s.gates }.emit (.released f)

def leave (s : Node) (f : FlowID) (p : Path) (k : Call) : Node :=
  (s.setFlow f { path := p, call := k }).emit (.returned f)

def relayFlow (s : Node) (f : FlowID) (p : Path) (k : Call) (t : Option Ticket) : Node :=
  s.setFlow f { path := p, call := k, ticket := t, running := true }

/-- A path that comes to the entrance with the given closers and relays after
it. -/
def enter (s : Node) (f : FlowID) (p : Path) (k : Call) (closers : List Closer) : Node :=
  let a := s.admitConn f k closers
  match a.2 with
  | none => a.1.leave f p k
  | some t => a.1.relayFlow f p k (some t)

/-- A path that comes to the entrance after a preparation, which closes the
client where it fails. -/
def enterAfter (s : Node) (f : FlowID) (p : Path) (k : Call) (closers : List Closer) : Node :=
  if k.dial = true then s.enter f p k closers else (s.closeAll [client f]).leave f p k

/-- A path that comes to the entrance and returns; on success the protocol
relays until it calls the release. -/
def enterHook (s : Node) (f : FlowID) (p : Path) (k : Call) (closers : List Closer) : Node :=
  let a := s.admitConn f k closers
  match a.2 with
  | none => a.1.leave f p k
  | some t => (a.1.relayFlow f p k (some t)).emit (.returned f)

/-! ### The paths -/

/-- `HandleStream` after the handshake: the outbound is dialled first. -/
def handleStream (s : Node) (f : FlowID) (k : Call) : Node :=
  s.enterAfter f .stream k [client f, upstream f]

/-- `HandleStream` for a mux carrier. -/
def handleMuxCarrier (s : Node) (f : FlowID) (k : Call) : Node := s.enter f .carrier k [client f]

def dispatchStream (s : Node) (f : FlowID) (k : Call) : Node :=
  s.enterAfter f .substream k [client f, upstream f]

def relayPacket (s : Node) (f : FlowID) (k : Call) : Node :=
  s.enterAfter f .packet k [client f]

/-- The sink of `ServePacket`: the flow goes to `udpNAT` at once. -/
def servePacket (s : Node) (f : FlowID) (k : Call) : Node := s.relayFlow f .native k none

/-- `SessionDispatch`: `Admit` gets the stream to wrap and nothing to close; the
outbound is dialled after it. -/
def sessionDispatch (s : Node) (f : FlowID) (k : Call) : Node :=
  let a := s.admitConn f k []
  match a.2 with
  | none => a.1.leave f .sessionStream k
  | some t =>
    if k.dial = true then a.1.relayFlow f .sessionStream k (some t)
    else ((a.1.closeAll [client f]).release f k t).leave f .sessionStream k

/-- `SessionPacketDispatch`, with the admitter that the runtime always gives it:
the client is closed on every way out. -/
def sessionPacketDispatch (s : Node) (f : FlowID) (k : Call) : Node :=
  let a := s.admitConn f k [client f]
  match a.2 with
  | none => (a.1.closeAll [client f]).leave f .sessionPacket k
  | some t => a.1.relayFlow f .sessionPacket k (some t)

/-- `SessionAdmit`: as in `SessionDispatch`, `Admit` gets nothing to close. -/
def sessionAdmit (s : Node) (f : FlowID) (k : Call) : Node := s.enterHook f .sessionHook k []

def sessionTunnelAdmit (s : Node) (f : FlowID) (k : Call) : Node :=
  s.enterHook f .tunnel k [client f]

def land (s : Node) (f : FlowID) (k : Call) : Path → Node
  | .stream => s.handleStream f k
  | .carrier => s.handleMuxCarrier f k
  | .substream => s.dispatchStream f k
  | .packet => s.relayPacket f k
  | .native => s.servePacket f k
  | .sessionStream => s.sessionDispatch f k
  | .sessionPacket => s.sessionPacketDispatch f k
  | .sessionHook => s.sessionAdmit f k
  | .tunnel => s.sessionTunnelAdmit f k

/-! ### Steps -/

/-- The end of a flow: both sides are closed, then the release is called. -/
def finish (s : Node) (f : FlowID) (fl : Flow) : Node :=
  let s := s.closeAll [client f, upstream f]
  let s := match fl.ticket with
    | some t => s.release f fl.call t
    | none => s
  s.leave f fl.path fl.call

/-- A switch: the connections are taken out at once, their closers run on their
own. -/
def cut (s : Node) (k : Registry.Kill) : Node :=
  { s with reg := (s.reg.cut k).1, spawned := s.spawned ++ (s.reg.cut k).2 }

def settle (s : Node) : Node := { s.closeAll s.spawned with spawned := [] }

end Node

/-- What happens on a node: a flow lands, bytes of its client are relayed, it
ends; a switch, a closer that it started; a credential is switched on again,
limits are set, the memory guard looks at the memory. -/
inductive Action where
  | land (f : FlowID) (p : Path) (k : Call)
  | relay (f : FlowID)
  | finish (f : FlowID)
  | cut (k : Registry.Kill)
  | close (c : Closer)
  | enable (id : CredID)
  | setLimits (id : CredID) (l : Limits)
  | setLimitsShared (ids : List CredID) (l : Limits)
  | memory (phase : MemPhase)

/-- The step of an action, where it can be taken: flows land once, and bytes
come from a connection that is not closed. -/
def Node.act (s : Node) : Action → Option Node
  | .land f p k => if s.flows f = none then some (s.land f k p) else none
  | .relay f =>
    match s.flows f with
    | some fl =>
      if fl.running = true ∧ s.closed (client f) = false then some (s.emit (.relayed f)) else none
    | none => none
  | .finish f =>
    match s.flows f with
    | some fl => if fl.running = true then some (s.finish f fl) else none
    | none => none
  | .cut k => some (s.cut k)
  | .close c =>
    if c ∈ s.spawned then some { s.closeAll [c] with spawned := s.spawned.erase c } else none
  | .enable id => some { s with reg := (s.reg.enable id).1 }
  | .setLimits id l => some { s with reg := s.reg.setLimits id l }
  | .setLimitsShared ids l => some { s with reg := s.reg.setLimitsShared ids l }
  | .memory phase => some { s with phase := phase }

end Ntr.Service
