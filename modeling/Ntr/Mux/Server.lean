/-
The server of Mux.cool: the read loop, the session table, and the goroutines
that land the sub-streams.

* `Server`, `Event`, `step`: the worker and its atomic steps. Every interleaving
  of the read loop, the landings, the copiers and `closeAll` is a list of events;
* `step_table`: what a step does to the session table;
* `Tracked`: the table holds the sessions that have not been removed, each under
  its own id; `tracked_step`: it stays so, as long as a New frame for the control
  sub-stream comes under an unused id;
* `tableSafe_of_calm`: then the table is safe throughout.
-/
import Ntr.Lib.Runs
import Ntr.Lib.Tracks
import Ntr.Mux.Pipe

namespace Ntr.Mux

open Go Lib

/-- The most sessions that `handleNew` lets in. -/
def maxServerSessions : Nat := 512

/-- The most datagrams that wait for the dial of a UDP sub-stream. -/
def maxUDPPending : Nat := 64

/-- The buffer of `landUDP`. -/
def udpBufSize : Nat := 64 * 1024

/-! ### Sessions -/

/-- How far `finish` has come: the session is marked as finished, is removed
from the table, has its End sent if it has to, has its pipe closed, and at last
its connection. -/
inductive Finish where
  | fresh
  | marked (sendEnd : Bool)
  | removed (sendEnd : Bool)
  | ended
  | piped
  | done
  deriving DecidableEq

/-- The session has not been removed from the table. -/
def Finish.listed : Finish → Bool
  | .fresh | .marked _ => true
  | _ => false

/-- A call of `finish`: only the first one counts. -/
def Finish.begun (f : Finish) (sendEnd : Bool) : Finish :=
  if f = .fresh then .marked sendEnd else f

lemma Finish.listed_begun (f : Finish) (e : Bool) : (f.begun e).listed = f.listed := by
  rw [begun]
  split_ifs with h
  · rw [h]
    rfl
  · rfl

lemma Finish.begun_of_ne {f : Finish} (h : f ≠ .fresh) (e : Bool) : f.begun e = f := if_neg h

/-- The goroutine of `landTCP` or `landUDP`. -/
inductive Landing where
  | none
  | dialing
  /-- These datagrams are written to the target next. -/
  | flushing (datagrams : List Str)
  | reading
  /-- This was read from the target, and is written to the link next. -/
  | holding (data : Str)
  | finishing
  | done
  deriving DecidableEq

/-- The goroutine of `io.Copy(conn, s.inW)`. -/
inductive Copier where
  | none
  | idle
  /-- This was read from the pipe, and is written to the target next. -/
  | holding (data : Str)
  | done
  deriving DecidableEq

/-- The connection to a target: what the target has written and how much of it
has been read; and what was written to the target, write by write. -/
structure Target where
  dialed : Bool := false
  closed : Bool := false
  wrote : Str := []
  taken : Nat := 0
  received : List Str := []
  deriving DecidableEq

/-- A `Write` to the target: it fails when the connection is closed. -/
def Target.write (t : Target) (b : Str) : Target :=
  if t.closed then t else { t with received := t.received ++ [b] }

/-- A `serverSession` with its goroutines and its connection. The last two
fields are history: the data of its New and Keep frames before its End, and
whether its End has come. No step reads them. -/
structure Session where
  id : UInt16
  control : Bool := false
  udp : Bool := false
  address : Address := {}
  port : UInt16 := 0
  first : Str := []
  conn : Bool := false
  udpPending : List Str := []
  inW : BufPipe := {}
  finish : Finish := .fresh
  landing : Landing := .none
  copier : Copier := .none
  target : Target := {}
  uploaded : Str := []
  peerEnded : Bool := false
  deriving DecidableEq

/-- The data of a Keep frame: only what comes before the End counts. -/
def Session.upload (data : Str) (x : Session) : Session :=
  if x.peerEnded then x else { x with uploaded := x.uploaded ++ data }

def Session.kind (x : Session) : UInt16 × Bool × Bool := (x.id, x.control, x.udp)

lemma Session.kind_inj {x y : Session} :
    x.kind = y.kind ↔ x.id = y.id ∧ x.control = y.control ∧ x.udp = y.udp := by
  simp [kind]

@[simp]
lemma Session.upload_kind (data : Str) (x : Session) : (x.upload data).kind = x.kind := by
  rw [upload]
  split <;> rfl

@[simp]
lemma Session.upload_finish (data : Str) (x : Session) : (x.upload data).finish = x.finish := by
  rw [upload]
  split <;> rfl

/-- The frames that bring data of the target to the client. -/
def Session.reply (x : Session) (data : Str) : Call :=
  if x.udp then
    .frame { sessionID := x.id, status := statusKeep, option := optionData, network := networkUDP,
             address := x.address, port := x.port } data
  else .keep x.id data

/-! ### The worker -/

inductive Loop where
  | idle
  /-- An End frame is to be written. -/
  | replying (id : UInt16) (hasErr : Bool)
  /-- `bufPipe.Write` has these bytes left. -/
  | writing (r : Nat) (rest : Str)
  /-- `deliverUDP` writes a datagram to the target. -/
  | sending (r : Nat) (data : Str)
  | finishing (r : Nat)
  deriving DecidableEq

/-- A `ServerWorker`: the sessions are numbered as they are made, and the table
holds their numbers. `last` is history: the last session that was let in under
an id. -/
structure Server where
  sessions : Table UInt16 := ∅
  obj : Nat → Session := fun _ => { id := 0 }
  born : Nat := 0
  loop : Loop := .idle
  link : Link := {}
  controls : List Str := []
  last : UInt16 → Option Nat := fun _ => none

inductive Event where
  /-- `ReadFrame` gives a frame, and its handler starts. -/
  | recv (m : FrameMetadata) (data : Str)
  /-- The next step of the handler. -/
  | loop
  /-- `DialTarget` returns, and `setConn` or `activateUDP` is called. -/
  | dial (r : Nat) (ok : Bool)
  | targetWrite (r : Nat) (b : Str)
  /-- `conn.Read` of `landTCP` gives up to `n` bytes. -/
  | landRead (r : Nat) (n : Nat)
  /-- `conn.Read` of `landUDP` gives a datagram. -/
  | datagram (r : Nat) (data : Str)
  /-- `conn.Read` fails. -/
  | landEOF (r : Nat)
  /-- Another step of the landing. -/
  | land (r : Nat)
  | copyRead (r : Nat) (n : Nat)
  | copyWrite (r : Nat)
  /-- The next step of `finish`. -/
  | finish (r : Nat)
  /-- `closeAll` calls `finish` for a session that it has found in the table. -/
  | stop (r : Nat)
  | linkDown

/-- The session that takes the step, where there is one. -/
def Event.session : Event → Option Nat
  | .recv _ _ | .loop | .linkDown => none
  | .dial r _ | .targetWrite r _ | .landRead r _ | .datagram r _ | .landEOF r | .land r
  | .copyRead r _ | .copyWrite r | .finish r | .stop r => some r

namespace Server

variable (s : Server)

def getSession (id : UInt16) : Option Nat := s.sessions.lookup id

def sessionCount : Nat := s.sessions.keys.length

def modify (r : Nat) (f : Session → Session) : Server :=
  { s with obj := Function.update s.obj r (f (s.obj r)) }

/-- A new session, with `addSession`. -/
def addSession (x : Session) : Server :=
  { s with
    sessions := s.sessions.insert x.id s.born
    obj := Function.update s.obj s.born x
    born := s.born + 1
    last := Function.update s.last x.id (some s.born) }

def removeSession (id : UInt16) : Server := { s with sessions := s.sessions.erase id }

def writeEnd (id : UInt16) (hasErr : Bool) : Server :=
  { s with link := s.link.push (.stop id hasErr) }

/-- `finish` is called: the first call starts it, the others wait for it. -/
def beginFinish (r : Nat) (sendEnd : Bool) : Server :=
  if (s.obj r).finish = .fresh then s.modify r fun x => { x with finish := .marked sendEnd } else s

/-- The next step of `finish`. -/
def finishStep (r : Nat) : Server :=
  match (s.obj r).finish with
  | .marked sendEnd =>
    (s.removeSession (s.obj r).id).modify r fun x => { x with finish := .removed sendEnd }
  | .removed sendEnd =>
    (if sendEnd then s.writeEnd (s.obj r).id false else s).modify r fun x =>
      { x with finish := .ended }
  | .ended =>
    s.modify r fun x =>
      { x with inW := if x.control || x.udp then x.inW else x.inW.close, finish := .piped }
  | .piped =>
    s.modify r fun x =>
      { x with target := { x.target with closed := x.target.closed || x.conn }, finish := .done }
  | _ => s

/-! #### The read loop -/

/-- `onControl`, for frames with data. -/
def onControl (data : Str) : Server :=
  if data.length > 0 then { s with controls := s.controls ++ [data] } else s

def handleNew (m : FrameMetadata) (data : Str) : Server :=
  if m.address.isDomain = true ∧ m.address.domain = internalDomain then
    (s.addSession { id := m.sessionID, control := true, uploaded := data }).onControl data
  else if s.getSession m.sessionID ≠ none then
    { s with loop := .replying m.sessionID true }
  else if s.sessionCount ≥ maxServerSessions then
    { s with loop := .replying m.sessionID true }
  else if m.network = networkUDP then
    s.addSession { id := m.sessionID, udp := true, address := m.address, port := m.port,
                   first := data, landing := .dialing, uploaded := data }
  else
    s.addSession { id := m.sessionID, address := m.address, port := m.port,
                   inW := ((({} : BufPipe).write data).1), landing := .dialing, uploaded := data }

/-- `deliverUDP`, up to the write to the target. -/
def deliverUDP (r : Nat) (data : Str) : Server :=
  if (s.obj r).finish ≠ .fresh then s
  else if (s.obj r).conn then { s with loop := .sending r data }
  else if (s.obj r).udpPending.length < maxUDPPending then
    s.modify r fun x => { x with udpPending := x.udpPending ++ [data] }
  else s

def handleKeep (m : FrameMetadata) (data : Str) : Server :=
  match s.getSession m.sessionID with
  | none => { s with loop := .replying m.sessionID false }
  | some r =>
    if (s.obj r).control then s.onControl data
    else if (s.obj r).udp then if data.length > 0 then s.deliverUDP r data else s
    else if data.length > 0 then { s with loop := .writing r data }
    else s

def handleEnd (m : FrameMetadata) : Server :=
  match s.getSession m.sessionID with
  | none => s
  | some r => { s.beginFinish r false with loop := .finishing r }

/-- History: the data of a Keep frame belongs to the last sub-stream of its id,
up to its End. -/
def record (m : FrameMetadata) (data : Str) : Server :=
  match s.last m.sessionID with
  | none => s
  | some r =>
    if m.status = statusKeep then s.modify r (Session.upload data)
    else if m.status = statusEnd then s.modify r fun x => { x with peerEnded := true }
    else s

/-- A round of `Run`. No frame has more data than `ReadFrame` lets through. -/
def recv (m : FrameMetadata) (data : Str) : Server :=
  if s.loop ≠ .idle ∨ data.length > streamChunkSize then s
  else if m.status = statusNew then s.handleNew m data
  else if m.status = statusKeep then (s.record m data).handleKeep m data
  else if m.status = statusEnd then (s.record m data).handleEnd m
  else s

def loopStep : Server :=
  match s.loop with
  | .idle => s
  | .replying id hasErr => { s.writeEnd id hasErr with loop := .idle }
  | .writing r rest =>
    let (p, rest) := (s.obj r).inW.write rest
    { s.modify r fun x => { x with inW := p } with
      loop := if rest = [] then .idle else .writing r rest }
  | .sending r data =>
    { s.modify r fun x => { x with target := x.target.write data } with loop := .idle }
  | .finishing r => if (s.obj r).finish = .done then { s with loop := .idle } else s

/-! #### Landings -/

/-- `landTCP` or `landUDP` gives up: `finish(s, true)`. -/
def landFinish (r : Nat) : Server :=
  (s.beginFinish r true).modify r fun x => { x with landing := .finishing }

def dial (r : Nat) (ok : Bool) : Server :=
  if (s.obj r).landing ≠ .dialing then s
  else if ok = false then s.landFinish r
  else if (s.obj r).finish ≠ .fresh then
    -- The sub-stream is finished: the connection is dropped.
    s.modify r fun x =>
      { x with landing := .done, target := { x.target with dialed := true, closed := true } }
  else if (s.obj r).udp then
    s.modify r fun x =>
      { x with conn := true, target := { x.target with dialed := true }, udpPending := [],
               landing := .flushing ((if x.first.length > 0 then [x.first] else []) ++
                 x.udpPending) }
  else
    s.modify r fun x =>
      { x with conn := true, target := { x.target with dialed := true }, landing := .reading,
               copier := .idle }

def targetWrite (r : Nat) (b : Str) : Server :=
  if (s.obj r).target.dialed then
    s.modify r fun x => { x with target := { x.target with wrote := x.target.wrote ++ b } }
  else s

/-- What the next `conn.Read` of up to `n` bytes gives. -/
def available (r n : Nat) : Str :=
  ((s.obj r).target.wrote.drop (s.obj r).target.taken).take (min n streamChunkSize)

def canRead (r : Nat) : Prop := (s.obj r).landing = .reading ∧ (s.obj r).target.closed = false

instance (r : Nat) : Decidable (s.canRead r) := inferInstanceAs (Decidable (_ ∧ _))

def landRead (r n : Nat) : Server :=
  if s.canRead r ∧ (s.obj r).udp = false ∧ s.available r n ≠ [] then
    s.modify r fun x =>
      { x with landing := .holding (s.available r n),
               target := { x.target with taken := x.target.taken + (s.available r n).length } }
  else s

def datagram (r : Nat) (data : Str) : Server :=
  if s.canRead r ∧ (s.obj r).udp = true ∧ data ≠ [] ∧ data.length ≤ udpBufSize then
    s.modify r fun x => { x with landing := .holding data }
  else s

def landEOF (r : Nat) : Server := if (s.obj r).landing = .reading then s.landFinish r else s

def land (r : Nat) : Server :=
  match (s.obj r).landing with
  | .flushing [] => s.modify r fun x => { x with landing := .reading }
  | .flushing (d :: ds) =>
    s.modify r fun x => { x with target := x.target.write d, landing := .flushing ds }
  | .holding data =>
    match s.link.write ((s.obj r).reply data) with
    | some link => ({ s with link := link }).modify r fun x => { x with landing := .reading }
    | none => s.landFinish r
  | .finishing =>
    if (s.obj r).finish = .done then s.modify r fun x => { x with landing := .done } else s
  | _ => s

/-- `io.Copy` reads from the pipe. -/
def copyRead (r n : Nat) : Server :=
  if (s.obj r).copier = .idle ∧ 0 < n then
    match (s.obj r).inW.read n with
    | none => s
    | some (.error _, _) => s.modify r fun x => { x with copier := .done }
    | some (.ok d, p) => s.modify r fun x => { x with inW := p, copier := .holding d }
  else s

/-- `io.Copy` writes to the target. -/
def copyWrite (r : Nat) : Server :=
  match (s.obj r).copier with
  | .holding d =>
    if (s.obj r).target.closed then s.modify r fun x => { x with copier := .done }
    else s.modify r fun x => { x with target := x.target.write d, copier := .idle }
  | _ => s

/-! #### Steps -/

/-- What an event does. An event that cannot happen changes nothing. -/
def act : Event → Server
  | .recv m data => s.recv m data
  | .loop => s.loopStep
  | .dial r ok => s.dial r ok
  | .targetWrite r b => s.targetWrite r b
  | .landRead r n => s.landRead r n
  | .datagram r data => s.datagram r data
  | .landEOF r => s.landEOF r
  | .land r => s.land r
  | .copyRead r n => s.copyRead r n
  | .copyWrite r => s.copyWrite r
  | .finish r => s.finishStep r
  | .stop r => s.beginFinish r false
  | .linkDown => { s with link := { s.link with down := true } }

/-- One atomic step: only the sessions that there are take any. -/
def step (s : Server) (e : Event) : Server :=
  if ∀ r ∈ e.session, r < s.born then s.act e else s

/-! ### Single changes -/

section
variable {s} {r q : Nat} {f : Session → Session}

@[simp]
lemma obj_modify_self : (s.modify r f).obj r = f (s.obj r) := Function.update_self r _ s.obj

lemma obj_modify_of_ne (h : q ≠ r) : (s.modify r f).obj q = s.obj q :=
  Function.update_of_ne h _ s.obj

lemma modify_congr {g : Session → Session} (h : f (s.obj r) = g (s.obj r)) :
    s.modify r f = s.modify r g := by
  rw [modify, modify, h]

lemma modify_modify {g : Session → Session} :
    (s.modify r f).modify r g = s.modify r fun x => g (f x) := by
  rw [modify, obj_modify_self, modify, modify, Function.update_idem]

lemma modify_eq_self (h : f (s.obj r) = s.obj r) : s.modify r f = s := by
  rw [modify, h, Function.update_eq_self]

lemma beginFinish_eq (e : Bool) :
    s.beginFinish r e = s.modify r fun x => { x with finish := x.finish.begun e } := by
  rw [beginFinish]
  split_ifs with h
  · exact modify_congr (by rw [h]; rfl)
  · exact (modify_eq_self (by rw [Finish.begun_of_ne h])).symm

lemma landFinish_eq : s.landFinish r = s.modify r fun x =>
    { x with finish := x.finish.begun true, landing := .finishing } := by
  rw [landFinish, beginFinish_eq, modify_modify]

lemma obj_modify_ind {P : Nat → Session → Session → Prop} (hr : P r (s.obj r) (f (s.obj r)))
    (hq : ∀ q, P q (s.obj q) (s.obj q)) : P q (s.obj q) ((s.modify r f).obj q) := by
  by_cases h : q = r
  · rw [h, obj_modify_self]
    exact hr
  · rw [obj_modify_of_ne h]
    exact hq q

end

/-! ### Events of a session -/

/-- **What an event of a session does**, said once for all invariants: each case is a
branch of its handler. -/
inductive Acts (s : Server) (r : Nat) : Event → Server → Prop where
  | rest {e : Event} (hd : ∀ ok, e = .dial r ok → (s.obj r).landing ≠ .dialing) : Acts s r e s
  | stop : Acts s r (.stop r) (s.modify r fun x => { x with finish := x.finish.begun false })
  | giveUp {e : Event}
      (he : e = .dial r false ∧ (s.obj r).landing = .dialing ∨
        e = .landEOF r ∧ (s.obj r).landing = .reading ∨
        e = .land r ∧ ∃ data, (s.obj r).landing = .holding data ∧
          s.link.write ((s.obj r).reply data) = none) :
      Acts s r e (s.modify r fun x =>
        { x with finish := x.finish.begun true, landing := .finishing })
  | drop (hl : (s.obj r).landing = .dialing) (hf : (s.obj r).finish ≠ .fresh) :
      Acts s r (.dial r true) (s.modify r fun x =>
        { x with landing := .done, target := { x.target with dialed := true, closed := true } })
  | upUDP (hl : (s.obj r).landing = .dialing) (hu : (s.obj r).udp = true) :
      Acts s r (.dial r true) (s.modify r fun x =>
        { x with conn := true, target := { x.target with dialed := true }, udpPending := [],
                 landing := .flushing ((if x.first.length > 0 then [x.first] else []) ++
                   x.udpPending) })
  | upTCP (hl : (s.obj r).landing = .dialing) (hu : (s.obj r).udp = false) :
      Acts s r (.dial r true) (s.modify r fun x =>
        { x with conn := true, target := { x.target with dialed := true }, landing := .reading,
                 copier := .idle })
  | wrote (b : Str) :
      Acts s r (.targetWrite r b) (s.modify r fun x =>
        { x with target := { x.target with wrote := x.target.wrote ++ b } })
  | hold {e : Event} {d : Str} (n : Nat) (hl : (s.obj r).landing = .reading)
      (he : (∃ k, e = .landRead r k ∧ d = s.available r k ∧
          n = (s.obj r).target.taken + d.length) ∨ e = .datagram r d ∧ (s.obj r).udp = true) :
      Acts s r e (s.modify r fun x =>
        { x with landing := .holding d, target := { x.target with taken := n } })
  | flushed (hl : (s.obj r).landing = .flushing []) :
      Acts s r (.land r) (s.modify r fun x => { x with landing := .reading })
  | flush {d : Str} {ds : List Str} (hl : (s.obj r).landing = .flushing (d :: ds)) :
      Acts s r (.land r) (s.modify r fun x =>
        { x with target := x.target.write d, landing := .flushing ds })
  | relay {data : Str} {link : Link} (hl : (s.obj r).landing = .holding data)
      (hw : s.link.write ((s.obj r).reply data) = some link) :
      Acts s r (.land r)
        (({ s with link := link }).modify r fun x => { x with landing := .reading })
  | leave (hl : (s.obj r).landing = .finishing) :
      Acts s r (.land r) (s.modify r fun x => { x with landing := .done })
  | copyEOF {n : Nat} {err : Error} {p : BufPipe} (hc : (s.obj r).copier = .idle)
      (hr : (s.obj r).inW.read n = some (.error err, p)) :
      Acts s r (.copyRead r n) (s.modify r fun x => { x with copier := .done })
  | copyRead {n : Nat} {d : Str} {p : BufPipe} (hc : (s.obj r).copier = .idle)
      (hr : (s.obj r).inW.read n = some (.ok d, p)) :
      Acts s r (.copyRead r n) (s.modify r fun x => { x with inW := p, copier := .holding d })
  | copyFail {d : Str} (hc : (s.obj r).copier = .holding d)
      (ht : (s.obj r).target.closed = true) :
      Acts s r (.copyWrite r) (s.modify r fun x => { x with copier := .done })
  | copyWrite {d : Str} (hc : (s.obj r).copier = .holding d) :
      Acts s r (.copyWrite r) (s.modify r fun x =>
        { x with target := x.target.write d, copier := .idle })
  | remove {b : Bool} (hf : (s.obj r).finish = .marked b) :
      Acts s r (.finish r) ((s.removeSession (s.obj r).id).modify r fun x =>
        { x with finish := .removed b })
  | sendEnd {b : Bool} {link : Link} (hf : (s.obj r).finish = .removed b)
      (hw : link = s.link ∨ b = true ∧ link = s.link.push (.stop (s.obj r).id false)) :
      Acts s r (.finish r) (({ s with link := link }).modify r fun x => { x with finish := .ended })
  | pipe (hf : (s.obj r).finish = .ended) :
      Acts s r (.finish r) (s.modify r fun x =>
        { x with inW := if x.control || x.udp then x.inW else x.inW.close, finish := .piped })
  | close (hf : (s.obj r).finish = .piped) :
      Acts s r (.finish r) (s.modify r fun x =>
        { x with target := { x.target with closed := x.target.closed || x.conn }, finish := .done })

section
variable {s} {r : Nat} {e : Event}

lemma acts_dial (ok : Bool) : Acts s r (.dial r ok) (s.dial r ok) := by
  rw [dial]
  split_ifs with hl hok hf hu
  · exact .rest fun _ _ => hl
  · rw [landFinish_eq, hok]
    exact .giveUp (.inl ⟨rfl, not_not.mp hl⟩)
  all_goals rw [Bool.not_eq_false] at hok; rw [hok]
  · exact .drop (not_not.mp hl) hf
  · exact .upUDP (not_not.mp hl) hu
  · exact .upTCP (not_not.mp hl) (Bool.not_eq_true _ ▸ hu)

lemma acts_land : Acts s r (.land r) (s.land r) := by
  rw [land]
  split
  case _ hl => exact .flushed hl
  case _ d ds hl => exact .flush hl
  case _ data hl =>
    split
    case _ link hw => exact .relay hl hw
    case _ hw =>
      rw [landFinish_eq]
      exact .giveUp (.inr (.inr ⟨rfl, data, hl, hw⟩))
  case _ hl =>
    split_ifs
    · exact .leave hl
    · exact .rest fun _ h => by cases h
  case _ => exact .rest fun _ h => by cases h

lemma acts_finishStep : Acts s r (.finish r) (s.finishStep r) := by
  rw [finishStep]
  split
  case _ b hf => exact .remove hf
  case _ b hf =>
    cases b with
    | false => exact .sendEnd hf (.inl rfl)
    | true => exact .sendEnd hf (.inr ⟨rfl, rfl⟩)
  case _ hf => exact .pipe hf
  case _ hf => exact .close hf
  case _ => exact .rest fun _ h => by cases h

lemma acts_act (he : e.session = some r) : Acts s r e (s.act e) := by
  have hrest : (∀ ok, e ≠ .dial r ok) → Acts s r e s := fun h => .rest fun ok h' => absurd h' (h ok)
  cases e <;> cases he
  case dial ok => exact acts_dial ok
  case land => exact acts_land
  case finish => exact acts_finishStep
  case stop =>
    rw [act, beginFinish_eq]
    exact .stop
  case targetWrite b =>
    rw [act, targetWrite]
    split_ifs
    · exact .wrote b
    · exact hrest fun _ h => by cases h
  case landRead n =>
    rw [act, landRead]
    split_ifs with h
    · exact .hold _ h.1.1 (.inl ⟨n, rfl, rfl, rfl⟩)
    · exact hrest fun _ h => by cases h
  case datagram d =>
    rw [act, datagram]
    split_ifs with h
    · exact .hold (s.obj r).target.taken h.1.1 (.inr ⟨rfl, h.2.1⟩)
    · exact hrest fun _ h => by cases h
  case landEOF =>
    rw [act, landEOF]
    split_ifs with h
    · rw [landFinish_eq]
      exact .giveUp (.inr (.inl ⟨rfl, h⟩))
    · exact hrest fun _ h => by cases h
  case copyRead n =>
    rw [act, Server.copyRead]
    split_ifs with hc
    · split
      case _ => exact hrest fun _ h => by cases h
      case _ hr => exact .copyEOF hc.1 hr
      case _ hr => exact .copyRead hc.1 hr
    · exact hrest fun _ h => by cases h
  case copyWrite =>
    rw [act, Server.copyWrite]
    split
    case _ d hc =>
      split_ifs with ht
      · exact .copyFail hc ht
      · exact .copyWrite hc
    case _ => exact hrest fun _ h => by cases h

end

/-! ### The session table -/

/-- Nothing about the table has changed: the entries, the sessions that there
are, their ids and kinds, and whether they are removed. -/
structure SameTable (s s' : Server) : Prop where
  sessions : s'.sessions = s.sessions
  born : s'.born = s.born
  kind : ∀ q, (s'.obj q).kind = (s.obj q).kind
  listed : ∀ q, (s'.obj q).finish.listed = (s.obj q).finish.listed

section
variable {s} {s' s'' : Server} {r : Nat}

lemma SameTable.refl (s : Server) : SameTable s s := ⟨rfl, rfl, fun _ => rfl, fun _ => rfl⟩

lemma SameTable.trans (h : SameTable s s') (h' : SameTable s' s'') : SameTable s s'' where
  sessions := h'.sessions.trans h.sessions
  born := h'.born.trans h.born
  kind q := (h'.kind q).trans (h.kind q)
  listed q := (h'.listed q).trans (h.listed q)

lemma SameTable.other (h : SameTable s s') (hs : s''.sessions = s'.sessions)
    (hb : s''.born = s'.born) (ho : s''.obj = s'.obj) : SameTable s s'' :=
  h.trans ⟨hs, hb, fun q => by rw [ho], fun q => by rw [ho]⟩

lemma sameTable_modify {f : Session → Session} (hk : (f (s.obj r)).kind = (s.obj r).kind)
    (hl : (f (s.obj r)).finish.listed = (s.obj r).finish.listed) : SameTable s (s.modify r f) where
  sessions := rfl
  born := rfl
  kind _ := obj_modify_ind (P := fun _ x y => y.kind = x.kind) hk fun _ => rfl
  listed _ := obj_modify_ind (P := fun _ x y => y.finish.listed = x.finish.listed) hl fun _ => rfl

lemma sameTable_beginFinish (s : Server) (r : Nat) (e : Bool) :
    SameTable s (s.beginFinish r e) := by
  rw [beginFinish_eq]
  exact sameTable_modify rfl (Finish.listed_begun _ e)

lemma sameTable_record (s : Server) (m : FrameMetadata) (data : Str) :
    SameTable s (s.record m data) := by
  rw [record]
  split
  · exact .refl s
  · split_ifs
    · exact sameTable_modify (by simp) (by simp)
    · exact sameTable_modify rfl rfl
    · exact .refl s

lemma sameTable_onControl (s : Server) (data : Str) : SameTable s (s.onControl data) := by
  rw [onControl]
  split_ifs
  · exact (SameTable.refl s).other rfl rfl rfl
  · exact .refl s

lemma sameTable_handleKeep (s : Server) (m : FrameMetadata) (data : Str) :
    SameTable s (s.handleKeep m data) := by
  rw [handleKeep]
  split
  · exact (SameTable.refl s).other rfl rfl rfl
  · rw [deliverUDP]
    split_ifs
    · exact sameTable_onControl s data
    · exact .refl s
    · exact (SameTable.refl s).other rfl rfl rfl
    · exact sameTable_modify rfl rfl
    · exact .refl s
    · exact .refl s
    · exact (SameTable.refl s).other rfl rfl rfl
    · exact .refl s

lemma sameTable_handleEnd (s : Server) (m : FrameMetadata) : SameTable s (s.handleEnd m) := by
  rw [handleEnd]
  split
  · exact .refl s
  case _ r _ => exact (sameTable_beginFinish s r false).other rfl rfl rfl

lemma sameTable_loopStep (s : Server) : SameTable s s.loopStep := by
  rw [loopStep]
  split
  · exact .refl s
  · exact (SameTable.refl s).other rfl rfl rfl
  case _ r rest _ =>
    exact (sameTable_modify (f := fun x => { x with inW := (x.inW.write rest).1 }) rfl rfl).other
      rfl rfl rfl
  case _ r data _ =>
    exact (sameTable_modify (f := fun x => { x with target := x.target.write data }) rfl rfl).other
      rfl rfl rfl
  · split_ifs
    · exact (SameTable.refl s).other rfl rfl rfl
    · exact .refl s

lemma Acts.sameTable {e : Event} (h : Acts s r e s')
    (hm : e = .finish r → ∀ b, (s.obj r).finish ≠ .marked b) : SameTable s s' := by
  cases h with
  | rest => exact .refl s
  | stop => exact sameTable_modify rfl (Finish.listed_begun _ _)
  | giveUp => exact sameTable_modify rfl (Finish.listed_begun _ _)
  | relay =>
    exact (sameTable_modify (f := fun x => { x with landing := .reading }) rfl rfl).other
      rfl rfl rfl
  | remove hf => exact absurd hf (hm rfl _)
  | sendEnd hf =>
    exact (sameTable_modify (f := fun x => { x with finish := .ended }) rfl (by rw [hf]; rfl)).other
      rfl rfl rfl
  | pipe hf => exact sameTable_modify rfl (by rw [hf]; rfl)
  | close hf => exact sameTable_modify rfl (by rw [hf]; rfl)
  | _ => exact sameTable_modify rfl rfl

lemma sameTable_finishStep (h : ∀ e, (s.obj r).finish ≠ .marked e) :
    SameTable s (s.finishStep r) := acts_finishStep.sameTable fun _ => h

/-- The events that change the table: a New frame that is let in, and a `finish`
that comes to `removeSession`. -/
def Touches (s : Server) : Event → Prop
  | .recv m data => s.loop = .idle ∧ data.length ≤ streamChunkSize ∧ m.status = statusNew
  | .finish r => ∃ e, (s.obj r).finish = .marked e
  | _ => False

lemma sameTable_act {e : Event} (h : ¬ s.Touches e) : SameTable s (s.act e) := by
  cases he : e.session with
  | some r =>
    refine (acts_act he).sameTable fun hf b hb => h ?_
    subst hf
    exact ⟨b, hb⟩
  | none =>
    cases e with
    | recv m data =>
      rw [act, recv]
      split_ifs with hloop hnew hkeep hend
      · exact .refl s
      · rw [not_or, not_not, not_lt] at hloop
        exact absurd ⟨hloop.1, hloop.2, hnew⟩ h
      · exact (sameTable_record s m data).trans (sameTable_handleKeep _ m data)
      · exact (sameTable_record s m data).trans (sameTable_handleEnd _ m)
      · exact .refl s
    | loop => exact sameTable_loopStep s
    | linkDown => exact (SameTable.refl s).other rfl rfl rfl
    | _ => cases he

end

/-! ### What the table holds -/

/-- The table holds the sessions that have not been removed, under their ids. -/
def Tracked (s : Server) : Prop :=
  Tracks s.sessions s.born (fun q => (s.obj q).id) fun q => (s.obj q).finish.listed = true

section
variable {s} {s' : Server} {r : Nat} {x : Session}

lemma tracked_init : Tracked {} := tracks_empty

lemma Tracked.same (h : Tracked s) (hs : SameTable s s') : Tracked s' := by
  rw [Tracked, hs.sessions, hs.born]
  exact h.congr (fun q _ => (Session.kind_inj.mp (hs.kind q)).1) fun q _ => by rw [hs.listed q]

lemma obj_addSession_of_lt {q : Nat} (hq : q < s.born) : (s.addSession x).obj q = s.obj q :=
  Function.update_of_ne hq.ne _ s.obj

lemma obj_addSession_born : (s.addSession x).obj s.born = x := by
  simp [Server.addSession]

lemma getSession_addSession_self : (s.addSession x).getSession x.id = some s.born :=
  AList.lookup_insert s.sessions

lemma getSession_addSession_of_ne {id : UInt16} (h : id ≠ x.id) :
    (s.addSession x).getSession id = s.getSession id := AList.lookup_insert_ne h

lemma last_addSession_self : (s.addSession x).last x.id = some s.born := by
  simp [Server.addSession]

lemma last_addSession_of_ne {id : UInt16} (h : id ≠ x.id) :
    (s.addSession x).last id = s.last id := Function.update_of_ne h _ s.last

lemma Tracked.addSession (h : Tracked s) (hid : s.getSession x.id = none)
    (hx : x.finish = .fresh) : Tracked (s.addSession x) := by
  refine Tracks.insert h hid (fun q hq => ?_) (fun q hq => ?_) ?_ ?_
  · rw [obj_addSession_of_lt hq]
  · rw [obj_addSession_of_lt hq]
  · rw [obj_addSession_born]
  · rw [obj_addSession_born, hx]
    rfl

/-- A removal takes the session itself out of the table and no other. -/
lemma Tracked.lookup_finishStep (h : Tracked s) (hr : r < s.born) {e : Bool}
    (hm : (s.obj r).finish = .marked e) (id : UInt16) (q : Nat) :
    (s.finishStep r).getSession id = some q ↔ s.getSession id = some q ∧ q ≠ r := by
  have hlive : (s.obj r).finish.listed = true := by rw [hm]; rfl
  have hstep : (s.finishStep r).sessions = s.sessions.erase (s.obj r).id := by
    rw [finishStep, hm]
    rfl
  rw [getSession, hstep]
  exact Tracks.lookup_erase h hr hlive id q

lemma kind_finishStep (s : Server) (r q : Nat) :
    ((s.finishStep r).obj q).kind = (s.obj q).kind := by
  by_cases hm : ∃ e, (s.obj r).finish = .marked e
  · obtain ⟨e, hm⟩ := hm
    rw [Server.finishStep, hm]
    exact obj_modify_ind (s := s.removeSession _) (P := fun _ x y => y.kind = x.kind) rfl
      fun _ => rfl
  · exact (sameTable_finishStep fun e he => hm ⟨e, he⟩).kind q

lemma Tracked.finishStep (h : Tracked s) (hr : r < s.born) : Tracked (s.finishStep r) := by
  by_cases hm : ∃ e, (s.obj r).finish = .marked e
  · obtain ⟨e, hm⟩ := hm
    have hlive : (s.obj r).finish.listed = true := by rw [hm]; rfl
    have hid := fun q => (Session.kind_inj.mp (kind_finishStep s r q)).1
    rw [Server.finishStep, hm] at hid ⊢
    refine Tracks.erase h hr hlive (fun q _ => hid q) fun q _ => ?_
    · by_cases hq : q = r
      · subst hq
        dsimp only
        rw [obj_modify_self]
        simp [Finish.listed]
      · dsimp only
        rw [obj_modify_of_ne hq]
        simp [hq, removeSession]
  · exact h.same (sameTable_finishStep fun e he => hm ⟨e, he⟩)

end

/-! ### Safety of the table -/

def isControl (m : FrameMetadata) : Prop :=
  m.address.isDomain = true ∧ m.address.domain = internalDomain

/-- A New frame for the control sub-stream comes under an unused id. -/
def FreshControl (s : Server) : Event → Prop
  | .recv m _ => s.loop = .idle → m.status = statusNew → isControl m →
      s.getSession m.sessionID = none
  | _ => True

/-- A New frame for the control sub-stream comes under an unused id, and while
the table has room. -/
def Calm (s : Server) (e : Event) : Prop :=
  s.FreshControl e ∧ ∀ m data, e = .recv m data → s.loop = .idle → m.status = statusNew →
    isControl m → s.sessionCount < maxServerSessions

/-- **Safety of the table** over one step: it stays within its bound, a New
frame leaves the entries of unfinished sessions alone, and where `finish`
removes a session from the table, it removes its entry and no other. -/
structure TableSafe (s : Server) (e : Event) : Prop where
  bounded : (s.step e).sessionCount ≤ maxServerSessions
  new : ∀ m data, e = .recv m data → m.status = statusNew → ∀ id q,
    s.getSession id = some q → (s.obj q).finish = .fresh → (s.step e).getSession id = some q
  own : ∀ r b, e = .finish r → r < s.born → (s.obj r).finish = .marked b →
    s.getSession (s.obj r).id = some r ∧
      ∀ id q, (s.step e).getSession id = some q ↔ s.getSession id = some q ∧ q ≠ r

section
variable {s} {e : Event}

lemma handleNew_cases (s : Server) (m : FrameMetadata) (data : Str) :
    SameTable s (s.handleNew m data) ∨ ∃ x : Session, x.id = m.sessionID ∧ x.finish = .fresh ∧
        SameTable (s.addSession x) (s.handleNew m data) ∧
        (isControl m ∨ s.getSession m.sessionID = none ∧ s.sessionCount < maxServerSessions) := by
  rw [handleNew]
  split_ifs with hctl hdup hfull hudp
  · exact .inr ⟨_, rfl, rfl, sameTable_onControl _ data, .inl hctl⟩
  · exact .inl ((SameTable.refl s).other rfl rfl rfl)
  · exact .inl ((SameTable.refl s).other rfl rfl rfl)
  · exact .inr ⟨_, rfl, rfl, .refl _, .inr ⟨not_not.mp hdup, not_le.mp hfull⟩⟩
  · exact .inr ⟨_, rfl, rfl, .refl _, .inr ⟨not_not.mp hdup, not_le.mp hfull⟩⟩

/-- The table as it is after a step, said once for all its invariants. -/
lemma step_table (hc : s.FreshControl e) : SameTable s (s.step e) ∨
    (∃ m data, e = .recv m data ∧ s.loop = .idle ∧ m.status = statusNew ∧
      ∃ x : Session, x.finish = .fresh ∧ SameTable (s.addSession x) (s.step e) ∧
        s.getSession x.id = none ∧ (isControl m ∨ s.sessionCount < maxServerSessions)) ∨
    ∃ r b, e = .finish r ∧ r < s.born ∧ (s.obj r).finish = .marked b ∧
      s.step e = s.finishStep r := by
  by_cases hborn : ∀ r ∈ e.session, r < s.born
  · rw [step, if_pos hborn]
    by_cases ht : s.Touches e
    · cases e with
      | recv m data =>
        obtain ⟨hloop, hfit, hnew⟩ := ht
        rw [act, recv, if_neg (by simp [hloop, hfit]), if_pos hnew]
        rcases handleNew_cases s m data with h | ⟨x, hid, hx, hsame, hroom⟩
        · exact .inl h
        · rw [← hid] at hroom
          have hfree : s.getSession x.id = none :=
            hroom.elim (fun hctl => hid ▸ hc hloop hnew hctl) And.left
          exact .inr (.inl
            ⟨m, data, rfl, hloop, hnew, x, hx, hsame, hfree, hroom.imp_right And.right⟩)
      | finish r =>
        obtain ⟨b, hb⟩ := ht
        exact .inr (.inr ⟨r, b, rfl, hborn r rfl, hb, rfl⟩)
      | _ => exact ht.elim
    · exact .inl (sameTable_act ht)
  · rw [step, if_neg hborn]
    exact .inl (.refl s)

/-- **Step lemma of the table.** -/
lemma tracked_step (h : s.Tracked) (hc : s.FreshControl e) : (s.step e).Tracked := by
  rcases step_table hc with hs | ⟨m, data, -, -, -, x, hx, hs, hid, -⟩ | ⟨r, b, -, hr, -, hs⟩
  · exact h.same hs
  · exact (h.addSession hid hx).same hs
  · rw [hs]
    exact h.finishStep hr

lemma SameTable.sessionCount_eq {s s' : Server} (h : SameTable s s') :
    s'.sessionCount = s.sessionCount := by
  rw [sessionCount, h.sessions, sessionCount]

lemma SameTable.getSession_eq {s s' : Server} (h : SameTable s s') (id : UInt16) :
    s'.getSession id = s.getSession id := by
  rw [getSession, h.sessions, getSession]

lemma sessionCount_step (h : s.sessionCount ≤ maxServerSessions) (hc : s.Calm e) :
    (s.step e).sessionCount ≤ maxServerSessions := by
  rcases step_table hc.1 with hs | ⟨m, data, he, hloop, hnew, x, -, hs, hid, hroom⟩ |
    ⟨r, b, -, -, hb, hs⟩
  · rwa [hs.sessionCount_eq]
  · have hroom := hroom.elim (hc.2 m data he hloop hnew) id
    rw [hs.sessionCount_eq, sessionCount, addSession, length_insert_of_unused hid]
    exact hroom
  · rw [hs, finishStep, hb]
    exact (length_erase_le s.sessions _).trans h

lemma tableSafe_step (h : s.Tracked) (hn : s.sessionCount ≤ maxServerSessions)
    (hc : s.Calm e) : s.TableSafe e where
  bounded := sessionCount_step hn hc
  new := by
    rintro m data rfl - id q hq -
    rcases step_table hc.1 with hs | ⟨_, _, -, -, -, x, -, hs, hid, -⟩ | ⟨r, b, heq, -⟩
    · rwa [hs.getSession_eq]
    · have hne : id ≠ x.id := by
        rintro rfl
        rw [hid] at hq
        exact nomatch hq
      rwa [hs.getSession_eq, getSession_addSession_of_ne hne]
    · exact nomatch heq
  own := by
    rintro r b rfl hr hb
    have hstep : s.step (.finish r) = s.finishStep r :=
      if_pos fun q hq => Option.mem_some.mp hq ▸ hr
    have hlive : (s.obj r).finish.listed = true := by rw [hb]; rfl
    rw [hstep]
    exact ⟨(h _ _).mpr ⟨hr, rfl, hlive⟩, h.lookup_finishStep hr hb⟩

/-- **The session table is safe** in every run in which each New frame for the
control sub-stream comes under an unused id and while the table has room. -/
theorem tableSafe_of_calm {es : List Event} (h : EachStep step Calm {} es) :
    EachStep step TableSafe {} es := by
  refine EachStep.imp (I := fun s => s.Tracked ∧ s.sessionCount ≤ maxServerSessions)
    (fun s e hs hc => ⟨tracked_step hs.1 hc.1, sessionCount_step hs.2 hc⟩)
    (fun s e hs hc => tableSafe_step hs.1 hs.2 hc) ⟨tracked_init, Nat.zero_le _⟩ h

def newTCP (id : UInt16) (data : Str) : Event :=
  .recv { sessionID := id, status := statusNew, network := networkTCP, port := 80
          address := { ip := [10, 0, 0, 1] } } data

def newControl (id : UInt16) : Event :=
  .recv { sessionID := id, status := statusNew, network := networkUDP
          address := { isDomain := true, domain := internalDomain } } []

/-- A TCP sub-stream and the control sub-stream under ids of their own; the dial
of the first fails, and it is finished. -/
theorem tableSafe_ownIds :
    EachStep step TableSafe {} [newTCP 1 [], newControl 2, .dial 0 false, .finish 0, .finish 0] :=
  tableSafe_of_calm ⟨⟨nofun, by rintro _ _ ⟨rfl, rfl⟩ _ _; exact nofun⟩,
    ⟨fun _ _ _ => by decide, by rintro _ _ ⟨rfl, rfl⟩ _ _ _; decide⟩,
    ⟨trivial, nofun⟩, ⟨trivial, nofun⟩, ⟨trivial, nofun⟩, trivial⟩

lemma step_newControl (h : s.loop = .idle) (id : UInt16) :
    s.step (newControl id) = s.addSession { id, control := true } := by
  have hborn : ∀ r ∈ (newControl id).session, r < s.born := nofun
  rw [step, if_pos hborn, newControl, act, recv, if_neg (by simp [h]), if_pos rfl, handleNew,
    if_pos ⟨rfl, rfl⟩, onControl, if_neg (by decide)]

/-- New frames for the control sub-stream, under the ids below `n`. -/
def controlRun (n : Nat) : List Event := (List.range n).map fun i => newControl (UInt16.ofNat i)

lemma controlRun_grows : ∀ {n : Nat}, n ≤ 2 ^ 16 → ((controlRun n).foldl step {}).loop = .idle ∧
    ((controlRun n).foldl step {}).sessionCount = n ∧ ∀ i, n ≤ i → i < 2 ^ 16 →
      ((controlRun n).foldl step {}).getSession (UInt16.ofNat i) = none
  | 0, _ => ⟨rfl, rfl, fun _ _ _ => rfl⟩
  | n + 1, hn => by
    obtain ⟨hloop, hcount, hfree⟩ := controlRun_grows (Nat.le_of_succ_le hn)
    rw [controlRun, List.range_succ, List.map_append, List.foldl_append, ← controlRun,
      List.map_singleton, List.foldl_cons, List.foldl_nil, step_newControl hloop]
    refine ⟨hloop, ?_, fun i hi hlt => ?_⟩
    · rw [sessionCount, addSession, length_insert_of_unused (hfree n le_rfl hn)]
      exact congrArg (· + 1) hcount
    · have hne : UInt16.ofNat i ≠ UInt16.ofNat n := by
        rw [Ne, ← UInt16.toNat_inj, UInt16.toNat_ofNat_of_lt' hlt, UInt16.toNat_ofNat_of_lt' hn]
        omega
      rw [getSession_addSession_of_ne hne]
      exact hfree i (Nat.le_of_succ_le hi) hlt

/-- The control sub-stream replaces an unfinished session of its id, the end of
this session then removes the control sub-stream from the table, and with New
frames for the control sub-stream alone the table grows beyond its bound. -/
theorem newControl_unsafe : ¬ EachStep step TableSafe {} [newTCP 1 [], newControl 1] ∧
    ¬ TableSafe ([newTCP 1 [], newControl 1, .dial 0 false].foldl step {}) (.finish 0) ∧
    ((controlRun 513).foldl step {}).sessionCount = 513 := by
  refine ⟨fun h => ?_, fun h => ?_, ?_⟩
  · have hnew := h.2.1.new _ _ rfl rfl 1 0 (by decide +kernel) (by decide +kernel)
    exact absurd hnew (by decide +kernel)
  · have hown := (h.own 0 true rfl (by decide +kernel) (by decide +kernel)).1
    exact absurd hown (by decide +kernel)
  · exact (controlRun_grows (by decide)).2.1

end

end Server

end Ntr.Mux
