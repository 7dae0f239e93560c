/-
The client of Mux.cool: it gives out ids, opens sub-streams under them, and its
read loop brings the data of the server to the sub-streams.

* `Client`, `Client.Event`, `Client.step`: the worker and its atomic steps. Every
  interleaving of the read loop, the users of the sub-streams and `closeAll` is a
  list of events;
* `Grows`, `grows_step`: what a step cannot undo. Sub-streams keep their ids and
  targets, and frames that were written or read stay;
* `status_step`: what a step does to the worker as a whole.
-/
import Ntr.Lib.Tracks
import Ntr.Mux.Pipe

namespace Ntr.Mux

open Go Lib List

/-! ### Sub-streams -/

/-- What opens a sub-stream: `OpenStream`, `WriteTo` of a packet connection to a
new target, or `StartControl`. -/
inductive Opener where
  | stream
  | packet
  | control
  deriving DecidableEq

inductive Stage where
  /-- It has its id. -/
  | allocated
  /-- It is in the session table. -/
  | registered
  | opened
  /-- Its New frame could not be written. -/
  | failing
  | failed
  deriving DecidableEq

/-- How far `finish` has come: it is called, the sub-stream is removed from the
table, and its pipe is closed. -/
inductive Closing where
  | fresh
  | called
  | removed
  | done
  deriving DecidableEq

/-- A `clientSession` with the goroutine that opens it and the connection that
stands for it: `ended` says that `Close` has sent the End. The last four fields
are history: what the calls of `Read` have returned, whether one has returned the
end, whether an End frame was the first to finish the sub-stream, and how many
frames had come before it was registered. No step reads them. -/
structure Substream where
  id : UInt16 := 0
  opener : Opener := .stream
  network : UInt8 := networkTCP
  address : Address := {}
  port : UInt16 := 0
  stage : Stage := .allocated
  inW : BufPipe := {}
  finish : Closing := .fresh
  ended : Bool := false
  got : Str := []
  eof : Bool := false
  peerEnded : Bool := false
  since : Nat := 0
  deriving DecidableEq

namespace Substream

variable (x : Substream)

def opening : FrameMetadata :=
  { sessionID := x.id, status := statusNew, network := x.network, address := x.address
    port := x.port }

/-- The frames that bring data to the server: of a stream, a datagram, or a
heartbeat. -/
def upload (data : Str) : Call :=
  match x.opener with
  | .stream => .keep x.id data
  | .packet =>
    .frame { sessionID := x.id, status := statusKeep, option := optionData, network := networkUDP
             address := x.address, port := x.port } data
  | .control =>
    .frame { sessionID := x.id, status := statusKeep, network := networkUDP, address := x.address
             port := x.port } data

/-- The sub-stream is in the session table: the control sub-stream never is. -/
def listed : Bool :=
  x.opener != .control && (x.stage != .allocated && x.stage != .failed) &&
    (x.finish == .fresh || x.finish == .called)

def ready : Bool := x.stage == if x.opener = .control then .allocated else .registered

/-- There is someone who can write to the sub-stream. A datagram may find the
sub-stream of another `WriteTo`, before the New frame of this one. -/
def usable : Bool := x.stage == .opened || (x.opener == .packet && x.stage == .registered)

/-- `finish` is called for an End frame. -/
def hear : Substream :=
  if x.finish = .fresh then { x with finish := .called, peerEnded := true } else x

/-- The frames that have come since the sub-stream was registered. -/
def seen (fs : List Frame) : List Frame := if x.stage = .allocated then [] else fs.drop x.since

end Substream

/-! ### The worker -/

/-- How many ids were given out, and whether they were too many for the worker
to take more. -/
structure Budget where
  total : Nat := 0
  draining : Bool := false
  deriving DecidableEq

def Budget.alloc (b : Budget) : Budget where
  total := b.total + 1
  draining := b.draining || decide (b.total + 1 > 256)

namespace Client

inductive Loop where
  | idle
  /-- An End frame is to be written. -/
  | replying (id : UInt16)
  /-- `bufPipe.Write` has these bytes left. -/
  | writing (r : Nat) (rest : Str)
  | finishing (r : Nat)
  deriving DecidableEq

/-- What the read loop has yet to write to the pipe of a sub-stream. -/
def Loop.rest (r : Nat) : Loop → Str
  | .writing q rest => if q = r then rest else []
  | _ => []

inductive Event where
  /-- `allocID` is called by `OpenStream`. -/
  | openStream (network : UInt8) (address : Address) (port : UInt16)
  /-- `allocID` is called by `WriteTo`. -/
  | writeTo (address : Address) (port : UInt16)
  /-- `allocID` is called by `StartControl`. -/
  | startControl
  /-- `addSession`. -/
  | register (r : Nat)
  /-- The New frame is written. -/
  | announce (r : Nat)
  /-- `OpenStream` gives up. -/
  | abandon (r : Nat)
  | send (r : Nat) (data : Str)
  /-- `Close` writes the End frame. -/
  | close (r : Nat)
  /-- `finish` is called, by `Close` or by `closeAll`. -/
  | stop (r : Nat)
  /-- The next step of `finish`. -/
  | finish (r : Nat)
  /-- A `Read` of up to `n` bytes. -/
  | read (r : Nat) (n : Nat)
  /-- `ReadFrame` gives a frame. -/
  | recv (m : FrameMetadata) (data : Str)
  /-- The next step of the read loop. -/
  | loop
  /-- `closeAll` starts. -/
  | shutdown
  | linkDown

/-- The sub-stream that takes the step, where there is one. -/
def Event.substream : Event → Option Nat
  | .register r | .announce r | .abandon r | .send r _ | .close r | .stop r | .finish r
  | .read r _ => some r
  | _ => none

end Client

/-- A `ClientWorker`: the sub-streams are numbered as they get their ids, and the
table holds their numbers. `frames` is history: the frames that have come. -/
structure Client where
  nextID : UInt16 := 0
  budget : Budget := {}
  sessions : Table UInt16 := ∅
  obj : Nat → Substream := fun _ => {}
  born : Nat := 0
  done : Bool := false
  loop : Client.Loop := .idle
  link : Link := {}
  frames : List Frame := []

/-- The loop of `allocID`, for so many rounds. -/
def nextFree (used : Table UInt16) : Nat → UInt16 → Option UInt16
  | 0, _ => none
  | rounds + 1, nextID =>
    if nextID + 1 = 0 ∨ used.lookup (nextID + 1) ≠ none then nextFree used rounds (nextID + 1)
    else some (nextID + 1)

lemma nextFree_succ {used : Table UInt16} {nextID : UInt16} (h0 : nextID + 1 ≠ 0)
    (hfree : used.lookup (nextID + 1) = none) (rounds : Nat) :
    nextFree used (rounds + 1) nextID = some (nextID + 1) := by
  rw [nextFree, if_neg]
  rintro (h | h)
  · exact h0 h
  · exact h hfree

def ctlAddr : Address := { isDomain := true, domain := internalDomain }

/-- A `net.IP` has four or sixteen bytes. -/
def Address.Proper (a : Address) : Prop :=
  a.isDomain = true ∨ a.ip.length = 4 ∨ a.ip.length = 16

instance (a : Address) : Decidable a.Proper := inferInstanceAs (Decidable (_ ∨ _))

namespace Client

variable (s : Client)

def isActive : Bool := !s.done && !s.budget.draining

def getSession (id : UInt16) : Option Nat := s.sessions.lookup id

def removeSession (id : UInt16) : Client := { s with sessions := s.sessions.erase id }

def modify (r : Nat) (f : Substream → Substream) : Client :=
  { s with obj := Function.update s.obj r (f (s.obj r)) }

/-- `allocID`, for a new sub-stream. After as many rounds as there are ids its
loop has seen all of them: it never returns. -/
def allocID (x : Substream) : Client :=
  match nextFree s.sessions (2 ^ 16) s.nextID with
  | none => s
  | some id =>
    { s with
      nextID := id
      budget := s.budget.alloc
      obj := Function.update s.obj s.born { x with id }
      born := s.born + 1 }

/-- `addSession`. -/
def register (r : Nat) : Client :=
  if (s.obj r).stage = .allocated ∧ (s.obj r).opener ≠ .control then
    ({ s with sessions := s.sessions.insert (s.obj r).id r }).modify r fun x =>
      { x with stage := .registered, since := s.frames.length }
  else s

/-- The New frame is written. Where it fails, `OpenStream` and `StartControl` give
up; a packet connection keeps the sub-stream. -/
def announce (r : Nat) : Client :=
  if (s.obj r).ready then
    match s.link.write (.frame (s.obj r).opening []) with
    | some link => ({ s with link := link }).modify r fun x => { x with stage := .opened }
    | none =>
      s.modify r fun x => { x with stage := if x.opener = .packet then .opened else .failing }
  else s

/-- The end of an `OpenStream` that has failed. -/
def abandon (r : Nat) : Client :=
  if (s.obj r).stage = .failing ∧ (s.obj r).opener = .stream then
    (s.removeSession (s.obj r).id).modify r fun x =>
      { x with stage := .failed, inW := x.inW.close }
  else s

def send (r : Nat) (data : Str) : Client :=
  if (s.obj r).usable then { s with link := s.link.push ((s.obj r).upload data) } else s

/-- `Close`, up to its `finish`. -/
def close (r : Nat) : Client :=
  if (s.obj r).usable ∧ (s.obj r).opener ≠ .control ∧ (s.obj r).ended = false then
    ({ s with link := s.link.push (.stop (s.obj r).id false) }).modify r fun x =>
      { x with ended := true }
  else s

/-- `finish` is called: the first call starts it, the others wait for it. -/
def stop (r : Nat) : Client :=
  if (s.obj r).finish = .fresh ∧ (s.obj r).stage ≠ .allocated ∧ (s.obj r).opener ≠ .control then
    s.modify r fun x => { x with finish := .called }
  else s

/-- The next step of `finish`. -/
def finishStep (r : Nat) : Client :=
  match (s.obj r).finish with
  | .called => (s.removeSession (s.obj r).id).modify r fun x => { x with finish := .removed }
  | .removed =>
    s.modify r fun x =>
      { x with inW := if x.opener = .stream then x.inW.close else x.inW, finish := .done }
  | _ => s

/-- A `Read` that does not have to wait. -/
def read (r n : Nat) : Client :=
  if (s.obj r).stage = .opened ∧ (s.obj r).opener = .stream then
    match (s.obj r).inW.read n with
    | none => s
    | some (.error _, _) => s.modify r fun x => { x with eof := true }
    | some (.ok d, p) => s.modify r fun x => { x with inW := p, got := x.got ++ d }
  else s

/-! #### The read loop -/

/-- A Keep frame: the datagrams of a packet connection go to its own queue. -/
def recvKeep (m : FrameMetadata) (data : Str) : Client :=
  match s.getSession m.sessionID with
  | none => { s with loop := .replying m.sessionID }
  | some r =>
    if data.length > 0 ∧ (s.obj r).opener = .stream then { s with loop := .writing r data } else s

def recvEnd (m : FrameMetadata) : Client :=
  match s.getSession m.sessionID with
  | none => s
  | some r => { s.modify r Substream.hear with loop := .finishing r }

/-- A round of `Run`. No frame has more data than `ReadFrame` lets through. -/
def recv (m : FrameMetadata) (data : Str) : Client :=
  if s.loop ≠ .idle ∨ data.length > streamChunkSize then s
  else
    let s := { s with frames := s.frames ++ [(m, data)] }
    if m.status = statusKeep then s.recvKeep m data
    else if m.status = statusEnd then s.recvEnd m
    else s

def loopStep : Client :=
  match s.loop with
  | .idle => s
  | .replying id => { s with link := s.link.push (.stop id false), loop := .idle }
  | .writing r rest =>
    let (p, rest) := (s.obj r).inW.write rest
    { s.modify r fun x => { x with inW := p } with
      loop := if rest = [] then .idle else .writing r rest }
  | .finishing r => if (s.obj r).finish = .done then { s with loop := .idle } else s

/-- What an event does. An event that cannot happen changes nothing. -/
def act : Event → Client
  | .openStream network address port =>
    if address.Proper then s.allocID { network, address, port } else s
  | .writeTo address port =>
    if address.Proper then s.allocID { opener := .packet, network := networkUDP, address, port }
    else s
  | .startControl =>
    s.allocID { opener := .control, network := networkUDP, address := ctlAddr, port := 0 }
  | .register r => s.register r
  | .announce r => s.announce r
  | .abandon r => s.abandon r
  | .send r data => s.send r data
  | .close r => s.close r
  | .stop r => s.stop r
  | .finish r => s.finishStep r
  | .read r n => s.read r n
  | .recv m data => s.recv m data
  | .loop => s.loopStep
  | .shutdown => { s with done := true }
  | .linkDown => { s with link := { s.link with down := true } }

/-- One atomic step: only the sub-streams that there are take any. -/
def step (s : Client) (e : Event) : Client :=
  if ∀ r ∈ e.substream, r < s.born then s.act e else s

/-! ### Single changes -/

section
variable {s} {r q : Nat} {f : Substream → Substream}

@[simp]
lemma obj_modify_self : (s.modify r f).obj r = f (s.obj r) := Function.update_self r _ s.obj

lemma obj_modify_of_ne (h : q ≠ r) : (s.modify r f).obj q = s.obj q :=
  Function.update_of_ne h _ s.obj

lemma modify_congr {g : Substream → Substream} (h : f (s.obj r) = g (s.obj r)) :
    s.modify r f = s.modify r g := by
  rw [modify, modify, h]

lemma obj_modify_ind {P : Nat → Substream → Substream → Prop} (hr : P r (s.obj r) (f (s.obj r)))
    (hq : ∀ q, P q (s.obj q) (s.obj q)) : P q (s.obj q) ((s.modify r f).obj q) := by
  by_cases h : q = r
  · rw [h, obj_modify_self]
    exact hr
  · rw [obj_modify_of_ne h]
    exact hq q

lemma stage_of_listed {x : Substream} (h : x.listed = true) : x.stage ≠ .allocated := by
  rintro hs
  simp [Substream.listed, hs] at h

end

end Client

namespace Substream

variable (x : Substream)

lemma opening_hear : x.hear.opening = x.opening := by
  rw [hear]
  split <;> rfl

lemma opener_hear : x.hear.opener = x.opener := by
  rw [hear]
  split <;> rfl

lemma since_hear : x.hear.since = x.since := by
  rw [hear]
  split <;> rfl

lemma stage_hear : x.hear.stage = x.stage := by
  rw [hear]
  split <;> rfl

end Substream

namespace Client

/-! ### Events of a sub-stream -/

/-- **What an event of a sub-stream does**, said once for all invariants: each case is
a branch of the source. -/
inductive Acts (s : Client) (r : Nat) : Event → Client → Prop where
  | rest {e : Event} : Acts s r e s
  | register (hs : (s.obj r).stage = .allocated) (hc : (s.obj r).opener ≠ .control) :
      Acts s r (.register r) (({ s with sessions := s.sessions.insert (s.obj r).id r }).modify r
        fun x => { x with stage := .registered, since := s.frames.length })
  | announce {link : Link} (hready : (s.obj r).ready = true)
      (hw : s.link.write (.frame (s.obj r).opening []) = some link) :
      Acts s r (.announce r)
        (({ s with link := link }).modify r fun x => { x with stage := .opened })
  | refused (hready : (s.obj r).ready = true) :
      Acts s r (.announce r) (s.modify r fun x =>
        { x with stage := if x.opener = .packet then .opened else .failing })
  | abandon (hs : (s.obj r).stage = .failing) (ho : (s.obj r).opener = .stream) :
      Acts s r (.abandon r) ((s.removeSession (s.obj r).id).modify r fun x =>
        { x with stage := .failed, inW := x.inW.close })
  | send (data : Str) (hu : (s.obj r).usable = true) :
      Acts s r (.send r data) { s with link := s.link.push ((s.obj r).upload data) }
  | close (hu : (s.obj r).usable = true) :
      Acts s r (.close r) (({ s with link := s.link.push (.stop (s.obj r).id false) }).modify r
        fun x => { x with ended := true })
  | stop (hf : (s.obj r).finish = .fresh) (hs : (s.obj r).stage ≠ .allocated) :
      Acts s r (.stop r) (s.modify r fun x => { x with finish := .called })
  | remove (hf : (s.obj r).finish = .called) :
      Acts s r (.finish r)
        ((s.removeSession (s.obj r).id).modify r fun x => { x with finish := .removed })
  | shut (hf : (s.obj r).finish = .removed) :
      Acts s r (.finish r) (s.modify r fun x =>
        { x with inW := if x.opener = .stream then x.inW.close else x.inW, finish := .done })
  | readEOF {n : Nat} {err : Error} {p : BufPipe} (hs : (s.obj r).stage = .opened)
      (hr : (s.obj r).inW.read n = some (.error err, p)) :
      Acts s r (.read r n) (s.modify r fun x => { x with eof := true })
  | read {n : Nat} {d : Str} {p : BufPipe} (hs : (s.obj r).stage = .opened)
      (hr : (s.obj r).inW.read n = some (.ok d, p)) :
      Acts s r (.read r n) (s.modify r fun x => { x with inW := p, got := x.got ++ d })

lemma acts_act {s : Client} {r : Nat} {e : Event} (he : e.substream = some r) :
    Acts s r e (s.act e) := by
  cases e <;> cases he
  case register =>
    rw [act, Client.register]
    split_ifs with h
    · exact .register h.1 h.2
    · exact .rest
  case announce =>
    rw [act, Client.announce]
    split_ifs with h
    · split
      case _ link hw => exact .announce h hw
      case _ => exact .refused h
    · exact .rest
  case abandon =>
    rw [act, Client.abandon]
    split_ifs with h
    · exact .abandon h.1 h.2
    · exact .rest
  case send data =>
    rw [act, Client.send]
    split_ifs with h
    · exact .send data h
    · exact .rest
  case close =>
    rw [act, Client.close]
    split_ifs with h
    · exact .close h.1
    · exact .rest
  case stop =>
    rw [act, Client.stop]
    split_ifs with h
    · exact .stop h.1 h.2.1
    · exact .rest
  case finish =>
    rw [act, finishStep]
    split
    case _ h => exact .remove h
    case _ h => exact .shut h
    case _ => exact .rest
  case read n =>
    rw [act, Client.read]
    split_ifs with h
    · split
      case _ => exact .rest
      case _ hr => exact .readEOF h.1 hr
      case _ hr => exact .read h.1 hr
    · exact .rest

lemma Acts.obj_of_ne {s s' : Client} {r q : Nat} {e : Event} (h : Acts s r e s') (hq : q ≠ r) :
    s'.obj q = s.obj q := by
  cases h with
  | rest | send => rfl
  | _ => exact obj_modify_of_ne hq

/-! ### What stays -/

/-- The worker has read these frames and may have done other things, none of
which changes the ids and targets of sub-streams or takes back a frame. -/
structure Grows (fs : List Frame) (s s' : Client) : Prop where
  born : s.born ≤ s'.born
  sent : s.link.sent <+: s'.link.sent
  frames : s'.frames = s.frames ++ fs
  opening : ∀ q < s.born, (s'.obj q).opening = (s.obj q).opening
  opener : ∀ q < s.born, (s'.obj q).opener = (s.obj q).opener
  since : ∀ q < s.born, (s'.obj q).since = (s.obj q).since ∨
    (s.obj q).stage = .allocated ∧ (s'.obj q).since = s.frames.length
  new : ∀ q, s.born ≤ q → q < s'.born → (s'.obj q).since = 0

section
variable {s s' : Client} {r : Nat} {f : Substream → Substream} {fs : List Frame}

lemma grows_of_obj (hb : s'.born = s.born) (ho : s'.obj = s.obj)
    (hs : s.link.sent <+: s'.link.sent) (hf : s'.frames = s.frames ++ fs) : Grows fs s s' where
  born := hb.ge
  sent := hs
  frames := hf
  opening q _ := by rw [ho]
  opener q _ := by rw [ho]
  since q _ := .inl (by rw [ho])
  new q hq hq' := absurd (hb ▸ hq') (Nat.not_lt.mpr hq)

lemma Grows.refl (s : Client) : Grows [] s s :=
  grows_of_obj rfl rfl prefix_rfl (append_nil _).symm

lemma Grows.other {s'' : Client} (h : Grows fs s s') (hb : s''.born = s'.born)
    (ho : s''.obj = s'.obj) (hs : s'.link.sent <+: s''.link.sent) (hf : s''.frames = s'.frames) :
    Grows fs s s'' where
  born := h.born.trans hb.ge
  sent := h.sent.trans hs
  frames := hf.trans h.frames
  opening q hq := by rw [ho]; exact h.opening q hq
  opener q hq := by rw [ho]; exact h.opener q hq
  since q hq := by rw [ho]; exact h.since q hq
  new q hq hq' := by rw [ho]; exact h.new q hq (hb ▸ hq')

lemma Grows.modify (h : Grows fs s s') (ho : (f (s'.obj r)).opening = (s'.obj r).opening)
    (ho' : (f (s'.obj r)).opener = (s'.obj r).opener)
    (hs : (f (s'.obj r)).since = (s'.obj r).since) : Grows fs s (s'.modify r f) where
  born := h.born
  sent := h.sent
  frames := h.frames
  opening q hq := (obj_modify_ind (P := fun _ x y => y.opening = x.opening) ho
    fun _ => rfl).trans (h.opening q hq)
  opener q hq := (obj_modify_ind (P := fun _ x y => y.opener = x.opener) ho'
    fun _ => rfl).trans (h.opener q hq)
  since q hq := by
    rw [obj_modify_ind (s := s') (q := q) (P := fun _ x y => y.since = x.since) hs fun _ => rfl]
    exact h.since q hq
  new q hq hq' := (obj_modify_ind (P := fun _ x y => y.since = x.since) hs
    fun _ => rfl).trans (h.new q hq hq')

lemma prefix_push (l : Link) (c : Call) : l.sent <+: (l.push c).sent := by
  rcases sent_push l c with h | h
  · rw [h]
  · rw [h]
    exact prefix_append _ _

lemma Acts.grows {e : Event} (h : Acts s r e s') : Grows [] s s' := by
  have hpush : ∀ c, Grows [] s { s with link := s.link.push c } := fun c =>
    (Grows.refl s).other rfl rfl (prefix_push _ _) rfl
  have hrem : Grows [] s (s.removeSession (s.obj r).id) :=
    (Grows.refl s).other rfl rfl prefix_rfl rfl
  cases h with
  | rest => exact .refl s
  | register hs =>
    exact
      { born := le_rfl
        sent := prefix_rfl
        frames := (append_nil _).symm
        opening := fun q _ => obj_modify_ind (s := { s with sessions := _ })
          (P := fun _ x y => y.opening = x.opening) rfl fun _ => rfl
        opener := fun q _ => obj_modify_ind (s := { s with sessions := _ })
          (P := fun _ x y => y.opener = x.opener) rfl fun _ => rfl
        since := fun q _ => obj_modify_ind (s := { s with sessions := _ })
          (P := fun _ x y => y.since = x.since ∨
            x.stage = .allocated ∧ y.since = s.frames.length) (.inr ⟨hs, rfl⟩) fun _ => .inl rfl
        new := fun q hq hq' => absurd hq' (Nat.not_lt.mpr hq) }
  | @announce link _ hw =>
    have hlink : Grows [] s { s with link := link } :=
      grows_of_obj rfl rfl (sent_write hw ▸ prefix_append _ _) (append_nil _).symm
    exact hlink.modify rfl rfl rfl
  | send => exact hpush _
  | close => exact (hpush _).modify rfl rfl rfl
  | abandon | remove => exact hrem.modify rfl rfl rfl
  | _ => exact (Grows.refl s).modify rfl rfl rfl

lemma grows_allocID (s : Client) (x : Substream) (hx : x.since = 0) : Grows [] s (s.allocID x) := by
  rw [allocID]
  split
  · exact .refl s
  case _ id _ =>
    have hold : ∀ q < s.born, Function.update s.obj s.born { x with id := id } q = s.obj q :=
      fun q hq => Function.update_of_ne hq.ne _ s.obj
    refine
      { born := Nat.le_succ _
        sent := prefix_rfl
        frames := (append_nil _).symm
        opening := fun q hq => congrArg Substream.opening (hold q hq)
        opener := fun q hq => congrArg Substream.opener (hold q hq)
        since := fun q hq => .inl (congrArg Substream.since (hold q hq))
        new := fun q hq hq' => ?_ }
    obtain rfl : q = s.born := by
      have : q < s.born + 1 := hq'
      omega
    exact (congrArg Substream.since (Function.update_self s.born _ s.obj)).trans hx

lemma grows_recv (s : Client) (m : FrameMetadata) (data : Str) :
    Grows [] s (s.recv m data) ∨ Grows [(m, data)] s (s.recv m data) := by
  have hcome : Grows [(m, data)] s { s with frames := s.frames ++ [(m, data)] } :=
    grows_of_obj rfl rfl prefix_rfl rfl
  rw [recv]
  split_ifs
  · exact .inl (.refl s)
  · refine .inr ?_
    rw [recvKeep]
    split
    · exact hcome.other rfl rfl prefix_rfl rfl
    · split_ifs
      · exact hcome.other rfl rfl prefix_rfl rfl
      · exact hcome
  · refine .inr ?_
    rw [recvEnd]
    split
    · exact hcome
    case _ r _ =>
      exact (hcome.modify (r := r) (Substream.opening_hear _) (Substream.opener_hear _)
        (Substream.since_hear _)).other rfl rfl
        prefix_rfl rfl
  · exact .inr hcome

lemma grows_loopStep (s : Client) : Grows [] s s.loopStep := by
  rw [loopStep]
  split
  · exact .refl s
  · exact (Grows.refl s).other rfl rfl (prefix_push _ _) rfl
  case _ r rest _ =>
    exact ((Grows.refl s).modify (f := fun x => { x with inW := ((s.obj r).inW.write rest).1 })
      rfl rfl rfl).other rfl rfl prefix_rfl rfl
  · split_ifs
    · exact (Grows.refl s).other rfl rfl prefix_rfl rfl
    · exact .refl s

lemma grows_act {e : Event} (hne : ∀ m data, e ≠ .recv m data) : Grows [] s (s.act e) := by
  cases he : e.substream with
  | some r => exact (acts_act he).grows
  | none =>
    cases e with
    | openStream n a p =>
      rw [act]
      split_ifs
      · exact grows_allocID s _ rfl
      · exact .refl s
    | writeTo a p =>
      rw [act]
      split_ifs
      · exact grows_allocID s _ rfl
      · exact .refl s
    | startControl => exact grows_allocID s _ rfl
    | recv m data => exact absurd rfl (hne m data)
    | loop => exact grows_loopStep s
    | shutdown => exact (Grows.refl s).other rfl rfl prefix_rfl rfl
    | linkDown => exact (Grows.refl s).other rfl rfl prefix_rfl rfl
    | _ => cases he

/-- **What a step does** to the frames and sub-streams: it may read one frame, in
a round of the read loop. -/
lemma grows_step (s : Client) (e : Event) :
    ∃ fs, Grows fs s (s.step e) ∧ (fs = [] ∨ ∃ m data, e = .recv m data ∧ fs = [(m, data)]) := by
  rw [step]
  split_ifs
  · by_cases hrecv : ∃ m data, e = .recv m data
    · obtain ⟨m, data, rfl⟩ := hrecv
      rcases grows_recv s m data with h | h
      · exact ⟨_, h, .inl rfl⟩
      · exact ⟨_, h, .inr ⟨m, data, rfl, rfl⟩⟩
    · exact ⟨_, grows_act fun m data he => hrecv ⟨m, data, he⟩, .inl rfl⟩
  · exact ⟨_, .refl s, .inl rfl⟩

end

/-! ### Closing and draining -/

/-- What becomes of the worker as a whole: whether it is closed, whether its link
has failed, and its budget. -/
def status (s : Client) : Bool × Bool × Budget := (s.done, s.link.down, s.budget)

section
variable {s : Client}

lemma down_write {l l' : Link} {c : Call} (h : l.write c = some l') : l'.down = l.down := by
  rw [Link.write] at h
  split_ifs at h
  obtain rfl := Option.some.inj h
  rfl

lemma down_push (l : Link) (c : Call) : (l.push c).down = l.down := by
  rw [Link.push]
  cases h : l.write c with
  | none => rfl
  | some l' => exact down_write h

lemma status_push (s : Client) (c : Call) : status { s with link := s.link.push c } = s.status := by
  rw [status, down_push, status]

lemma status_recv (s : Client) (m : FrameMetadata) (data : Str) :
    (s.recv m data).status = s.status := by
  rw [recv]
  split_ifs
  · rfl
  · rw [recvKeep]
    split
    · rfl
    · split_ifs <;> rfl
  · rw [recvEnd]
    split <;> rfl
  · rfl

lemma status_loopStep (s : Client) : s.loopStep.status = s.status := by
  rw [loopStep]
  split
  · rfl
  · exact status_push s _
  · rfl
  · split_ifs <;> rfl

lemma Acts.status_eq {s' : Client} {r : Nat} {e : Event} (h : Acts s r e s') :
    s'.status = s.status := by
  cases h with
  | announce _ hw => exact Prod.ext rfl (Prod.ext (down_write hw) rfl)
  | send | close => exact status_push s _
  | _ => rfl

lemma status_allocID (s : Client) (x : Substream) : (s.allocID x).status = s.status ∨
    (s.allocID x).status = (s.done, s.link.down, s.budget.alloc) := by
  rw [allocID]
  split
  · exact .inl rfl
  · exact .inr rfl

/-- **What a step does** to the worker as a whole. -/
lemma status_step (s : Client) (e : Event) : (s.step e).status = s.status ∨
    (s.step e).status = (s.done, s.link.down, s.budget.alloc) ∨
    e = .shutdown ∧ (s.step e).status = (true, s.link.down, s.budget) ∨
    e = .linkDown ∧ (s.step e).status = (s.done, true, s.budget) := by
  rw [step]
  split_ifs
  · cases he : e.substream with
    | some r => exact .inl (acts_act he).status_eq
    | none =>
      cases e with
      | openStream n a p =>
        rw [act]
        split_ifs
        · exact (status_allocID s _).imp_right .inl
        · exact .inl rfl
      | writeTo a p =>
        rw [act]
        split_ifs
        · exact (status_allocID s _).imp_right .inl
        · exact .inl rfl
      | startControl => exact (status_allocID s _).imp_right .inl
      | recv m data => exact .inl (status_recv s m data)
      | loop => exact .inl (status_loopStep s)
      | shutdown => exact .inr (.inr (.inl ⟨rfl, rfl⟩))
      | linkDown => exact .inr (.inr (.inr ⟨rfl, rfl⟩))
      | _ => cases he
  · exact .inl rfl

end

end Client

end Ntr.Mux
