/-
A packet connection of Mux.cool: a sub-stream for each target, in a map of its own
beside the session table of the worker.

* `PacketConn`, `PacketConn.step`: the connection, the calls of `WriteTo` and the
  worker, which goes on by itself between their steps;
* `Steady`, `steady_step`: a sub-stream stays in the session table unless it is
  finished or another one comes under its id;
* `recovers_of_undisturbed`: while no sub-stream in the map is ended and no New frame
  fails, each datagram goes to a sub-stream in the session table;
  `keep_after_end`: the map keeps a sub-stream that the server has ended.
-/
import Ntr.Mux.Ids

namespace Ntr.Mux

open Go Lib

/-! ### The connection -/

/-- Where a call of `WriteTo` is, and the sub-stream that it has found or opened. -/
inductive Point where
  | waiting
  /-- It has the id of a new sub-stream, and holds the lock of the map. -/
  | opening (r : Nat)
  /-- The New frame is next. -/
  | announcing (r : Nat)
  /-- The datagram is next. -/
  | sending (r : Nat)
  | sent
  | failed
  /-- The New frame could not be written. -/
  | unannounced (r : Nat)
  deriving DecidableEq

/-- A call of `WriteTo`: the text of the address, what `netAddrToMux` makes of it, and
the datagram. -/
structure Datagram where
  key : Str := []
  address : Address := {}
  port : UInt16 := 0
  data : Str := []
  point : Point := .waiting

/-- A `muxPacketConn` and its worker. The calls of `WriteTo` are numbered as they
come; `holder` is the one that holds `c.mu` while it opens a sub-stream, `mine` are
the sub-streams opened so far, and `closing` those that `Close` has taken. -/
structure PacketConn where
  worker : Client := {}
  sessions : Table Str := ∅
  calls : Nat → Datagram := fun _ => {}
  started : Nat := 0
  holder : Option Nat := none
  mine : List Nat := []
  closed : Bool := false
  closing : List Nat := []

namespace PacketConn

inductive Event where
  /-- `WriteTo` is called. -/
  | writeTo (key : Str) (address : Address) (port : UInt16) (data : Str)
  /-- `WriteTo` locks `c.mu` and looks for the target; a new one gets an id. -/
  | enter (c : Nat)
  /-- `addSession`, and the end of the lock section. -/
  | register (c : Nat)
  /-- The New frame is written. -/
  | announce (c : Nat)
  /-- The datagram is written. -/
  | send (c : Nat)
  /-- `Close` takes the map. -/
  | close
  /-- A step of the worker or of another user. -/
  | worker (e : Client.Event)

variable (s : PacketConn)

/-- A call of `WriteTo` comes to a point. -/
def goTo (c : Nat) (p : Point) : PacketConn :=
  { s with calls := Function.update s.calls c { s.calls c with point := p } }

def writeTo (key : Str) (address : Address) (port : UInt16) (data : Str) : PacketConn :=
  { s with
    calls := Function.update s.calls s.started { key, address, port, data }
    started := s.started + 1 }

def fresh (c : Nat) : Substream :=
  { opener := .packet, network := networkUDP, address := (s.calls c).address
    port := (s.calls c).port }

/-- The lock section, up to `allocID`. Where no id is free, it does not return. -/
def enter (c : Nat) : PacketConn :=
  if c < s.started ∧ (s.calls c).point = .waiting ∧ s.holder = none then
    match s.sessions.lookup (s.calls c).key with
    | some r => s.goTo c (.sending r)
    | none =>
      if (nextFree s.worker.sessions (2 ^ 16) s.worker.nextID).isSome then
        { s with
          worker := s.worker.allocID (s.fresh c)
          holder := some c
          mine := s.worker.born :: s.mine }.goTo c (.opening s.worker.born)
      else s
  else s

def register (c : Nat) : PacketConn :=
  match (s.calls c).point with
  | .opening r =>
    { s with
      worker := s.worker.register r
      sessions := s.sessions.insert (s.calls c).key r
      holder := none }.goTo c (.announcing r)
  | _ => s

def announce (c : Nat) : PacketConn :=
  match (s.calls c).point with
  | .announcing r =>
    { s with worker := s.worker.announce r }.goTo c <|
      if (s.worker.link.write (.frame (s.worker.obj r).opening [])).isSome then .sending r
      else .unannounced r
  | _ => s

def keep (c r : Nat) : FrameMetadata :=
  { sessionID := (s.worker.obj r).id, status := statusKeep, option := optionData
    network := networkUDP, address := (s.calls c).address, port := (s.calls c).port }

def send (c : Nat) : PacketConn :=
  match (s.calls c).point with
  | .sending r =>
    match s.worker.link.write (.frame (s.keep c r) (s.calls c).data) with
    | some link => { s with worker := { s.worker with link } }.goTo c .sent
    | none => s.goTo c .failed
  | _ => s

/-- `Close`, up to the first End frame. -/
def close : PacketConn :=
  if s.closed = false ∧ s.holder = none then
    { s with closed := true, sessions := ∅, closing := s.sessions.entries.map Sigma.snd }
  else s

/-- The step is not one that only the calls of `WriteTo` take. The End frames and
`finish` for its sub-streams come from `Close`, and `finish` from `closeAll` too. -/
def permits : Client.Event → Bool
  | .register r | .announce r | .abandon r | .send r _ => r ∉ s.mine
  | .close r => r ∉ s.mine ∨ r ∈ s.closing
  | .stop r => r ∉ s.mine ∨ r ∈ s.closing ∨ s.worker.done = true
  | _ => true

/-- One atomic step. An event that cannot happen changes nothing. -/
def step : Event → PacketConn
  | .writeTo key address port data => s.writeTo key address port data
  | .enter c => s.enter c
  | .register c => s.register c
  | .announce c => s.announce c
  | .send c => s.send c
  | .close => s.close
  | .worker e => if s.permits e then { s with worker := s.worker.step e } else s

end PacketConn

/-! ### Sub-streams in the session table -/

namespace Client

/-- A sub-stream of a packet connection that is in the session table and that nobody
has finished. -/
structure Steady (s : Client) (r : Nat) : Prop where
  lt : r < s.born
  opener : (s.obj r).opener = .packet
  stage : (s.obj r).stage = .registered ∨ (s.obj r).stage = .opened
  finish : (s.obj r).finish = .fresh
  entry : s.sessions.lookup (s.obj r).id = some r

/-- A sub-stream of a packet connection between `allocID` and `addSession`. -/
structure Nascent (s : Client) (r : Nat) : Prop where
  lt : r < s.born
  opener : (s.obj r).opener = .packet
  stage : (s.obj r).stage = .allocated

/-- The step does not end the sub-stream, and no other one comes or goes under its
id. -/
def Spares (s : Client) (r : Nat) : Event → Prop
  | .recv m _ => m.status = statusEnd → s.sessions.lookup m.sessionID ≠ some r
  | .stop q => q ≠ r
  | .register q | .abandon q | .finish q => q ≠ r → (s.obj q).id ≠ (s.obj r).id
  | _ => True

section
variable {s s' : Client} {r q : Nat} {f : Substream → Substream}

lemma Steady.of_obj (h : Steady s r) (hb : s.born ≤ s'.born) (ho : s'.obj r = s.obj r)
    (ht : s'.sessions.lookup (s.obj r).id = some r) : Steady s' r where
  lt := h.lt.trans_le hb
  opener := ho ▸ h.opener
  stage := ho ▸ h.stage
  finish := ho ▸ h.finish
  entry := by rw [ho]; exact ht

lemma Steady.modify (h : Steady s r)
    (hf : q = r → Steady (s.modify r f) r) : Steady (s.modify q f) r := by
  by_cases hq : q = r
  · rw [hq]
    exact hf hq
  · exact h.of_obj le_rfl (obj_modify_of_ne (Ne.symm hq)) h.entry

lemma Steady.modify_other (h : Steady s r) (hid : (f (s.obj r)).id = (s.obj r).id)
    (hop : (f (s.obj r)).opener = (s.obj r).opener)
    (hst : (f (s.obj r)).stage = (s.obj r).stage ∨ (f (s.obj r)).stage = .opened)
    (hfi : (f (s.obj r)).finish = (s.obj r).finish) : Steady (s.modify r f) r where
  lt := h.lt
  opener := by rw [obj_modify_self, hop]; exact h.opener
  stage := by
    rw [obj_modify_self]
    rcases hst with hst | hst
    · rw [hst]
      exact h.stage
    · exact .inr hst
  finish := by rw [obj_modify_self, hfi]; exact h.finish
  entry := by rw [obj_modify_self, hid]; exact h.entry

lemma Steady.remove (h : Steady s r) (hq : q ≠ r) (hid : (s.obj q).id ≠ (s.obj r).id) :
    Steady ((s.removeSession (s.obj q).id).modify q f) r := by
  refine h.of_obj le_rfl (obj_modify_of_ne hq.symm) ?_
  change (s.sessions.erase (s.obj q).id).lookup _ = _
  rw [AList.lookup_erase_ne hid.symm]
  exact h.entry

lemma Steady.acts {e : Event} (h : Steady s r) (he : s.Spares r e) (ha : Acts s q e s') :
    Steady s' r := by
  have hlink : ∀ link, Steady { s with link := link } r := fun _ => h.of_obj le_rfl rfl h.entry
  cases ha with
  | rest => exact h
  | register hs =>
    have hq : q ≠ r := by
      rintro rfl
      rcases h.stage with hst | hst <;> cases hst.symm.trans hs
    refine h.of_obj le_rfl (obj_modify_of_ne hq.symm) ?_
    change (s.sessions.insert (s.obj q).id q).lookup _ = _
    rw [AList.lookup_insert_ne (he hq).symm]
    exact h.entry
  | announce => exact (hlink _).modify fun _ => (hlink _).modify_other rfl rfl (.inr rfl) rfl
  | refused => exact h.modify fun _ => h.modify_other rfl rfl (.inr (if_pos h.opener)) rfl
  | abandon _ ho =>
    have hq : q ≠ r := by
      rintro rfl
      cases h.opener.symm.trans ho
    exact h.remove hq (he hq)
  | send => exact hlink _
  | close => exact (hlink _).modify fun _ => (hlink _).modify_other rfl rfl (.inl rfl) rfl
  | stop => exact h.modify fun hq => absurd hq he
  | remove hc =>
    have hq : q ≠ r := by
      rintro rfl
      cases h.finish.symm.trans hc
    exact h.remove hq (he hq)
  | shut hc =>
    refine h.modify fun hq => ?_
    subst hq
    cases h.finish.symm.trans hc
  | readEOF | read => exact h.modify fun _ => h.modify_other rfl rfl (.inl rfl) rfl

lemma Steady.recv (h : Steady s r) {m : FrameMetadata} {data : Str}
    (hm : m.status = statusEnd → s.sessions.lookup m.sessionID ≠ some r) :
    Steady (s.recv m data) r := by
  rw [Client.recv]
  split_ifs with hl hk he
  · exact h
  · rw [recvKeep]
    split
    · exact h.of_obj le_rfl rfl h.entry
    · split_ifs
      · exact h.of_obj le_rfl rfl h.entry
      · exact h.of_obj le_rfl rfl h.entry
  · rw [recvEnd]
    split
    · exact h.of_obj le_rfl rfl h.entry
    case _ q hq =>
      have hne : q ≠ r := fun hqr => hm he (hqr ▸ hq)
      exact h.of_obj le_rfl (obj_modify_of_ne hne.symm) h.entry
  · exact h.of_obj le_rfl rfl h.entry

lemma Steady.allocID (h : Steady s r) (x : Substream) : Steady (s.allocID x) r := by
  rw [Client.allocID]
  split
  · exact h
  · exact h.of_obj (Nat.le_succ _) (Function.update_of_ne h.lt.ne _ s.obj) h.entry

/-- **A steady sub-stream** stays so as long as the steps spare it. -/
lemma steady_step (h : Steady s r) {e : Event} (he : s.Spares r e) : Steady (s.step e) r := by
  rw [step]
  split_ifs
  · cases hq : e.substream with
    | some q => exact h.acts he (acts_act hq)
    | none =>
      cases e with
      | openStream n a p =>
        rw [act]
        split_ifs
        · exact h.allocID _
        · exact h
      | writeTo a p =>
        rw [act]
        split_ifs
        · exact h.allocID _
        · exact h
      | startControl => exact h.allocID _
      | recv m data => exact h.recv he
      | loop =>
        rw [act, loopStep]
        split
        · exact h
        · exact h.of_obj le_rfl rfl h.entry
        case _ q rest _ =>
          have hmod : Steady (s.modify q fun x =>
              { x with inW := ((s.obj q).inW.write rest).1 }) r :=
            h.modify fun _ => h.modify_other rfl rfl (.inl rfl) rfl
          exact hmod.of_obj le_rfl rfl hmod.entry
        · split_ifs
          · exact h.of_obj le_rfl rfl h.entry
          · exact h
      | shutdown => exact h.of_obj le_rfl rfl h.entry
      | linkDown => exact h.of_obj le_rfl rfl h.entry
      | _ => cases hq
  · exact h

lemma Nascent.allocID (h : Nascent s r) (x : Substream) :
    ((s.allocID x).obj r).stage = .allocated := by
  rw [Client.allocID]
  split
  · exact h.stage
  · exact (congrArg Substream.stage (Function.update_of_ne h.lt.ne _ s.obj)).trans h.stage

lemma Nascent.act (hk : Kept s) (h : Nascent s r) {e : Event} (he : e.substream = some r)
    (hreg : e ≠ .register r) : s.act e = s := by
  have hst := h.stage
  have hfi := hk.fresh r hst
  have hacts := acts_act (s := s) he
  generalize s.act e = s' at hacts ⊢
  cases hacts with
  | rest => rfl
  | register => exact absurd rfl hreg
  | announce hr | refused hr => simp [Substream.ready, hst, h.opener] at hr
  | send _ hu | close hu => simp [Substream.usable, hst] at hu
  | stop _ hs => exact absurd hst hs
  | remove hf | shut hf => cases hfi.symm.trans hf
  | abandon hs | readEOF hs | read hs => cases hst.symm.trans hs

lemma nascent_step (hk : Kept s) (h : Nascent s r) {e : Event} (hreg : e ≠ .register r) :
    Nascent (s.step e) r := by
  obtain ⟨fs, hgrow, -⟩ := grows_step s e
  refine ⟨h.lt.trans_le hgrow.born, (hgrow.opener r h.lt).trans h.opener, ?_⟩
  cases he : e.substream with
  | some q =>
    by_cases hq : q = r
    · rw [step]
      split_ifs
      · rw [h.act hk (hq ▸ he) hreg]
        exact h.stage
      · exact h.stage
    · rw [obj_step_of_ne he (Ne.symm hq)]
      exact h.stage
  | none =>
    rw [step, if_pos (by rw [he]; simp)]
    cases e <;> cases he
    · rw [Client.act]
      split_ifs
      · exact h.allocID _
      · exact h.stage
    · rw [Client.act]
      split_ifs
      · exact h.allocID _
      · exact h.stage
    · exact h.allocID _
    · rw [Client.act, Client.recv]
      split_ifs
      · exact h.stage
      · rw [recvKeep]
        split
        · exact h.stage
        · split_ifs <;> exact h.stage
      · rw [recvEnd]
        split
        · exact h.stage
        · refine (obj_modify_ind (s := { s with frames := _ }) (q := r)
            (P := fun _ x y => y.stage = x.stage) ?_ fun _ => rfl).trans h.stage
          exact Substream.stage_hear _
      · exact h.stage
    · rw [Client.act, loopStep]
      split
      · exact h.stage
      · exact h.stage
      case _ q rest _ =>
        exact (obj_modify_ind (r := q)
          (f := fun x => { x with inW := ((s.obj q).inW.write rest).1 })
          (P := fun _ x y => y.stage = x.stage) rfl fun _ => rfl).trans h.stage
      · split_ifs <;> exact h.stage
    · exact h.stage
    · exact h.stage

end

end Client

/-! ### The datagrams -/

namespace PacketConn

/-- The sub-stream is in the map, or a call of `WriteTo` has it. -/
def Held (s : PacketConn) (r : Nat) : Prop :=
  (∃ k, s.sessions.lookup k = some r) ∨
    ∃ c, (s.calls c).point = .announcing r ∨ (s.calls c).point = .sending r

/-- A New frame can be written, and the worker ends no sub-stream in the map or in a
call. -/
def Undisturbed (s : PacketConn) : Event → Prop
  | .announce c => ∀ r, (s.calls c).point = .announcing r →
      s.worker.link.write (.frame (s.worker.obj r).opening []) ≠ none
  | .worker e => ∀ r, s.Held r → s.worker.Spares r e
  | _ => True

/-- A `WriteTo` that opens no sub-stream has found one that is in the session table
and whose New frame has not failed; a datagram goes to one in the session table. -/
def Recovers (s : PacketConn) : Event → Prop
  | .enter c => ∀ r, (s.calls c).point = .waiting →
      s.sessions.lookup (s.calls c).key = some r →
        s.worker.sessions.lookup (s.worker.obj r).id = some r ∧
          ∀ d, (s.calls d).point ≠ .unannounced r
  | .send c => ∀ r, (s.calls c).point = .sending r →
      s.worker.sessions.lookup (s.worker.obj r).id = some r
  | _ => True

/-- What holds while nothing is disturbed. -/
structure Whole (s : PacketConn) : Prop where
  kept : s.worker.Kept
  steady : ∀ r, s.Held r → s.worker.Steady r
  opening : ∀ c r, (s.calls c).point = .opening r → s.holder = some c ∧ s.worker.Nascent r ∧
    r ∈ s.mine ∧ ∀ q, s.Held q → (s.worker.obj q).id ≠ (s.worker.obj r).id
  announced : ∀ c r, (s.calls c).point ≠ .unannounced r

section
variable {s : PacketConn} {c r : Nat}

lemma point_goTo (s : PacketConn) (c : Nat) (p : Point) (d : Nat) :
    ((s.goTo c p).calls d).point = if d = c then p else (s.calls d).point := by
  change (Function.update s.calls c _ d).point = _
  rw [Function.update_apply]
  split_ifs <;> rfl

/-- The map loses entries, and calls come to other points, with the same sub-streams
at most. -/
lemma Whole.shrink (h : Whole s) {s' : PacketConn} (hw : s'.worker = s.worker)
    (hm : s'.mine = s.mine) (hh : s'.holder = s.holder) (hheld : ∀ q, s'.Held q → s.Held q)
    (hopen : ∀ d q, (s'.calls d).point = .opening q → (s.calls d).point = .opening q)
    (hann : ∀ d q, (s'.calls d).point ≠ .unannounced q) : Whole s' where
  kept := hw ▸ h.kept
  steady q hq := hw ▸ h.steady q (hheld q hq)
  opening d q hd := by
    obtain ⟨hd', hn, hmine, hids⟩ := h.opening d q (hopen d q hd)
    rw [hh, hw, hm]
    exact ⟨hd', hn, hmine, fun p hp => hids p (hheld p hp)⟩
  announced := hann

/-- A call goes on with a sub-stream that is held, or comes to its end. -/
lemma Whole.goTo (h : Whole s) {p : Point} (hp : ∀ q, p ≠ .opening q ∧ p ≠ .unannounced q)
    (hheld : ∀ q, p = .announcing q ∨ p = .sending q → s.Held q) : Whole (s.goTo c p) := by
  refine h.shrink rfl rfl rfl ?_ ?_ ?_
  · rintro q (hmap | ⟨d, hd⟩)
    · exact .inl hmap
    · rw [point_goTo] at hd
      split_ifs at hd
      · exact hheld q hd
      · exact .inr ⟨d, hd⟩
  · intro d q hd
    rw [point_goTo] at hd
    split_ifs at hd
    · exact absurd hd (hp q).1
    · exact hd
  · intro d q hd
    rw [point_goTo] at hd
    split_ifs at hd
    · exact (hp q).2 hd
    · exact h.announced d q hd

/-- The worker takes a step that spares the sub-streams of the connection. -/
lemma Whole.worker (h : Whole s) {e : Client.Event} (he : ∀ q, s.Held q → s.worker.Spares q e)
    (hreg : ∀ d q, (s.calls d).point = .opening q → e ≠ .register q) :
    Whole { s with worker := s.worker.step e } := by
  obtain ⟨fs, hgrow, -⟩ := Client.grows_step s.worker e
  have hid : ∀ q < s.worker.born, ((s.worker.step e).obj q).id = (s.worker.obj q).id :=
    fun q hq => congrArg FrameMetadata.sessionID (hgrow.opening q hq)
  refine ⟨Client.kept_step h.kept e, fun q hq => Client.steady_step (h.steady q hq) (he q hq),
    fun d q hd => ?_, h.announced⟩
  obtain ⟨hholder, hn, hmine, hids⟩ := h.opening d q hd
  refine ⟨hholder, Client.nascent_step h.kept hn (hreg d q hd), hmine, fun p hp => ?_⟩
  change ((s.worker.step e).obj p).id ≠ ((s.worker.step e).obj q).id
  rw [hid p (h.steady p hp).lt, hid q hn.lt]
  exact hids p hp

lemma Whole.writeTo (h : Whole s) (key : Str) (address : Address) (port : UInt16) (data : Str) :
    Whole (s.writeTo key address port data) := by
  have hpt : ∀ d, ((s.writeTo key address port data).calls d).point =
      if d = s.started then .waiting else (s.calls d).point := by
    intro d
    change (Function.update s.calls s.started _ d).point = _
    rw [Function.update_apply]
    split_ifs <;> rfl
  refine h.shrink rfl rfl rfl ?_ ?_ ?_
  · rintro q (hmap | ⟨d, hd⟩)
    · exact .inl hmap
    · rw [hpt] at hd
      split_ifs at hd
      · rcases hd with hd | hd <;> cases hd
      · exact .inr ⟨d, hd⟩
  · intro d q hd
    rw [hpt] at hd
    split_ifs at hd
    exact hd
  · intro d q hd
    rw [hpt] at hd
    split_ifs at hd
    exact h.announced d q hd

/-- No call is between `allocID` and `addSession` while the lock is free. -/
lemma Whole.not_opening (h : Whole s) (hfree : s.holder = none) (d q : Nat) :
    (s.calls d).point ≠ .opening q := by
  intro hd
  rw [(h.opening d q hd).1] at hfree
  cases hfree

lemma Whole.alloc (h : Whole s) (hfree : s.holder = none) {id : UInt16}
    (hid : nextFree s.worker.sessions (2 ^ 16) s.worker.nextID = some id) :
    Whole ({ s with
      worker := s.worker.allocID (s.fresh c)
      holder := some c
      mine := s.worker.born :: s.mine }.goTo c (.opening s.worker.born)) := by
  have hborn : (s.worker.allocID (s.fresh c)).obj s.worker.born = { s.fresh c with id } := by
    rw [Client.allocID, hid]
    exact Function.update_self _ _ s.worker.obj
  have hlt : s.worker.born < (s.worker.allocID (s.fresh c)).born := by
    rw [Client.allocID, hid]
    exact Nat.lt_succ_self _
  have hold : ∀ q < s.worker.born, (s.worker.allocID (s.fresh c)).obj q = s.worker.obj q := by
    intro q hq
    rw [Client.allocID, hid]
    exact Function.update_of_ne hq.ne _ s.worker.obj
  have hheld : ∀ q, (PacketConn.goTo { s with
      worker := s.worker.allocID (s.fresh c)
      holder := some c
      mine := s.worker.born :: s.mine } c (.opening s.worker.born)).Held q → s.Held q := by
    rintro q (hmap | ⟨d, hd⟩)
    · exact .inl hmap
    · rw [point_goTo] at hd
      split_ifs at hd
      · rcases hd with hd | hd <;> cases hd
      · exact .inr ⟨d, hd⟩
  refine ⟨?_, fun q hq => (h.steady q (hheld q hq)).allocID _, fun d q hd => ?_, fun d q hd => ?_⟩
  · rcases Client.allocID_cases h.kept (x := s.fresh c) rfl rfl with ha | hq
    · exact h.kept.alloc ha
    · exact h.kept.quiet hq
  · rw [point_goTo] at hd
    split_ifs at hd with hdc
    · cases hd
      subst hdc
      refine ⟨rfl, ⟨hlt, congrArg Substream.opener hborn, congrArg Substream.stage hborn⟩,
        .head _, fun p hp => ?_⟩
      have hsteady := h.steady p (hheld p hp)
      change ((s.worker.allocID _).obj p).id ≠ ((s.worker.allocID _).obj s.worker.born).id
      rw [hborn, hold p hsteady.lt]
      -- the table holds the one id, and not the other
      intro heq
      have hnone := (Client.nextFree_unused hid).2
      rw [← show (s.worker.obj p).id = id from heq, hsteady.entry] at hnone
      cases hnone
    · exact absurd hd (h.not_opening hfree d q)
  · rw [point_goTo] at hd
    split_ifs at hd
    exact h.announced d q hd

lemma Whole.enter (h : Whole s) (c : Nat) : Whole (s.enter c) := by
  rw [PacketConn.enter]
  by_cases hc : c < s.started ∧ (s.calls c).point = .waiting ∧ s.holder = none
  · rw [if_pos hc]
    split
    case _ r hr =>
      refine h.goTo (fun q => ⟨by simp, by simp⟩) fun q hq => ?_
      rcases hq with hq | hq
      · cases hq
      · cases hq
        exact .inl ⟨_, hr⟩
    case _ =>
      split_ifs with hid
      · obtain ⟨id, hid⟩ := Option.isSome_iff_exists.mp hid
        exact h.alloc hc.2.2 hid
      · exact h
  · rw [if_neg hc]
    exact h

lemma Whole.register (h : Whole s) (c : Nat) : Whole (s.register c) := by
  rw [PacketConn.register]
  split
  case _ r hr =>
    obtain ⟨hholder, hn, -, hids⟩ := h.opening c r hr
    have hacts : Client.Acts s.worker r (.register r) (s.worker.register r) := Client.acts_act rfl
    have hreg : s.worker.register r = ({ s.worker with
        sessions := s.worker.sessions.insert (s.worker.obj r).id r }).modify r fun x =>
          { x with stage := .registered, since := s.worker.frames.length } := by
      rw [Client.register, if_pos ⟨hn.stage, by rw [hn.opener]; simp⟩]
    have hnew : (s.worker.register r).Steady r := by
      rw [hreg]
      refine ⟨hn.lt, ?_, ?_, ?_, ?_⟩
      · rw [Client.obj_modify_self]
        exact hn.opener
      · rw [Client.obj_modify_self]
        exact .inl rfl
      · rw [Client.obj_modify_self]
        exact h.kept.fresh r hn.stage
      · rw [Client.obj_modify_self]
        exact AList.lookup_insert _
    have hheld : ∀ q, (PacketConn.goTo { s with
        worker := s.worker.register r
        sessions := s.sessions.insert (s.calls c).key r
        holder := none } c (.announcing r)).Held q → s.Held q ∨ q = r := by
      rintro q (⟨k, hk⟩ | ⟨d, hd⟩)
      · change (s.sessions.insert (s.calls c).key r).lookup k = some q at hk
        by_cases hkey : k = (s.calls c).key
        · rw [hkey, AList.lookup_insert, Option.some.injEq] at hk
          exact .inr hk.symm
        · rw [AList.lookup_insert_ne hkey] at hk
          exact .inl (.inl ⟨k, hk⟩)
      · rw [point_goTo] at hd
        split_ifs at hd
        · rcases hd with hd | hd
          · cases hd
            exact .inr rfl
          · cases hd
        · exact .inl (.inr ⟨d, hd⟩)
    refine ⟨h.kept.quiet (hacts.quiet h.kept hn.lt), fun q hq => ?_, fun d q hd => ?_,
      fun d q hd => ?_⟩
    · rcases hheld q hq with hq | rfl
      · exact (h.steady q hq).acts (e := .register r) (fun _ => (hids q hq).symm) hacts
      · exact hnew
    · rw [point_goTo] at hd
      split_ifs at hd with hdc
      have hd' := (h.opening d q hd).1
      rw [hholder, Option.some.injEq] at hd'
      exact absurd hd'.symm hdc
    · rw [point_goTo] at hd
      split_ifs at hd
      exact h.announced d q hd
  case _ => exact h

lemma Whole.announce (h : Whole s) (he : Undisturbed s (.announce c)) : Whole (s.announce c) := by
  rw [PacketConn.announce]
  split
  case _ r hr =>
    have hheld : s.Held r := .inr ⟨c, .inl hr⟩
    have heq : s.worker.announce r = s.worker.step (.announce r) := by
      rw [Client.step, if_pos (by rintro q ⟨⟩; exact (h.steady r hheld).lt)]
      rfl
    have hok := Option.isSome_iff_ne_none.mpr (he r hr)
    rw [if_pos hok, heq]
    refine (h.worker (e := .announce r) (fun _ _ => trivial) fun _ _ _ => by simp).goTo
      (fun q => ⟨by simp, by simp⟩) ?_
    rintro q (hq | hq)
    · cases hq
    · cases hq
      exact hheld
  case _ => exact h

lemma Whole.send (h : Whole s) (c : Nat) : Whole (s.send c) := by
  rw [PacketConn.send]
  split
  case _ r hr =>
    split
    case _ link _ =>
      have hlink : Whole { s with worker := { s.worker with link } } :=
        ⟨h.kept.quiet (Client.quiet_of_eq h.kept rfl rfl rfl rfl),
          fun q hq => (h.steady q hq).of_obj le_rfl rfl (h.steady q hq).entry,
          fun d q hd => by
            obtain ⟨hholder, hn, hrest⟩ := h.opening d q hd
            exact ⟨hholder, ⟨hn.lt, hn.opener, hn.stage⟩, hrest⟩,
          h.announced⟩
      exact hlink.goTo (fun q => ⟨by simp, by simp⟩) fun q hq => by simp at hq
    case _ => exact h.goTo (fun q => ⟨by simp, by simp⟩) fun q hq => by simp at hq
  case _ => exact h

lemma Whole.close (h : Whole s) : Whole s.close := by
  rw [PacketConn.close]
  split_ifs
  · refine h.shrink rfl rfl rfl ?_ (fun _ _ hd => hd) h.announced
    rintro q (⟨k, hk⟩ | hcall)
    · cases hk
    · exact .inr hcall
  · exact h

lemma whole_step (h : Whole s) {e : Event} (he : Undisturbed s e) : Whole (s.step e) := by
  cases e with
  | writeTo key address port data => exact h.writeTo key address port data
  | enter c => exact h.enter c
  | register c => exact h.register c
  | announce c => exact h.announce he
  | send c => exact h.send c
  | close => exact h.close
  | worker e =>
    rw [step]
    split_ifs with hp
    · refine h.worker he fun d q hd => ?_
      rintro rfl
      simp [permits, (h.opening d q hd).2.2.1] at hp
    · exact h

lemma whole_init : Whole {} where
  kept := Client.kept_init
  steady r hr := by
    rcases hr with ⟨k, hk⟩ | ⟨c, hc | hc⟩
    · cases hk
    · cases hc
    · cases hc
  opening c r hc := by cases hc
  announced c r hc := by cases hc

lemma Whole.recovers (h : Whole s) (e : Event) : Recovers s e := by
  cases e with
  | enter c => exact fun r _ hr => ⟨(h.steady r (.inl ⟨_, hr⟩)).entry, fun d => h.announced d r⟩
  | send c => exact fun r hr => (h.steady r (.inr ⟨c, .inr hr⟩)).entry
  | writeTo _ _ _ _ => trivial
  | register _ => trivial
  | announce _ => trivial
  | close => trivial
  | worker _ => trivial

end

/-- **The map and the session table agree** in every run in which all New frames can
be written and the worker ends no sub-stream in the map or in a call. -/
theorem recovers_of_undisturbed (es : List Event) (h : EachStep step Undisturbed {} es) :
    EachStep step Recovers {} es :=
  h.imp (I := Whole) (fun _ _ hs he => whole_step hs he) (fun _ e hs _ => hs.recovers e) whole_init

def twoDatagrams (between : List Client.Event) : List Event :=
  [.writeTo (lit "a:53") Client.someTarget 53 [1], .enter 0, .register 0, .announce 0, .send 0] ++
    between.map .worker ++ [.writeTo (lit "a:53") Client.someTarget 53 [2], .enter 1, .send 1]

/-- The second datagram goes to the sub-stream of the first. -/
theorem recovers_twoDatagrams : EachStep step Recovers {} (twoDatagrams []) := by
  refine recovers_of_undisturbed (twoDatagrams []) ⟨trivial, trivial, trivial, fun r hr => ?_,
    trivial, trivial, trivial, trivial, trivial⟩
  have hr : Point.announcing 0 = .announcing r := hr
  cases hr
  decide

def endOfTarget : List Client.Event :=
  [.recv { sessionID := 1, status := statusEnd } [], .finish 0, .finish 0, .loop]

/-- The link fails before the New frame of the target; `WriteTo` is called again. -/
def failedNew : List Event :=
  [.writeTo (lit "a:53") Client.someTarget 53 [1], .enter 0, .register 0, .worker .linkDown,
    .announce 0, .writeTo (lit "a:53") Client.someTarget 53 [2], .enter 1]

/-- **The map keeps a sub-stream that the server has ended**: the next datagram to its
target is sent to it, under an id that is not in the session table. It keeps one whose
New frame could not be written as well. -/
theorem keep_after_end : ¬ EachStep step Recovers {} (twoDatagrams endOfTarget) ∧
    ((twoDatagrams endOfTarget).foldl step {}).worker.link.sent.getLast?.map Prod.fst =
        some { sessionID := 1, status := statusKeep, option := optionData, network := networkUDP
               address := Client.someTarget, port := 53 } ∧
      ((twoDatagrams endOfTarget).foldl step {}).worker.sessions.lookup 1 = none ∧
        ¬ EachStep step Recovers {} failedNew := by
  refine ⟨fun h => ?_, by decide, by decide, fun h => ?_⟩
  · have hsent := h.2.2.2.2.2.2.2.2.2.2.2.1 0 rfl
    exact absurd hsent (by decide)
  · have hfound := h.2.2.2.2.2.2.1 0 rfl rfl
    exact hfound.2 0 rfl

end PacketConn

end Ntr.Mux
