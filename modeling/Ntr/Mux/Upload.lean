/-
Uploads on the server of Mux.cool: whether the data of a TCP sub-stream reaches
its target before the connection is closed.

* `delivered_of_orderly`: in orderly runs all data is delivered.
-/
import Ntr.Mux.Server

namespace Ntr.Mux

open Go Lib Session Server

def Session.IsTCP (x : Session) : Prop := x.control = false ∧ x.udp = false

instance (x : Session) : Decidable x.IsTCP := inferInstanceAs (Decidable (_ ∧ _))

def Copier.hand : Copier → Str
  | .holding d => d
  | _ => []

/-- What the read loop has yet to write to the pipe of a session. -/
def Loop.rest (r : Nat) : Loop → Str
  | .writing q rest => if q = r then rest else []
  | _ => []

namespace Server

/-- **Uploads are delivered**: where the End of a TCP sub-stream has come, its
dial has succeeded and its connection is closed, the target has received the
data of all its frames before the End. -/
def Delivered (s : Server) : Prop :=
  ∀ r < s.born, (s.obj r).IsTCP → (s.obj r).peerEnded = true → (s.obj r).target.dialed = true →
    (s.obj r).target.closed = true → (s.obj r).target.received.flatten = (s.obj r).uploaded

/-- The sub-stream is connected, and its target has all the data that has come
for it. -/
def Idle (x : Session) : Prop := x.conn = true ∧ x.inW.buf = [] ∧ x.copier = .idle

instance (x : Session) : Decidable (Idle x) := inferInstanceAs (Decidable (_ ∧ _))

/-- An End comes to TCP sub-streams only when they are connected and drained; the
target of a TCP sub-stream does not close its side, the worker is not closed and
the link does not fail before the End; and the control sub-stream comes under an
unused id. -/
def Orderly (s : Server) : Event → Prop
  | .recv m data => s.FreshControl (.recv m data) ∧ (s.loop = .idle → m.status = statusEnd →
      ∀ r, s.getSession m.sessionID = some r → (s.obj r).IsTCP → Idle (s.obj r))
  | .landEOF r | .stop r => (s.obj r).IsTCP → (s.obj r).peerEnded = true
  | .land r => s.link.down = true → (s.obj r).IsTCP → (s.obj r).peerEnded = true
  | _ => True

/-! ### Steps of one session -/

/-- Only the session `r` and the link have changed, or the table. -/
structure Local (r : Nat) (s s' : Server) : Prop where
  obj : ∀ q, q ≠ r → s'.obj q = s.obj q
  loop : s'.loop = s.loop
  last : s'.last = s.last
  born : s'.born = s.born

section
variable {s : Server} {r : Nat}

lemma local_act {e : Event} (he : e.session = some r) : Local r s (s.act e) := by
  have hacts := acts_act (s := s) he
  generalize s.act e = s' at hacts ⊢
  cases hacts with
  | rest => exact ⟨fun _ _ => rfl, rfl, rfl, rfl⟩
  | _ => exact ⟨fun _ hq => obj_modify_of_ne hq, rfl, rfl, rfl⟩

end

/-! ### The states of a sub-stream -/

structure Failed (x : Session) : Prop where
  dialed : x.target.dialed = false
  landing : x.landing ≠ .dialing

/-- The sub-stream is up: its data is at the target, with the copier, in the pipe
or with the read loop, in this order. -/
structure Running (l : Loop) (r : Nat) (x : Session) : Prop where
  peerEnded : x.peerEnded = false
  finish : x.finish = .fresh
  pipe : x.inW.closed = false
  target : x.target.closed = false
  flushing : ∀ ds, x.landing ≠ .flushing ds
  dialing : x.landing = .dialing → x.conn = false ∧ x.target.dialed = false ∧ x.copier = .none
  data : x.uploaded = x.target.received.flatten ++ x.copier.hand ++ x.inW.buf ++ l.rest r

/-- The End of the sub-stream has come, and the target has its data. -/
structure Finished (l : Loop) (r : Nat) (x : Session) : Prop where
  peerEnded : x.peerEnded = true
  finish : x.finish ≠ .fresh
  loop : x.finish = .done ∨ l = .finishing r
  rest : l.rest r = []
  landing : x.landing ≠ .dialing
  flushing : ∀ ds, x.landing ≠ .flushing ds
  pipe : x.inW.buf = []
  copier : x.copier = .idle ∨ x.copier = .done
  data : x.uploaded = x.target.received.flatten

def Flow (l : Loop) (r : Nat) (x : Session) : Prop := Failed x ∨ Running l r x ∨ Finished l r x

section
variable {s : Server} {l : Loop} {r : Nat} {x : Session}

lemma Flow.landing {a : Landing} {n : Nat} {w : Str} (h : Flow l r x) (ha : a ≠ .dialing)
    (hf : ∀ ds, a ≠ .flushing ds) :
    Flow l r { x with landing := a, target := { x.target with taken := n, wrote := w } } := by
  rcases h with h | h | h
  · exact .inl ⟨h.dialed, ha⟩
  · exact .inr (.inl { h with flushing := hf, dialing := fun hd => absurd hd ha })
  · exact .inr (.inr { h with landing := ha, flushing := hf })

lemma Flow.begun (h : Flow l r x) (hp : x.peerEnded = true) (e : Bool) :
    Flow l r { x with finish := x.finish.begun e } := by
  rcases h with h | h | h
  · exact .inl ⟨h.dialed, h.landing⟩
  · exact absurd (h.peerEnded.symm.trans hp) (by decide)
  · rw [Finish.begun_of_ne h.finish]
    exact .inr (.inr h)

lemma Flow.running (h : Flow l r x) (hl : x.landing = .dialing) : Running l r x := by
  rcases h with h | h | h
  · exact absurd hl h.landing
  · exact h
  · exact absurd hl h.landing

lemma Flow.finishing {f : Finish} {p : BufPipe} {c : Bool} (h : Flow l r x)
    (hx : x.finish ≠ .fresh ∧ x.finish ≠ .done) (hf : f ≠ .fresh) (hp : p.buf = x.inW.buf) :
    Flow l r { x with finish := f, inW := p, target := { x.target with closed := c } } := by
  rcases h with h | h | h
  · exact .inl ⟨h.dialed, h.landing⟩
  · exact absurd h.finish hx.1
  · exact .inr (.inr { h with
      finish := hf
      loop := .inr (h.loop.resolve_left hx.2)
      pipe := hp.trans h.pipe })

/-- **Step lemma of a sub-stream**, for its own events. -/
lemma Flow.act {e : Event} (h : Flow s.loop r (s.obj r)) (htcp : (s.obj r).IsTCP)
    (ho : s.Orderly e) (he : e.session = some r) : Flow s.loop r ((s.act e).obj r) := by
  have hacts := acts_act (s := s) he
  generalize s.act e = s' at hacts ⊢
  cases hacts with
  | rest => exact h
  | stop =>
    rw [obj_modify_self]
    exact h.begun (ho htcp) false
  | giveUp he =>
    rw [obj_modify_self]
    rcases he with ⟨-, hl⟩ | ⟨rfl, -⟩ | ⟨rfl, data, -, hw⟩
    · -- The dial fails: no connection will be made.
      exact .inl ⟨((h.running hl).dialing hl).2.1, (by simp)⟩
    · exact (h.begun (ho htcp) true).landing (by decide) (by simp)
    · refine (h.begun (ho ?_ htcp) true).landing (by decide) (by simp)
      by_contra hdown
      simp [Link.write, reply, htcp.2, hdown, Call.Valid] at hw
  | drop hl hf => exact absurd (h.running hl).finish hf
  | upUDP _ hu => exact absurd hu (by rw [htcp.2]; decide)
  | upTCP hl =>
    have hrun := h.running hl
    rw [obj_modify_self]
    refine .inr (.inl { hrun with flushing := (by simp), dialing := (by simp), data := ?_ })
    rw [hrun.data, (hrun.dialing hl).2.2]
    rfl
  | wrote =>
    rw [obj_modify_self]
    rcases h with h | h | h
    · exact .inl ⟨h.dialed, h.landing⟩
    · exact .inr (.inl { h with })
    · exact .inr (.inr { h with })
  | flush hl =>
    rw [obj_modify_self]
    rcases h with h | h | h
    · exact .inl ⟨by rw [Target.write]; split <;> exact h.dialed, (by simp)⟩
    · exact absurd hl (h.flushing _)
    · exact absurd hl (h.flushing _)
  | hold =>
    rw [obj_modify_self]
    exact h.landing (by simp) (by simp)
  | flushed | relay | leave =>
    rw [obj_modify_self]
    exact h.landing (n := (s.obj r).target.taken) (w := (s.obj r).target.wrote) (by decide)
      (by simp)
  | copyEOF _ hr =>
    rw [obj_modify_self]
    rcases h with h | h | h
    · exact .inl ⟨h.dialed, h.landing⟩
    · exact absurd (h.pipe.symm.trans (BufPipe.read_eof hr).2.1) (by decide)
    · exact .inr (.inr { h with copier := .inr rfl })
  | copyRead hc hr =>
    obtain ⟨hne, hbuf, hclosed⟩ := BufPipe.read_conserves hr
    rw [obj_modify_self]
    rcases h with h | h | h
    · exact .inl ⟨h.dialed, h.landing⟩
    · refine .inr (.inl { h with
        pipe := hclosed.trans h.pipe
        dialing := fun hd => absurd (hc.symm.trans (h.dialing hd).2.2) (by simp)
        data := ?_ })
      rw [h.data, hc, hbuf]
      simp [Copier.hand]
    · exact absurd h.pipe hne
  | copyFail hc ht =>
    rw [obj_modify_self]
    rcases h with h | h | h
    · exact .inl ⟨h.dialed, h.landing⟩
    · exact absurd (h.target.symm.trans ht) (by decide)
    · exact .inr (.inr { h with copier := .inr rfl })
  | copyWrite hc =>
    rw [obj_modify_self]
    rcases h with h | h | h
    · exact .inl ⟨by rw [Target.write]; split <;> exact h.dialed, h.landing⟩
    · rw [Target.write, if_neg (by rw [h.target]; decide)]
      refine .inr (.inl { h with
        dialing := fun hd => absurd (hc.symm.trans (h.dialing hd).2.2) (by simp)
        data := ?_ })
      rw [h.data, hc]
      simp [Copier.hand]
    · rcases h.copier with hi | hi <;> exact absurd (hc.symm.trans hi) (by simp)
  | remove hf | sendEnd hf | close hf =>
    rw [obj_modify_self]
    exact h.finishing (p := (s.obj r).inW) (by rw [hf]; exact ⟨by simp, by simp⟩) (by simp) rfl
  | pipe hf =>
    rw [obj_modify_self]
    refine h.finishing (by rw [hf]; exact ⟨by simp, by simp⟩) (by simp) ?_
    split_ifs <;> rfl

lemma Flow.reloop {l' : Loop} (h : Flow l r x) (hrest : l'.rest r = l.rest r)
    (hl : l = .finishing r → l' = .finishing r ∨ x.finish = .done) : Flow l' r x := by
  rcases h with h | h | h
  · exact .inl h
  · exact .inr (.inl { h with data := by rw [h.data, hrest] })
  · refine .inr (.inr { h with loop := ?_, rest := hrest.trans h.rest })
    rcases h.loop with hd | hf
    · exact .inl hd
    · exact (hl hf).symm

end

/-! ### All sub-streams -/

/-- The invariant of orderly runs: what the table and the history say of a
session agrees, and every TCP sub-stream is in one of its states. -/
structure Sound (s : Server) : Prop where
  tracked : s.Tracked
  latest : ∀ id r, s.getSession id = some r → s.last id = some r
  lastId : ∀ id r, s.last id = some r → r < s.born ∧ (s.obj r).id = id
  sending : ∀ r d, s.loop = .sending r d → (s.obj r).udp = true
  flow : ∀ r < s.born, (s.obj r).IsTCP → Flow s.loop r (s.obj r)

section
variable {s s' : Server} {e : Event} {r : Nat} {x : Session}

lemma isTCP_iff_kind {x y : Session} (h : y.kind = x.kind) : y.IsTCP ↔ x.IsTCP := by
  obtain ⟨-, hc, hu⟩ := kind_inj.mp h
  rw [Session.IsTCP, Session.IsTCP, hc, hu]

lemma sound_init : Sound {} where
  tracked := tracked_init
  latest := nofun
  lastId := nofun
  sending := nofun
  flow := nofun

lemma Orderly.freshControl (h : s.Orderly e) : s.FreshControl e := by
  cases e with
  | recv m data => exact h.1
  | _ => trivial

variable {id : UInt16} {q : Nat} {data : Str} {m : FrameMetadata}

/-- A session that is not removed is the last one of its id and in the table. -/
lemma Sound.getSession_eq (h : Sound s) (hl : s.last id = some r)
    (hr : (s.obj r).finish.listed = true) : s.getSession id = some r := by
  obtain ⟨hb, hid⟩ := h.lastId id r hl
  exact (h.tracked id r).mpr ⟨hb, hid, hr⟩

/-- A sub-stream that the table lists has not been ended by its peer, when the
read loop is idle. -/
lemma Sound.running (h : Sound s) (hidle : s.loop = .idle)
    (hg : s.getSession id = some r) (ht : (s.obj r).IsTCP) :
    Failed (s.obj r) ∨ Running .idle r (s.obj r) := by
  obtain ⟨hb, -, hlisted⟩ := (h.tracked id r).mp hg
  have hflow := h.flow r hb ht
  rw [hidle] at hflow
  rcases hflow with hf | hf | hf
  · exact .inl hf
  · exact .inr hf
  · rw [hf.loop.resolve_right (by simp)] at hlisted
    cases hlisted

/-- The history of a sub-stream that is not in the table does not change any
more. -/
lemma Sound.unlisted (h : Sound s) (hidle : s.loop = .idle)
    (hl : s.last id = some r) (hg : s.getSession id = none) (ht : (s.obj r).IsTCP) :
    Failed (s.obj r) ∨ Finished .idle r (s.obj r) := by
  have hflow := h.flow r (h.lastId id r hl).1 ht
  rw [hidle] at hflow
  rcases hflow with hf | hf | hf
  · exact .inl hf
  · have hsome := h.getSession_eq hl (by rw [hf.finish]; rfl)
    rw [hg] at hsome
    cases hsome
  · exact .inr hf

lemma Sound.act (h : Sound s) (ho : s.Orderly e) (he : e.session = some r) (hr : r < s.born) :
    Sound (s.act e) := by
  have hstep : s.step e = s.act e := if_pos fun q hq => by
    rw [he] at hq
    exact Option.mem_some.mp hq ▸ hr
  have hloc : Local r s (s.act e) := local_act he
  have htracked : (s.act e).Tracked := hstep ▸ tracked_step h.tracked ho.freshControl
  have htable := step_table ho.freshControl
  rw [hstep] at htable
  have hkind : ∀ q, ((s.act e).obj q).kind = (s.obj q).kind := by
    intro q
    rcases htable with hs | ⟨_, _, rfl, -⟩ | ⟨r', b, -, -, -, hs⟩
    · exact hs.kind q
    · cases he
    · rw [hs]
      exact kind_finishStep s r' q
  have hsub : ∀ id q, (s.act e).getSession id = some q → s.getSession id = some q := by
    intro id q hq
    rcases htable with hs | ⟨_, _, rfl, -⟩ | ⟨r', b, -, hr', hb, hs⟩
    · rwa [hs.getSession_eq] at hq
    · cases he
    · rw [hs] at hq
      exact ((h.tracked.lookup_finishStep hr' hb id q).mp hq).1
  refine ⟨htracked, fun id q hq => ?_, fun id q hq => ?_, fun q d hq => ?_, fun q hq ht => ?_⟩
  · rw [hloc.last]
    exact h.latest id q (hsub id q hq)
  · rw [hloc.last] at hq
    rw [hloc.born, (kind_inj.mp (hkind q)).1]
    exact h.lastId id q hq
  · rw [hloc.loop] at hq
    rw [(kind_inj.mp (hkind q)).2.2]
    exact h.sending q d hq
  · rw [hloc.born] at hq
    rw [isTCP_iff_kind (hkind q)] at ht
    rw [hloc.loop]
    by_cases hqr : q = r
    · subst hqr
      exact (h.flow q hq ht).act ht ho he
    · rw [hloc.obj q hqr]
      exact h.flow q hq ht

lemma Sound.modify {f : Session → Session} {l : Loop} (h : Sound s)
    (hk : (f (s.obj q)).kind = (s.obj q).kind)
    (hlisted : (f (s.obj q)).finish.listed = (s.obj q).finish.listed)
    (hsend : ∀ r d, l = .sending r d → (s.obj r).udp = true)
    (hq : q < s.born → (s.obj q).IsTCP → Flow l q (f (s.obj q)))
    (hother : ∀ r, r ≠ q → Flow s.loop r (s.obj r) → Flow l r (s.obj r)) :
    Sound { s.modify q f with loop := l } := by
  have hsame : SameTable s { s.modify q f with loop := l } :=
    (sameTable_modify hk hlisted).other rfl rfl rfl
  refine ⟨h.tracked.same hsame, h.latest, fun id r hr => ?_, fun r d hr => ?_, fun r hr ht => ?_⟩
  · rw [(kind_inj.mp (hsame.kind r)).1]
    exact h.lastId id r hr
  · rw [(kind_inj.mp (hsame.kind r)).2.2]
    exact hsend r d hr
  · rw [isTCP_iff_kind (hsame.kind r)] at ht
    by_cases hrq : r = q
    · subst hrq
      have hobj : ({ s.modify r f with loop := l } : Server).obj r = f (s.obj r) := obj_modify_self
      rw [hobj]
      exact hq hr ht
    · have hobj : ({ s.modify q f with loop := l } : Server).obj r = s.obj r :=
        obj_modify_of_ne hrq
      rw [hobj]
      exact hother r hrq (h.flow r hr ht)

lemma Sound.reloop {l : Loop} (h : Sound s) (hidle : s.loop = .idle)
    (hsend : ∀ r d, l = .sending r d → (s.obj r).udp = true) (hrest : ∀ r, l.rest r = []) :
    Sound { s with loop := l } := by
  refine ⟨h.tracked, h.latest, h.lastId, hsend, fun r hr ht => ?_⟩
  have hflow := h.flow r hr ht
  rw [hidle] at hflow
  exact hflow.reloop (hrest r) (by simp)

lemma Sound.addSession (h : Sound s) (hid : s.getSession x.id = none) (hx : x.finish = .fresh)
    (hf : x.IsTCP → Flow s.loop s.born x) (hl : ∀ q d, s.loop ≠ .sending q d) :
    Sound (s.addSession x) := by
  refine ⟨h.tracked.addSession hid hx, fun id r hr => ?_, fun id r hr => ?_,
    fun r d hr => absurd hr (hl r d), fun r hr ht => ?_⟩
  · by_cases hne : id = x.id
    · subst hne
      rw [getSession_addSession_self] at hr
      rw [last_addSession_self, hr]
    · rw [getSession_addSession_of_ne hne] at hr
      rw [last_addSession_of_ne hne]
      exact h.latest id r hr
  · by_cases hne : id = x.id
    · subst hne
      rw [last_addSession_self] at hr
      obtain rfl := Option.some.inj hr
      rw [obj_addSession_born]
      exact ⟨Nat.lt_succ_self _, rfl⟩
    · rw [last_addSession_of_ne hne] at hr
      obtain ⟨hlt, hid⟩ := h.lastId id r hr
      rw [obj_addSession_of_lt hlt]
      exact ⟨Nat.lt_succ_of_lt hlt, hid⟩
  · rcases Nat.lt_succ_iff_lt_or_eq.mp hr with hlt | rfl
    · rw [obj_addSession_of_lt hlt] at ht ⊢
      exact h.flow r hlt ht
    · rw [obj_addSession_born] at ht ⊢
      exact hf ht

lemma Sound.onControl (h : Sound s) (data : Str) : Sound (s.onControl data) := by
  rw [Server.onControl]
  split_ifs
  · exact ⟨h.tracked, h.latest, h.lastId, h.sending, h.flow⟩
  · exact h

lemma Sound.handleNew (h : Sound s) (hidle : s.loop = .idle) (hfit : data.length ≤ streamChunkSize)
    (hctl : isControl m → s.getSession m.sessionID = none) : Sound (s.handleNew m data) := by
  have hsend : ∀ q d, s.loop ≠ .sending q d := by
    intro q d hq
    cases hidle.symm.trans hq
  rw [Server.handleNew]
  split_ifs with hc hdup hfull hudp
  · exact (h.addSession (hctl hc) rfl (fun ht => Bool.noConfusion ht.1) hsend).onControl data
  · exact h.reloop hidle (by simp) fun _ => rfl
  · exact h.reloop hidle (by simp) fun _ => rfl
  · exact h.addSession (not_not.mp hdup) rfl (fun ht => Bool.noConfusion ht.2) hsend
  · refine h.addSession (not_not.mp hdup) rfl (fun _ => .inr (.inl ?_)) hsend
    have hbuf : (({} : BufPipe).write data).1.buf = data :=
      List.take_of_length_le (hfit.trans (by decide))
    exact {
      peerEnded := rfl
      finish := rfl
      pipe := BufPipe.write_closed _ _
      target := rfl
      flushing := by simp
      dialing := fun _ => ⟨rfl, rfl, rfl⟩
      data := by
        rw [hidle]
        simp only [hbuf]
        simp [Copier.hand, Loop.rest] }

lemma Sound.getSession_cases (h : Sound s) (id : UInt16) :
    s.getSession id = none ∨ ∃ q, s.last id = some q ∧ s.getSession id = some q := by
  cases hg : s.getSession id with
  | none => exact .inl rfl
  | some q => exact .inr ⟨q, h.latest id q hg, rfl⟩

lemma Flow.of_idle {l : Loop} (hidle : s.loop = .idle) (hrest : l.rest r = [])
    (h : Flow s.loop r x) : Flow l r x := by
  rw [hidle] at h
  exact h.reloop hrest (by simp)

lemma rest_writing_of_ne (h : r ≠ q) (data : Str) : (Loop.writing q data).rest r = [] :=
  if_neg h.symm

lemma Sound.record_unlisted (h : Sound s) (hidle : s.loop = .idle)
    (hg : s.getSession m.sessionID = none) : Sound (s.record m data) := by
  rw [record]
  split
  case _ => exact h
  case _ q hl =>
    split_ifs
    · refine h.modify (l := s.loop) (by simp) (by simp) h.sending (fun _ ht => ?_) fun r _ hf => hf
      rcases h.unlisted hidle hl hg ht with hf | hf
      · rw [upload]
        split
        · exact .inl hf
        · exact .inl ⟨hf.dialed, hf.landing⟩
      · rw [upload, if_pos hf.peerEnded, hidle]
        exact .inr (.inr hf)
    · refine h.modify (f := fun x => { x with peerEnded := true }) (l := s.loop) rfl rfl h.sending
        (fun _ ht => ?_) fun r _ hf => hf
      rcases h.unlisted hidle hl hg ht with hf | hf
      · exact .inl ⟨hf.dialed, hf.landing⟩
      · rw [hidle]
        exact .inr (.inr { hf with peerEnded := rfl })
    · exact h

lemma Sound.keep_listed (h : Sound s) (hidle : s.loop = .idle) (hg : s.getSession id = some q) :
    Sound { s.modify q (upload data) with loop := .writing q data } := by
  refine h.modify (by simp) (by simp) (by simp) (fun _ ht => ?_) fun r hr =>
    .of_idle hidle (rest_writing_of_ne hr data)
  rcases h.running hidle hg ht with hf | hf
  · rw [upload]
    split
    · exact .inl hf
    · exact .inl ⟨hf.dialed, hf.landing⟩
  · rw [upload, if_neg (by rw [hf.peerEnded]; decide)]
    refine .inr (.inl { hf with data := ?_ })
    rw [hf.data]
    simp [Loop.rest]

lemma Sound.modify_other {f : Session → Session} (h : Sound s)
    (hk : (f (s.obj q)).kind = (s.obj q).kind)
    (hl : (f (s.obj q)).finish.listed = (s.obj q).finish.listed) (ht : ¬ (s.obj q).IsTCP) :
    Sound (s.modify q f) :=
  h.modify (l := s.loop) hk hl h.sending (fun _ htcp => absurd htcp ht) fun _ _ hf => hf

lemma Sound.deliverUDP (h : Sound s) (hidle : s.loop = .idle)
    (hu : (s.obj q).udp = true) (data : Str) : Sound (s.deliverUDP q data) := by
  have ht : ¬ (s.obj q).IsTCP := fun ht => by cases ht.2.symm.trans hu
  rw [Server.deliverUDP]
  split_ifs
  · exact h
  · refine h.reloop hidle (fun r d hr => ?_) fun _ => rfl
    rw [← (Loop.sending.inj hr).1]
    exact hu
  · exact h.modify_other rfl rfl ht
  · exact h

lemma loop_record (s : Server) (m : FrameMetadata) (data : Str) :
    (s.record m data).loop = s.loop := by
  rw [record]
  split
  · rfl
  · split_ifs <;> rfl

lemma Sound.handleKeep (h : Sound s) (hidle : s.loop = .idle)
    (hkeep : m.status = statusKeep) : Sound ((s.record m data).handleKeep m data) := by
  have hg' : (s.record m data).getSession m.sessionID = s.getSession m.sessionID :=
    (sameTable_record s m data).getSession_eq _
  have hidle' : (s.record m data).loop = .idle := (loop_record s m data).trans hidle
  rcases h.getSession_cases m.sessionID with hg | ⟨q, hl, hg⟩
  · rw [Server.handleKeep, hg', hg]
    exact (h.record_unlisted hidle hg).reloop hidle' (by simp) fun _ => rfl
  · have hrec : s.record m data = s.modify q (Session.upload data) := by
      rw [record, hl]
      exact if_pos hkeep
    obtain ⟨-, hctl, hudp⟩ := Session.kind_inj.mp ((sameTable_record s m data).kind q)
    rw [Server.handleKeep, hg', hg]
    dsimp only
    rw [hctl, hudp]
    split_ifs with hc hu hdata hdata
    · rw [hrec]
      exact (h.modify_other (by simp) (by simp)
        fun ht => by cases ht.1.symm.trans hc).onControl data
    · have hother : Sound (s.record m data) := by
        rw [hrec]
        exact h.modify_other (by simp) (by simp) fun ht => by cases ht.2.symm.trans hu
      exact hother.deliverUDP hidle' (hudp.trans hu) data
    · rw [hrec]
      exact h.modify_other (by simp) (by simp) fun ht => by cases ht.2.symm.trans hu
    · rw [hrec]
      exact h.keep_listed hidle hg
    · have hnil : data = [] := List.length_eq_zero_iff.mp (Nat.eq_zero_of_not_pos hdata)
      have hupload : upload data (s.obj q) = s.obj q := by
        rw [hnil, upload, List.append_nil]
        split <;> rfl
      rw [hrec]
      refine h.modify (l := s.loop) (by simp) (by simp) h.sending (fun hb ht => ?_) fun _ _ hf => hf
      rw [hupload]
      exact h.flow q hb ht

/-- The End of a sub-stream that is up: it is drained. -/
lemma Sound.end_listed (h : Sound s) (hidle : s.loop = .idle)
    (hg : s.getSession id = some q) (ho : (s.obj q).IsTCP → Idle (s.obj q)) :
    Sound { (s.modify q fun x => { x with peerEnded := true }).beginFinish q false with
      loop := .finishing q } := by
  have hstate : (s.modify q fun x => { x with peerEnded := true }).beginFinish q false =
      s.modify q fun x => { x with peerEnded := true, finish := x.finish.begun false } := by
    rw [beginFinish_eq, modify_modify]
  rw [hstate]
  refine h.modify rfl (Finish.listed_begun _ _) (by simp) (fun _ ht => ?_)
    fun r _ => .of_idle hidle rfl
  rcases h.running hidle hg ht with hf | hf
  · exact .inl ⟨hf.dialed, hf.landing⟩
  · obtain ⟨hconn, hbuf, hcopier⟩ := ho ht
    exact .inr (.inr {
      peerEnded := rfl
      finish := by simp [Finish.begun, hf.finish]
      loop := .inr rfl
      rest := rfl
      landing := fun hd => by cases (hf.dialing hd).1.symm.trans hconn
      flushing := hf.flushing
      pipe := hbuf
      copier := .inl hcopier
      data := by
        have hdata := hf.data
        rw [hbuf, hcopier] at hdata
        simpa [Copier.hand, Loop.rest] using hdata })

lemma Sound.handleEnd (h : Sound s) (hidle : s.loop = .idle)
    (hend : m.status = statusEnd) (ho : ∀ r, s.getSession m.sessionID = some r →
      (s.obj r).IsTCP → Idle (s.obj r)) : Sound ((s.record m data).handleEnd m) := by
  have hg' : (s.record m data).getSession m.sessionID = s.getSession m.sessionID :=
    (sameTable_record s m data).getSession_eq _
  rcases h.getSession_cases m.sessionID with hg | ⟨q, hl, hg⟩
  · rw [Server.handleEnd, hg', hg]
    exact h.record_unlisted hidle hg
  · have hrec : s.record m data = s.modify q fun x => { x with peerEnded := true } := by
      rw [record, hl]
      dsimp only
      rw [if_neg (by rw [hend]; decide), if_pos hend]
    rw [Server.handleEnd, hg', hg, hrec]
    exact h.end_listed hidle hg (ho q hg)

lemma Sound.toIdle {link : Link} (h : Sound s) (hrest : ∀ r, s.loop.rest r = [])
    (hfin : ∀ r, s.loop = .finishing r → (s.obj r).finish = .done) :
    Sound { s with loop := .idle, link := link } := by
  refine ⟨h.tracked, h.latest, h.lastId, (by simp), fun r hr ht => ?_⟩
  exact (h.flow r hr ht).reloop (hrest r).symm fun hl => .inr (hfin r hl)

lemma Sound.writeStep {rest : Str} (h : Sound s) (hl : s.loop = .writing q rest) :
    Sound { s.modify q fun x => { x with inW := ((s.obj q).inW.write rest).1 } with
      loop := if ((s.obj q).inW.write rest).2 = [] then .idle
              else .writing q ((s.obj q).inW.write rest).2 } := by
  generalize hw : (s.obj q).inW.write rest = w
  obtain ⟨p, rest'⟩ := w
  dsimp only
  have hrest : ∀ r, Loop.rest r (if rest' = [] then .idle else .writing q rest') =
      if q = r then rest' else [] := by
    intro r
    split_ifs with hnil hq hq
    · exact hnil.symm
    · rfl
    · exact if_pos hq
    · exact if_neg hq
  refine h.modify rfl rfl ?_ (fun hb ht => ?_) fun r hr hf => ?_
  · intro r d hr
    split_ifs at hr
  · have hflow := h.flow q hb ht
    rw [hl] at hflow
    have hold : (Loop.writing q rest).rest q = rest := if_pos rfl
    rcases hflow with hf | hf | hf
    · exact .inl ⟨hf.dialed, hf.landing⟩
    · have hcons := BufPipe.write_conserves hf.pipe rest
      have hopen := BufPipe.write_closed (s.obj q).inW rest
      rw [hw] at hcons hopen
      refine .inr (.inl { hf with pipe := hopen.trans hf.pipe, data := ?_ })
      rw [hrest, if_pos rfl, hf.data, hold, List.append_assoc, List.append_assoc, ← hcons]
      simp
    · rw [hold.symm.trans hf.rest, BufPipe.write_nil, Prod.mk.injEq] at hw
      obtain ⟨rfl, rfl⟩ := hw
      exact .inr (.inr { hf with loop := .inl (hf.loop.resolve_right (by simp)), rest := rfl })
  · refine hf.reloop ?_ fun hfin => by cases hl.symm.trans hfin
    rw [hrest, if_neg hr.symm, hl, rest_writing_of_ne hr]

lemma Sound.loopStep (h : Sound s) : Sound s.loopStep := by
  rw [Server.loopStep]
  split
  case _ => exact h
  case _ id hasErr hl =>
    exact h.toIdle (fun _ => by rw [hl]; rfl) fun r hr => by cases hl.symm.trans hr
  case _ q rest hl => exact h.writeStep hl
  case _ q data hl =>
    refine h.modify rfl rfl (by simp) (fun _ ht => by cases ht.2.symm.trans (h.sending q data hl))
      fun r _ hf => hf.reloop (by rw [hl]; rfl) fun hr => by cases hl.symm.trans hr
  case _ q hl =>
    split_ifs with hdone
    · refine h.toIdle (fun _ => by rw [hl]; rfl) fun r hr => ?_
      rw [← Loop.finishing.inj (hl.symm.trans hr)]
      exact hdone
    · exact h

/-- **Step lemma of the uploads.** -/
lemma sound_step (h : Sound s) (ho : s.Orderly e) : Sound (s.step e) := by
  by_cases hborn : ∀ r ∈ e.session, r < s.born
  · rw [step, if_pos hborn]
    cases hs : e.session with
    | some r => exact h.act ho hs (hborn r hs)
    | none =>
      cases e with
      | recv m data =>
        rw [act, recv]
        split_ifs with hloop hnew hkeep hend
        · exact h
        all_goals rw [not_or, not_not, not_lt] at hloop
        · exact h.handleNew hloop.1 hloop.2 (ho.1 hloop.1 hnew)
        · exact h.handleKeep hloop.1 hkeep
        · exact h.handleEnd hloop.1 hend (ho.2 hloop.1 hend)
        · exact h
      | loop => exact h.loopStep
      | linkDown => exact ⟨h.tracked, h.latest, h.lastId, h.sending, h.flow⟩
      | _ => cases hs
  · rwa [step, if_neg hborn]

lemma Sound.delivered (h : Sound s) : s.Delivered := by
  intro r hr ht hp hd _
  rcases h.flow r hr ht with hf | hf | hf
  · exact absurd (hf.dialed.symm.trans hd) (by decide)
  · exact absurd (hf.peerEnded.symm.trans hp) (by decide)
  · exact hf.data.symm

/-- **Uploads are delivered in orderly runs**, in every state that they reach. -/
theorem delivered_of_orderly {es : List Event} (h : EachStep step Orderly {} es) :
    (es.foldl step {}).Delivered :=
  (foldl_invariant (I := Sound) (fun _ _ hs ho => sound_step hs ho) sound_init h).delivered

def keep (id : UInt16) (data : Str) : Event :=
  .recv { sessionID := id, status := statusKeep, option := optionData } data

def peerEnd (id : UInt16) : Event := .recv { sessionID := id, status := statusEnd } []

/-- A sub-stream with data in its New frame and in a Keep frame, which the copier
writes to the target. -/
def drained : List Event :=
  [newTCP 1 [1, 2], .dial 0 true, .copyRead 0 8, .copyWrite 0, keep 1 [3], .loop, .copyRead 0 8,
    .copyWrite 0]

/-- The End comes when all data is at the target. -/
theorem delivered_drained :
    ((drained ++ [peerEnd 1, .finish 0, .finish 0, .finish 0, .finish 0]).foldl step
      {}).Delivered := by
  have hg : (drained.foldl step {}).getSession 1 = some 0 := by decide +kernel
  have hidle : Idle ((drained.foldl step {}).obj 0) := by decide +kernel
  refine delivered_of_orderly ⟨⟨nofun, nofun⟩, trivial, trivial, trivial, ⟨nofun, nofun⟩, trivial,
    trivial, trivial, ⟨nofun, fun _ _ r hr _ => ?_⟩, trivial, trivial, trivial, trivial, trivial⟩
  obtain rfl := Option.some.inj (hg.symm.trans hr)
  exact hidle

/-- The End comes while the target is being dialled: the connection is closed
before anything is written to it. The End comes behind the data: `finish` closes
the connection before the copier has written it. -/
theorem end_loses_data : ¬ ([newTCP 1 [1, 2], peerEnd 1, .finish 0, .finish 0, .finish 0, .finish 0,
      .dial 0 true].foldl step {}).Delivered ∧
    ¬ ([newTCP 1 [1, 2], .dial 0 true, .copyRead 0 8, .copyWrite 0, keep 1 [3], .loop, peerEnd 1,
      .finish 0, .finish 0, .finish 0, .finish 0, .copyRead 0 8,
      .copyWrite 0].foldl step {}).Delivered := by
  constructor
  · intro h
    exact absurd (h 0 (by decide +kernel) (by decide +kernel) (by decide +kernel)
      (by decide +kernel) (by decide +kernel)) (by decide +kernel)
  · intro h
    exact absurd (h 0 (by decide +kernel) (by decide +kernel) (by decide +kernel)
      (by decide +kernel) (by decide +kernel)) (by decide +kernel)

end

end Server

end Ntr.Mux
