/-
Downloads on the server of Mux.cool: what the server writes on the link for a TCP
sub-stream is what its target has written.

* `Carries`, `carries_step`: as long as no New frame repeats an id, every
  sub-stream is carried, under its own id.
-/
import Ntr.Mux.Server

namespace Ntr.Mux

open Go Lib List Session

def Session.origin (x : Session) : UInt16 × Bool × Bool × Address × UInt16 :=
  (x.id, x.control, x.udp, x.address, x.port)

lemma Session.origin_inj {x y : Session} (h : x.origin = y.origin) :
    x.id = y.id ∧ x.control = y.control ∧ x.udp = y.udp ∧ x.address = y.address ∧
      x.port = y.port := by
  simpa [origin] using h

structure Session.OpenedBy (x : Session) (m : FrameMetadata) : Prop where
  id : x.id = m.sessionID
  udp : x.udp = true → m.network = networkUDP
  target : x.control = false → x.address = m.address ∧ x.port = m.port

/-- **What the landing has carried**: the data on the link is the beginning of
what the target has written. Between two reads it is all that has been read; and
where the landing holds data, this is all that is missing. -/
structure Session.Carried (x : Session) (p : Str) : Prop where
  taken : x.target.taken ≤ x.target.wrote.length
  carried : p <+: x.target.wrote.take x.target.taken
  before : x.landing = .none ∨ x.landing = .dialing → p = [] ∧ x.target.taken = 0
  ready : x.landing = .reading ∨ (∃ ds, x.landing = .flushing ds) →
    p = x.target.wrote.take x.target.taken
  holding : ∀ d, x.landing = .holding d → p ++ d = x.target.wrote.take x.target.taken

/-- Nothing has changed for the landing of the session. -/
structure Session.Same (x y : Session) : Prop where
  origin : y.origin = x.origin
  landing : y.landing = x.landing
  wrote : y.target.wrote = x.target.wrote
  taken : y.target.taken = x.target.taken

namespace Session

variable {x y : Session} {p : Str}

lemma Same.refl (x : Session) : Same x x := ⟨rfl, rfl, rfl, rfl⟩

lemma Same.trans {z : Session} (h : Same x y) (h' : Same y z) : Same x z where
  origin := h'.origin.trans h.origin
  landing := h'.landing.trans h.landing
  wrote := h'.wrote.trans h.wrote
  taken := h'.taken.trans h.taken

lemma Carried.same (h : x.Carried p) (hs : Same x y) : y.Carried p where
  taken := by rw [hs.taken, hs.wrote]; exact h.taken
  carried := by rw [hs.taken, hs.wrote]; exact h.carried
  before := by rw [hs.landing, hs.taken]; exact h.before
  ready := by rw [hs.landing, hs.taken, hs.wrote]; exact h.ready
  holding := by rw [hs.landing, hs.taken, hs.wrote]; exact h.holding

lemma OpenedBy.congr {m : FrameMetadata} (h : x.OpenedBy m) (ho : y.origin = x.origin) :
    y.OpenedBy m := by
  obtain ⟨hid, hctl, hudp, haddr, hport⟩ := origin_inj ho
  exact ⟨hid.trans h.id, fun hu => h.udp (hudp ▸ hu), fun hc =>
    ⟨haddr.trans (h.target (hctl ▸ hc)).1, hport.trans (h.target (hctl ▸ hc)).2⟩⟩

lemma carried_nil (ht : x.target = {}) (hl : x.landing = .none ∨ x.landing = .dialing) :
    x.Carried [] where
  taken := by rw [ht]; exact le_rfl
  carried := List.nil_prefix
  before _ := ⟨rfl, by rw [ht]⟩
  ready _ := by rw [ht]; rfl
  holding d hd := by rw [hd] at hl; rcases hl with hl | hl <;> cases hl

lemma Carried.finish (h : x.Carried p) {a : Landing} (ha : a = .finishing ∨ a = .done) {y : Session}
    (hl : y.landing = a) (hw : y.target.wrote = x.target.wrote)
    (ht : y.target.taken = x.target.taken) : y.Carried p where
  taken := by rw [ht, hw]; exact h.taken
  carried := by rw [ht, hw]; exact h.carried
  before := by rw [hl]; rcases ha with rfl | rfl <;> rintro (hn | hn) <;> cases hn
  ready := by rw [hl]; rcases ha with rfl | rfl <;> rintro (hn | ⟨_, hn⟩) <;> cases hn
  holding d hd := by rw [hl] at hd; rcases ha with rfl | rfl <;> cases hd

lemma Carried.dialed (h : x.Carried p) (hx : x.landing = .dialing) (hl : y.landing = .reading)
    (hw : y.target.wrote = x.target.wrote) (ht : y.target.taken = x.target.taken) :
    y.Carried p where
  taken := by rw [ht, hw]; exact h.taken
  carried := by rw [ht, hw]; exact h.carried
  before := by rw [hl]; rintro (hn | hn) <;> cases hn
  ready _ := by
    obtain ⟨hp, htaken⟩ := h.before (.inr hx)
    rw [ht, htaken, take_zero, hp]
  holding d hd := by cases hl.symm.trans hd

/-- The landing has written a datagram to the target, or all of them. -/
lemma Carried.flushed (h : x.Carried p) (hx : ∃ ds, x.landing = .flushing ds)
    (hl : y.landing = .reading ∨ ∃ ds, y.landing = .flushing ds)
    (hw : y.target.wrote = x.target.wrote) (ht : y.target.taken = x.target.taken) :
    y.Carried p where
  taken := by rw [ht, hw]; exact h.taken
  carried := by rw [ht, hw]; exact h.carried
  before := by
    rcases hl with hl | ⟨ds, hl⟩ <;> rw [hl] <;> rintro (hn | hn) <;> cases hn
  ready _ := by rw [ht, hw]; exact h.ready (.inr hx)
  holding d hd := by
    rcases hl with hl | ⟨ds, hl⟩ <;> cases hl.symm.trans hd

lemma Carried.wrote (h : x.Carried p) (b : Str) :
    { x with target := { x.target with wrote := x.target.wrote ++ b } : Session }.Carried p := by
  have hsame : (x.target.wrote ++ b).take x.target.taken = x.target.wrote.take x.target.taken :=
    take_append_of_le_length h.taken
  exact
    { taken := h.taken.trans (by simp)
      carried := hsame.symm ▸ h.carried
      before := h.before
      ready := fun hr => hsame.symm ▸ h.ready hr
      holding := fun d hd => hsame.symm ▸ h.holding d hd }

lemma Carried.read (h : x.Carried p) (hx : x.landing = .reading) (n : Nat) :
    { x with
      landing := .holding ((x.target.wrote.drop x.target.taken).take n)
      target := { x.target with
        taken := x.target.taken + ((x.target.wrote.drop x.target.taken).take n).length } :
      Session }.Carried p := by
  have htake : x.target.wrote.take
      (x.target.taken + ((x.target.wrote.drop x.target.taken).take n).length) =
        x.target.wrote.take x.target.taken ++ (x.target.wrote.drop x.target.taken).take n := by
    rw [take_add, length_take, ← take_eq_take_min]
  refine
    { taken := ?_
      carried := ?_
      before := by rintro (hn | hn) <;> cases hn
      ready := by rintro (hn | ⟨_, hn⟩) <;> cases hn
      holding := fun d hd => ?_ }
  · have hlen := h.taken
    simp only [length_take, length_drop]
    omega
  · dsimp only
    rw [htake]
    exact h.carried.trans (prefix_append _ _)
  · obtain rfl : _ = d := by simpa using hd
    dsimp only
    rw [htake, h.ready (.inl hx)]

lemma Carried.sent {d : Str} (h : x.Carried p) (hx : x.landing = .holding d) :
    { x with landing := .reading : Session }.Carried (p ++ d) where
  taken := h.taken
  carried := h.holding d hx ▸ prefix_rfl
  before := by rintro (hn | hn) <;> cases hn
  ready _ := h.holding d hx
  holding _ hd := by cases hd

end Session

namespace Server

/-! ### Steps that do not concern the landings -/

def AddsEnds (a b : List Frame) : Prop := ∃ fs, b = a ++ fs ∧ ∀ f ∈ fs, f.1.status = statusEnd

lemma AddsEnds.refl (a : List Frame) : AddsEnds a a := ⟨[], by simp, (by simp)⟩

lemma AddsEnds.trans {a b c : List Frame} (h : AddsEnds a b) (h' : AddsEnds b c) :
    AddsEnds a c := by
  obtain ⟨fs, rfl, hf⟩ := h
  obtain ⟨gs, rfl, hg⟩ := h'
  refine ⟨fs ++ gs, append_assoc _ _ _, fun f hfg => ?_⟩
  exact (mem_append.mp hfg).elim (hf f) (hg f)

lemma addsEnds_push (l : Link) (id : UInt16) (e : Bool) :
    AddsEnds l.sent (l.push (.stop id e)).sent := by
  rcases sent_push l (.stop id e) with h | h
  · rw [h]
    exact .refl _
  · exact ⟨_, h, fun f hf => (Call.of_mem_frames hf).2⟩

/-- No landing has taken a step, and nothing but Ends was written to the link. -/
structure Quiet (s s' : Server) : Prop where
  born : s'.born = s.born
  obj : ∀ q, (s.obj q).Same (s'.obj q)
  sent : AddsEnds s.link.sent s'.link.sent

section
variable {s s' s'' : Server} {r : Nat} {f : Session → Session}

lemma Quiet.refl (s : Server) : Quiet s s := ⟨rfl, fun _ => .refl _, .refl _⟩

lemma Quiet.trans (h : Quiet s s') (h' : Quiet s' s'') : Quiet s s'' where
  born := h'.born.trans h.born
  obj q := (h.obj q).trans (h'.obj q)
  sent := h.sent.trans h'.sent

lemma Quiet.other (h : Quiet s s') (hb : s''.born = s'.born) (ho : s''.obj = s'.obj)
    (hs : s''.link.sent = s'.link.sent) : Quiet s s'' :=
  h.trans ⟨hb, fun _ => ho ▸ .refl _, hs ▸ .refl _⟩

lemma quiet_modify (h : (s.obj r).Same (f (s.obj r))) : Quiet s (s.modify r f) where
  born := rfl
  obj _ := obj_modify_ind (P := fun _ x y => x.Same y) h fun _ => .refl _
  sent := .refl _

lemma quiet_writeEnd (s : Server) (id : UInt16) (e : Bool) : Quiet s (s.writeEnd id e) :=
  ⟨rfl, fun _ => .refl _, addsEnds_push s.link id e⟩

lemma same_upload (data : Str) (x : Session) : x.Same (x.upload data) := by
  rw [upload]
  split <;> exact ⟨rfl, rfl, rfl, rfl⟩

lemma same_write (x : Session) (b : Str) : x.Same { x with target := x.target.write b } := by
  rw [Target.write]
  split <;> exact ⟨rfl, rfl, rfl, rfl⟩

lemma quiet_beginFinish (s : Server) (r : Nat) (e : Bool) : Quiet s (s.beginFinish r e) := by
  rw [beginFinish_eq]
  exact quiet_modify ⟨rfl, rfl, rfl, rfl⟩

lemma quiet_onControl (s : Server) (data : Str) : Quiet s (s.onControl data) := by
  rw [onControl]
  split_ifs
  · exact (Quiet.refl s).other rfl rfl rfl
  · exact .refl s

lemma quiet_record (s : Server) (m : FrameMetadata) (data : Str) : Quiet s (s.record m data) := by
  rw [record]
  split
  · exact .refl s
  · split_ifs
    · exact quiet_modify (same_upload data _)
    · exact quiet_modify ⟨rfl, rfl, rfl, rfl⟩
    · exact .refl s

lemma quiet_handleKeep (s : Server) (m : FrameMetadata) (data : Str) :
    Quiet s (s.handleKeep m data) := by
  rw [handleKeep]
  split
  · exact (Quiet.refl s).other rfl rfl rfl
  · rw [deliverUDP]
    split_ifs
    · exact quiet_onControl s data
    · exact .refl s
    · exact (Quiet.refl s).other rfl rfl rfl
    · exact quiet_modify ⟨rfl, rfl, rfl, rfl⟩
    · exact .refl s
    · exact .refl s
    · exact (Quiet.refl s).other rfl rfl rfl
    · exact .refl s

lemma quiet_handleEnd (s : Server) (m : FrameMetadata) : Quiet s (s.handleEnd m) := by
  rw [handleEnd]
  split
  · exact .refl s
  case _ r _ => exact (quiet_beginFinish s r false).other rfl rfl rfl

lemma quiet_loopStep (s : Server) : Quiet s s.loopStep := by
  rw [loopStep]
  split
  · exact .refl s
  case _ id e _ => exact (quiet_writeEnd s id e).other rfl rfl rfl
  case _ r rest _ =>
    have hpipe : Quiet s (s.modify r fun x => { x with inW := (x.inW.write rest).1 }) :=
      quiet_modify ⟨rfl, rfl, rfl, rfl⟩
    exact hpipe.other rfl rfl rfl
  case _ r data _ =>
    have hwrite : Quiet s (s.modify r fun x => { x with target := x.target.write data }) :=
      quiet_modify (same_write _ data)
    exact hwrite.other rfl rfl rfl
  · split_ifs
    · exact (Quiet.refl s).other rfl rfl rfl
    · exact .refl s

end

/-! ### The invariant -/

/-- The sessions were opened by the New frames `log`, all under ids of their own;
the frames `read` have been sent, and more may have been; data is sent only for
sessions that there are; and every landing over TCP has carried what it has
read. -/
structure Carries (log : List FrameMetadata) (read : List Frame) (s : Server) : Prop where
  read : read <+: s.link.sent
  ids : ∀ q < s.born, ∀ r < s.born, (s.obj q).id = (s.obj r).id → q = r
  known : ∀ f ∈ s.link.sent, f.1.status = statusKeep → ∃ q < s.born, (s.obj q).id = f.1.sessionID
  openedBy : ∀ q < s.born, ∃ m ∈ log, (s.obj q).OpenedBy m
  data : ∀ q < s.born, (s.obj q).udp = false →
    (s.obj q).Carried (payload (s.obj q).id s.link.sent)

def opens : Event → List FrameMetadata
  | .recv m _ => if m.status = statusNew then [m] else []
  | _ => []

section
variable {s s' : Server} {log : List FrameMetadata} {fs : List Frame} {r : Nat}
  {f : Session → Session}

lemma carries_init : Carries [] [] {} :=
  ⟨List.nil_prefix, fun _ hq => absurd hq (Nat.not_lt_zero _), (by simp),
    fun _ hq => absurd hq (Nat.not_lt_zero _), fun _ hq => absurd hq (Nat.not_lt_zero _)⟩

lemma Carries.mono {log' : List FrameMetadata} (h : Carries log fs s) (hl : log ⊆ log') :
    Carries log' fs s :=
  { h with
    openedBy := fun q hq => by
      obtain ⟨m, hm, ho⟩ := h.openedBy q hq
      exact ⟨m, hl hm, ho⟩ }

lemma Carries.quiet (h : Carries log fs s) (hq : Quiet s s') : Carries log fs s' := by
  obtain ⟨gs, hsent, hgs⟩ := hq.sent
  have hid := fun q => (origin_inj (hq.obj q).origin).1
  have hudp := fun q => (origin_inj (hq.obj q).origin).2.2.1
  refine ⟨?_, fun q hlt r hr => ?_, fun g hg hk => ?_, fun q hlt => ?_, fun q hlt hu => ?_⟩
  · rw [hsent]
    exact h.read.trans (prefix_append _ _)
  · rw [hid, hid]
    exact h.ids q (hq.born ▸ hlt) r (hq.born ▸ hr)
  · rw [hsent] at hg
    rcases mem_append.mp hg with hg | hg
    · obtain ⟨q, hlt, hqid⟩ := h.known g hg hk
      exact ⟨q, hq.born ▸ hlt, (hid q).trans hqid⟩
    · exact absurd ((hgs g hg).symm.trans hk) (by decide)
  · obtain ⟨m, hm, ho⟩ := h.openedBy q (hq.born ▸ hlt)
    exact ⟨m, hm, ho.congr (hq.obj q).origin⟩
  · have hnil : payload (s.obj q).id gs = [] :=
      payload_of_forall fun g hg hk => absurd ((hgs g hg).symm.trans hk.2) (by decide)
    rw [hid, hsent, payload_append, hnil, append_nil]
    exact (h.data q (hq.born ▸ hlt) (hudp q ▸ hu)).same (hq.obj q)

lemma Carries.modify {link : Link} {gs : List Frame} (h : Carries log fs s) (hr : r < s.born)
    (ho : (f (s.obj r)).origin = (s.obj r).origin) (hs : link.sent = s.link.sent ++ gs)
    (hgs : ∀ g ∈ gs, g.1.sessionID = (s.obj r).id)
    (hdata : (s.obj r).udp = false → (s.obj r).Carried (payload (s.obj r).id s.link.sent) →
      (f (s.obj r)).Carried (payload (s.obj r).id s.link.sent ++ payload (s.obj r).id gs)) :
    Carries log fs (({ s with link := link }).modify r f) := by
  have horigin : ∀ q, ((({ s with link := link }).modify r f).obj q).origin = (s.obj q).origin :=
    fun q => obj_modify_ind (s := { s with link := link })
      (P := fun _ x y => y.origin = x.origin) ho fun _ => rfl
  have hid := fun q => (origin_inj (horigin q)).1
  refine ⟨?_, fun q hq q' hq' => ?_, fun g hg hk => ?_, fun q hq => ?_, fun q hq hu => ?_⟩
  · change fs <+: link.sent
    rw [hs]
    exact h.read.trans (prefix_append _ _)
  · rw [hid, hid]
    exact h.ids q hq q' hq'
  · change g ∈ link.sent at hg
    rw [hs] at hg
    rcases mem_append.mp hg with hg | hg
    · obtain ⟨q, hq, hqid⟩ := h.known g hg hk
      exact ⟨q, hq, (hid q).trans hqid⟩
    · exact ⟨r, hr, (hid r).trans (hgs g hg).symm⟩
  · obtain ⟨m, hm, hopen⟩ := h.openedBy q hq
    exact ⟨m, hm, hopen.congr (horigin q)⟩
  · rw [hid]
    change Session.Carried _ (payload (s.obj q).id link.sent)
    rw [hs, payload_append]
    have hu' : (s.obj q).udp = false := (origin_inj (horigin q)).2.2.1 ▸ hu
    by_cases hne : q = r
    · subst hne
      rw [obj_modify_self]
      exact hdata hu' (h.data q hq hu')
    · have hnil : payload (s.obj q).id gs = [] := by
        refine payload_of_forall fun g hg hk => hne ?_
        exact h.ids q hq r hr (hk.1.symm.trans (hgs g hg))
      rw [obj_modify_of_ne hne, hnil, append_nil]
      exact h.data q hq hu'

lemma Carries.change (h : Carries log fs s) (hr : r < s.born)
    (ho : (f (s.obj r)).origin = (s.obj r).origin)
    (hdata : (s.obj r).udp = false → (s.obj r).Carried (payload (s.obj r).id s.link.sent) →
      (f (s.obj r)).Carried (payload (s.obj r).id s.link.sent)) :
    Carries log fs (s.modify r f) := by
  refine h.modify hr ho (append_nil s.link.sent).symm (by simp) ?_
  rwa [payload_nil, append_nil]

lemma Carries.unknown (h : Carries log fs s) {id : UInt16} (hid : ∀ q < s.born, (s.obj q).id ≠ id) :
    payload id s.link.sent = [] := by
  refine payload_of_forall fun g hg hk => ?_
  obtain ⟨q, hq, hqid⟩ := h.known g hg hk.2
  exact hid q hq (hqid.trans hk.1)

lemma Carries.addSession {x : Session} {m : FrameMetadata} (h : Carries log fs s)
    (hm : ∀ n ∈ log, n.sessionID ≠ m.sessionID) (hx : x.OpenedBy m) (ht : x.target = {})
    (hl : x.landing = .none ∨ x.landing = .dialing) : Carries (log ++ [m]) fs (s.addSession x) := by
  have hfresh : ∀ q < s.born, (s.obj q).id ≠ x.id := by
    intro q hq heq
    obtain ⟨n, hn, hopen⟩ := h.openedBy q hq
    exact hm n hn (hopen.id.symm.trans (heq.trans hx.id))
  have hold : ∀ q < s.born, (s.addSession x).obj q = s.obj q := fun q hq =>
    obj_addSession_of_lt hq
  refine ⟨h.read, fun q hq r hr heq => ?_, fun g hg hk => ?_, ?_, ?_⟩
  · rcases Nat.lt_succ_iff_lt_or_eq.mp hq with hq | rfl <;>
      rcases Nat.lt_succ_iff_lt_or_eq.mp hr with hr | rfl
    · rw [hold q hq, hold r hr] at heq
      exact h.ids q hq r hr heq
    · rw [hold q hq, obj_addSession_born] at heq
      exact absurd heq (hfresh q hq)
    · rw [hold r hr, obj_addSession_born] at heq
      exact absurd heq.symm (hfresh r hr)
    · rfl
  · obtain ⟨q, hq, hqid⟩ := h.known g hg hk
    exact ⟨q, Nat.lt_succ_of_lt hq, (congrArg Session.id (hold q hq)).trans hqid⟩
  · refine forall_update (P := fun _ (y : Session) => ∃ n ∈ log ++ [m], y.OpenedBy n) ?_ ?_
    · exact (h.mono (List.subset_append_left log [m])).openedBy
    · exact ⟨m, mem_append_right _ (.head _), hx⟩
  · refine forall_update (P := fun _ (y : Session) => y.udp = false →
      y.Carried (payload y.id s.link.sent)) h.data fun _ => ?_
    rw [h.unknown hfresh]
    exact carried_nil ht hl

lemma Carries.handleNew (h : Carries log fs s) (m : FrameMetadata) (data : Str)
    (hm : ∀ n ∈ log, n.sessionID ≠ m.sessionID) : Carries (log ++ [m]) fs (s.handleNew m data) := by
  have hmono := h.mono (subset_append_left log [m])
  rw [Server.handleNew]
  split_ifs with hctl hdup hfull hudp
  · refine Carries.quiet ?_ (quiet_onControl _ data)
    exact h.addSession hm ⟨rfl, (by simp), (by simp)⟩ rfl (.inl rfl)
  · exact hmono.quiet ((Quiet.refl s).other rfl rfl rfl)
  · exact hmono.quiet ((Quiet.refl s).other rfl rfl rfl)
  · exact h.addSession hm ⟨rfl, fun _ => hudp, fun _ => ⟨rfl, rfl⟩⟩ rfl (.inr rfl)
  · exact h.addSession hm ⟨rfl, (by simp), fun _ => ⟨rfl, rfl⟩⟩ rfl (.inr rfl)

lemma Carries.act {e : Event} (h : Carries log fs s) (he : e.session = some r) (hr : r < s.born) :
    Carries log fs (s.act e) := by
  have hacts := acts_act (s := s) he
  generalize s.act e = s' at hacts ⊢
  cases hacts with
  | rest => exact h
  | giveUp => exact h.change hr rfl fun _ hc => hc.finish (.inl rfl) rfl rfl rfl
  | drop | leave => exact h.change hr rfl fun _ hc => hc.finish (.inr rfl) rfl rfl rfl
  | upUDP _ hu => exact h.change hr rfl fun hu' => by cases hu'.symm.trans hu
  | upTCP hl => exact h.change hr rfl fun _ hc => hc.dialed hl rfl rfl rfl
  | wrote b => exact h.change hr rfl fun _ hc => hc.wrote b
  | hold n hl he =>
    rcases he with ⟨k, -, rfl, rfl⟩ | ⟨-, hu⟩
    · exact h.change hr rfl fun _ hc => hc.read hl _
    · exact h.change hr rfl fun hu' => by cases hu'.symm.trans hu
  | flushed hl => exact h.change hr rfl fun _ hc => hc.flushed ⟨_, hl⟩ (.inl rfl) rfl rfl
  | @flush d ds hl =>
    have hsame := same_write (s.obj r) d
    exact h.change hr rfl fun _ hc => hc.flushed ⟨_, hl⟩ (.inr ⟨ds, rfl⟩) hsame.wrote hsame.taken
  | @relay data link hl hw =>
    refine h.modify hr rfl (sent_write hw) (fun g hg => ?_) fun hu hc => ?_
    · rw [(Call.of_mem_frames hg).1, reply]
      split <;> rfl
    · have hframes : payload (s.obj r).id ((s.obj r).reply data).frames = data := by
        rw [reply, if_neg (by rw [hu]; decide), payload_keep]
      rw [hframes]
      exact hc.sent hl
  | @copyWrite d =>
    exact h.quiet (quiet_modify ((same_write _ d).trans ⟨rfl, rfl, rfl, rfl⟩))
  | remove =>
    have hrem : Quiet s (s.removeSession (s.obj r).id) := (Quiet.refl s).other rfl rfl rfl
    exact h.quiet (hrem.trans (quiet_modify ⟨rfl, rfl, rfl, rfl⟩))
  | @sendEnd b link _ hw =>
    have hlink : Quiet s { s with link := link } := by
      rcases hw with rfl | ⟨-, rfl⟩
      · exact .refl s
      · exact quiet_writeEnd s _ false
    exact h.quiet (hlink.trans (quiet_modify ⟨rfl, rfl, rfl, rfl⟩))
  | _ => exact h.quiet (quiet_modify ⟨rfl, rfl, rfl, rfl⟩)

lemma Carries.recv (h : Carries log fs s) (m : FrameMetadata) (data : Str)
    (hm : ∀ m' ∈ opens (.recv m data), ∀ n ∈ log, n.sessionID ≠ m'.sessionID) :
    Carries (log ++ opens (.recv m data)) fs (s.recv m data) := by
  have hmono := h.mono (subset_append_left log (opens (.recv m data)))
  rw [Server.recv]
  split_ifs with hloop hnew hkeep hend
  · exact hmono
  · have hopens : opens (.recv m data) = [m] := if_pos hnew
    rw [hopens] at hm ⊢
    exact h.handleNew m data (hm m (.head _))
  · exact hmono.quiet ((quiet_record s m data).trans (quiet_handleKeep _ m data))
  · exact hmono.quiet ((quiet_record s m data).trans (quiet_handleEnd _ m))
  · exact hmono

/-- **Step lemma of the landings.** -/
lemma carries_step {e : Event} (h : Carries log fs s)
    (hm : ∀ m ∈ opens e, ∀ n ∈ log, n.sessionID ≠ m.sessionID) :
    Carries (log ++ opens e) fs (s.step e) := by
  have hmono : ∀ {s' : Server}, Carries log fs s' → Carries (log ++ opens e) fs s' :=
    fun h' => h'.mono (subset_append_left _ _)
  rw [step]
  split_ifs with hborn
  · cases hs : e.session with
    | some r => exact hmono (h.act hs (hborn r hs))
    | none =>
      cases e with
      | recv m data => exact h.recv m data hm
      | loop => exact hmono (h.quiet (quiet_loopStep s))
      | linkDown => exact hmono (h.quiet ((Quiet.refl s).other rfl rfl rfl))
      | _ => cases hs
  · exact hmono h

end

end Server

end Ntr.Mux
