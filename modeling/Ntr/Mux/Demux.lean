/-
Demultiplexing on the client of Mux.cool: what the reads of a stream return, for
any frames that come in.

* `Sound`, `sound_step`: as long as no id is given out twice, all streams are so.
-/
import Ntr.Lib.Runs
import Ntr.Mux.Client

namespace Ntr.Mux

open Go Lib List Substream

/-! ### The data of a stream -/

/-- **The data of a stream**: what its reads have returned, what is in its pipe
and what the read loop still has to write, in this order, is the data that has
come for it, as long as it is in the table, and the beginning of it at all
times. Behind an End, all that has come before is at the reader or in the pipe. -/
structure Substream.Flow (x : Substream) (rest : Str) (fs : List Frame) : Prop where
  arrived : x.got ++ x.inW.buf ++ rest <+: payload x.id fs
  complete : x.listed = true → x.got ++ x.inW.buf ++ rest = payload x.id fs
  pipe : x.listed = true → x.inW.closed = false
  unended : x.listed = true → x.finish = .fresh → ∀ f ∈ fs, ¬ IsEnd x.id f
  peer : x.peerEnded = true → x.finish ≠ .fresh ∧ rest = [] ∧
    x.got ++ x.inW.buf = upTo x.id fs ∧ ∃ f ∈ fs, IsEnd x.id f
  eof : x.eof = true → x.inW.buf = [] ∧ x.inW.closed = true

namespace Substream.Flow

variable {x : Substream} {rest : Str} {f : Frame} {fs : List Frame}

lemma other (h : x.Flow rest fs) (hk : x.listed = true → ¬ IsKeep x.id f)
    (he : x.listed = true → x.finish = .fresh → ¬ IsEnd x.id f) : x.Flow rest (fs ++ [f]) where
  arrived := h.arrived.trans (payload_mono (prefix_append fs [f]))
  complete hl := by
    rw [payload_append, payload_of_not_isKeep (hk hl), append_nil]
    exact h.complete hl
  pipe := h.pipe
  unended hl hfresh g hg := by
    rcases mem_append.mp hg with hg | hg
    · exact h.unended hl hfresh g hg
    · rw [mem_singleton.mp hg]
      exact he hl hfresh
  peer hp := by
    obtain ⟨hfin, hrest, hdata, g, hg, hend⟩ := h.peer hp
    refine ⟨hfin, hrest, ?_, g, mem_append_left _ hg, hend⟩
    rw [upTo_append ⟨g, hg, hend⟩, hdata]
  eof := h.eof

lemma keep (h : x.Flow [] fs) (hl : x.listed = true) (hp : x.peerEnded = false)
    (hk : IsKeep x.id f) : x.Flow f.2 (fs ++ [f]) := by
  have hdata : x.got ++ x.inW.buf ++ f.2 = payload x.id (fs ++ [f]) := by
    have hold := h.complete hl
    rw [append_nil] at hold
    rw [payload_append, payload_of_isKeep hk, hold]
  refine
    { h with
      arrived := hdata ▸ prefix_rfl
      complete := fun _ => hdata
      unended := fun _ hfresh g hg => ?_
      peer := fun hp' => by cases hp.symm.trans hp' }
  rcases mem_append.mp hg with hg | hg
  · exact h.unended hl hfresh g hg
  · rw [mem_singleton.mp hg]
    exact fun hend => absurd (hk.2.symm.trans hend.2) (by decide)

lemma hear (h : x.Flow [] fs) (hl : x.listed = true) (he : IsEnd x.id f) :
    x.hear.Flow [] (fs ++ [f]) := by
  have hkeep : ¬ IsKeep x.id f := fun hk => absurd (hk.2.symm.trans he.2) (by decide)
  rw [Substream.hear]
  split_ifs with hfresh
  · have hdata := h.complete hl
    have hnew : payload x.id (fs ++ [f]) = payload x.id fs := by
      rw [payload_append, payload_of_not_isKeep hkeep, append_nil]
    refine
      { arrived := hnew ▸ h.arrived
        complete := fun _ => hnew ▸ hdata
        pipe := fun _ => h.pipe hl
        unended := by simp
        peer := fun _ => ⟨(by simp), rfl, ?_, f, mem_append_right _ (.head _), he⟩
        eof := h.eof }
    rw [append_nil] at hdata
    exact hdata.trans (upTo_of_forall (h.unended hl hfresh) he).symm
  · exact h.other (fun _ => hkeep) fun _ hf => absurd hf hfresh

lemma write (h : x.Flow rest fs) :
    { x with inW := (x.inW.write rest).1 : Substream }.Flow (x.inW.write rest).2 fs := by
  cases hclosed : x.inW.closed with
  | true =>
    rw [BufPipe.write_of_closed hclosed]
    refine
      { h with
        arrived := ?_
        complete := fun hl => by cases hclosed.symm.trans (h.pipe hl)
        peer := fun hp => ⟨(h.peer hp).1, rfl, (h.peer hp).2.2⟩ }
    rw [append_nil]
    exact (prefix_append _ rest).trans h.arrived
  | false =>
    have hsame : x.got ++ (x.inW.write rest).1.buf ++ (x.inW.write rest).2 =
        x.got ++ x.inW.buf ++ rest := by
      rw [append_assoc, BufPipe.write_conserves hclosed, ← append_assoc]
    refine
      { arrived := hsame ▸ h.arrived
        complete := fun hl => hsame.trans (h.complete hl)
        pipe := fun _ => (BufPipe.write_closed _ _).trans hclosed
        unended := h.unended
        peer := fun hp => ?_
        eof := fun he => by cases hclosed.symm.trans (h.eof he).2 }
    obtain ⟨hfin, rfl, hdata, hend⟩ := h.peer hp
    simp only [BufPipe.write_nil]
    exact ⟨hfin, trivial, hdata, hend⟩

lemma read {n : Nat} {d : Str} {p : BufPipe} (h : x.Flow rest fs)
    (hr : x.inW.read n = some (.ok d, p)) :
    { x with inW := p, got := x.got ++ d : Substream }.Flow rest fs := by
  obtain ⟨hne, hbuf, hclosed⟩ := BufPipe.read_conserves hr
  have hsame : x.got ++ d ++ p.buf = x.got ++ x.inW.buf := by rw [hbuf, append_assoc]
  exact
    { arrived := hsame.symm ▸ h.arrived
      complete := fun hl => hsame.symm ▸ h.complete hl
      pipe := fun hl => hclosed.trans (h.pipe hl)
      unended := h.unended
      peer := fun hp => ⟨(h.peer hp).1, (h.peer hp).2.1, hsame.trans (h.peer hp).2.2.1,
        (h.peer hp).2.2.2⟩
      eof := fun he => absurd (h.eof he).1 hne }

lemma readEOF {n : Nat} {e : Error} {p : BufPipe} (h : x.Flow rest fs)
    (hr : x.inW.read n = some (.error e, p)) : { x with eof := true : Substream }.Flow rest fs := by
  obtain ⟨hbuf, hclosed, -⟩ := BufPipe.read_eof hr
  exact { h with eof := fun _ => ⟨hbuf, hclosed⟩ }

lemma register (h : x.Flow rest []) (hc : x.inW.closed = false) (n : Nat) :
    { x with stage := .registered, since := n : Substream }.Flow rest [] :=
  { h with
    complete := fun _ => prefix_nil.mp h.arrived
    pipe := fun _ => hc
    unended := fun _ _ => by simp }

/-- Steps behind which the stream is in the table only if it was before. -/
lemma restage {a : Stage} {c : Closing} {e : Bool} (h : x.Flow rest fs)
    (hl : { x with stage := a, finish := c, ended := e : Substream }.listed = true →
      x.listed = true) (hc : c = .fresh → x.finish = .fresh) :
    { x with stage := a, finish := c, ended := e : Substream }.Flow rest fs :=
  { h with
    complete := fun hl' => h.complete (hl hl')
    pipe := fun hl' => h.pipe (hl hl')
    unended := fun hl' hfresh => h.unended (hl hl') (hc hfresh)
    peer := fun hp => ⟨fun hfresh => (h.peer hp).1 (hc hfresh), (h.peer hp).2⟩ }

lemma close (h : x.Flow rest fs) (hl : x.listed = false) :
    { x with inW := x.inW.close : Substream }.Flow rest fs :=
  { h with
    complete := fun hl' => by cases hl.symm.trans hl'
    pipe := fun hl' => by cases hl.symm.trans hl'
    eof := fun he => ⟨(h.eof he).1, rfl⟩ }

end Substream.Flow

/-- Nothing happens to a sub-stream before it is registered. -/
def Substream.Start (x : Substream) : Prop :=
  x.stage = .allocated → x.inW.closed = false ∧ x.finish = .fresh ∧ x.peerEnded = false

namespace Client

/-! ### The invariant -/

/-- Ids are given out in order, as long as none is given out twice; the table holds
the sub-streams that are listed; and the New frames are those of the opened
sub-streams, one for each. -/
structure Tidy (s : Client) : Prop where
  nextID : s.nextID.toNat = s.born
  ids : ∀ r < s.born, (s.obj r).id.toNat = r + 1
  table : Tracks s.sessions s.born (fun r => (s.obj r).id) fun r => (s.obj r).listed = true
  once : ((news s.link.sent).map fun f => f.1.sessionID).Nodup
  opened : ∀ f ∈ news s.link.sent, ∃ r < s.born,
    (s.obj r).stage = .opened ∧ f.1 = (s.obj r).opening.normal
  start : ∀ r < s.born, (s.obj r).Start
  since : ∀ r < s.born, (s.obj r).since ≤ s.frames.length

/-- The invariant of the worker: the data of all streams is where it belongs. -/
structure Sound (s : Client) : Prop extends Tidy s where
  finishing : ∀ r < s.born, (s.obj r).peerEnded = true → (s.obj r).listed = true →
    s.loop = .finishing r
  writing : ∀ r rest, s.loop = .writing r rest → r < s.born
  flow : ∀ r < s.born, (s.obj r).opener = .stream →
    (s.obj r).Flow (s.loop.rest r) ((s.obj r).seen s.frames)

structure Keeps (x y : Substream) : Prop where
  opening : y.opening = x.opening
  opener : y.opener = x.opener
  stage : x.stage = .opened → y.stage = .opened
  start : x.Start → y.Start

section
variable {s : Client} {r q : Nat} {f : Substream → Substream}

lemma sound_init : Sound {} where
  nextID := rfl
  ids _ hr := absurd hr (Nat.not_lt_zero _)
  table := tracks_empty
  once := nodup_nil
  opened _ hf := by cases hf
  finishing _ hr := absurd hr (Nat.not_lt_zero _)
  start _ hr := absurd hr (Nat.not_lt_zero _)
  since _ hr := absurd hr (Nat.not_lt_zero _)
  writing _ _ hl := by cases hl
  flow _ hr := absurd hr (Nat.not_lt_zero _)

lemma Keeps.id {x y : Substream} (h : Keeps x y) : y.id = x.id :=
  congrArg FrameMetadata.sessionID h.opening

lemma Tidy.id_inj (h : Tidy s) (hr : r < s.born) (hq : q < s.born)
    (hid : (s.obj q).id = (s.obj r).id) : q = r := by
  have hq' := h.ids q hq
  rw [hid, h.ids r hr] at hq'
  omega

lemma Tidy.getSession (h : Tidy s) {id : UInt16} (hg : s.getSession id = some r) :
    r < s.born ∧ (s.obj r).id = id ∧ (s.obj r).listed = true := (h.table id r).mp hg

lemma Tidy.getSession_of_listed (h : Tidy s) (hr : r < s.born)
    (hl : (s.obj r).listed = true) : s.getSession (s.obj r).id = some r :=
  (h.table _ r).mpr ⟨hr, rfl, hl⟩

lemma Tidy.change {t : Table UInt16} (h : Tidy s) (hx : Keeps (s.obj r) (f (s.obj r)))
    (ht : Tracks t s.born (fun q => (s.obj q).id) fun q => ((s.modify r f).obj q).listed = true)
    (hsince : (f (s.obj r)).since ≤ s.frames.length) :
    Tidy (({ s with sessions := t }).modify r f) where
  nextID := h.nextID
  ids q hq := by
    refine obj_modify_ind (s := { s with sessions := t })
      (P := fun q x y => x.id.toNat = q + 1 → y.id.toNat = q + 1) ?_ (fun _ => id) (h.ids q hq)
    exact fun hid => hx.id ▸ hid
  table := by
    refine ht.congr (fun q _ => ?_) fun _ _ => Iff.rfl
    exact obj_modify_ind (s := { s with sessions := t }) (P := fun _ x y => y.id = x.id) hx.id
      fun _ => rfl
  once := h.once
  opened g hg := by
    obtain ⟨q, hq, hopen, hframe⟩ := h.opened g hg
    have hkeeps := obj_modify_ind (s := { s with sessions := t }) (q := q)
      (P := fun _ x y => Keeps x y) hx fun _ => ⟨rfl, rfl, id, id⟩
    exact ⟨q, hq, hkeeps.stage hopen, hframe.trans (congrArg _ hkeeps.opening.symm)⟩
  start q hq :=
    obj_modify_ind (s := { s with sessions := t }) (P := fun _ x y => x.Start → y.Start) hx.start
      (fun _ => id) (h.start q hq)
  since q hq := by
    refine obj_modify_ind (s := { s with sessions := t })
      (P := fun _ x y => x.since ≤ s.frames.length → y.since ≤ s.frames.length) ?_ (fun _ => id)
      (h.since q hq)
    exact fun _ => hsince

lemma Tidy.table_modify (h : Tidy s) (hl : (f (s.obj r)).listed = (s.obj r).listed) :
    Tracks s.sessions s.born (fun q => (s.obj q).id) fun q =>
      ((s.modify r f).obj q).listed = true := by
  refine h.table.congr (fun _ _ => rfl) fun q _ => ?_
  have hsame := obj_modify_ind (s := s) (q := q) (P := fun _ x y => y.listed = x.listed) hl
    fun _ => rfl
  rw [hsame]

lemma Sound.change {t : Table UInt16} (h : Sound s) (hx : Keeps (s.obj r) (f (s.obj r)))
    (ht : Tracks t s.born (fun q => (s.obj q).id) fun q => ((s.modify r f).obj q).listed = true)
    (hpeer : (f (s.obj r)).peerEnded = true → (f (s.obj r)).listed = true → s.loop = .finishing r)
    (hsince : (f (s.obj r)).since ≤ s.frames.length)
    (hflow : (s.obj r).opener = .stream → (s.obj r).Flow (s.loop.rest r) ((s.obj r).seen s.frames) →
      (f (s.obj r)).Flow (s.loop.rest r) ((f (s.obj r)).seen s.frames)) :
    Sound (({ s with sessions := t }).modify r f) where
  toTidy := h.toTidy.change hx ht hsince
  finishing q hq := by
    refine obj_modify_ind (s := { s with sessions := t })
      (P := fun q x y => (x.peerEnded = true → x.listed = true → s.loop = .finishing q) →
        y.peerEnded = true → y.listed = true → s.loop = .finishing q) ?_ (fun _ => id)
      (h.finishing q hq)
    exact fun _ => hpeer
  writing := h.writing
  flow q hq := by
    refine obj_modify_ind (s := { s with sessions := t })
      (P := fun q x y => (x.opener = .stream → x.Flow (s.loop.rest q) (x.seen s.frames)) →
        y.opener = .stream → y.Flow (s.loop.rest q) (y.seen s.frames)) ?_ (fun _ => id)
      (h.flow q hq)
    exact fun hold hopener => hflow (hx.opener ▸ hopener) (hold (hx.opener ▸ hopener))

lemma Sound.modify (h : Sound s) (hx : Keeps (s.obj r) (f (s.obj r)))
    (hl : (f (s.obj r)).listed = (s.obj r).listed)
    (hp : (f (s.obj r)).peerEnded = (s.obj r).peerEnded)
    (hsince : (f (s.obj r)).since = (s.obj r).since) (hr : r < s.born)
    (hflow : (s.obj r).opener = .stream → (s.obj r).Flow (s.loop.rest r) ((s.obj r).seen s.frames) →
      (f (s.obj r)).Flow (s.loop.rest r) ((f (s.obj r)).seen s.frames)) :
    Sound (s.modify r f) := by
  refine h.change hx (h.table_modify hl) ?_ (hsince ▸ h.since r hr) hflow
  rw [hp, hl]
  exact h.finishing r hr

lemma Sound.remove (h : Sound s) (hr : r < s.born) (hx : Keeps (s.obj r) (f (s.obj r)))
    (hl : (f (s.obj r)).listed = false) (hsince : (f (s.obj r)).since = (s.obj r).since)
    (hflow : (s.obj r).opener = .stream → (s.obj r).Flow (s.loop.rest r) ((s.obj r).seen s.frames) →
      (f (s.obj r)).Flow (s.loop.rest r) ((f (s.obj r)).seen s.frames)) :
    Sound ((s.removeSession (s.obj r).id).modify r f) := by
  refine h.change hx ?_ (fun _ hl' => by cases hl.symm.trans hl') (hsince ▸ h.since r hr) hflow
  refine h.table.erase_of_inj (fun q hq => h.id_inj hr hq) (fun _ _ => rfl) fun q _ => ?_
  by_cases hq : q = r
  · subst hq
    rw [obj_modify_self, hl]
    simp
  · rw [obj_modify_of_ne hq, and_iff_left hq]

lemma Sound.relink {link : Link} (h : Sound s) (hn : news link.sent = news s.link.sent) :
    Sound { s with link := link } :=
  { h with
    once := by rw [hn]; exact h.once
    opened := by rw [hn]; exact h.opened }

lemma Sound.push {c : Call} (h : Sound s) (hc : c.status ≠ statusNew) :
    Sound { s with link := s.link.push c } := by
  refine h.relink ?_
  rcases sent_push s.link c with hs | hs
  · rw [hs]
  · rw [hs, news_append, Call.news_frames hc, append_nil]

lemma Sound.toIdle (h : Sound s) (hrest : ∀ q, s.loop.rest q = [])
    (hfin : ∀ q < s.born, s.loop = .finishing q → (s.obj q).listed = false) :
    Sound { s with loop := .idle } :=
  { h with
    finishing := fun q hq hp hl =>
      by cases (hfin q hq (h.finishing q hq hp hl)).symm.trans hl
    writing := by simp
    flow := fun q hq hopener => by
      have hflow := h.flow q hq hopener
      rwa [hrest] at hflow }

/-! ### Steps of a sub-stream -/

lemma seen_restage {x : Substream} {a : Stage} {c : Closing} {e : Bool} {fs : List Frame}
    (hx : x.stage ≠ .allocated) (ha : a ≠ .allocated) :
    { x with stage := a, finish := c, ended := e : Substream }.seen fs = x.seen fs := by
  rw [seen, if_neg ha, seen, if_neg hx]

lemma Sound.unopened (h : Sound s) (hr : r < s.born) (hs : (s.obj r).stage ≠ .opened) :
    ∀ g ∈ news s.link.sent, g.1.sessionID ≠ (s.obj r).id := by
  intro g hg hid
  obtain ⟨q, hq, hopen, hframe⟩ := h.opened g hg
  rw [hframe, FrameMetadata.normal_sessionID] at hid
  rw [h.id_inj hr hq hid] at hopen
  exact hs hopen

lemma stage_of_ready {x : Substream} (h : x.ready = true) :
    x.stage = if x.opener = .control then .allocated else .registered := of_decide_eq_true h

lemma Sound.advance {a : Stage} (h : Sound s) (hr : r < s.born) (hready : (s.obj r).ready = true)
    (ha : a = .opened ∨ a = .failing) : Sound (s.modify r fun x => { x with stage := a }) := by
  have hstage := stage_of_ready hready
  have ha' : a ≠ .allocated ∧ a ≠ .failed := by rcases ha with rfl | rfl <;> decide
  have hl : { s.obj r with stage := a : Substream }.listed = (s.obj r).listed := by
    by_cases hctl : (s.obj r).opener = .control
    · simp [listed, hctl]
    · rw [if_neg hctl] at hstage
      simp only [listed, hstage]
      rcases ha with rfl | rfl <;> rfl
  refine h.modify ⟨rfl, rfl, fun ho => ?_, fun _ hs => absurd hs ha'.1⟩ hl rfl rfl hr
    fun hopener hflow => ?_
  · rw [hstage] at ho
    split at ho <;> cases ho
  · rw [hopener, if_neg (by simp)] at hstage
    have hx : (s.obj r).stage ≠ .allocated := fun hs => by cases hstage.symm.trans hs
    rw [seen_restage hx ha'.1]
    exact hflow.restage (fun hl' => hl ▸ hl') id

lemma upload_status (x : Substream) (data : Str) : (x.upload data).status = statusKeep := by
  rw [upload]
  split <;> rfl

/-! ### New sub-streams -/

lemma Sound.opened_of_write {link : Link} (h : Sound s) (hr : r < s.born)
    (hready : (s.obj r).ready = true)
    (hw : s.link.write (.frame (s.obj r).opening []) = some link) :
    Sound (({ s with link := link }).modify r fun x => { x with stage := .opened }) := by
  have hs : (s.obj r).stage ≠ .opened := by
    rw [stage_of_ready hready]
    split <;> decide
  have hsent : news link.sent = news s.link.sent ++ [((s.obj r).opening.normal, [])] := by
    rw [sent_write hw, news_append]
    rfl
  have hnew := h.advance hr hready (.inl rfl)
  refine { hnew with once := ?_, opened := fun g hg => ?_ }
  · change ((news link.sent).map _).Nodup
    rw [hsent, map_append, nodup_append]
    refine ⟨h.once, nodup_singleton _, ?_⟩
    intro a ha b hb
    obtain ⟨g, hg, rfl⟩ := mem_map.mp ha
    rw [mem_singleton.mp hb]
    exact (FrameMetadata.normal_sessionID _).symm ▸ h.unopened hr hs g hg
  · change g ∈ news link.sent at hg
    rw [hsent] at hg
    rcases mem_append.mp hg with hg | hg
    · exact hnew.opened g hg
    · refine ⟨r, hr, ?_⟩
      rw [mem_singleton.mp hg, obj_modify_self]
      exact ⟨rfl, rfl⟩

/-- **The steps of a sub-stream** keep the invariant. -/
lemma Sound.acts {s' : Client} {e : Event} (h : Sound s) (hr : r < s.born) (ha : Acts s r e s') :
    Sound s' := by
  have hstarted : (s.obj r).finish ≠ .fresh → (s.obj r).stage ≠ .allocated := fun hf hs =>
    hf (h.start r hr hs).2.1
  cases ha with
  | rest => exact h
  | register hs hctl =>
    obtain ⟨hclosed, hfresh, hpeer⟩ := h.start r hr hs
    have hunlisted : ¬ (s.obj r).listed = true := by simp [listed, hs]
    refine h.change ⟨rfl, rfl, fun ho => (by cases hs.symm.trans ho), fun _ hs' => by cases hs'⟩
      ?_ (fun hp => by cases hpeer.symm.trans hp) le_rfl fun _ hflow => ?_
    · refine h.table.insert_of_lt hr (h.table.lookup_eq_none (fun q hq => h.id_inj hr hq) hunlisted)
        (fun _ _ => rfl) fun q _ => ?_
      by_cases hq : q = r
      · subst hq
        rw [obj_modify_self]
        simp [listed, hctl, hfresh]
      · rw [obj_modify_of_ne hq]
        simp [hq]
    · rw [seen, if_pos hs] at hflow
      rw [seen, if_neg (by simp), drop_length]
      exact hflow.register hclosed s.frames.length
  | announce hready hw => exact h.opened_of_write hr hready hw
  | refused hready =>
    by_cases hp : (s.obj r).opener = .packet
    · rw [modify_congr (g := fun x => { x with stage := .opened }) (by rw [if_pos hp])]
      exact h.advance hr hready (.inl rfl)
    · rw [modify_congr (g := fun x => { x with stage := .failing }) (by rw [if_neg hp])]
      exact h.advance hr hready (.inr rfl)
  | abandon hs =>
    have hl : { s.obj r with stage := .failed : Substream }.listed = false := by
      simp [listed]
    refine h.remove hr ⟨rfl, rfl, fun ho => (by cases hs.symm.trans ho), fun _ hs' => by cases hs'⟩
      hl rfl fun _ hflow => ?_
    have hx : (s.obj r).stage ≠ .allocated := fun ha => by cases hs.symm.trans ha
    rw [seen, if_neg hx] at hflow
    exact (hflow.restage (a := .failed) (fun hl' => by cases hl.symm.trans hl') id).close hl
  | send data =>
    refine h.push ?_
    rw [upload_status]
    decide
  | close =>
    have hpush : Sound { s with link := s.link.push (.stop (s.obj r).id false) } :=
      h.push (show statusEnd ≠ statusNew by decide)
    exact hpush.modify ⟨rfl, rfl, id, id⟩ rfl rfl rfl hr fun _ hflow => { hflow with }
  | stop hfresh hstage =>
    have hl : { s.obj r with finish := .called : Substream }.listed = (s.obj r).listed := by
      simp [listed, hfresh]
    refine h.modify ⟨rfl, rfl, id, fun _ hs => absurd hs hstage⟩ hl rfl rfl hr fun _ hflow => ?_
    exact hflow.restage (fun hl' => hl ▸ hl') (by simp)
  | remove hc =>
    have hl : { s.obj r with finish := .removed : Substream }.listed = false := by
      simp [listed]
    refine h.remove hr ⟨rfl, rfl, id, fun _ hs => absurd hs (hstarted (by simp [hc]))⟩ hl rfl
      fun _ hflow => ?_
    exact hflow.restage (fun hl' => by cases hl.symm.trans hl') (by simp)
  | shut hc =>
    have hl : (s.obj r).listed = false := by simp [listed, hc]
    have hl' : { s.obj r with finish := .done : Substream }.listed = false := by
      simp [listed]
    refine h.modify ⟨rfl, rfl, id, fun _ hs => absurd hs (hstarted (by simp [hc]))⟩
      (hl'.trans hl.symm) rfl rfl hr fun hopener hflow => ?_
    simp only [if_pos hopener]
    exact (hflow.restage (c := .done) (fun h' => by cases hl'.symm.trans h') (by simp)).close hl'
  | readEOF _ he =>
    exact h.modify ⟨rfl, rfl, id, id⟩ rfl rfl rfl hr fun _ hflow => hflow.readEOF he
  | read hopen hd =>
    exact h.modify ⟨rfl, rfl, id, fun _ hs => by cases hopen.symm.trans hs⟩ rfl rfl rfl hr
      fun _ hflow => hflow.read hd

/-- While there are ids that were never used, `allocID` gives out the next one. -/
lemma Sound.allocID_eq (h : Sound s) (hb : s.born + 1 < 2 ^ 16) (x : Substream) : s.allocID x =
    { s with
      nextID := s.nextID + 1
      budget := s.budget.alloc
      obj := Function.update s.obj s.born { x with id := s.nextID + 1 }
      born := s.born + 1 } ∧ (s.nextID + 1).toNat = s.born + 1 := by
  have hnext : (s.nextID + 1).toNat = s.born + 1 := by
    rw [UInt16.toNat_add, h.nextID]
    exact Nat.mod_eq_of_lt hb
  have h0 : s.nextID + 1 ≠ 0 := by
    intro h0
    rw [h0] at hnext
    cases hnext
  have hfree : s.sessions.lookup (s.nextID + 1) = none := by
    refine Option.eq_none_iff_forall_not_mem.mpr fun q hq => ?_
    obtain ⟨hlt, hid, -⟩ := h.getSession hq
    have hq' := h.ids q hlt
    rw [hid, hnext] at hq'
    omega
  refine ⟨?_, hnext⟩
  rw [Client.allocID, show 2 ^ 16 = 65535 + 1 by rfl, nextFree_succ h0 hfree]

lemma Sound.rest_of_le (h : Sound s) (hr : s.born ≤ r) : s.loop.rest r = [] := by
  cases hl : s.loop with
  | writing q rest =>
    have hq := h.writing q rest hl
    exact if_neg (by omega)
  | _ => rfl

lemma Sound.allocID (h : Sound s) (hb : s.born + 1 < 2 ^ 16) (o : Opener) (n : UInt8)
    (a : Address) (p : UInt16) :
    Sound (s.allocID { opener := o, network := n, address := a, port := p }) := by
  obtain ⟨heq, hnext⟩ := h.allocID_eq hb { opener := o, network := n, address := a, port := p }
  rw [heq]
  have hold : ∀ q < s.born, ∀ y, Function.update s.obj s.born y q = s.obj q := fun q hq y =>
    Function.update_of_ne hq.ne y s.obj
  refine
    { nextID := hnext
      ids := forall_update (P := fun q (x : Substream) => x.id.toNat = q + 1) h.ids hnext
      table := h.table.grow (fun q hq => by simp only [hold q hq])
        (fun q hq => by simp only [hold q hq]) ?_
      once := h.once
      opened := fun f hf => ?_
      finishing := forall_update
        (P := fun q (x : Substream) => x.peerEnded = true → x.listed = true →
          s.loop = .finishing q) h.finishing (by simp)
      since := forall_update (P := fun _ (x : Substream) => x.since ≤ s.frames.length) h.since
        (Nat.zero_le _)
      start := forall_update (P := fun _ (x : Substream) => x.Start) h.start
        fun _ => ⟨rfl, rfl, rfl⟩
      writing := fun q d hl => Nat.lt_succ_of_lt (h.writing q d hl)
      flow := forall_update (P := fun q (x : Substream) => x.opener = .stream →
          x.Flow (s.loop.rest q) (x.seen s.frames)) h.flow fun _ => ?_ }
  · simp [listed]
  · obtain ⟨q, hq, hs⟩ := h.opened f hf
    exact ⟨q, Nat.lt_succ_of_lt hq, by simpa only [hold q hq] using hs⟩
  · rw [h.rest_of_le le_rfl]
    refine ⟨List.nil_prefix, fun _ => rfl, fun _ => rfl, fun _ _ f hf => absurd hf ?_,
      fun hpeer => ?_, fun heof => ?_⟩
    · exact not_mem_nil
    · cases hpeer
    · cases heof

/-! ### Steps of the read loop -/

lemma Sound.seen_append (h : Sound s) (hr : r < s.born) (f : Frame) :
    (s.obj r).seen (s.frames ++ [f]) =
      (s.obj r).seen s.frames ++ if (s.obj r).stage = .allocated then [] else [f] := by
  rw [seen, seen]
  split_ifs
  · rfl
  · rw [drop_append_of_le_length (h.since r hr)]

lemma Sound.flow_other (h : Sound s) (hidle : s.loop = .idle) (hr : r < s.born)
    (hopener : (s.obj r).opener = .stream) {f : Frame}
    (hk : (s.obj r).listed = true → ¬ IsKeep (s.obj r).id f)
    (he : (s.obj r).listed = true → (s.obj r).finish = .fresh → ¬ IsEnd (s.obj r).id f) :
    (s.obj r).Flow [] ((s.obj r).seen (s.frames ++ [f])) := by
  have hflow := h.flow r hr hopener
  rw [hidle] at hflow
  rw [h.seen_append hr]
  split_ifs
  · rwa [append_nil]
  · exact hflow.other hk he

/-- While the read loop is idle, no stream of the table has had its End. -/
lemma Sound.unended (h : Sound s) (hidle : s.loop = .idle) (hr : r < s.born)
    (hl : (s.obj r).listed = true) : (s.obj r).peerEnded = false := by
  by_contra hp
  cases hidle.symm.trans (h.finishing r hr (by simpa using hp) hl)

lemma listed_hear (x : Substream) : x.hear.listed = x.listed := by
  rw [hear]
  split_ifs with hfresh
  · simp [listed, hfresh]
  · rfl

lemma seen_hear (x : Substream) (fs : List Frame) : x.hear.seen fs = x.seen fs := by
  rw [hear]
  split <;> rfl

lemma keeps_hear {x : Substream} (h : x.listed = true) : Keeps x x.hear := by
  have hstage := stage_of_listed h
  rw [hear]
  split_ifs
  · exact ⟨rfl, rfl, id, fun _ hs => absurd hs hstage⟩
  · exact ⟨rfl, rfl, id, id⟩

lemma Sound.arrive (h : Sound s) (hidle : s.loop = .idle) {f : Frame} {l : Loop}
    (hl : ∀ q rest, l = .writing q rest → q < s.born)
    (hflow : ∀ q < s.born, (s.obj q).opener = .stream →
      (s.obj q).Flow (l.rest q) ((s.obj q).seen (s.frames ++ [f]))) :
    Sound { s with frames := s.frames ++ [f], loop := l } :=
  { h with
    finishing := fun q hq hp hl => by cases (h.unended hidle hq hl).symm.trans hp
    since := fun q hq => (h.since q hq).trans (by simp)
    writing := hl
    flow := hflow }

lemma Sound.recvKeep {m : FrameMetadata} (h : Sound s) (hidle : s.loop = .idle)
    (hm : m.status = statusKeep) (data : Str) :
    Sound (({ s with frames := s.frames ++ [(m, data)] }).recvKeep m data) := by
  have hend : ∀ id, ¬ IsEnd id (m, data) := fun _ he => absurd (hm.symm.trans he.2) (by decide)
  rw [Client.recvKeep]
  split
  case _ hg =>
    refine h.arrive hidle (by simp) fun q hq hopener => ?_
    refine h.flow_other hidle hq hopener (fun hl hk => ?_) fun _ _ => hend _
    have hg' := h.getSession_of_listed hq hl
    rw [← hk.1] at hg'
    cases hg.symm.trans hg'
  case _ r hg =>
    obtain ⟨hr, hid, hl⟩ := h.getSession hg
    have hkeep : (s.obj r).opener = .stream →
        (s.obj r).Flow data ((s.obj r).seen (s.frames ++ [(m, data)])) := by
      intro hopener
      have hflow := h.flow r hr hopener
      rw [hidle] at hflow
      rw [h.seen_append hr, if_neg (stage_of_listed hl)]
      exact hflow.keep (f := (m, data)) hl (h.unended hidle hr hl) ⟨hid.symm, hm⟩
    have hother : ∀ q < s.born, q ≠ r → (s.obj q).opener = .stream →
        (s.obj q).Flow [] ((s.obj q).seen (s.frames ++ [(m, data)])) := by
      intro q hq hne hopener
      refine h.flow_other hidle hq hopener (fun _ hk => hne ?_) fun _ _ => hend _
      exact h.id_inj hr hq (hk.1.symm.trans hid.symm)
    split_ifs with hd
    · refine h.arrive hidle (by rintro q d ⟨⟩; exact hr) fun q hq hopener => ?_
      by_cases hne : q = r
      · subst hne
        rw [Loop.rest, if_pos rfl]
        exact hkeep hopener
      · rw [Loop.rest, if_neg (Ne.symm hne)]
        exact hother q hq hne hopener
    · have hnil : (s.obj r).opener = .stream → data = [] := by
        intro hopener
        by_contra hne
        exact hd ⟨length_pos_iff.mpr hne, hopener⟩
      have hdone := h.arrive (l := .idle) (f := (m, data)) hidle (by simp) fun q hq hopener => by
          by_cases hne : q = r
          · subst hne
            exact hnil hopener ▸ hkeep hopener
          · exact hother q hq hne hopener
      rwa [← hidle] at hdone

lemma Sound.recvEnd {m : FrameMetadata} (h : Sound s) (hidle : s.loop = .idle)
    (hm : m.status = statusEnd) (data : Str) :
    Sound (({ s with frames := s.frames ++ [(m, data)] }).recvEnd m) := by
  have hkeep : ∀ id, ¬ IsKeep id (m, data) := fun _ hk => absurd (hm.symm.trans hk.2) (by decide)
  rw [Client.recvEnd]
  split
  case _ hg =>
    have hdone := h.arrive (l := .idle) (f := (m, data)) hidle (by simp) fun q hq hopener => by
        refine h.flow_other hidle hq hopener (fun _ => hkeep _) fun hl _ he => ?_
        have hg' := h.getSession_of_listed hq hl
        rw [← he.1] at hg'
        cases hg.symm.trans hg'
    rwa [← hidle] at hdone
  case _ r hg =>
    obtain ⟨hr, hid, hl⟩ := h.getSession hg
    have hend : IsEnd (s.obj r).id (m, data) := ⟨hid.symm, hm⟩
    have htidy := h.toTidy.change (keeps_hear hl) (h.table_modify (listed_hear _))
      ((since_hear _).le.trans (h.since r hr))
    refine
      { htidy with
        since := fun q hq => (htidy.since q hq).trans (by simp [Client.modify])
        finishing := fun q hq hp hl' => ?_
        writing := by simp
        flow := fun q hq hopener => ?_ }
    · by_cases hne : q = r
      · rw [hne]
      · dsimp only at hp hl'
        rw [obj_modify_of_ne hne] at hp hl'
        cases (h.unended hidle hq hl').symm.trans hp
    · dsimp only at hopener ⊢
      by_cases hne : q = r
      · subst hne
        rw [obj_modify_self] at hopener ⊢
        have hflow := h.flow q hq ((keeps_hear hl).opener.symm.trans hopener)
        have hseen := h.seen_append hq (m, data)
        rw [hidle] at hflow
        rw [if_neg (stage_of_listed hl)] at hseen
        have hnew := hflow.hear hl hend
        rwa [← hseen, ← seen_hear] at hnew
      · rw [obj_modify_of_ne hne] at hopener ⊢
        refine h.flow_other hidle hq hopener (fun _ => hkeep _) fun _ _ he => hne ?_
        exact h.id_inj hr hq (he.1.symm.trans hid.symm)

lemma Sound.recv (h : Sound s) (m : FrameMetadata) (data : Str) : Sound (s.recv m data) := by
  rw [Client.recv]
  split_ifs with hloop hkeep hend
  · exact h
  · exact h.recvKeep (not_not.mp (not_or.mp hloop).1) hkeep data
  · exact h.recvEnd (not_not.mp (not_or.mp hloop).1) hend data
  · have hidle : s.loop = .idle := not_not.mp (not_or.mp hloop).1
    have hdone := h.arrive (l := .idle) (f := (m, data)) hidle (by simp)
      fun q hq hopener =>
        h.flow_other hidle hq hopener (fun _ hk => hkeep hk.2) fun _ _ he => hend he.2
    rwa [← hidle] at hdone

/-- The read loop has these bytes left for the pipe of a stream. -/
def resume (r : Nat) (rest : Str) : Loop := if rest = [] then .idle else .writing r rest

lemma rest_resume (r q : Nat) (rest : Str) :
    (resume r rest).rest q = if r = q then rest else [] := by
  rw [resume]
  split
  case isTrue h => rw [h, ite_self]; rfl
  case isFalse => rfl

lemma Sound.writeStep {rest : Str} (h : Sound s) (hl : s.loop = .writing r rest) :
    Sound { s.modify r fun x => { x with inW := ((s.obj r).inW.write rest).1 } with
      loop := resume r ((s.obj r).inW.write rest).2 } := by
  have hr := h.writing r rest hl
  have hrest : ∀ q, s.loop.rest q = if r = q then rest else [] := fun q => by rw [hl]; rfl
  have hkeeps : Keeps (s.obj r) { s.obj r with inW := ((s.obj r).inW.write rest).1 } :=
    ⟨rfl, rfl, id, fun hs ha => ⟨(BufPipe.write_closed _ _).trans (hs ha).1, (hs ha).2⟩⟩
  refine
    { h.toTidy.change (f := fun x => { x with inW := ((s.obj r).inW.write rest).1 }) hkeeps
        (h.table_modify rfl) (h.since r hr) with
      finishing := fun q hq hp hl' => ?_
      writing := fun q d hw => ?_
      flow := fun q hq hopener => ?_ }
  · dsimp only at hp hl'
    have hsame : (s.obj q).peerEnded = true ∧ (s.obj q).listed = true :=
      obj_modify_ind (P := fun _ x y => y.peerEnded = true ∧ y.listed = true →
        x.peerEnded = true ∧ x.listed = true) id (fun _ => id) ⟨hp, hl'⟩
    cases hl.symm.trans (h.finishing q hq hsame.1 hsame.2)
  · dsimp only [resume] at hw
    split at hw
    · cases hw
    · obtain ⟨rfl, -⟩ := hw
      exact hr
  · dsimp only at hopener ⊢
    rw [rest_resume]
    by_cases hne : q = r
    · subst hne
      rw [obj_modify_self] at hopener ⊢
      have hflow := h.flow q hq hopener
      rw [hrest, if_pos rfl] at hflow
      rw [if_pos rfl]
      exact hflow.write
    · rw [obj_modify_of_ne hne] at hopener ⊢
      have hflow := h.flow q hq hopener
      rw [hrest, if_neg (Ne.symm hne)] at hflow
      rwa [if_neg (Ne.symm hne)]

lemma Sound.loopStep (h : Sound s) : Sound s.loopStep := by
  rw [Client.loopStep]
  split
  case _ => exact h
  case _ id hl =>
    have hpush : Sound { s with link := s.link.push (.stop id false) } :=
      h.push (show statusEnd ≠ statusNew by decide)
    exact hpush.toIdle (fun q => by rw [show s.loop = _ from hl]; rfl) fun q _ hf =>
      absurd (hl.symm.trans hf) (by simp)
  case _ r rest hl => exact h.writeStep hl
  case _ r hl =>
    split_ifs with hdone
    · refine h.toIdle (fun q => by rw [hl]; rfl) fun q _ hf => ?_
      obtain rfl : r = q := by simpa using hl.symm.trans hf
      simp [listed, hdone]
    · exact h

/-! ### Steps and runs -/

/-- **Step lemma of the client.** -/
lemma sound_step {e : Event} (h : Sound s) (hb : s.born < 65535) : Sound (s.step e) := by
  have halloc : ∀ o n a p,
      Sound (s.allocID { opener := o, network := n, address := a, port := p }) :=
    h.allocID (Nat.succ_lt_succ hb)
  rw [step]
  split_ifs with hborn
  · cases he : e.substream with
    | some r => exact h.acts (hborn r he) (acts_act he)
    | none =>
      cases e with
      | openStream n a p =>
        rw [act]
        split_ifs
        · exact halloc _ _ _ _
        · exact h
      | writeTo a p =>
        rw [act]
        split_ifs
        · exact halloc _ _ _ _
        · exact h
      | startControl => exact halloc _ _ _ _
      | recv m data => exact h.recv m data
      | loop => exact h.loopStep
      | shutdown => exact { h with }
      | linkDown => exact h.relink rfl
      | _ => cases he
  · exact h

end

end Client

end Ntr.Mux
