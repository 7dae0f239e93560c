/-
A client and a server of Mux.cool at the two ends of a link.

* `Tunnel`, `Tunnel.Event`, `Tunnel.step`: the two workers, which take steps in any
  order, and each of which reads the frames of the other in the order in which
  they were written;
* `Sound`, `sound_step`: the invariants of the two workers, and what connects
  them: the frames that one has read are frames that the other has written;
* `reads_own_target`: **no cross-talk**. The reads of a stream return what its own
  target has written, and all that has come before an End;
* `serves_one`: the sessions of the server are those that the client asked for.
-/
import Ntr.Mux.Demux
import Ntr.Mux.Download

namespace Ntr.Mux

open Go Lib List

def Client.Event.isRecv : Client.Event → Bool
  | .recv _ _ => true
  | _ => false

def Event.isRecv : Event → Bool
  | .recv _ _ => true
  | _ => false

/-- The two workers, and how many frames of the client the server has read. -/
structure Tunnel where
  client : Client := {}
  server : Server := {}
  up : Nat := 0

namespace Tunnel

inductive Event where
  | client (e : Client.Event)
  | server (e : Mux.Event)
  /-- The server reads the next frame of the client. -/
  | up
  /-- The client reads the next frame of the server. -/
  | down

def step (t : Tunnel) : Event → Tunnel
  | .client e => if e.isRecv then t else { t with client := t.client.step e }
  | .server e => if e.isRecv then t else { t with server := t.server.step e }
  | .up =>
    match t.client.link.sent[t.up]? with
    | none => t
    | some f =>
      if t.server.loop = .idle then
        { t with server := t.server.step (.recv f.1 f.2), up := t.up + 1 }
      else t
  | .down =>
    match t.server.link.sent[t.client.frames.length]? with
    | none => t
    | some f => { t with client := t.client.step (.recv f.1 f.2) }

/-- The session of the server serves the sub-stream of the client: it has the same
id, and it dials the target of the sub-stream. -/
structure Serves (t : Tunnel) (q r : Nat) : Prop where
  born : q < t.server.born
  id : (t.server.obj q).id = (t.client.obj r).id
  target : (t.server.obj q).control = false →
    (t.server.obj q).address = (t.client.obj r).address.normal ∧
      (t.server.obj q).port = (t.client.obj r).port

/-- **What a stream reads**: its id is its own. What its reads have returned is the
beginning of what the target of the one session that serves it has written, and
nothing as long as there is none. Behind an End of the server all data that had
come before is at the reader or in the pipe, and the end comes when the pipe is
empty. -/
structure ReadsOwn (t : Tunnel) (r : Nat) : Prop where
  own : ∀ q < t.client.born, (t.client.obj q).id = (t.client.obj r).id → q = r
  got : (t.client.obj r).got = [] ∨ ∃ q, t.Serves q r ∧ (∀ p, t.Serves p r → p = q) ∧
    (t.client.obj r).got <+: (t.server.obj q).target.wrote
  ended : (t.client.obj r).peerEnded = true →
    (t.client.obj r).got ++ (t.client.obj r).inW.buf =
      upTo (t.client.obj r).id (t.client.frames.drop (t.client.obj r).since)
  eof : (t.client.obj r).eof = true → (t.client.obj r).inW.buf = []

/-! ### The invariant -/

def opened (t : Tunnel) : List FrameMetadata :=
  (news (t.client.link.sent.take t.up)).map Prod.fst

/-- The two workers are sound, the server has read what the client has written and
the other way round, and no data comes for a stream before it is registered. -/
structure Sound (t : Tunnel) : Prop where
  client : t.client.Sound
  server : t.server.Carries t.opened t.client.frames
  early : ∀ r < t.client.born, (t.client.obj r).opener = .stream →
    payload (t.client.obj r).id (t.client.frames.take (t.client.obj r).since) = []

section
variable {t : Tunnel} {r q : Nat}

lemma sound_init : Sound {} where
  client := Client.sound_init
  server := Server.carries_init
  early _ hr := absurd hr (Nat.not_lt_zero _)

lemma Sound.opened_mem (h : Sound t) {m : FrameMetadata} (hm : m ∈ t.opened) :
    ∃ r < t.client.born, (t.client.obj r).stage = .opened ∧
      m = (t.client.obj r).opening.normal := by
  obtain ⟨f, hf, rfl⟩ := mem_map.mp hm
  obtain ⟨hf, hs⟩ := mem_news.mp hf
  exact h.client.opened f (mem_news.mpr ⟨mem_of_mem_take hf, hs⟩)

lemma Sound.openedBy (h : Sound t) (hq : q < t.server.born) (hr : r < t.client.born)
    (hid : (t.server.obj q).id = (t.client.obj r).id) : (t.client.obj r).stage = .opened ∧
      (t.server.obj q).OpenedBy (t.client.obj r).opening.normal := by
  obtain ⟨m, hm, hopen⟩ := h.server.openedBy q hq
  obtain ⟨p, hp, hstage, rfl⟩ := h.opened_mem hm
  have hpid : (t.client.obj p).id = (t.client.obj r).id :=
    (FrameMetadata.normal_sessionID _).symm.trans (hopen.id.symm.trans hid)
  obtain rfl := h.client.id_inj hr hp hpid
  exact ⟨hstage, hopen⟩

lemma Sound.silent (h : Sound t) (hr : r < t.client.born) (hs : (t.client.obj r).stage ≠ .opened) :
    payload (t.client.obj r).id t.server.link.sent = [] :=
  h.server.unknown fun _ hq hid => hs (h.openedBy hq hr hid).1

lemma Sound.clientStep {s : Client} {fs : List Frame} (h : Sound t)
    (hg : Client.Grows fs t.client s) (hs : s.Sound)
    (hread : t.client.frames ++ fs <+: t.server.link.sent) : Sound { t with client := s } where
  client := hs
  server := by
    have hsub : t.opened ⊆ { t with client := s : Tunnel }.opened := by
      refine map_subset _ fun f hf => ?_
      obtain ⟨hf, hnew⟩ := mem_news.mp hf
      exact mem_news.mpr ⟨(hg.sent.take t.up).subset hf, hnew⟩
    exact { h.server.mono hsub with read := hg.frames ▸ hread }
  early r hr hopener := by
    change payload (s.obj r).id (s.frames.take (s.obj r).since) = []
    by_cases hold : r < t.client.born
    · have hid : (s.obj r).id = (t.client.obj r).id :=
        congrArg FrameMetadata.sessionID (hg.opening r hold)
      rw [hid, hg.frames]
      rcases hg.since r hold with hsince | ⟨hstage, hsince⟩
      · rw [hsince, take_append_of_le_length (h.client.since r hold)]
        exact h.early r hold (hg.opener r hold ▸ hopener)
      · -- The stream is registered: nothing has come for it yet.
        have hnil := h.silent hold (by rw [hstage]; decide)
        rw [hsince, take_left']
        · exact prefix_nil.mp (hnil ▸ payload_mono h.server.read)
        · rfl
    · rw [hg.new r (not_lt.mp hold) hr, take_zero, payload_nil]

lemma Sound.upStep (h : Sound t) {f : Frame} (hf : t.client.link.sent[t.up]? = some f) :
    Sound { t with server := t.server.step (.recv f.1 f.2), up := t.up + 1 } := by
  have htake : t.client.link.sent.take (t.up + 1) = t.client.link.sent.take t.up ++ [f] := by
    rw [take_add_one, hf, Option.toList_some]
  have hopened : { t with server := t.server.step (.recv f.1 f.2), up := t.up + 1 : Tunnel }.opened
      = t.opened ++ Server.opens (.recv f.1 f.2) := by
    change (news (t.client.link.sent.take (t.up + 1))).map Prod.fst = _
    rw [htake, news_append, map_append]
    refine congrArg _ ?_
    by_cases hnew : f.1.status = statusNew <;> simp [news, Server.opens, hnew]
  refine { client := h.client, server := ?_, early := h.early }
  rw [hopened]
  refine Server.carries_step h.server fun m hm n hn heq => ?_
  -- The New frame has been written after those that were read.
  have hnew : f.1.status = statusNew ∧ m = f.1 := by
    rw [Server.opens] at hm
    split at hm
    case isTrue hs => exact ⟨hs, mem_singleton.mp hm⟩
    case isFalse => cases hm
  obtain ⟨g, hg, rfl⟩ := mem_map.mp hn
  have honce := h.client.once
  rw [← take_append_drop (t.up + 1) t.client.link.sent, htake, news_append, news_append,
    map_append, map_append] at honce
  have hdisj := (nodup_append.mp (nodup_append.mp honce).1).2.2
  refine hdisj g.1.sessionID (mem_map_of_mem hg) f.1.sessionID ?_ (hnew.2 ▸ heq)
  exact mem_map_of_mem (mem_news.mpr ⟨.head _, hnew.1⟩)

lemma Sound.serverStep (h : Sound t) {e : Mux.Event} (he : e.isRecv = false) :
    Sound { t with server := t.server.step e } := by
  have hopens : Server.opens e = [] := by
    cases e with
    | recv m data => cases he
    | _ => rfl
  have hs := Server.carries_step (e := e) h.server (by rw [hopens]; simp)
  rw [hopens, append_nil] at hs
  exact { client := h.client, server := hs, early := h.early }

lemma born_le_step (t : Tunnel) (e : Event) : t.client.born ≤ (t.step e).client.born := by
  have hclient : ∀ e, t.client.born ≤ (t.client.step e).born := by
    intro e
    obtain ⟨fs, hg, -⟩ := t.client.grows_step e
    exact hg.born
  cases e with
  | client e =>
    rw [step]
    split
    · exact le_rfl
    · exact hclient e
  | server e =>
    rw [step]
    split <;> exact le_rfl
  | up =>
    rw [step]
    split
    · exact le_rfl
    · split <;> exact le_rfl
  | down =>
    rw [step]
    split
    · exact le_rfl
    · exact hclient _

lemma prefix_append_of_getElem? {α : Type*} {l l' : List α} {a : α} (h : l <+: l')
    (ha : l'[l.length]? = some a) : l ++ [a] <+: l' := by
  obtain ⟨m, rfl⟩ := h
  rw [getElem?_append_right le_rfl, Nat.sub_self] at ha
  cases m with
  | nil => cases ha
  | cons b m =>
    obtain rfl := Option.some.inj ha
    exact ⟨m, by simp⟩

/-- **Step lemma of the tunnel.** -/
lemma sound_step {e : Event} (h : Sound t) (hb : t.client.born < 65535) : Sound (t.step e) := by
  cases e with
  | client e =>
    rw [step]
    split_ifs with hrecv
    · exact h
    · obtain ⟨fs, hg, hfs⟩ := t.client.grows_step e
      obtain rfl : fs = [] := by
        rcases hfs with hfs | ⟨m, data, rfl, -⟩
        · exact hfs
        · exact absurd rfl hrecv
      refine h.clientStep hg (Client.sound_step h.client hb) ?_
      rw [append_nil]
      exact h.server.read
  | server e =>
    rw [step]
    split_ifs with hrecv
    · exact h
    · exact h.serverStep (by simpa using hrecv)
  | up =>
    rw [step]
    split
    · exact h
    case _ f hf =>
      split_ifs
      · exact h.upStep hf
      · exact h
  | down =>
    rw [step]
    split
    · exact h
    case _ f hf =>
      obtain ⟨fs, hg, hfs⟩ := t.client.grows_step (.recv f.1 f.2)
      refine h.clientStep hg (Client.sound_step h.client hb) ?_
      rcases hfs with rfl | ⟨m, data, he, rfl⟩
      · rw [append_nil]
        exact h.server.read
      · obtain ⟨rfl, rfl⟩ := he
        exact prefix_append_of_getElem? h.server.read hf

/-- **Run lemma of the tunnel**, for runs that open fewer sub-streams than there are
ids. -/
lemma sound_run {es : List Event} (hb : (es.foldl step {}).client.born < 65535) :
    Sound (es.foldl step {}) := by
  have hsteps : EachStep step (fun _ _ => True) {} es := eachStep_of_forall fun _ _ => trivial
  refine foldl_invariant (I := fun t => t.client.born < 65535 → Sound t) ?_ (fun _ => sound_init)
    hsteps hb
  intro t e ht _ hb'
  have hb := (born_le_step t e).trans_lt hb'
  exact sound_step (ht hb) hb

lemma Sound.got_prefix (h : Sound t) (hr : r < t.client.born)
    (hs : (t.client.obj r).opener = .stream) :
    (t.client.obj r).got <+: payload (t.client.obj r).id t.client.frames := by
  have harrived := (h.client.flow r hr hs).arrived
  rw [append_assoc] at harrived
  have hgot := (prefix_append (t.client.obj r).got _).trans harrived
  rw [Substream.seen] at hgot
  split at hgot
  · exact (prefix_nil.mp hgot).symm ▸ List.nil_prefix
  · have hsplit := payload_append (t.client.obj r).id
      (t.client.frames.take (t.client.obj r).since) (t.client.frames.drop (t.client.obj r).since)
    rw [take_append_drop, h.early r hr hs, nil_append] at hsplit
    rwa [hsplit]

lemma Sound.readsOwn (h : Sound t) (hr : r < t.client.born)
    (hs : (t.client.obj r).opener = .stream) (hn : (t.client.obj r).network ≠ networkUDP) :
    t.ReadsOwn r := by
  have hflow := h.client.flow r hr hs
  have hgot := (h.got_prefix hr hs).trans (payload_mono h.server.read)
  refine ⟨fun q hq hid => h.client.id_inj hr hq hid, ?_, fun hp => ?_, fun he => (hflow.eof he).1⟩
  · by_cases hq : ∃ q < t.server.born, (t.server.obj q).id = (t.client.obj r).id
    · obtain ⟨q, hq, hid⟩ := hq
      obtain ⟨-, hopen⟩ := h.openedBy hq hr hid
      have hudp : (t.server.obj q).udp = false := by
        by_contra hu
        exact hn (hopen.udp (by simpa using hu))
      have hcarried := (h.server.data q hq hudp).carried
      rw [hid] at hcarried
      exact .inr ⟨q, ⟨hq, hid, hopen.target⟩, fun p hp => h.server.ids p hp.born q hq
        (hp.id.trans hid.symm), hgot.trans (hcarried.trans (List.take_prefix _ _))⟩
    · have hnil := h.server.unknown fun q hlt hid => hq ⟨q, hlt, hid⟩
      exact .inl (prefix_nil.mp (hnil ▸ hgot))
  · have hstage : (t.client.obj r).stage ≠ .allocated := fun ha =>
      by cases (h.client.start r hr ha).2.2.symm.trans hp
    have hpeer := (hflow.peer hp).2.2.1
    rwa [Substream.seen, if_neg hstage] at hpeer

/-- **No cross-talk**: in every run that opens fewer than 65535 sub-streams, in any
order of the steps of the two workers, every TCP stream of the client reads what
its own target has written. -/
theorem reads_own_target {es : List Event} (hb : (es.foldl step {}).client.born < 65535) {r : Nat}
    (hr : r < (es.foldl step {}).client.born)
    (hs : ((es.foldl step {}).client.obj r).opener = .stream)
    (hn : ((es.foldl step {}).client.obj r).network ≠ networkUDP) : (es.foldl step {}).ReadsOwn r :=
  (sound_run hb).readsOwn hr hs hn

/-- Two streams: their targets write in turns, the reads take what has come, and the
target of the first ends. -/
def twoStreams : List Event :=
  [.client (.openStream networkTCP { ip := [10, 0, 0, 1] } 80), .client (.register 0),
    .client (.announce 0), .client (.openStream networkTCP { ip := [10, 0, 0, 2] } 80),
    .client (.register 1), .client (.announce 1), .up, .up, .server (.dial 1 true),
    .server (.dial 0 true), .server (.targetWrite 0 [1, 2, 3]), .server (.targetWrite 1 [7, 8]),
    .server (.landRead 0 2), .server (.landRead 1 9), .server (.land 1), .server (.land 0),
    .server (.landRead 0 2), .server (.land 0), .server (.landEOF 0), .server (.finish 0),
    .server (.finish 0), .down, .client .loop, .down, .client .loop, .down, .client .loop,
    .client (.read 0 2), .down, .client (.finish 0), .client (.finish 0), .client .loop,
    .client (.read 0 2), .client (.read 0 2), .client (.read 1 1)]

/-- The first of them has read all that its target has written, up to the end. -/
theorem reads_own_target_twoStreams : (twoStreams.foldl step {}).ReadsOwn 0 ∧
    ((twoStreams.foldl step {}).client.obj 0).got = [1, 2, 3] ∧
    ((twoStreams.foldl step {}).client.obj 0).eof = true ∧
    ((twoStreams.foldl step {}).client.obj 1).got = [7] := by
  refine ⟨reads_own_target (by decide +kernel) (by decide +kernel) (by decide +kernel)
    (by decide +kernel), by decide +kernel, by decide +kernel, by decide +kernel⟩

/-- **The server dials what was asked for**: in every such run each session serves one
sub-stream, which the client has opened, and no sub-stream has two sessions. -/
theorem serves_one {es : List Event} (hb : (es.foldl step {}).client.born < 65535) {q : Nat}
    (hq : q < (es.foldl step {}).server.born) :
    let t := es.foldl step {}
    ∃ r < t.client.born, (t.client.obj r).stage = .opened ∧ t.Serves q r ∧
      (∀ r' < t.client.born, t.Serves q r' → r' = r) ∧ ∀ q', t.Serves q' r → q' = q := by
  have h := sound_run hb
  obtain ⟨m, hm, hopen⟩ := h.server.openedBy q hq
  obtain ⟨r, hr, hstage, rfl⟩ := h.opened_mem hm
  have hid := hopen.id.trans (FrameMetadata.normal_sessionID _)
  refine ⟨r, hr, hstage, ⟨hq, hid, hopen.target⟩, fun r' hr' hs => ?_, fun q' hs => ?_⟩
  · exact h.client.id_inj hr hr' (hs.id.symm.trans hid)
  · exact h.server.ids q' hs.born q hq (hs.id.trans hid.symm)

theorem serves_one_twoStreams :
    ∃ r < (twoStreams.foldl step {}).client.born, (twoStreams.foldl step {}).Serves 1 r := by
  have hb : (twoStreams.foldl step {}).client.born < 65535 := by decide +kernel
  obtain ⟨r, hr, -, hs, -⟩ := serves_one hb (q := 1) (by decide +kernel)
  exact ⟨r, hr, hs⟩

end

end Tunnel

end Ntr.Mux
