/-
Admission cannot be passed by, and the switches reach what was admitted.

* `Upheld`: bytes of a client are relayed only between the admission of its
  flow and the release; a refused flow is closed when its call returns; a
  switch closes the client of every admitted flow it is aimed at;
* `Meets`: the steps on which the paths do their part. Native UDP does not
  come to the entrance, and the streams and the hook of session protocols hand
  nothing to it that could be closed;
* `upheld_of_meets`: in every run of such steps, from any state of gates,
  limits and memory, the guarantee is upheld.
-/
import Ntr.Service.Admission

namespace Ntr.Service

open Go Meter Relation Node List Function

/-! ### The guarantee -/

/-- The flow has been admitted and not been released since. -/
def OpenIn (log : List Event) (f : FlowID) : Prop :=
  ∃ before since, log = before ++ .admitted f :: since ∧ .released f ∉ since

/-- The flow runs with a metered admission under the number `c`. -/
def Node.Metered (s : Node) (f : FlowID) (fl : Flow) (c : ConnID) : Prop :=
  s.flows f = some fl ∧ fl.running = true ∧ fl.ticket = some ⟨some c⟩

/-- The guarantee on a state of the node. -/
structure Upheld (s : Node) : Prop where
  relayed : ∀ before after f, s.log = before ++ .relayed f :: after → OpenIn before f
  refused : ∀ f, .refused f ∈ s.log → .returned f ∈ s.log → s.closed (client f) = true
  killed : ∀ f fl c k, s.Metered f fl c → k.Aims fl.call.who c fl.call.src →
    (s.cut k).settle.closed (client f) = true

/-! ### The condition -/

def Path.HandsClient (p : Path) : Prop := p ≠ .native ∧ p ≠ .sessionStream ∧ p ≠ .sessionHook

/-- The entrance is open to an admitter that does not meter. -/
def Node.HasRoom (s : Node) (a : Admitter) : Prop :=
  (a.guarded = true → s.phase = .normal) ∧ (acquireGates a.gates s.gates).2 = true

/-- The steps on which the guarantee is kept. A flow lands on a path that hands
its client to the entrance, or on native UDP, or on a path of a session
protocol with an admitter that does not meter and has room; the next number
is not that of a running flow; and no bytes of native UDP are relayed. -/
def Meets (s : Node) : Action → Prop
  | .land _ p k =>
    (p.HandsClient ∨ p = .native ∨ (k.adm.metered = false ∧ s.HasRoom k.adm)) ∧
      ∀ g gl, ¬ s.Metered g gl (s.reg.connSeq + 1)
  | .relay f => ∀ fl, s.flows f = some fl → fl.path ≠ .native
  | _ => True

/-- A step that meets the condition. -/
def GoodStep (s s' : Node) : Prop := ∃ a, Meets s a ∧ s.act a = some s'

/-- A node on which nothing has landed yet, with any gates, limits, switches
and memory. -/
structure Fresh (s : Node) : Prop where
  flows : ∀ f, s.flows f = none
  log : s.log = []

/-! ### The invariant -/

/-- The client is closed, or a closer for it has been started. -/
def Node.Closing (s : Node) (c : Closer) : Prop := s.closed c = true ∨ c ∈ s.spawned

/-- The metered flow stands in the registry with its client among the closers,
or its client is closing. -/
def Node.Entered (s : Node) (f : FlowID) (k : Call) (c : ConnID) : Prop :=
  s.reg.idx c = some k.who ∧
    ((∃ h, (c, h) ∈ s.reg.live k.who ∧ h.src = k.src ∧ client f ∈ h.kill) ∨ s.Closing (client f))

structure Inv (s : Node) : Prop where
  relayed : ∀ before after f, s.log = before ++ .relayed f :: after → OpenIn before f
  refused : ∀ f, .refused f ∈ s.log → s.closed (client f) = true
  opened : ∀ f fl, s.flows f = some fl → fl.running = true → fl.path ≠ .native → OpenIn s.log f
  entered : ∀ f fl c, s.Metered f fl c → s.Entered f fl.call c
  distinct : ∀ f g fl gl c, s.Metered f fl c → s.Metered g gl c → f = g

lemma Fresh.inv {s : Node} (h : Fresh s) : Inv s where
  relayed before after f hlog := by
    rw [h.log] at hlog
    simp at hlog
  refused f hf := by
    rw [h.log] at hf
    cases hf
  opened f fl hfl := by
    rw [h.flows] at hfl
    cases hfl
  entered f fl c hm := by
    have := hm.1
    rw [h.flows] at this
    cases this
  distinct f g fl gl c hm := by
    have := hm.1
    rw [h.flows] at this
    cases this

lemma Inv.upheld {s : Node} (h : Inv s) : Upheld s where
  relayed := h.relayed
  refused f hf _ := h.refused f hf
  killed f fl c k hm hk := by
    obtain ⟨hidx, hlive⟩ := h.entered f fl c hm
    simp only [settle, closeAll, Node.cut, Bool.or_eq_true, contains_iff_mem, mem_append]
    rcases hlive with ⟨hd, hmem, hsrc, hkill⟩ | hcl | hsp
    · rw [← hsrc] at hk
      exact .inr (.inr (s.reg.closers_cut k hmem hidx hk _ hkill))
    · exact .inl hcl
    · exact .inr (.inl hsp)

/-! ### What keeps the invariant -/

lemma OpenIn.append {log : List Event} {f : FlowID} {e : Event} (h : OpenIn log f)
    (he : e ≠ .released f) : OpenIn (log ++ [e]) f := by
  obtain ⟨before, since, rfl, hsince⟩ := h
  refine ⟨before, since ++ [e], by simp, ?_⟩
  simpa using ⟨hsince, he.symm⟩

lemma openIn_admitted (log : List Event) (f : FlowID) : OpenIn (log ++ [.admitted f]) f :=
  ⟨log, [], rfl, by simp⟩

section
variable {s s' : Node} {f : FlowID}

/-- The flows and the log stay, closed connections stay closed, and the metered
flows stay in the registry. -/
lemma Inv.frame (h : Inv s) (hflows : s'.flows = s.flows) (hlog : s'.log = s.log)
    (hclosed : ∀ c, s.closed c = true → s'.closed c = true)
    (hentered : ∀ f fl c, s.Metered f fl c → s.Entered f fl.call c → s'.Entered f fl.call c) :
    Inv s' := by
  have hmet : ∀ f fl c, s'.Metered f fl c ↔ s.Metered f fl c := by
    intro f fl c
    rw [Node.Metered, hflows, Node.Metered]
  refine ⟨?_, ?_, ?_, ?_, ?_⟩
  · rw [hlog]
    exact h.relayed
  · rw [hlog]
    exact fun f hf => hclosed _ (h.refused f hf)
  · rw [hlog, hflows]
    exact h.opened
  · intro f fl c hm
    rw [hmet] at hm
    exact hentered f fl c hm (h.entered f fl c hm)
  · intro f g fl gl c hm hm'
    rw [hmet] at hm hm'
    exact h.distinct f g fl gl c hm hm'

lemma Inv.closeAll (h : Inv s) (cs : List Closer) : Inv (s.closeAll cs) := by
  have hclosed : ∀ c, s.closed c = true → (s.closeAll cs).closed c = true := by
    intro c hc
    simp [Node.closeAll, hc]
  refine h.frame rfl rfl hclosed ?_
  rintro f fl c - ⟨hidx, hlive | hcl | hsp⟩
  · exact ⟨hidx, .inl hlive⟩
  · exact ⟨hidx, .inr (.inl (hclosed _ hcl))⟩
  · exact ⟨hidx, .inr (.inr hsp)⟩

lemma Inv.sameLive (h : Inv s) {r : Registry} (hr : SameLive s.reg r) : Inv { s with reg := r } := by
  refine h.frame rfl rfl (fun _ hc => hc) ?_
  rintro f fl c - ⟨hidx, hlive⟩
  refine ⟨?_, ?_⟩
  · change r.idx c = _
    rw [hr.idx, hidx]
  · change (∃ h, (c, h) ∈ r.live _ ∧ _) ∨ _
    rw [hr.live]
    exact hlive

lemma Inv.setGates (h : Inv s) (gates : List Gate) : Inv { s with gates := gates } :=
  h.frame rfl rfl (fun _ hc => hc) fun _ _ _ _ hent => hent

lemma Inv.emit (h : Inv s) {e : Event} (hrelayed : ∀ f, e = .relayed f → OpenIn s.log f)
    (hrefused : ∀ f, e = .refused f → s.closed (client f) = true)
    (hreleased : ∀ f fl, e = .released f → s.flows f = some fl → fl.running = false) :
    Inv (s.emit e) := by
  refine ⟨?_, ?_, ?_, h.entered, h.distinct⟩
  · intro before after f hlog
    change s.log ++ [e] = _ at hlog
    rcases eq_nil_or_concat after with rfl | ⟨init, last, rfl⟩
    · obtain ⟨rfl, he⟩ := append_inj' hlog rfl
      exact hrelayed f (List.cons.inj he).1
    · rw [concat_eq_append, ← cons_append, ← append_assoc] at hlog
      exact h.relayed before init f (append_inj' hlog rfl).1
  · intro f hf
    rcases mem_append.mp hf with hf | hf
    · exact h.refused f hf
    · exact hrefused f (mem_singleton.mp hf).symm
  · intro f fl hfl hrun hpath
    refine (h.opened f fl hfl hrun hpath).append ?_
    rintro rfl
    rw [hreleased f fl rfl hfl] at hrun
    cases hrun

lemma Inv.setFlow_idle (h : Inv s) {fl : Flow} (hfl : fl.running = false) :
    Inv (s.setFlow f fl) := by
  have hne : ∀ g gl, (s.setFlow f fl).flows g = some gl → gl.running = true →
      s.flows g = some gl := by
    intro g gl hg hrun
    by_cases hgf : g = f
    · subst hgf
      simp only [setFlow, update_self, Option.some.injEq] at hg
      rw [← hg, hfl] at hrun
      cases hrun
    · simpa [setFlow, hgf] using hg
  have hmet : ∀ g gl c, (s.setFlow f fl).Metered g gl c → s.Metered g gl c :=
    fun g gl c hm => ⟨hne g gl hm.1 hm.2.1, hm.2⟩
  exact ⟨h.relayed, h.refused, fun g gl hg hrun => h.opened g gl (hne g gl hg hrun) hrun,
    fun g gl c hm => h.entered g gl c (hmet g gl c hm),
    fun g g' gl gl' c hm hm' => h.distinct g g' gl gl' c (hmet _ _ _ hm) (hmet _ _ _ hm')⟩

/-- A flow that runs with an open admission, entered under a number of its
own. -/
lemma Inv.relayFlow (h : Inv s) {p : Path} {k : Call} {t : Option Ticket}
    (hopen : p ≠ .native → OpenIn s.log f)
    (hent : ∀ c, t = some ⟨some c⟩ → s.Entered f k c ∧ ∀ g gl, ¬ s.Metered g gl c) :
    Inv (s.relayFlow f p k t) := by
  have hcases : ∀ g gl, (s.relayFlow f p k t).flows g = some gl →
      (g = f ∧ gl = ⟨p, k, t, true⟩) ∨ s.flows g = some gl := by
    intro g gl hg
    by_cases hgf : g = f
    · subst hgf
      simp only [Node.relayFlow, Node.setFlow, Function.update_self, Option.some.injEq] at hg
      exact .inl ⟨rfl, hg.symm⟩
    · simp only [Node.relayFlow, Node.setFlow, Function.update_of_ne hgf] at hg
      exact .inr hg
  refine ⟨h.relayed, h.refused, ?_, ?_, ?_⟩
  · intro g gl hg hrun hpath
    rcases hcases g gl hg with ⟨rfl, rfl⟩ | hg
    · exact hopen hpath
    · exact h.opened g gl hg hrun hpath
  · intro g gl c hm
    rcases hcases g gl hm.1 with ⟨rfl, rfl⟩ | hg
    · exact (hent c hm.2.2).1
    · exact h.entered g gl c ⟨hg, hm.2⟩
  · intro g g' gl gl' c hm hm'
    rcases hcases g gl hm.1 with ⟨rfl, rfl⟩ | hg <;>
      rcases hcases g' gl' hm'.1 with ⟨rfl, rfl⟩ | hg'
    · rfl
    · exact absurd ⟨hg', hm'.2⟩ ((hent c hm.2.2).2 g' gl')
    · exact absurd ⟨hg, hm.2⟩ ((hent c hm'.2.2).2 g gl)
    · exact h.distinct g g' gl gl' c ⟨hg, hm.2⟩ ⟨hg', hm'.2⟩

lemma Inv.leave (h : Inv s) (p : Path) (k : Call) : Inv (s.leave f p k) :=
  (h.setFlow_idle rfl).emit (by simp) (by simp) (by simp)

/-! ### The entrance -/

lemma Inv.refuse (h : Inv s) {closers : List Closer} (hcl : client f ∈ closers) :
    Inv ((s.closeAll closers).emit (.refused f)) := by
  refine (h.closeAll closers).emit (by simp) ?_ (by simp)
  rintro g ⟨⟩
  simp [Node.closeAll, hcl]

structure Admits (s s' : Node) (f : FlowID) (k : Call) (t : Ticket) : Prop where
  inv : Inv s'
  flows : s'.flows = s.flows
  opened : OpenIn s'.log f
  entered : ∀ c, t.conn = some c → s'.Entered f k c ∧ ∀ g gl, ¬ s.Metered g gl c

/-- A connection enters the registry under a number that no running flow has. -/
lemma Inv.enters (h : Inv s) {r : Registry} {id : CredID} {connID : ConnID} {hd : ConnHandle}
    (hr : Registry.Enters s.reg r id connID hd) (hnum : ∀ g gl, ¬ s.Metered g gl connID) :
    Inv { s with reg := r } := by
  refine h.frame rfl rfl (fun _ hc => hc) ?_
  rintro g gl c hm ⟨hidx, hlive⟩
  have hne : c ≠ connID := by
    rintro rfl
    exact hnum g gl hm
  refine ⟨?_, ?_⟩
  · change r.idx c = _
    rw [hr.idx, update_of_ne hne, hidx]
  · refine hlive.imp_left ?_
    rintro ⟨hd', hmem, hsrc, hkill⟩
    refine ⟨hd', ?_, hsrc, hkill⟩
    change _ ∈ r.live _
    rw [hr.live]
    by_cases hid : gl.call.who = id
    · rw [if_pos hid]
      exact mem_cons_of_mem _ (mem_filter.mpr ⟨hid ▸ hmem, by simpa using hne⟩)
    · rw [if_neg hid]
      exact hmem

lemma admitConn_cases (h : Inv s) {k : Call} {closers : List Closer}
    (hnum : ∀ g gl, ¬ s.Metered g gl (s.reg.connSeq + 1))
    (hcl : client f ∈ closers ∨ (k.adm.metered = false ∧ s.HasRoom k.adm)) :
    ((s.admitConn f k closers).2 = none ∧ Inv (s.admitConn f k closers).1) ∨
      ∃ t, (s.admitConn f k closers).2 = some t ∧ Admits s (s.admitConn f k closers).1 f k t := by
  unfold admitConn
  by_cases hmem : k.adm.guarded = true ∧ s.phase ≠ .normal
  · rw [if_pos hmem]
    rcases hcl with hcl | ⟨-, hroom, -⟩
    · exact .inl ⟨rfl, h.refuse hcl⟩
    · exact absurd (hroom hmem.1) hmem.2
  rw [if_neg hmem]
  dsimp only
  by_cases hok : (acquireGates k.adm.gates s.gates).2 = false
  · rw [if_pos hok]
    rcases hcl with hcl | ⟨-, -, hroom⟩
    · exact .inl ⟨rfl, (h.setGates _).refuse hcl⟩
    · rw [hroom] at hok
      cases hok
  rw [if_neg hok]
  by_cases hmet : k.adm.metered = true
  · rw [if_pos hmet]
    obtain hcl | ⟨hno, -⟩ := hcl
    swap
    · rw [hmet] at hno
      cases hno
    rcases s.reg.openConn_cases k.who k.src closers k.now with ⟨hnone, hsame⟩ | ⟨hsome, hent⟩
    · rw [hnone]
      dsimp only
      exact .inl ⟨rfl, ((h.sameLive hsame).setGates _).refuse hcl⟩
    · rw [hsome]
      dsimp only
      refine .inr ⟨⟨some (s.reg.connSeq + 1)⟩, rfl, ?_, rfl, openIn_admitted _ f, ?_⟩
      · exact ((h.enters hent hnum).setGates _).emit (e := .admitted f) (by simp) (by simp) (by simp)
      · rintro c ⟨⟩
        refine ⟨⟨?_, .inl ⟨⟨closers, k.src, k.now⟩, ?_, rfl, hcl⟩⟩, hnum⟩
        · change (Registry.openConn _ _ _ _ _).1.idx _ = _
          rw [hent.idx, update_self]
        · change _ ∈ (Registry.openConn _ _ _ _ _).1.live _
          rw [hent.live, if_pos rfl]
          exact mem_cons_self
  · rw [if_neg hmet]
    refine .inr ⟨⟨none⟩, rfl, ?_, rfl, openIn_admitted _ f, ?_⟩
    · exact (h.setGates _).emit (e := .admitted f) (by simp) (by simp) (by simp)
    · rintro c ⟨⟩

/-- A connection leaves the registry whose number no running flow has. -/
lemma Inv.done (h : Inv s) {id : CredID} {src : Addr} {connID : ConnID}
    (hnum : ∀ g gl, ¬ s.Metered g gl connID) : Inv { s with reg := s.reg.done id src connID } := by
  refine h.frame rfl rfl (fun _ hc => hc) ?_
  rintro g gl c hm ⟨hidx, hlive⟩
  have hne : c ≠ connID := by
    rintro rfl
    exact hnum g gl hm
  refine ⟨?_, ?_⟩
  · change (s.reg.done id src connID).idx c = _
    rw [Registry.idx_done, update_of_ne hne, hidx]
  · refine hlive.imp_left ?_
    rintro ⟨hd, hmem, hsrc, hkill⟩
    refine ⟨hd, ?_, hsrc, hkill⟩
    change _ ∈ (s.reg.done id src connID).live _
    rw [Registry.live_done]
    by_cases hid : gl.call.who = id
    · rw [if_pos hid]
      exact mem_filter.mpr ⟨hid ▸ hmem, by simpa using hne⟩
    · rw [if_neg hid]
      exact hmem

lemma Inv.release (h : Inv s) {k : Call} {t : Ticket}
    (hidle : ∀ fl, s.flows f = some fl → fl.running = false)
    (hnum : ∀ c, t.conn = some c → ∀ g gl, ¬ s.Metered g gl c) : Inv (s.release f k t) := by
  have hreleased : ∀ g gl, Event.released f = .released g → s.flows g = some gl →
      gl.running = false := by
    rintro g gl ⟨⟩ hg
    exact hidle gl hg
  obtain ⟨conn⟩ := t
  cases conn with
  | none => exact (h.setGates _).emit (e := .released f) (by simp) (by simp) hreleased
  | some c =>
    have hdone : Inv { s with reg := s.reg.done k.who k.src c } := h.done (hnum c rfl)
    exact (hdone.setGates _).emit (e := .released f) (by simp) (by simp) hreleased

/-! ### Steps -/

lemma Admits.relayFlow {k : Call} {t : Ticket} (h : Admits s s' f k t) (p : Path) :
    Inv (s'.relayFlow f p k (some t)) := by
  refine h.inv.relayFlow (fun _ => h.opened) ?_
  rintro c ⟨⟩
  obtain ⟨hent, hnum⟩ := h.entered c rfl
  refine ⟨hent, fun g gl hm => hnum g gl ⟨?_, hm.2⟩⟩
  rw [← h.flows]
  exact hm.1

section
variable {k : Call} {closers : List Closer}
  (hnum : ∀ g gl, ¬ s.Metered g gl (s.reg.connSeq + 1))
  (hcl : client f ∈ closers ∨ (k.adm.metered = false ∧ s.HasRoom k.adm))

include hnum hcl

lemma Inv.enter (h : Inv s) (p : Path) : Inv (s.enter f p k closers) := by
  unfold Node.enter
  dsimp only
  rcases admitConn_cases h hnum hcl with ⟨hnone, hinv⟩ | ⟨t, hsome, hadm⟩
  · rw [hnone]
    exact hinv.leave p k
  · rw [hsome]
    exact hadm.relayFlow p

lemma Inv.enterAfter (h : Inv s) (p : Path) : Inv (s.enterAfter f p k closers) := by
  unfold Node.enterAfter
  split
  · exact h.enter hnum hcl p
  · exact (h.closeAll _).leave p k

lemma Inv.enterHook (h : Inv s) (p : Path) : Inv (s.enterHook f p k closers) := by
  unfold Node.enterHook
  dsimp only
  rcases admitConn_cases h hnum hcl with ⟨hnone, hinv⟩ | ⟨t, hsome, hadm⟩
  · rw [hnone]
    exact hinv.leave p k
  · rw [hsome]
    exact (hadm.relayFlow p).emit (by simp) (by simp) (by simp)

end

lemma Inv.sessionDispatch (h : Inv s) {k : Call}
    (hnum : ∀ g gl, ¬ s.Metered g gl (s.reg.connSeq + 1)) (hf : s.flows f = none)
    (hroom : k.adm.metered = false ∧ s.HasRoom k.adm) : Inv (s.sessionDispatch f k) := by
  unfold Node.sessionDispatch
  dsimp only
  have hcases := @admitConn_cases s f h k [] hnum (.inr hroom)
  rcases hcases with ⟨hnone, hinv⟩ | ⟨t, hsome, hadm⟩
  · rw [hnone]
    exact hinv.leave .sessionStream k
  · rw [hsome]
    dsimp only
    split
    · exact hadm.relayFlow .sessionStream
    · refine Inv.leave (Inv.release (hadm.inv.closeAll _) ?_ ?_) .sessionStream k
      · intro fl hfl
        change (s.admitConn f k []).1.flows f = some fl at hfl
        rw [hadm.flows, hf] at hfl
        cases hfl
      · intro c hc g gl hm
        refine (hadm.entered c hc).2 g gl ⟨?_, hm.2⟩
        rw [← hadm.flows]
        exact hm.1

lemma Inv.sessionPacketDispatch (h : Inv s) {k : Call}
    (hnum : ∀ g gl, ¬ s.Metered g gl (s.reg.connSeq + 1)) : Inv (s.sessionPacketDispatch f k) := by
  unfold Node.sessionPacketDispatch
  dsimp only
  rcases admitConn_cases h hnum (.inl (List.mem_singleton_self (client f))) with
    ⟨hnone, hinv⟩ | ⟨t, hsome, hadm⟩
  · rw [hnone]
    exact (hinv.closeAll _).leave .sessionPacket k
  · rw [hsome]
    exact hadm.relayFlow .sessionPacket

lemma Inv.land (h : Inv s) {p : Path} {k : Call} (hf : s.flows f = none)
    (hmeets : Meets s (.land f p k)) : Inv (s.land f k p) := by
  obtain ⟨hpath, hnum⟩ := hmeets
  have hclient : client f ∈ [client f] := mem_singleton_self _
  have hboth : client f ∈ [client f, upstream f] := mem_cons_self
  cases p with
  | stream => exact h.enterAfter hnum (.inl hboth) _
  | carrier => exact h.enter hnum (.inl hclient) _
  | substream => exact h.enterAfter hnum (.inl hboth) _
  | packet => exact h.enterAfter hnum (.inl hclient) _
  | native => exact h.relayFlow (fun hne => absurd rfl hne) (by simp)
  | sessionStream =>
    rcases hpath with hpath | hpath | hroom
    · exact absurd rfl hpath.2.1
    · cases hpath
    · exact h.sessionDispatch hnum hf hroom
  | sessionPacket => exact h.sessionPacketDispatch hnum
  | sessionHook =>
    rcases hpath with hpath | hpath | hroom
    · exact absurd rfl hpath.2.2
    · cases hpath
    · exact h.enterHook hnum (.inr hroom) _
  | tunnel => exact h.enterHook hnum (.inl hclient) _

/-- A flow ends: its number is free once it is over. -/
lemma Inv.finish (h : Inv s) {fl : Flow} (hfl : s.flows f = some fl) (hrun : fl.running = true) :
    Inv (s.finish f fl) := by
  have hidle : Inv ((s.closeAll [client f, upstream f]).setFlow f ⟨fl.path, fl.call, none, false⟩) :=
    (h.closeAll _).setFlow_idle rfl
  cases ht : fl.ticket with
  | none =>
    have heq : s.finish f fl = ((s.closeAll [client f, upstream f]).setFlow f
        ⟨fl.path, fl.call, none, false⟩).emit (.returned f) := by
      simp only [Node.finish, ht, Node.leave]
    rw [heq]
    exact hidle.emit (by simp) (by simp) (by simp)
  | some t =>
    -- the release does not look at the table of flows
    have heq : s.finish f fl = (((s.closeAll [client f, upstream f]).setFlow f
        ⟨fl.path, fl.call, none, false⟩).release f fl.call t).emit (.returned f) := by
      simp only [Node.finish, ht]
      rfl
    rw [heq]
    refine (hidle.release ?_ ?_).emit (by simp) (by simp) (by simp)
    · intro gl hgl
      simp only [setFlow, update_self, Option.some.injEq] at hgl
      rw [← hgl]
    · intro c hc g gl hm
      have hg : g ≠ f := by
        rintro rfl
        have := hm.1
        simp only [setFlow, update_self, Option.some.injEq] at this
        have hrun' := hm.2.1
        rw [← this] at hrun'
        cases hrun'
      have hgl : s.flows g = some gl := by simpa [Node.setFlow, Node.closeAll, hg] using hm.1
      have hmf : s.Metered f fl c := ⟨hfl, hrun, by rw [ht, ← hc]⟩
      exact hg (h.distinct g f gl fl c ⟨hgl, hm.2⟩ hmf)

lemma Inv.cut (h : Inv s) (k : Registry.Kill) : Inv (s.cut k) := by
  refine h.frame rfl rfl (fun _ hc => hc) ?_
  rintro f fl c - ⟨hidx, hlive⟩
  refine ⟨?_, ?_⟩
  · change (s.reg.cut k).1.idx c = _
    rw [Registry.idx_cut, hidx]
  · rcases hlive with ⟨hd, hmem, hsrc, hkill⟩ | hcl | hsp
    · -- what the switch takes out it closes
      rcases s.reg.live_cut k hmem with hmem' | hall
      · exact .inl ⟨hd, hmem', hsrc, hkill⟩
      · exact .inr (.inr (mem_append_right _ (hall _ hkill)))
    · exact .inr (.inl hcl)
    · exact .inr (.inr (mem_append_left _ hsp))

lemma Inv.close (h : Inv s) (c : Closer) :
    Inv { s.closeAll [c] with spawned := s.spawned.erase c } := by
  have hclosed : ∀ a, s.closed a = true → (s.closeAll [c]).closed a = true := by
    intro a ha
    simp [Node.closeAll, ha]
  refine h.frame rfl rfl hclosed ?_
  rintro f fl n - ⟨hidx, hlive | hcl | hsp⟩
  · exact ⟨hidx, .inl hlive⟩
  · exact ⟨hidx, .inr (.inl (hclosed _ hcl))⟩
  · refine ⟨hidx, .inr ?_⟩
    by_cases hc : client f = c
    · exact .inl (by simp [Node.closeAll, hc])
    · exact .inr ((List.mem_erase_of_ne hc).mpr hsp)

/-- **One step**: a step that meets the condition keeps the invariant. -/
lemma Inv.act (h : Inv s) {a : Action} (hmeets : Meets s a) (hact : s.act a = some s') :
    Inv s' := by
  cases a with
  | land f p k =>
    simp only [Node.act] at hact
    split at hact
    · next hf =>
      cases hact
      exact h.land hf hmeets
    · cases hact
  | relay f =>
    simp only [Node.act] at hact
    split at hact
    · next fl hfl =>
      split at hact
      · next hrun =>
        cases hact
        have hopen := h.opened f fl hfl hrun.1 (hmeets fl hfl)
        refine h.emit ?_ (by simp) (by simp)
        rintro g ⟨⟩
        exact hopen
      · cases hact
    · cases hact
  | finish f =>
    simp only [Node.act] at hact
    split at hact
    · next fl hfl =>
      split at hact
      · next hrun =>
        cases hact
        exact h.finish hfl hrun
      · cases hact
    · cases hact
  | cut k =>
    cases hact
    exact h.cut k
  | close c =>
    simp only [Node.act] at hact
    split at hact
    · cases hact
      exact h.close c
    · cases hact
  | enable id =>
    cases hact
    exact h.sameLive (s.reg.sameLive_enable id)
  | setLimits id l =>
    cases hact
    exact h.sameLive (s.reg.sameLive_setLimits id l)
  | setLimitsShared ids l =>
    cases hact
    exact h.sameLive (s.reg.sameLive_setLimitsShared ids l)
  | memory phase =>
    cases hact
    exact h.frame rfl rfl (fun _ hc => hc) fun _ _ _ _ he => he

end

/-- **Admission and the switches.** From any state of gates, limits, switches
and memory, in every run whose steps meet the condition, bytes of a client
are relayed only between the admission and the release of its flow, a refused
flow is closed when its call has returned, and every switch closes the client
of each admitted flow it is aimed at. -/
theorem upheld_of_meets {s₀ s : Node} (h₀ : Fresh s₀) (hrun : ReflTransGen GoodStep s₀ s) :
    Upheld s := by
  have hinv : Inv s := by
    induction hrun with
    | refl => exact h₀.inv
    | tail _ hstep ih =>
      obtain ⟨a, hmeets, hact⟩ := hstep
      exact ih.act hmeets hact
  exact hinv.upheld

/-! ### Runs -/

/-- A call for a user from `1.2.3.4`, metered and under the memory guard. -/
def userCall : Call :=
  { adm := { guarded := true }, who := userBase + 1, src := .v4 0x01020304 }

/-- A stream of the user lands, sends, and the user is switched off. -/
theorem upheld_of_meets_disabled :
    Fresh {} ∧ Upheld (((({} : Node).handleStream 0 userCall).emit (.relayed 0)).cut
      (.cred (userBase + 1))) := by
  have h₀ : Fresh {} := ⟨fun _ => rfl, rfl⟩
  refine ⟨h₀, upheld_of_meets h₀ ?_⟩
  have hland : GoodStep {} (({} : Node).handleStream 0 userCall) := by
    refine ⟨.land 0 .stream userCall, ⟨.inl ⟨by decide, by decide, by decide⟩, ?_⟩, rfl⟩
    rintro g gl ⟨⟨⟩, -⟩
  have hrelay : GoodStep (({} : Node).handleStream 0 userCall)
      ((({} : Node).handleStream 0 userCall).emit (.relayed 0)) := by
    refine ⟨.relay 0, ?_, rfl⟩
    intro fl hfl
    obtain rfl := Option.some.inj hfl
    decide
  exact ((ReflTransGen.single hland).tail hrelay).tail ⟨.cut (.cred (userBase + 1)), trivial, rfl⟩

def Step (s s' : Node) : Prop := ∃ a, s.act a = some s'

/-- Three runs that end without the guarantee: a native UDP flow whose bytes
are relayed unadmitted; a session stream that is refused under memory
pressure and stays open; and a flow of the session hook whose user can be
switched off with the client left open. -/
theorem admission_passed_by :
    (ReflTransGen Step {} ((({} : Node).servePacket 0 userCall).emit (.relayed 0)) ∧
      ¬ Upheld ((({} : Node).servePacket 0 userCall).emit (.relayed 0))) ∧
    (ReflTransGen Step { phase := .soft } (({ phase := .soft } : Node).sessionDispatch 0 userCall) ∧
      ¬ Upheld (({ phase := .soft } : Node).sessionDispatch 0 userCall)) ∧
    (ReflTransGen Step {} (({} : Node).sessionAdmit 0 userCall) ∧
      ¬ Upheld (({} : Node).sessionAdmit 0 userCall)) := by
  refine ⟨⟨?_, ?_⟩, ⟨.single ⟨.land 0 .sessionStream userCall, rfl⟩, ?_⟩,
    ⟨.single ⟨.land 0 .sessionHook userCall, rfl⟩, ?_⟩⟩
  · exact (ReflTransGen.single ⟨.land 0 .native userCall, rfl⟩).tail ⟨.relay 0, rfl⟩
  · intro h
    obtain ⟨before, since, hlog, -⟩ := h.relayed [] [] 0 rfl
    simp at hlog
  · intro h
    exact absurd (h.refused 0 (by decide) (by decide)) (by decide)
  · intro h
    have hkill := h.killed 0 ⟨.sessionHook, userCall, some ⟨some 1⟩, true⟩ 1 (.cred (userBase + 1))
      ⟨rfl, rfl, rfl⟩ rfl
    exact absurd hkill (by decide)

end Ntr.Service
