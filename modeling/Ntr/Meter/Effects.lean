/-
What one step of a call can do to the registry.

* `Effect`, `exec_effect`: what one step can do.
-/
import Ntr.Meter.Threads

namespace Ntr.Meter

open Go Registry

/-! ### Steps that leave the connections alone -/

/-- The same connections are open, the switches stand as they did, and no
number was given out. -/
structure Quiet (r r' : Registry) : Prop where
  live : ∀ id, r'.live id = r.live id
  disabled : ∀ id, (r'.cell id).disabled = (r.cell id).disabled
  connSeq : r'.connSeq = r.connSeq

namespace Quiet

lemma refl (r : Registry) : Quiet r r := ⟨fun _ => rfl, fun _ => rfl, rfl⟩

lemma of_cells {r r' : Registry} (hc : r'.cells = r.cells) (hs : r'.connSeq = r.connSeq) :
    Quiet r r' :=
  ⟨fun id => by simp only [Registry.live, Registry.cell, hc],
    fun id => by simp only [Registry.cell, hc], hs⟩

lemma trans {r₁ r₂ r₃ : Registry} (h : Quiet r₁ r₂) (h' : Quiet r₂ r₃) : Quiet r₁ r₃ :=
  ⟨fun id => (h'.live id).trans (h.live id), fun id => (h'.disabled id).trans (h.disabled id),
    h'.connSeq.trans h.connSeq⟩

lemma modifyCell {r r' : Registry} (h : Quiet r r') {id : CredID} {f : Cell → Cell}
    (hl : ∀ c, (f c).live = c.live) (hd : ∀ c, (f c).disabled = c.disabled) :
    Quiet r (r'.modifyCell id f) := by
  refine h.trans ⟨fun id' => ?_, fun id' => ?_, rfl⟩
  · rw [live_modifyCell]
    exact ite_live (hl _)
  · by_cases hid : id' = id
    · subst hid
      simpa using hd _
    · rw [cell_modifyCell_of_ne r' hid f]

end Quiet

lemma quiet_makeCell (r : Registry) (id : CredID) : Quiet r (r.makeCell id) := by
  unfold makeCell
  cases r.cells id with
  | some c => exact .refl r
  | none => exact (Quiet.refl r).modifyCell (fun _ => rfl) (fun _ => rfl)

lemma quiet_acquireIP (r : Registry) (id : CredID) (src : Addr) :
    Quiet r (r.acquireIP id src).1 := by
  unfold acquireIP
  split
  · exact .refl r
  · split
    · exact .refl r
    · exact .of_cells rfl rfl

lemma quiet_releaseIP (r : Registry) (id : CredID) (src : Addr) : Quiet r (r.releaseIP id src) := by
  unfold releaseIP
  split
  · exact .refl r
  · exact .of_cells rfl rfl

lemma quiet_tryAcquireConn (r : Registry) (id : CredID) : Quiet r (r.tryAcquireConn id).1 := by
  unfold tryAcquireConn
  dsimp only
  split <;> split <;> dsimp only <;>
    refine Quiet.modifyCell (.of_cells ?_ ?_) (fun _ => ?_) (fun _ => ?_) <;> rfl

lemma quiet_releaseConn (r : Registry) (id : CredID) : Quiet r (r.releaseConn id) := by
  unfold releaseConn
  dsimp only
  split <;> refine Quiet.modifyCell (.of_cells ?_ ?_) (fun _ => ?_) (fun _ => ?_) <;> rfl

/-! ### The table -/

/-- The open connections of a cell, each with its number and its kill. -/
def Registry.standing (r : Registry) (id : CredID) : List (ConnID × List Closer) :=
  (r.live id).map fun x => (x.1, x.2.kill)

lemma live_touch (r : Registry) (kill : List Closer) (now : Int) (id : CredID) :
    (r.touch kill now).live id = (r.live id).map fun x =>
      (x.1, if x.2.kill = kill then { x.2 with lastActive := now } else x.2) := by
  cases h : r.cells id <;> simp [live, touch, cell, h]

lemma disabled_touch (r : Registry) (kill : List Closer) (now : Int) (id : CredID) :
    ((r.touch kill now).cell id).disabled = (r.cell id).disabled := by
  cases h : r.cells id <;> simp [touch, cell, h]

lemma standing_touch (r : Registry) (kill : List Closer) (now : Int) (id : CredID) :
    (r.touch kill now).standing id = r.standing id := by
  rw [standing, live_touch, List.map_map, standing]
  refine List.map_congr_left fun x _ => ?_
  simp only [Function.comp_apply]
  split <;> rfl

namespace Threads

/-! ### What a call holds -/

namespace Pc

/-- The kills that the call has taken out and not yet started. -/
def held : Pc → List Closer
  | .going kills next => kills ++ next.held
  | _ => []

/-- The number that a call of `Open` has taken. -/
def number? : Pc → Option (CredID × ConnID)
  | .openAdd id _ connID => some (id, connID)
  | .openTotal id _ connID => some (id, connID)
  | .openIdx id _ connID => some (id, connID)
  | .admitted id _ connID => some (id, connID)
  | .going _ next => next.number?
  | _ => none

/-- The number under which a call of `Open` has entered its connection. -/
def entered? : Pc → Option (CredID × ConnID)
  | .openTotal id _ connID => some (id, connID)
  | .openIdx id _ connID => some (id, connID)
  | .admitted id _ connID => some (id, connID)
  | .going _ next => next.entered?
  | _ => none

/-- The candidates that a sweep has read and not yet met in its loop. -/
def ents : Pc → List Ent
  | .sweepLive _ _ ents => ents
  | .sweepSort _ ents => ents
  | .sweepKill _ _ ents => ents
  | .going _ next => next.ents
  | _ => []

/-- The cell that a call of `Disable` has emptied. -/
def swept? : Pc → Option CredID
  | .disableReturn id => some id
  | .disabled id => some id
  | .going _ next => next.swept?
  | _ => none

end Pc

/-- The call goes on without anything new: it keeps its kills and what it has
entered and emptied, and takes no new number and no new candidates. -/
structure Goes (pc pc' : Pc) : Prop where
  held : pc'.held = pc.held
  number : pc'.number? = pc.number? ∨ pc'.number? = none
  entered : pc'.entered? = pc.entered?
  ents : pc'.ents ⊆ pc.ents
  swept : pc'.swept? = pc.swept?

def Pc.load (pc : Pc) :
    List Closer × Option (CredID × ConnID) × Option (CredID × ConnID) × List Ent × Option CredID :=
  (pc.held, pc.number?, pc.entered?, pc.ents, pc.swept?)

lemma Goes.of_load {pc pc' : Pc} (h : pc'.load = pc.load) : Goes pc pc' := by
  simp only [Pc.load, Prod.mk.injEq] at h
  exact ⟨h.1, .inl h.2.1, h.2.2.1, (h.2.2.2.1 ▸ List.Subset.refl _), h.2.2.2.2⟩

lemma Goes.ite {p : Prop} [Decidable p] {pc pc₁ pc₂ : Pc} (h₁ : Goes pc pc₁) (h₂ : Goes pc pc₂) :
    Goes pc (if p then pc₁ else pc₂) := by
  split
  · exact h₁
  · exact h₂

/-- What one step of a call does. -/
inductive Effect (t : CallID) (r : Registry) : Pc → Registry → Pc → List Event → Prop where
  | quiet {pc r' pc'} (h : Quiet r r') (hg : Goes pc pc') : Effect t r pc r' pc' []
  | left (id) : Effect t r (.disableReturn id) r (.disabled id) [.left t id]
  | number (id src) : Effect t r (.openNumber id src) { r with connSeq := r.connSeq + 1 }
      (.openAdd id src (r.connSeq + 1)) [.numbered t (r.connSeq + 1)]
  | add (id src connID now) (h : (r.cell id).disabled = false) :
      Effect t r (.openAdd id src connID)
        (r.modifyCell id fun _ => ((r.cell id).addGuarded connID ⟨[t], src, now⟩).1)
        (.openTotal id src connID) []
  | remove (id connID) : Effect t r (.doneLive id connID)
      (r.modifyCell id fun c => c.removeLive connID) (.doneIdx connID) [.released id connID]
  | off (id) : Effect t r (.disableStore id) (r.modifyCell id fun c => { c with disabled := true })
      (.disableKill id) [.off t id]
  | on (id) : Effect t r (.enableStore id) (r.modifyCell id fun c => { c with disabled := false })
      .returned [.on id]
  | sweep (id) : Effect t r (.disableKill id) (r.within id Cell.killAll).1
      (.going (r.within id Cell.killAll).2 (.disableReturn id)) []
  | cut {pc} (id p) (hpc : Goes pc .returned) : Effect t r pc (r.within id fun c => c.cut p).1
      (.going (r.within id fun c => c.cut p).2 .returned) []
  | read (w id cells ents) : Effect t r (.sweepLive w (id :: cells) ents) r
      (.sweepLive w cells (ents ++ candidates r w id)) []
  | turn (w killed e ents) (h : (r.live e.cell).any (fun x => x.1 = e.id) = true) :
      Effect t r (.sweepKill w killed (e :: ents)) (r.modifyCell e.cell fun c => c.removeLive e.id)
        (.going e.kill (.sweepKill w (killed + 1) ents)) []

lemma exec_effect {t : CallID} {x : Choice} {r r' : Registry} {pc pc' : Pc} {evs : List Event}
    (h : exec t x r pc = some (r', pc', evs)) : Effect t r pc r' pc' evs := by
  cases pc with
  | openCell id src =>
    cases h
    exact .quiet (quiet_makeCell r id) (.of_load rfl)
  | openIP id src =>
    cases h
    exact .quiet (quiet_acquireIP r id src) (.ite (.of_load rfl) (.of_load rfl))
  | openConn id src =>
    cases h
    exact .quiet (quiet_tryAcquireConn r id) (.ite (.of_load rfl) (.of_load rfl))
  | openNumber id src =>
    cases h
    exact .number id src
  | openAdd id src connID =>
    cases x with
    | listing cells => cases h
    | sorted ents => cases h
    | clock now =>
      by_cases hdis : (r.cell id).disabled = true
      · simp only [exec, Cell.addGuarded, hdis, if_true, Bool.false_eq_true, if_false,
          Option.some.injEq, Prod.mk.injEq] at h
        obtain ⟨rfl, rfl, rfl⟩ := h
        exact .quiet (.refl r) ⟨rfl, .inr rfl, rfl, by simp [Pc.ents], rfl⟩
      · have hadd : ((r.cell id).addGuarded connID ⟨[t], src, now⟩).2 = true := by
          simp [Cell.addGuarded, hdis]
        simp only [exec, hadd, if_true, Option.some.injEq, Prod.mk.injEq] at h
        obtain ⟨rfl, rfl, rfl⟩ := h
        exact .add id src connID now (by simpa using hdis)
  | openTotal id src connID =>
    cases h
    exact .quiet (Quiet.modifyCell (.refl r) (fun _ => rfl) (fun _ => rfl)) (.of_load rfl)
  | openIdx id src connID =>
    cases h
    exact .quiet (.of_cells rfl rfl) (.of_load rfl)
  | admitted id src connID => cases h
  | refuseConn id src =>
    cases h
    exact .quiet (quiet_releaseConn r id) (.of_load rfl)
  | refuseIP id src =>
    cases h
    exact .quiet (quiet_releaseIP r id src) (.of_load rfl)
  | doneConn id src connID =>
    cases h
    exact .quiet (quiet_releaseConn r id) (.of_load rfl)
  | doneIP id src connID =>
    cases h
    exact .quiet (quiet_releaseIP r id src) (.of_load rfl)
  | doneLive id connID =>
    cases h
    exact .remove id connID
  | doneIdx connID =>
    cases h
    exact .quiet (.of_cells rfl rfl) (.of_load rfl)
  | disableCell id =>
    cases h
    exact .quiet (.refl r) (.ite (.of_load rfl) (.of_load rfl))
  | disableStore id =>
    cases h
    exact .off id
  | disableKill id =>
    cases h
    exact .sweep id
  | disableReturn id =>
    cases h
    exact .left id
  | disabled id => cases h
  | enableCell id =>
    cases h
    exact .quiet (.refl r) (.ite (.of_load rfl) (.of_load rfl))
  | enableStore id =>
    cases h
    exact .on id
  | killConnIdx connID =>
    simp only [exec] at h
    split at h <;> cases h <;>
      exact .quiet (.refl r) (.of_load rfl)
  | killConnLive id connID =>
    cases h
    exact .cut id _ (.of_load rfl)
  | killIPCell id ip =>
    cases h
    exact .quiet (.refl r) (.ite (.of_load rfl) (.of_load rfl))
  | killIPLive id ip =>
    cases h
    exact .cut id _ (.of_load rfl)
  | sweepCells w =>
    cases x with
    | clock now => cases h
    | sorted ents => cases h
    | listing cells =>
      cases h
      exact .quiet (.refl r) (.of_load rfl)
  | sweepLive w cells ents =>
    cases cells with
    | nil =>
      cases w <;> cases h <;>
        exact .quiet (.refl r) (.of_load rfl)
    | cons id cells =>
      cases h
      exact .read w id cells ents
  | sweepSort w ents =>
    cases x with
    | clock now => cases h
    | listing cells => cases h
    | sorted ents' =>
      simp only [exec] at h
      split at h
      · next hperm =>
        cases h
        exact .quiet (.refl r) ⟨rfl, .inl rfl, rfl, hperm.1.subset, rfl⟩
      · cases h
  | sweepKill w killed ents =>
    cases ents with
    | nil =>
      cases h
      exact .quiet (.refl r) (.of_load rfl)
    | cons e ents =>
      simp only [exec, sweepTurn] at h
      split at h
      · cases h
        exact .quiet (.refl r) ⟨rfl, .inl rfl, rfl, by simp [Pc.ents], rfl⟩
      · split at h
        · next hany =>
          cases h
          exact .turn w killed e ents hany
        · cases h
          exact .quiet (.refl r) ⟨rfl, .inl rfl, rfl, List.subset_cons_self e ents, rfl⟩
  | going kills next =>
    cases kills with
    | nil =>
      cases h
      exact .quiet (.refl r) ⟨by simp [Pc.held], .inl rfl, rfl, fun _ he => he, rfl⟩
    | cons k ks => cases h
  | returned => cases h

/-! ### The system -/

variable {s s' : State} {t u : CallID} {pc pc' : Pc}

/-- The state after a step of call `t`. -/
def moved (s : State) (t : CallID) (r : Registry) (pc : Pc) (evs : List Event) : State :=
  { s with reg := r, calls := s.calls.set t pc, log := evs ++ s.log }

lemma calls_moved {r : Registry} {evs : List Event} (hpc : s.calls[t]? = some pc) (u : CallID) :
    (moved s t r pc' evs).calls[u]? = if u = t then some pc' else s.calls[u]? := by
  have hlt : t < s.calls.length := (List.getElem?_eq_some_iff.mp hpc).1
  rw [moved, List.getElem?_set]
  by_cases hu : u = t
  · subst hu
    simp [hlt]
  · rw [if_neg (Ne.symm hu), if_neg hu]

inductive Moves (s : State) : State → Prop where
  | call {pc : Pc} (h : s.mayCall pc = true) : Moves s { s with calls := s.calls ++ [pc] }
  | exec {t : CallID} {pc : Pc} {r : Registry} {pc' : Pc} {evs : List Event}
      (hpc : s.calls[t]? = some pc) (h : Effect t s.reg pc r pc' evs) :
      Moves s (moved s t r pc' evs)
  | go {t : CallID} {k : Closer} {ks : List Closer} {next : Pc}
      (hpc : s.calls[t]? = some (.going (k :: ks) next)) :
      Moves s { s with calls := s.calls.set t (.going ks next), spawned := k :: s.spawned }
  | invoke {k : Closer} (hk : k ∈ s.spawned) :
      Moves s { s with spawned := s.spawned.erase k, log := .killed k :: s.log }
  | touch (t : CallID) (now : Int) : Moves s { s with reg := s.reg.touch [t] now }

lemma Step.moves (h : Step s s') : Moves s s' := by
  obtain ⟨a, -, ha⟩ := h
  cases a with
  | call pc =>
    simp only [State.act] at ha
    split at ha
    · next hc =>
      cases ha
      exact .call hc
    · cases ha
  | step t x =>
    simp only [State.act] at ha
    split at ha
    · cases ha
    · next pc hpc =>
      split at ha
      · cases ha
      · next r pc' evs he =>
        cases ha
        exact .exec hpc (exec_effect he)
  | go t =>
    simp only [State.act] at ha
    split at ha
    · next k ks next hpc =>
      cases ha
      exact .go hpc
    · cases ha
  | invoke k =>
    simp only [State.act] at ha
    split at ha
    · next hk =>
      cases ha
      exact .invoke hk
    · cases ha
  | touch t now =>
    cases ha
    exact .touch t now

end Threads

end Ntr.Meter
