/-
The switch of a credential under any interleaving of the calls.

* `Safe`, `safe_of_reaches`: no kill is invoked twice, and after such a
  `Disable` no connection of the credential is left standing.
-/
import Ntr.Meter.KillOnce

namespace Ntr.Meter

open Go Registry

namespace Threads

variable {s s' : State} {t u : CallID} {id : CredID} {pc pc' : Pc} {r r' : Registry}
  {evs : List Event}

/-! ### Switched off -/

/-- The call `t` of `Disable` has set the switch, and no `Enable` has come since. -/
def OffSince (log : List Event) (t : CallID) (id : CredID) : Prop :=
  ∃ since before, log = since ++ .off t id :: before ∧ .on id ∉ since

/-- What is new was noted in the last step, or lies further back with no
`Enable` in the last step. -/
lemma OffSince.of_append {log : List Event} (h : OffSince (evs ++ log) t id) :
    .off t id ∈ evs ∨ .on id ∉ evs ∧ OffSince log t id := by
  obtain ⟨since, before, heq, hon⟩ := h
  rcases List.append_eq_append_iff.mp heq with ⟨rest, rfl, hrest⟩ | ⟨rest, rfl, hrest⟩
  · exact .inr ⟨fun he => hon (List.mem_append_left _ he), rest, before, hrest,
      fun he => hon (List.mem_append_right _ he)⟩
  · cases rest with
    | nil =>
      refine .inr ⟨by simpa using hon, [], before, by simpa using hrest.symm, by simp⟩
    | cons e rest =>
      obtain ⟨rfl, -⟩ : Event.off t id = e ∧ _ := by simpa using hrest
      exact .inl (by simp)

/-- A step without an `Enable` of the credential leaves its cell switched off,
and an empty one empty. -/
lemma Effect.stays_off (h : Effect t r pc r' pc' evs) (hon : .on id ∉ evs)
    (hoff : (r.cell id).disabled = true) :
    (r'.cell id).disabled = true ∧ (r.live id = [] → r'.live id = []) := by
  -- every other step changes one cell, and this keeps the switch and enters nothing
  have hmod : ∀ (id' : CredID) (f : Cell → Cell), (id = id' → (f (r.cell id)).disabled = true ∧
        ((r.cell id).live = [] → (f (r.cell id)).live = [])) →
      ((r.modifyCell id' f).cell id).disabled = true ∧
        (r.live id = [] → (r.modifyCell id' f).live id = []) := by
    intro id' f hf
    by_cases hid : id = id'
    · subst hid
      have := hf rfl
      simpa [live] using this
    · rw [live_modifyCell, cell_modifyCell_of_ne r hid f, if_neg hid]
      exact ⟨hoff, fun h => h⟩
  cases h with
  | quiet hq hg =>
    rw [hq.disabled, hq.live]
    exact ⟨hoff, fun h => h⟩
  | left id' => exact ⟨hoff, fun h => h⟩
  | number id' src => exact ⟨hoff, fun h => h⟩
  | read w id' cells ents => exact ⟨hoff, fun h => h⟩
  | add id' src connID now hdis =>
    refine hmod id' _ fun hid => ?_
    rw [hid, hdis] at hoff
    cases hoff
  | remove id' connID =>
    exact hmod id' _ fun _ => ⟨hoff, fun h => by simp [Cell.removeLive, h]⟩
  | off id' => exact hmod id' _ fun _ => ⟨rfl, fun h => h⟩
  | on id' =>
    refine hmod id' _ fun hid => ?_
    simp [hid] at hon
  | sweep id' =>
    exact hmod id' (fun c => c.killAll.1) fun _ => ⟨hoff, fun h => by simp [Cell.killAll, Cell.cut]⟩
  | cut id' p hg =>
    exact hmod id' (fun c => (c.cut p).1) fun _ => ⟨hoff, fun h => by simp [Cell.cut, h]⟩
  | turn w killed e ents hany =>
    exact hmod e.cell _ fun _ => ⟨hoff, fun h => by simp [Cell.removeLive, h]⟩

lemma Effect.of_off (h : Effect t r pc r' pc' evs) (hev : .off u id ∈ evs) :
    u = t ∧ pc' = .disableKill id ∧ (r'.cell id).disabled = true := by
  cases h with
  | off id' =>
    obtain ⟨rfl, rfl⟩ : u = t ∧ id = id' := by simpa using hev
    exact ⟨rfl, rfl, by simp⟩
  | quiet hq hg => cases hev
  | _ => simp at hev

/-- A cell counts as emptied only after the lock section of `killAll`. -/
lemma Effect.swept (h : Effect t r pc r' pc' evs) (hs : pc'.swept? = some id) :
    pc.swept? = some id ∨ r'.live id = [] := by
  cases h with
  | quiet hq hg => exact .inl (hg.swept ▸ hs)
  | left id' => exact .inl hs
  | sweep id' =>
    obtain rfl : id' = id := by simpa [Pc.swept?] using hs
    refine .inr ?_
    rw [within, live_modifyCell, if_pos rfl]
    simp [Cell.killAll, Cell.cut]
  | _ => cases hs

lemma Effect.keeps_swept (h : Effect t r pc r' pc' evs) (hs : pc.swept? = some id) :
    pc'.swept? = some id := by
  cases h with
  | quiet hq hg => exact hg.swept ▸ hs
  | left id' => exact hs
  | cut id' p hg =>
    rw [← hg.swept] at hs
    cases hs
  | _ => cases hs

lemma Effect.of_left (h : Effect t r pc r' pc' evs) (hev : .left u id ∈ evs) :
    u = t ∧ pc'.swept? = some id := by
  cases h with
  | left id' =>
    obtain ⟨rfl, rfl⟩ : u = t ∧ id = id' := by simpa using hev
    exact ⟨rfl, rfl⟩
  | quiet hq hg => cases hev
  | _ => simp at hev

/-- The call `t` of `Disable` has emptied the cell. -/
def State.Swept (s : State) (t : CallID) (id : CredID) : Prop :=
  ∃ pc, s.calls[t]? = some pc ∧ pc.swept? = some id

structure Switched (s : State) : Prop where
  off : ∀ t id, OffSince s.log t id → (s.reg.cell id).disabled = true
  swept : ∀ t id, OffSince s.log t id → s.Swept t id → s.reg.live id = []
  left : ∀ t id, .left t id ∈ s.log → s.Swept t id

lemma Switched.effect (h : Switched s) (hpc : s.calls[t]? = some pc)
    (he : Effect t s.reg pc r pc' evs) : Switched (moved s t r pc' evs) where
  off u id hoff := by
    rcases hoff.of_append with hev | ⟨hon, hoff⟩
    · exact (he.of_off hev).2.2
    · exact (he.stays_off hon (h.off u id hoff)).1
  swept u id hoff hs := by
    obtain ⟨q, hq, hs⟩ := hs
    rw [calls_moved hpc] at hq
    rcases hoff.of_append with hev | ⟨hon, hoff⟩
    · -- the call has only now set the switch
      obtain ⟨rfl, rfl, -⟩ := he.of_off hev
      rw [if_pos rfl] at hq
      obtain rfl := Option.some.inj hq
      cases hs
    · have hempty : s.Swept u id → r.live id = [] := fun hs =>
        (he.stays_off hon (h.off u id hoff)).2 (h.swept u id hoff hs)
      split at hq
      · next hu =>
        obtain rfl := Option.some.inj hq
        rcases he.swept hs with hs | hlive
        · exact hempty ⟨pc, hu ▸ hpc, hs⟩
        · exact hlive
      · exact hempty ⟨q, hq, hs⟩
  left u id hev := by
    unfold State.Swept
    rw [calls_moved hpc]
    rcases List.mem_append.mp hev with hev | hev
    · obtain ⟨rfl, hs⟩ := he.of_left hev
      exact ⟨pc', if_pos rfl, hs⟩
    · obtain ⟨q, hq, hs⟩ := h.left u id hev
      split
      · next hu =>
        subst hu
        obtain rfl : pc = q := Option.some.inj (hpc.symm.trans hq)
        exact ⟨pc', rfl, he.keeps_swept hs⟩
      · exact ⟨q, hq, hs⟩

/-- The actions that are no step of a call touch neither switches nor what
`Disable` has emptied. -/
lemma Switched.other (h : Switched s) (evs : List Event)
    (hoff : ∀ id, (s'.reg.cell id).disabled = (s.reg.cell id).disabled)
    (hlive : ∀ id, s.reg.live id = [] → s'.reg.live id = [])
    (hswept : ∀ t id, s'.Swept t id ↔ s.Swept t id) (hlog : s'.log = evs ++ s.log)
    (hevs : ∀ ev ∈ evs, ∃ k, ev = .killed k) : Switched s' where
  off t id ht := by
    rw [hlog] at ht
    rcases ht.of_append with hev | ⟨-, ht⟩
    · obtain ⟨k, hk⟩ := hevs _ hev
      cases hk
    · rw [hoff]
      exact h.off t id ht
  swept t id ht hs := by
    rw [hlog] at ht
    rcases ht.of_append with hev | ⟨-, ht⟩
    · obtain ⟨k, hk⟩ := hevs _ hev
      cases hk
    · exact hlive id (h.swept t id ht ((hswept t id).mp hs))
  left t id hev := by
    rw [hlog] at hev
    rcases List.mem_append.mp hev with hev | hev
    · obtain ⟨k, hk⟩ := hevs _ hev
      cases hk
    · exact (hswept t id).mpr (h.left t id hev)

lemma Switched.moves (h : Switched s) (hm : Moves s s') : Switched s' := by
  cases hm with
  | exec hpc he => exact h.effect hpc he
  | @call pc hc =>
    refine h.other [] (fun _ => rfl) (fun _ hl => hl) (fun t id => ?_) rfl (by simp)
    have hload := load_of_mayCall hc
    simp only [Pc.load, Prod.mk.injEq] at hload
    simp only [State.Swept, calls_append]
    constructor
    · rintro ⟨q, hq | ⟨-, rfl⟩, hs⟩
      · exact ⟨q, hq, hs⟩
      · rw [hload.2.2.2.2] at hs
        cases hs
    · rintro ⟨q, hq, hs⟩
      exact ⟨q, .inl hq, hs⟩
  | @go t k ks next hpc =>
    refine h.other [] (fun _ => rfl) (fun _ hl => hl) (fun u id => ?_) rfl (by simp)
    change (moved s t s.reg (.going ks next) []).Swept u id ↔ _
    unfold State.Swept
    rw [calls_moved hpc]
    split
    · next hu =>
      subst hu
      simp [hpc, Pc.swept?]
    · rfl
  | @invoke k hk =>
    exact h.other [.killed k] (fun _ => rfl) (fun _ hl => hl) (fun _ _ => Iff.rfl) rfl (by simp)
  | touch t now =>
    refine h.other [] (disabled_touch s.reg [t] now) (fun id hl => ?_) (fun _ _ => Iff.rfl)
      rfl (by simp)
    rw [live_touch, hl, List.map_nil]

/-- **The invariant of the switch** over a run. -/
lemma switched_of_reaches (h : Reaches { reg := r } s) : Switched s := by
  induction h with
  | refl =>
    refine ⟨fun t id hoff => ?_, fun t id hoff => ?_, by simp⟩ <;>
      · obtain ⟨since, before, heq, -⟩ := hoff
        simp at heq
  | tail _ hstep ih => exact ih.moves hstep.moves

/-! ### Safety -/

/-- The call `t` of `Disable` has returned, and no `Enable` of the credential
has come since it set the switch. -/
def StaysOff (log : List Event) (t : CallID) (id : CredID) : Prop :=
  ∃ since mid before, log = since ++ .left t id :: (mid ++ .off t id :: before) ∧
    .on id ∉ since ∧ .on id ∉ mid

/-- What the kills and the switch promise. The kill functions are invoked once
at most, and after a `Disable` with no `Enable` no connection of the
credential stands in the table: each that was admitted was released by its
holder, or its kill has been taken out, once. For the kills the counter of
connections must not have come round. -/
structure Safe (s : State) : Prop where
  once : (takes s.log).length ≤ 2 ^ 64 → ∀ t, s.log.count (.killed t) ≤ 1
  emptied : ∀ t id, StaysOff s.log t id → s.reg.live id = []
  reached : (takes s.log).length ≤ 2 ^ 64 → ∀ t id, StaysOff s.log t id → ∀ u connID,
    s.Issued u id connID → .released id connID ∈ s.log ∨ s.out u = 1

lemma StaysOff.offSince {log : List Event} (h : StaysOff log t id) : OffSince log t id := by
  obtain ⟨since, mid, before, rfl, hsince, hmid⟩ := h
  refine ⟨since ++ .left t id :: mid, before, by simp, ?_⟩
  simp [hsince, hmid]

/-- **Kills and switches are safe** under every interleaving of the calls, from
every registry without connections. -/
theorem safe_of_reaches (r : Registry) (hr : ∀ id, r.live id = []) (s : State)
    (h : Reaches { reg := r } s) : Safe s := by
  have hswitch := switched_of_reaches h
  have hempty : ∀ t id, StaysOff s.log t id → s.reg.live id = [] := by
    intro t id hoff
    refine hswitch.swept t id hoff.offSince (hswitch.left t id ?_)
    obtain ⟨since, mid, before, hlog, -, -⟩ := hoff
    simp [hlog]
  refine ⟨fun hle t => ?_, hempty, fun hle t id hoff u connID hi => ?_⟩
  · obtain ⟨honce, -⟩ := once_of_reaches hr h (distinct_of_takes h hle)
    exact (Nat.le_add_left _ _).trans (honce.once t)
  · obtain ⟨honce, -⟩ := once_of_reaches hr h (distinct_of_takes h hle)
    refine (honce.kept u id connID hi).resolve_left ?_
    rw [standing, hempty t id hoff]
    simp

def State.run (s : State) : List Action → Option State
  | [] => some s
  | a :: as => (s.act a).bind fun s' => s'.run as

def Action.plain : Action → Bool
  | .step _ (.listing _) => false
  | _ => true

lemma reaches_run {as : List Action} (h : as.all Action.plain = true) (hs : s.run as = some s') :
    Reaches s s' := by
  induction as generalizing s with
  | nil =>
    obtain rfl := Option.some.inj hs
    exact .refl
  | cons a as ih =>
    rw [List.all_cons, Bool.and_eq_true] at h
    obtain ⟨s₁, ha, hs⟩ := Option.bind_eq_some_iff.mp hs
    have hrange : s.Ranges a := by
      cases a with
      | step t x =>
        cases x with
        | listing cells => cases h.1
        | clock now => trivial
        | sorted ents => trivial
      | _ => trivial
    exact .head ⟨a, hrange, ha⟩ (ih h.2 hs)

/-- The next step of call `t`. -/
def advance (t : CallID) : Action := .step t (.clock 5)

/-- An `Open` enters its connection while a `Disable` is under way, which kills
it. -/
def openWithin : List Action :=
  [.call (.openCell 7 (.v4 1)), advance 0, advance 0, advance 0, advance 0,
    .call (.disableCell 7), advance 1,
    advance 0,
    advance 1, advance 1, .go 1, .invoke 0, advance 1, advance 1]

/-- The theorem on that run. -/
theorem safe_of_reaches_openWithin : ∃ s, Reaches { reg := new } s ∧
    StaysOff s.log 1 7 ∧ .killed 0 ∈ s.log ∧ Safe s := by
  obtain ⟨s, hs⟩ : ∃ s, State.run { reg := new } openWithin = some s := ⟨_, rfl⟩
  have hreach := reaches_run (by decide) hs
  have hlog : (State.run { reg := new } openWithin).map State.log =
      some [.left 1 7, .killed 0, .off 1 7, .numbered 0 1] := by decide
  rw [hs, Option.map_some, Option.some.injEq] at hlog
  refine ⟨s, hreach, ⟨[], [.killed 0], [.numbered 0 1], hlog, by simp, by simp⟩, by simp [hlog],
    safe_of_reaches new (fun _ => rfl) s hreach⟩

/-- An `Enable` between the two halves of a `Disable`, and then an `Open`. -/
def enableWithin : List Action :=
  [.call (.openCell 7 (.v4 1)), advance 0, .call (.disableCell 7), advance 1, advance 1,
    .call (.enableCell 7), advance 2, advance 2,
    advance 1, advance 1, advance 1,
    advance 0, advance 0, advance 0, advance 0]

/-- **An `Enable` inside a `Disable` undoes it**: the `Disable` returns and no
`Enable` comes after that, and yet a connection stands that nobody kills. -/
theorem enable_within_disable : ¬ ∀ s, Reaches { reg := new } s →
    ∀ (t : CallID) (id : CredID) (since before : List Event),
      s.log = since ++ .left t id :: before → .on id ∉ since →
        ∀ connID h, (connID, h) ∈ s.reg.live id → ∀ k ∈ h.kill, .killed k ∈ s.log := by
  intro hall
  obtain ⟨s, hs⟩ : ∃ s, State.run { reg := new } enableWithin = some s := ⟨_, rfl⟩
  have hlog : (State.run { reg := new } enableWithin).map State.log =
      some [.numbered 0 1, .left 1 7, .on 7, .off 1 7] := by decide
  have hlive : (State.run { reg := new } enableWithin).map (fun s => s.reg.live 7) =
      some [(1, ⟨[0], .v4 1, 5⟩)] := by decide
  rw [hs, Option.map_some, Option.some.injEq] at hlog hlive
  have := hall s (reaches_run (by decide) hs) 1 7 [.numbered 0 1] [.on 7, .off 1 7] hlog
    (by simp) 1 ⟨[0], .v4 1, 5⟩ (by simp [hlive]) 0 (by simp)
  simp [hlog] at this

end Threads

end Ntr.Meter
