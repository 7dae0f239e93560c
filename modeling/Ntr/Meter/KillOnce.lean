/-
No kill function is invoked twice, under any interleaving of the calls.

* `Shrinks`, `Once.shrinks`, `Once.add`: taking connections out of the table and
  entering one keep `Once`;
* `Once.effect`: every step of every call keeps it, as long as no number was given out
  twice;
* `distinct_of_takes`: the first `2 ^ 64` numbers are different.
-/
import Ntr.Meter.Effects

namespace Ntr.Meter

open Go List

namespace Threads

/-! ### Kills on their way -/

/-- The calls that have taken a number, with their numbers. -/
def takes (log : List Event) : List (CallID × ConnID) :=
  log.filterMap fun
    | .numbered t connID => some (t, connID)
    | _ => none

namespace State

/-- How often the kill of the connection was taken out of the table: it waits
for its `go`, it is a goroutine, or it was invoked. -/
def out (s : State) (t : CallID) : Nat :=
  (s.calls.flatMap Pc.held).count t + s.spawned.count t + s.log.count (.killed t)

/-- The call `t` of `Open` has entered its connection under this number. -/
def Issued (s : State) (t : CallID) (id : CredID) (connID : ConnID) : Prop :=
  ∃ pc, s.calls[t]? = some pc ∧ pc.entered? = some (id, connID)

def Distinct (s : State) : Prop := ((takes s.log).map Prod.snd).Nodup

end State

variable {s s' : State} {t u : CallID} {id id' : CredID} {n n' : ConnID} {pc pc' : Pc}

lemma State.Issued.eq (h : s.Issued t id n) (h' : s.Issued t id' n') : id = id' ∧ n = n' := by
  obtain ⟨pc, hpc, he⟩ := h
  obtain ⟨pc', hpc', he'⟩ := h'
  obtain rfl : pc = pc' := Option.some.inj (hpc.symm.trans hpc')
  simpa using he.symm.trans he'

/-- The invariant of kills. -/
structure Once (s : State) : Prop where
  keys : ∀ id, ((s.reg.standing id).map Prod.fst).Nodup
  entry : ∀ id n k, (n, k) ∈ s.reg.standing id → ∃ t, k = [t] ∧ s.Issued t id n ∧ s.out t = 0
  issued : ∀ t, s.out t ≠ 0 → ∃ id n, s.Issued t id n
  once : ∀ t, s.out t ≤ 1
  ents : ∀ (u : CallID) (pc : Pc), s.calls[u]? = some pc → ∀ e ∈ pc.ents,
    ∃ t, e.kill = [t] ∧ s.Issued t e.cell e.id
  kept : ∀ t id n, s.Issued t id n →
    (n, [t]) ∈ s.reg.standing id ∨ .released id n ∈ s.log ∨ s.out t = 1

/-- Connections of the cell `id` are taken out of the table: the kills of
`taken` are on their way then, and `dropped` were released. -/
structure Shrinks (s s' : State) (id : CredID) (taken dropped : List (ConnID × List Closer)) :
    Prop where
  table : (s.reg.standing id).Perm (taken ++ (dropped ++ s'.reg.standing id))
  other : ∀ id', id' ≠ id → s'.reg.standing id' = s.reg.standing id'
  out : ∀ t, s'.out t = s.out t + (taken.flatMap Prod.snd).count t
  issued : ∀ t id n, s'.Issued t id n ↔ s.Issued t id n
  ents : ∀ (u : CallID) (pc : Pc), s'.calls[u]? = some pc → ∀ e ∈ pc.ents,
    ∃ t, e.kill = [t] ∧ s.Issued t e.cell e.id
  released : ∀ x ∈ dropped, .released id x.1 ∈ s'.log
  log : s.log ⊆ s'.log

section
variable {taken dropped : List (ConnID × List Closer)}

lemma Shrinks.mem (hs : Shrinks s s' id taken dropped) {x : ConnID × List Closer}
    (hx : x ∈ s'.reg.standing id') : x ∈ s.reg.standing id' := by
  by_cases hid : id' = id
  · subst hid
    exact hs.table.mem_iff.mpr (by simp [hx])
  · rwa [← hs.other id' hid]

/-- The kill of a connection that was taken out belongs to this connection. -/
lemma Shrinks.of_mem_taken (h : Once s) (hs : Shrinks s s' id taken dropped)
    (ht : t ∈ taken.flatMap Prod.snd) : ∃ n, (n, [t]) ∈ taken ∧ s.Issued t id n ∧ s.out t = 0 := by
  obtain ⟨⟨n, k⟩, hx, htk⟩ := mem_flatMap.mp ht
  obtain ⟨u, rfl, hu, hout⟩ := h.entry id n k (hs.table.mem_iff.mpr (by simp [hx]))
  obtain rfl := mem_singleton.mp htk
  exact ⟨n, hx, hu, hout⟩

lemma Shrinks.keys (h : Once s) (hs : Shrinks s s' id taken dropped) :
    (taken.map Prod.fst ++ (dropped ++ s'.reg.standing id).map Prod.fst).Nodup := by
  rw [← map_append]
  exact (hs.table.map Prod.fst).nodup_iff.mp (h.keys id)

lemma Shrinks.nodup (h : Once s) (hs : Shrinks s s' id taken dropped) :
    (taken.flatMap Prod.snd).Nodup := by
  have hkeys : (taken.map Prod.fst).Nodup := (nodup_append.mp (hs.keys h)).1
  have hentry : ∀ x ∈ taken, ∃ t, x.2 = [t] ∧ s.Issued t id x.1 := by
    intro x hx
    obtain ⟨t, hk, hi, -⟩ := h.entry id x.1 x.2 (hs.table.mem_iff.mpr (by simp [hx]))
    exact ⟨t, hk, hi⟩
  refine nodup_flatMap.mpr ⟨fun x hx => ?_, ?_⟩
  · obtain ⟨t, hk, -⟩ := hentry x hx
    simp [hk]
  · refine (List.Nodup.of_map _ hkeys).pairwise_of_forall_ne fun x hx y hy hxy => ?_
    obtain ⟨t, hk, hi⟩ := hentry x hx
    obtain ⟨u, hk', hi'⟩ := hentry y hy
    have htu : t ≠ u := by
      rintro rfl
      exact hxy (inj_on_of_nodup_map hkeys hx hy (hi.eq hi').2)
    simpa [Function.onFun, hk, hk'] using htu.symm

/-- **Taking connections out** keeps the invariant. -/
lemma Once.shrinks (h : Once s) (hs : Shrinks s s' id taken dropped) : Once s' where
  keys id' := by
    by_cases hid : id' = id
    · subst hid
      have := (nodup_append.mp (hs.keys h)).2.1
      rw [map_append] at this
      exact (nodup_append.mp this).2.1
    · rw [hs.other id' hid]
      exact h.keys id'
  entry id' n k hx := by
    obtain ⟨t, rfl, hi, hout⟩ := h.entry id' n k (hs.mem hx)
    refine ⟨t, rfl, (hs.issued t id' n).mpr hi, ?_⟩
    rw [hs.out, hout, Nat.zero_add, count_eq_zero]
    intro ht
    obtain ⟨n', hn', hi', -⟩ := hs.of_mem_taken h ht
    obtain ⟨rfl, rfl⟩ := hi.eq hi'
    -- one number cannot stand among those taken and those left
    refine (nodup_append.mp (hs.keys h)).2.2 n (mem_map_of_mem hn') n ?_ rfl
    exact mem_map_of_mem (f := Prod.fst) (mem_append_right dropped hx)
  issued t ht := by
    by_cases hout : s.out t = 0
    · rw [hs.out, hout, Nat.zero_add] at ht
      obtain ⟨n, -, hi, -⟩ := hs.of_mem_taken h (count_pos_iff.mp (Nat.pos_of_ne_zero ht))
      exact ⟨id, n, (hs.issued t id n).mpr hi⟩
    · obtain ⟨id', n, hi⟩ := h.issued t hout
      exact ⟨id', n, (hs.issued t id' n).mpr hi⟩
  once t := by
    rw [hs.out]
    by_cases ht : t ∈ taken.flatMap Prod.snd
    · obtain ⟨-, -, -, hout⟩ := hs.of_mem_taken h ht
      rw [hout, Nat.zero_add]
      exact nodup_iff_count_le_one.mp (hs.nodup h) t
    · rw [count_eq_zero.mpr ht]
      exact h.once t
  ents u pc hpc e he := by
    obtain ⟨t, hk, hi⟩ := hs.ents u pc hpc e he
    exact ⟨t, hk, (hs.issued t _ _).mpr hi⟩
  kept t id' n hi := by
    rcases h.kept t id' n ((hs.issued t id' n).mp hi) with hx | hr | hout
    · by_cases hid : id' = id
      · subst hid
        rcases mem_append.mp (hs.table.mem_iff.mp hx) with hx | hx
        · -- its kill is on its way now
          have ht : t ∈ taken.flatMap Prod.snd :=
            mem_flatMap.mpr ⟨_, hx, mem_singleton_self t⟩
          obtain ⟨-, -, -, hout⟩ := hs.of_mem_taken h ht
          refine .inr (.inr ?_)
          rw [hs.out, hout, Nat.zero_add]
          exact count_eq_one_of_mem (hs.nodup h) ht
        · rcases mem_append.mp hx with hx | hx
          · exact .inr (.inl (hs.released _ hx))
          · exact .inl hx
      · exact .inl (by rwa [hs.other id' hid])
    · exact .inr (.inl (hs.log hr))
    · have hle := hs.out t
      have hone : (taken.flatMap Prod.snd).count t = 0 := by
        rw [count_eq_zero]
        intro ht
        obtain ⟨-, -, -, hzero⟩ := hs.of_mem_taken h ht
        rw [hzero] at hout
        cases hout
      exact .inr (.inr (by rw [hle, hout, hone]))

end

lemma Once.still (h : Once s) (htab : ∀ id, s'.reg.standing id = s.reg.standing id)
    (hout : ∀ t, s'.out t = s.out t) (hissued : ∀ t id n, s'.Issued t id n ↔ s.Issued t id n)
    (hents : ∀ (u : CallID) (pc : Pc), s'.calls[u]? = some pc → ∀ e ∈ pc.ents,
      ∃ t, e.kill = [t] ∧ s.Issued t e.cell e.id)
    (hlog : s.log ⊆ s'.log) : Once s' := by
  have hs : Shrinks s s' 0 [] [] :=
    ⟨by rw [htab]; rfl, fun id _ => htab id, hout, hissued, hents, by simp, hlog⟩
  exact h.shrinks hs

/-- **Entering a connection** keeps the invariant: the call takes the place of
no other connection. -/
lemma Once.add (h : Once s) (t : CallID) (id : CredID) (n : ConnID) (hnew : ∀ id n, ¬ s.Issued t id n)
    (hfree : ∀ u, ¬ s.Issued u id n) (htab : s'.reg.standing id = (n, [t]) :: s.reg.standing id)
    (hother : ∀ id', id' ≠ id → s'.reg.standing id' = s.reg.standing id')
    (hissued : ∀ u id' n', s'.Issued u id' n' ↔ s.Issued u id' n' ∨ u = t ∧ id' = id ∧ n' = n)
    (hout : ∀ u, s'.out u = s.out u)
    (hents : ∀ (u : CallID) (pc : Pc), s'.calls[u]? = some pc → ∀ e ∈ pc.ents,
      ∃ t, e.kill = [t] ∧ s.Issued t e.cell e.id)
    (hlog : s.log ⊆ s'.log) : Once s' := by
  have hzero : s.out t = 0 := by
    by_contra hne
    obtain ⟨id', n', hi⟩ := h.issued t hne
    exact hnew id' n' hi
  constructor
  case keys =>
    intro id'
    by_cases hid : id' = id
    · subst hid
      rw [htab, map_cons, nodup_cons]
      refine ⟨fun hn => ?_, h.keys id'⟩
      obtain ⟨⟨n', k⟩, hx, rfl⟩ := mem_map.mp hn
      obtain ⟨u, -, hi, -⟩ := h.entry id' n' k hx
      exact hfree u hi
    · rw [hother id' hid]
      exact h.keys id'
  case entry =>
    intro id' n' k hx
    have hcases : (n', k) ∈ s.reg.standing id' ∨ id' = id ∧ n' = n ∧ k = [t] := by
      by_cases hid : id' = id
      · subst hid
        rw [htab, mem_cons, Prod.mk.injEq] at hx
        exact hx.symm.imp_right fun hx => ⟨rfl, hx⟩
      · exact .inl (by rwa [← hother id' hid])
    rcases hcases with hx | ⟨rfl, rfl, rfl⟩
    · obtain ⟨u, hk, hi, ho⟩ := h.entry id' n' k hx
      exact ⟨u, hk, (hissued u id' n').mpr (.inl hi), by rw [hout, ho]⟩
    · exact ⟨t, rfl, (hissued t _ _).mpr (.inr ⟨rfl, rfl, rfl⟩), by rw [hout, hzero]⟩
  case issued =>
    intro u hu
    rw [hout] at hu
    obtain ⟨id', n', hi⟩ := h.issued u hu
    exact ⟨id', n', (hissued u id' n').mpr (.inl hi)⟩
  case once =>
    intro u
    rw [hout]
    exact h.once u
  case ents =>
    intro u pc hpc e he
    obtain ⟨v, hk, hi⟩ := hents u pc hpc e he
    exact ⟨v, hk, (hissued v _ _).mpr (.inl hi)⟩
  case kept =>
    intro u id' n' hi
    rcases (hissued u id' n').mp hi with hi | ⟨rfl, rfl, rfl⟩
    · rcases h.kept u id' n' hi with hx | hr | ho
      · refine .inl ?_
        by_cases hid : id' = id
        · subst hid
          rw [htab]
          exact mem_cons_of_mem _ hx
        · rwa [hother id' hid]
      · exact .inr (.inl (hlog hr))
      · exact .inr (.inr (by rw [hout, ho]))
    · exact .inl (by rw [htab]; exact mem_cons_self)

/-! ### A step of one call -/

lemma count_flatMap_set {α : Type*} (f : α → List Closer) {l : List α} {i : Nat} {a b : α}
    (h : l[i]? = some a) (k : Closer) :
    ((l.set i b).flatMap f).count k + (f a).count k = (l.flatMap f).count k + (f b).count k := by
  induction l generalizing i with
  | nil => simp at h
  | cons x l ih =>
    cases i with
    | zero =>
      obtain rfl : x = a := by simpa using h
      simp only [set_cons_zero, flatMap_cons, count_append]
      omega
    | succ i =>
      have := ih (by simpa using h)
      simp only [set_cons_succ, flatMap_cons, count_append]
      omega

section
variable {r : Registry} {evs : List Event}

lemma issued_moved (hpc : s.calls[t]? = some pc) : (moved s t r pc' evs).Issued u id n ↔
    if u = t then pc'.entered? = some (id, n) else s.Issued u id n := by
  unfold State.Issued
  rw [calls_moved hpc]
  split <;> simp

lemma issued_self (hpc : s.calls[t]? = some pc) : s.Issued t id n ↔ pc.entered? = some (id, n) := by
  simp [State.Issued, hpc]

lemma issued_moved_of_eq (hpc : s.calls[t]? = some pc) (he : pc'.entered? = pc.entered?) :
    (moved s t r pc' evs).Issued u id n ↔ s.Issued u id n := by
  rw [issued_moved hpc]
  split
  · next hu => rw [hu, issued_self hpc, he]
  · rfl

lemma out_moved (hpc : s.calls[t]? = some pc) (hevs : ∀ u, .killed u ∉ evs) (k : CallID) :
    (moved s t r pc' evs).out k + pc.held.count k = s.out k + pc'.held.count k := by
  have hcount : ((s.calls.set t pc').flatMap Pc.held).count k + pc.held.count k =
      (s.calls.flatMap Pc.held).count k + pc'.held.count k := count_flatMap_set Pc.held hpc k
  have hlog : (evs ++ s.log).count (.killed k) = s.log.count (.killed k) := by
    rw [count_append, count_eq_zero.mpr (hevs k), Nat.zero_add]
  simp only [State.out, moved, hlog]
  omega

lemma out_moved_of_eq (hpc : s.calls[t]? = some pc) (hevs : ∀ u, .killed u ∉ evs)
    (hheld : pc'.held = pc.held) (k : CallID) : (moved s t r pc' evs).out k = s.out k := by
  have hout : (moved s t r pc' evs).out k + pc.held.count k = s.out k + pc'.held.count k :=
    out_moved hpc hevs k
  rw [hheld] at hout
  omega

/-- The candidates after the step: those of the call, and those of the others. -/
lemma ents_moved (h : Once s) (hpc : s.calls[t]? = some pc)
    (he : ∀ e ∈ pc'.ents, ∃ u, e.kill = [u] ∧ s.Issued u e.cell e.id) (u : CallID) (q : Pc)
    (hq : (moved s t r pc' evs).calls[u]? = some q) :
    ∀ e ∈ q.ents, ∃ v, e.kill = [v] ∧ s.Issued v e.cell e.id := by
  rw [calls_moved hpc] at hq
  split at hq
  · obtain rfl := Option.some.inj hq
    exact he
  · exact h.ents u q hq

end

/-! ### Numbers -/

/-- A number that a call holds was given to this call. -/
def Numbered (s : State) : Prop :=
  ∀ (t : CallID) (pc : Pc) (x : CredID × ConnID), s.calls[t]? = some pc → pc.number? = some x →
    .numbered t x.2 ∈ s.log

lemma number_of_entered {x : CredID × ConnID} : ∀ {pc : Pc}, pc.entered? = some x →
    pc.number? = some x := by
  intro pc h
  induction pc with
  | going kills next ih => exact ih h
  | openTotal id src connID => exact h
  | openIdx id src connID => exact h
  | admitted id src connID => exact h
  | _ => cases h

lemma mem_takes {log : List Event} : (t, n) ∈ takes log ↔ .numbered t n ∈ log := by
  rw [takes, mem_filterMap]
  constructor
  · rintro ⟨ev, hev, h⟩
    cases ev with
    | numbered t' n' =>
      obtain ⟨rfl, rfl⟩ : t' = t ∧ n' = n := by simpa using h
      exact hev
    | _ => cases h
  · intro h
    exact ⟨_, h, rfl⟩

lemma State.Distinct.eq (hd : s.Distinct) (ht : .numbered t n ∈ s.log) (hu : .numbered u n ∈ s.log) :
    t = u := by
  have := inj_on_of_nodup_map hd (mem_takes.mpr ht) (mem_takes.mpr hu) rfl
  exact congrArg Prod.fst this

lemma Numbered.issued (hn : Numbered s) (h : s.Issued t id n) : .numbered t n ∈ s.log := by
  obtain ⟨pc, hpc, he⟩ := h
  exact hn t pc (id, n) hpc (number_of_entered he)

/-! ### The invariant of kills is kept -/

lemma filter_key {l : List (ConnID × ConnHandle)} (h : (l.map Prod.fst).Nodup)
    {x : ConnID × ConnHandle} (hx : x ∈ l) : l.filter (fun y => y.1 = x.1) = [x] := by
  induction l with
  | nil => cases hx
  | cons y l ih =>
    rw [map_cons, nodup_cons] at h
    rcases mem_cons.mp hx with rfl | hx
    · have hnone : l.filter (fun y => y.1 = x.1) = [] := by
        refine filter_eq_nil_iff.mpr fun y hy hyx => h.1 ?_
        rw [← of_decide_eq_true hyx]
        exact mem_map_of_mem hy
      simp [hnone]
    · have hne : y.1 ≠ x.1 := fun he => h.1 (he ▸ mem_map_of_mem hx)
      simpa [hne] using ih h.2 hx

lemma live_within_cut (r : Registry) (id : CredID) (p : ConnID × ConnHandle → Bool)
    (id' : CredID) : (r.within id fun c => c.cut p).1.live id' =
      if id' = id then (r.live id).filter (fun x => !p x) else r.live id' := by
  rw [Registry.within, Registry.live_modifyCell]
  rfl

lemma map_fst_standing (r : Registry) (id : CredID) :
    (r.standing id).map Prod.fst = (r.live id).map Prod.fst := by
  simp [Registry.standing]

section
variable {r : Registry} {evs : List Event}

lemma Once.same (h : Once s) (hpc : s.calls[t]? = some pc) (htab : ∀ id, r.standing id = s.reg.standing id)
    (hevs : ∀ u, .killed u ∉ evs) (hheld : pc'.held = pc.held) (hent : pc'.entered? = pc.entered?)
    (hents : ∀ e ∈ pc'.ents, ∃ u, e.kill = [u] ∧ s.Issued u e.cell e.id) :
    Once (moved s t r pc' evs) :=
  h.still htab (out_moved_of_eq hpc hevs hheld) (fun _ _ _ => issued_moved_of_eq hpc hent)
    (ents_moved h hpc hents) (subset_append_right evs s.log)

/-- **A cut**: what is taken out under the lock is killed. -/
lemma Once.cut (h : Once s) (hpc : s.calls[t]? = some pc) (id : CredID) (p : ConnID × ConnHandle → Bool)
    (hlive : ∀ id', r.live id' =
      if id' = id then (s.reg.live id).filter (fun x => !p x) else s.reg.live id')
    (hheld : pc'.held = ((s.reg.live id).filter p).flatMap (fun x => x.2.kill) ++ pc.held)
    (hent : pc'.entered? = pc.entered?) (hents : pc'.ents ⊆ pc.ents) :
    Once (moved s t r pc' []) := by
  have hs : Shrinks s (moved s t r pc' []) id
      (((s.reg.live id).filter p).map fun x => (x.1, x.2.kill)) [] := by
    refine ⟨?_, fun id' hid => ?_, fun k => ?_, fun u id n => issued_moved_of_eq hpc hent,
      ents_moved h hpc fun e he => h.ents t pc hpc e (hents he), by simp,
      subset_append_right [] s.log⟩
    · have hself : r.live id = (s.reg.live id).filter fun x => !p x := by rw [hlive, if_pos rfl]
      simp only [moved, Registry.standing, hself, nil_append, ← map_append]
      exact (filter_append_perm p _).symm.map _
    · simp only [moved, Registry.standing, hlive, if_neg hid]
    · have hout : (moved s t r pc' []).out k + pc.held.count k = s.out k + pc'.held.count k :=
        out_moved hpc (by simp) k
      rw [hheld, count_append] at hout
      simp only [flatMap_map]
      omega
  exact h.shrinks hs

lemma Once.effect (h : Once s) (hn : Numbered s) (hd : s.Distinct) (hpc : s.calls[t]? = some pc)
    (he : Effect t s.reg pc r pc' evs) : Once (moved s t r pc' evs) := by
  cases he with
  | quiet hq hg =>
    refine h.same hpc (fun id => by rw [Registry.standing, hq.live, Registry.standing]) (by simp)
      hg.held hg.entered fun e he => h.ents t pc hpc e (hg.ents he)
  | left id => exact h.same hpc (fun _ => rfl) (by simp) rfl rfl (by simp [Pc.ents])
  | number id src => exact h.same hpc (fun _ => rfl) (by simp) rfl rfl (by simp [Pc.ents])
  | off id =>
    refine h.same hpc (fun id' => ?_) (by simp) rfl rfl (by simp [Pc.ents])
    rw [Registry.standing, Registry.live_modifyCell, Registry.ite_live (by rfl), Registry.standing]
  | on id =>
    refine h.same hpc (fun id' => ?_) (by simp) rfl rfl (by simp [Pc.ents])
    rw [Registry.standing, Registry.live_modifyCell, Registry.ite_live (by rfl), Registry.standing]
  | sweep id =>
    refine h.cut hpc id (fun _ => true) (fun id' => ?_) ?_ rfl (by simp [Pc.ents])
    · exact live_within_cut _ _ _ _
    · simp [Pc.held, Registry.within, Cell.killAll, Cell.cut, Registry.live]
  | cut id p hg =>
    refine h.cut hpc id p (fun id' => ?_) ?_ hg.entered hg.ents
    · exact live_within_cut _ _ _ _
    · simp [Pc.held, Registry.within, Cell.cut, Registry.live, ← hg.held]
  | read w id cells ents =>
    refine h.same hpc (fun _ => rfl) (by simp) rfl rfl fun e he => ?_
    rcases mem_append.mp he with he | he
    · exact h.ents t _ hpc e he
    · -- the new candidates stand in the table now
      obtain ⟨x, hx, rfl⟩ := mem_map.mp he
      obtain ⟨u, hk, hi, -⟩ := h.entry id x.1 x.2.kill (mem_map.mpr ⟨x, (mem_filter.mp hx).1, rfl⟩)
      exact ⟨u, hk, hi⟩
  | turn w killed e ents hany =>
    obtain ⟨x, hx, hxe⟩ := any_eq_true.mp hany
    have hxe : x.1 = e.id := of_decide_eq_true hxe
    -- the number has not changed hands since the candidates were read
    have hkill : x.2.kill = e.kill := by
      obtain ⟨u, hk, hi, -⟩ := h.entry e.cell x.1 x.2.kill (mem_map_of_mem hx)
      obtain ⟨v, hk', hi'⟩ := h.ents t _ hpc e mem_cons_self
      rw [hxe] at hi
      rw [hk, hk', hd.eq (hn.issued hi) (hn.issued hi')]
    have hkeys := h.keys e.cell
    rw [map_fst_standing] at hkeys
    refine h.cut hpc e.cell (fun x => x.1 = e.id) (fun id' => ?_) ?_ rfl (subset_cons_self e ents)
    · rw [Registry.live_modifyCell]
      simp [Cell.removeLive, Registry.live]
    · rw [← hxe, filter_key hkeys hx]
      simp [Pc.held, hkill]
  | remove id connID =>
    have hs : Shrinks s (moved s t (s.reg.modifyCell id fun c => c.removeLive connID)
        (.doneIdx connID) [.released id connID]) id []
        (((s.reg.live id).filter fun x => x.1 = connID).map fun x => (x.1, x.2.kill)) := by
      refine ⟨?_, fun id' hid => ?_, out_moved_of_eq hpc (by simp) rfl,
        fun u id n => issued_moved_of_eq hpc rfl, ents_moved h hpc (by simp [Pc.ents]), ?_, subset_append_right _ s.log⟩
      · have hperm := filter_append_perm (fun x => decide (x.1 = connID)) (s.reg.live id)
        simp only [moved, Registry.standing, nil_append, ← map_append]
        rw [Registry.live_modifyCell, if_pos rfl]
        simpa [Cell.removeLive, Registry.live] using (hperm.symm.map fun x => (x.1, x.2.kill))
      · simp only [moved, Registry.standing, Registry.live_modifyCell, if_neg hid]
      · intro x hx
        obtain ⟨y, hy, rfl⟩ := mem_map.mp hx
        have : y.1 = connID := of_decide_eq_true (mem_filter.mp hy).2
        simp [moved, this]
    exact h.shrinks hs
  | add id src connID now hdis =>
    have hnew : ∀ id' n, ¬ s.Issued t id' n := by
      intro id' n hi
      rw [issued_self hpc] at hi
      cases hi
    have hfree : ∀ u id', ¬ s.Issued u id' connID := by
      intro u id' hi
      obtain rfl := hd.eq (hn t _ (id, connID) hpc rfl) (hn.issued hi)
      exact hnew id' connID hi
    have hclear : ((s.reg.cell id).live.filter fun x => x.1 ≠ connID) = (s.reg.cell id).live := by
      refine filter_eq_self.mpr fun x hx => ?_
      obtain ⟨u, -, hi, -⟩ := h.entry id x.1 x.2.kill (mem_map_of_mem hx)
      exact decide_eq_true fun he => hfree u id (he ▸ hi)
    refine h.add t id connID hnew (fun u => hfree u id) ?_ (fun id' hid => ?_)
      (fun u id' n' => ?_) (out_moved_of_eq hpc (by simp) rfl)
      (ents_moved h hpc (by simp [Pc.ents])) (subset_append_right _ s.log)
    · simp only [moved, Registry.standing]
      rw [Registry.live_modifyCell, if_pos rfl]
      simp only [Cell.addGuarded, hdis, Bool.false_eq_true, if_false, hclear]
      rfl
    · simp only [moved, Registry.standing, Registry.live_modifyCell, if_neg hid]
    · rw [issued_moved hpc]
      split
      · next hu =>
        subst hu
        simp [Pc.entered?, hnew, eq_comm]
      · next hu => simp [hu]

lemma Numbered.effect (h : Numbered s) (hpc : s.calls[t]? = some pc)
    (he : Effect t s.reg pc r pc' evs) : Numbered (moved s t r pc' evs) := by
  intro u q x hq hx
  rw [calls_moved hpc] at hq
  split at hq
  · next hu =>
    subst hu
    obtain rfl := Option.some.inj hq
    have hold : pc.number? = some x → .numbered u x.2 ∈ evs ++ s.log := fun hx =>
      mem_append_right _ (h u pc x hpc hx)
    cases he with
    | quiet hq hg =>
      rcases hg.number with hn | hn
      · exact hold (hn ▸ hx)
      · rw [hn] at hx
        cases hx
    | number id src =>
      obtain rfl := Option.some.inj hx
      exact mem_cons_self
    | add id src connID now hdis => exact hold hx
    | _ => cases hx
  · exact mem_append_right _ (h u q x hq hx)

end

/-! ### The other actions -/

lemma load_of_mayCall (h : s.mayCall pc = true) : pc.load = ([], none, none, [], none) := by
  cases pc with
  | openCell id src => rfl
  | doneConn id src connID => rfl
  | disableCell id => rfl
  | enableCell id => rfl
  | killConnIdx connID => rfl
  | killIPCell id ip => rfl
  | sweepCells w => rfl
  | _ => cases h

lemma calls_append (u : CallID) (q : Pc) : (s.calls ++ [pc])[u]? = some q ↔
    s.calls[u]? = some q ∨ u = s.calls.length ∧ q = pc := by
  rw [getElem?_append]
  split
  · next hu =>
    refine (or_iff_left ?_).symm
    rintro ⟨rfl, -⟩
    exact hu.false
  · next hu =>
    rw [getElem?_eq_none (Nat.not_lt.mp hu)]
    by_cases he : u = s.calls.length
    · subst he
      simp [eq_comm]
    · have hlt : s.calls.length < u := Nat.lt_of_le_of_ne (Nat.not_lt.mp hu) (Ne.symm he)
      rw [getElem?_eq_none (Nat.sub_pos_of_lt hlt)]
      simp [he]

lemma Once.call (h : Once s) (hc : s.mayCall pc = true) :
    Once { s with calls := s.calls ++ [pc] } := by
  obtain ⟨hheld, hnum, hent, hents, -⟩ : pc.held = [] ∧ pc.number? = none ∧ pc.entered? = none ∧
      pc.ents = [] ∧ pc.swept? = none := by simpa [Pc.load] using load_of_mayCall hc
  refine h.still (fun _ => rfl) (fun k => ?_) (fun u id n => ?_) (fun u q hq e he => ?_)
    (List.Subset.refl _)
  · simp [State.out, hheld]
  · simp only [State.Issued, calls_append]
    constructor
    · rintro ⟨q, hq | ⟨-, rfl⟩, hx⟩
      · exact ⟨q, hq, hx⟩
      · rw [hent] at hx
        cases hx
    · rintro ⟨q, hq, hx⟩
      exact ⟨q, .inl hq, hx⟩
  · rcases (calls_append u q).mp hq with hq | ⟨-, rfl⟩
    · exact h.ents u q hq e he
    · rw [hents] at he
      cases he

lemma Once.go (h : Once s) {k : Closer} {ks : List Closer} {next : Pc}
    (hpc : s.calls[t]? = some (.going (k :: ks) next)) :
    Once { s with calls := s.calls.set t (.going ks next), spawned := k :: s.spawned } := by
  have hissued : ∀ u id n, (moved s t s.reg (.going ks next) []).Issued u id n ↔ s.Issued u id n :=
    fun _ _ _ => issued_moved_of_eq hpc rfl
  have hents : ∀ (u : CallID) (q : Pc), (moved s t s.reg (.going ks next) []).calls[u]? = some q →
        ∀ e ∈ q.ents, ∃ v, e.kill = [v] ∧ s.Issued v e.cell e.id :=
    ents_moved h hpc fun e he => h.ents t _ hpc e he
  refine h.still (fun _ => rfl) (fun j => ?_) hissued hents (List.Subset.refl _)
  have hcount : ((s.calls.set t (.going ks next)).flatMap Pc.held).count j +
      (Pc.going (k :: ks) next).held.count j = (s.calls.flatMap Pc.held).count j +
      (Pc.going ks next).held.count j := count_flatMap_set Pc.held hpc j
  simp only [Pc.held, cons_append, count_cons] at hcount
  simp only [State.out, count_cons]
  omega

lemma Once.invoke (h : Once s) {k : Closer} (hk : k ∈ s.spawned) :
    Once { s with spawned := s.spawned.erase k, log := .killed k :: s.log } := by
  refine h.still (fun _ => rfl) (fun j => ?_) (fun _ _ _ => Iff.rfl) h.ents (subset_cons_self _ _)
  have hcount : s.spawned.count j = (s.spawned.erase k).count j + if k = j then 1 else 0 := by
    have := (perm_cons_erase hk).count_eq j
    simpa [count_cons] using this
  simp only [State.out, count_cons, beq_iff_eq, Event.killed.injEq]
  omega

lemma Once.touch (h : Once s) (t : CallID) (now : Int) :
    Once { s with reg := s.reg.touch [t] now } :=
  h.still (standing_touch s.reg [t] now) (fun _ => rfl) (fun _ _ _ => Iff.rfl) h.ents
    (List.Subset.refl _)

/-! ### Runs -/

lemma Numbered.moves (h : Numbered s) (hm : Moves s s') : Numbered s' := by
  cases hm with
  | call hc =>
    intro u q x hq hx
    rcases (calls_append u q).mp hq with hq | ⟨-, rfl⟩
    · exact h u q x hq hx
    · have hload := load_of_mayCall hc
      simp only [Pc.load, Prod.mk.injEq] at hload
      rw [hload.2.1] at hx
      cases hx
  | exec hpc he => exact h.effect hpc he
  | @go t k ks next hpc =>
    intro u q x hq hx
    have hq : (moved s t s.reg (.going ks next) []).calls[u]? = some q := hq
    rw [calls_moved hpc] at hq
    split at hq
    · next hu =>
      obtain rfl := Option.some.inj hq
      exact hu ▸ h t _ x hpc hx
    · exact h u q x hq hx
  | invoke hk => exact fun u q x hq hx => mem_cons_of_mem _ (h u q x hq hx)
  | touch t now => exact h

lemma Moves.log (h : Moves s s') : ∃ evs, s'.log = evs ++ s.log := by
  cases h with
  | call hc => exact ⟨[], rfl⟩
  | exec hpc he => exact ⟨_, rfl⟩
  | go hpc => exact ⟨[], rfl⟩
  | @invoke k hk => exact ⟨[.killed k], rfl⟩
  | touch t now => exact ⟨[], rfl⟩

lemma Moves.distinct (h : Moves s s') (hd : s'.Distinct) : s.Distinct := by
  obtain ⟨evs, hlog⟩ := h.log
  rw [State.Distinct, hlog, takes, filterMap_append, map_append] at hd
  exact (nodup_append.mp hd).2.1

lemma Once.moves (h : Once s) (hn : Numbered s) (hd : s.Distinct) (hm : Moves s s') : Once s' := by
  cases hm with
  | call hc => exact h.call hc
  | exec hpc he => exact h.effect hn hd hpc he
  | go hpc => exact h.go hpc
  | invoke hk => exact h.invoke hk
  | touch t now => exact h.touch t now

lemma once_init {r : Registry} (hr : ∀ id, r.live id = []) : Once { reg := r } := by
  have htab : ∀ id, r.standing id = [] := fun id => by rw [Registry.standing, hr, map_nil]
  constructor
  case keys => simp [htab]
  case entry => simp [htab]
  case issued => simp [State.out]
  case once => simp [State.out]
  case ents => simp
  case kept => simp [State.Issued]

lemma numbered_init (r : Registry) : Numbered { reg := r } := by
  intro t pc x hpc
  simp at hpc

/-- **The invariant of kills** over a run. -/
lemma once_of_reaches {r : Registry} (hr : ∀ id, r.live id = []) (h : Reaches { reg := r } s)
    (hd : s.Distinct) : Once s ∧ Numbered s := by
  induction h with
  | refl => exact ⟨once_init hr, numbered_init r⟩
  | tail _ hstep ih =>
    have hm := hstep.moves
    obtain ⟨honce, hnum⟩ := ih (hm.distinct hd)
    exact ⟨honce.moves hnum (hm.distinct hd) hm, hnum.moves hm⟩

/-! ### The counter -/

/-- The numbers given out so far count up from the start. -/
structure Counts (c : ConnID) (s : State) : Prop where
  numbers : (takes s.log).map Prod.snd =
    (List.range (takes s.log).length).reverse.map fun i => c + 1 + UInt64.ofNat i
  connSeq : s.reg.connSeq = c + UInt64.ofNat (takes s.log).length

lemma Effect.connSeq {r r' : Registry} {evs : List Event} (h : Effect t r pc r' pc' evs) :
    takes evs = [] ∧ r'.connSeq = r.connSeq ∨
      takes evs = [(t, r.connSeq + 1)] ∧ r'.connSeq = r.connSeq + 1 := by
  cases h with
  | quiet hq hg => exact .inl ⟨rfl, hq.connSeq⟩
  | number id src => exact .inr ⟨rfl, rfl⟩
  | _ => exact .inl ⟨rfl, rfl⟩

lemma Counts.moves {c : ConnID} (h : Counts c s) (hm : Moves s s') : Counts c s' := by
  cases hm with
  | call hc => exact ⟨h.numbers, h.connSeq⟩
  | go hpc => exact ⟨h.numbers, h.connSeq⟩
  | invoke hk => exact ⟨h.numbers, h.connSeq⟩
  | touch t now => exact ⟨h.numbers, h.connSeq⟩
  | @exec t pc r pc' evs hpc he =>
    have happ : takes (evs ++ s.log) = takes evs ++ takes s.log := filterMap_append
    rcases he.connSeq with ⟨hevs, hseq⟩ | ⟨hevs, hseq⟩
    · constructor
      · simpa only [moved, happ, hevs, nil_append] using h.numbers
      · simpa only [moved, happ, hevs, nil_append, hseq] using h.connSeq
    · have hnum : s.reg.connSeq + 1 = c + 1 + UInt64.ofNat (takes s.log).length := by
        rw [h.connSeq, UInt64.add_assoc, UInt64.add_comm (.ofNat _), ← UInt64.add_assoc]
      constructor
      · simp only [moved, happ, hevs, singleton_append, map_cons, length_cons,
          range_succ, reverse_append, reverse_singleton, h.numbers, hnum]
      · simp only [moved, happ, hevs, singleton_append, length_cons, hseq, hnum]
        rw [UInt64.ofNat_add, UInt64.add_comm (.ofNat _), ← UInt64.add_assoc]
        rfl

lemma counts_of_reaches {r : Registry} (h : Reaches { reg := r } s) : Counts r.connSeq s := by
  induction h with
  | refl => exact ⟨rfl, by simp [takes]⟩
  | tail _ hstep ih => exact ih.moves hstep.moves

/-- **The counter does not come round** in the first `2 ^ 64` numbers. -/
lemma distinct_of_takes {r : Registry} (h : Reaches { reg := r } s)
    (hle : (takes s.log).length ≤ 2 ^ 64) : s.Distinct := by
  rw [State.Distinct, (counts_of_reaches h).numbers]
  refine (nodup_map_iff_inj_on (by simp [nodup_range])).mpr fun i hi j hj hij => ?_
  simp only [mem_reverse, mem_range] at hi hj
  have hnat := congrArg UInt64.toNat (UInt64.add_right_inj _ |>.mp hij)
  rw [UInt64.toNat_ofNat', UInt64.toNat_ofNat', Nat.mod_eq_of_lt (by omega),
    Nat.mod_eq_of_lt (by omega)] at hnat
  exact hnat

end Threads

end Ntr.Meter
