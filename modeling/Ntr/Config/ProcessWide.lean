/-
The limits of the process across hot reloads: each build makes a connection
gate and a memory guard of its own, and an instance keeps those of the build
that it was started from.

* `shared_reload_iff`: an accepted reload keeps the limits shared exactly if it
  is calm;
* `processWide_iff`: over whole runs, with the bound on the connections that
  are open.

A connection that was admitted stays open when its inbound is stopped: `Serve`
does not wait for the connections, and the relay has no context.
-/
import Ntr.Config.Reload
import Ntr.Lib.Runs
import Ntr.Service.Admission

namespace Ntr.Config

open Go Meter Lib FailState List
open Service (Gate)

/-! ### What an inbound asks -/

/-- The inbound hands its connections to an `Admitter`. -/
def Instance.admits (E : Env) (x : Instance) : Bool :=
  match x.src with
  | .inbound _ i _ => i.kind E = .stack ∨ i.admits E
  | _ => false

/-- The gate of the file that an inbound was built from. -/
def Instance.fileGate (E : Env) (x : Instance) : Option (Int × F64) :=
  match x.src with
  | .inbound f _ _ => (buildGate E f.limits).toOption.join
  | _ => none

/-- `globalGate`, as far as the inbound is handed it: a stack on a base
transport of its own is not. -/
def Instance.globalGate (E : Env) (x : Instance) : Option (Int × F64) :=
  match x.src with
  | .inbound _ i _ => if (i.kind E = .stack ∧ !i.onBase E) ∨ i.admits E then x.fileGate E else none
  | _ => none

/-- `memGuard`, as far as the inbound is handed it. -/
def Instance.guard (E : Env) (x : Instance) : Option MemGuardSpec :=
  match x.src with
  | .inbound f i _ => if i.kind E = .stack ∨ i.admits E then f.memGuard else none
  | _ => none

/-- The instance runs the sampler of a memory guard. -/
def Instance.samples (x : Instance) : Bool :=
  match x.src with
  | .memGuard _ => true
  | _ => false

/-! ### The process -/

/-- The process: the manager, how many builds there were, which of them what
runs under an address comes from, the global gate of each build, and the gates
that the open connections hold. -/
structure Process where
  mgr : Manager
  builds : Nat
  born : Str → Nat
  gates : Nat → Gate
  conns : List (Option Nat)

/-- What happens to a process: a file is loaded, a connection comes to an
inbound, where the other checks may let it pass or not, a connection ends. -/
inductive Happening where
  | reload (f : File)
  | admitConn (listen : Str) (pass : Bool)
  | release (gate : Option Nat)

namespace Process

def new : Process := ⟨Manager.new, 0, fun _ => 0, fun _ => { maxConns := 0 }, []⟩

def samplerListen : Str := lit "mem-guard"

/-- An inbound that admits connections runs under the address. -/
def admits (E : Env) (p : Process) (l : Str) : Bool := (p.mgr.active l).any (·.admits E)

/-- The global gate that is asked under the address, by the build it is of. -/
def gateAt (E : Env) (p : Process) (l : Str) : Option Nat :=
  ((p.mgr.active l).bind (·.globalGate E)).map fun _ => p.born l

/-- The memory guard that is asked under the address. -/
def guardAt (E : Env) (p : Process) (l : Str) : Option Nat :=
  ((p.mgr.active l).bind (·.guard E)).map fun _ => p.born l

def sampled (p : Process) : Option Nat :=
  ((p.mgr.active samplerListen).filter (·.samples)).map fun _ => p.born samplerListen

/-- One round of `runConfig`. -/
def reload (E : Env) (p : Process) (f : File) : Process where
  mgr := p.mgr.reload E f
  builds := p.builds + 1
  born l := if (p.mgr.applied E f).started l then p.builds else p.born l
  gates :=
    match (buildGate E f.limits).toOption.join with
    | some (maxConns, _) => Function.update p.gates p.builds { maxConns }
    | none => p.gates
  conns := p.conns

/-- `AdmitConn` on an inbound: a connection that the other checks refuse gives
the gate back. -/
def admitConn (E : Env) (p : Process) (l : Str) (pass : Bool) : Process :=
  if p.admits E l then
    match p.gateAt E l with
    | none => if pass then { p with conns := none :: p.conns } else p
    | some n =>
      let (g, ok) := (p.gates n).tryAcquire
      if ok then
        if pass then { p with gates := Function.update p.gates n g, conns := some n :: p.conns }
        else { p with gates := Function.update p.gates n g.release }
      else { p with gates := Function.update p.gates n g }
  else p

def release (p : Process) (c : Option Nat) : Process :=
  if c ∈ p.conns then
    { p with
      gates := match c with
        | some n => Function.update p.gates n (p.gates n).release
        | none => p.gates
      conns := p.conns.erase c }
  else p

def step (E : Env) (p : Process) : Happening → Process
  | .reload f => p.reload E f
  | .admitConn l pass => p.admitConn E l pass
  | .release c => p.release c

/-! ### The property and the conditions -/

/-- **The limits are those of the process**: all inbounds that admit connections
ask one gate and one guard, none is without the gate of its file, and the
sampler of the guard runs. -/
structure Shared (E : Env) (p : Process) : Prop where
  gate : ∀ l l', p.admits E l = true → p.admits E l' = true → p.gateAt E l = p.gateAt E l'
  held : ∀ l x, p.mgr.active l = some x → x.admits E = true → x.globalGate E = x.fileGate E
  guard : ∀ l l', p.admits E l = true → p.admits E l' = true → p.guardAt E l = p.guardAt E l'
  sampler : ∀ l n, p.admits E l = true → p.guardAt E l = some n → p.sampled = some n

/-- A reload of the file leaves what runs under the address as it is. -/
def Keeps (E : Env) (p : Process) (f : File) (l : Str) : Prop :=
  ∃ a b, p.mgr.active l = some a ∧ fresh E f l = some b ∧ a.hash E = b.hash E

def Starts (E : Env) (p : Process) (f : File) (l : Str) (b : Instance) : Prop :=
  fresh E f l = some b ∧ ¬ p.Keeps E f l

/-- A reload that does not split the limits: it does not start one inbound and
keep another where either of them has a gate, or a guard; it starts no inbound
on a base transport where there is a gate; the sampler is kept with the inbounds
that have its guard, and started anew with them. -/
structure Calm (E : Env) (p : Process) (f : File) : Prop where
  gate : ∀ l l' b, p.Keeps E f l → p.admits E l = true → p.Starts E f l' b → b.admits E = true →
    p.gateAt E l = none ∧ b.globalGate E = none
  held : ∀ l b, p.Starts E f l b → b.admits E = true → b.globalGate E = b.fileGate E
  guard : ∀ l l' b, p.Keeps E f l → p.admits E l = true → p.Starts E f l' b → b.admits E = true →
    p.guardAt E l = none ∧ b.guard E = none
  keeps : ∀ l, p.Keeps E f l → p.admits E l = true → (p.guardAt E l).isSome →
    p.Keeps E f samplerListen
  starts : ∀ l b, p.Starts E f l b → b.admits E = true → (b.guard E).isSome →
    ¬ p.Keeps E f samplerListen

def Allowed (E : Env) (p : Process) : Happening → Prop
  | .reload f => Accepts E f → p.Calm E f
  | _ => True

/-- An inbound is started only when no connection is open. -/
def Drained (E : Env) (p : Process) : Happening → Prop
  | .reload f => Accepts E f → (∃ l b, p.Starts E f l b ∧ b.admits E = true) → p.conns = []
  | _ => True

/-! ### Fresh instances -/

end Process

lemma src_of_mem_bridgeInstances {E : Env} {f : File} {outs : Outs} :
    ∀ {bs : List Bridge} {n : Nat} {insts : List Instance},
      bridgeInstances E f outs n bs = .ok insts → ∀ x ∈ insts, ∃ b, x.src = .bridge f b
  | [], n, insts, h, x, hx => by
    cases h
    cases hx
  | b :: bs, n, insts, h, x, hx => by
    rw [bridgeInstances] at h
    split_ifs at h
    split at h
    · cases h
    · next rest hrest =>
      cases h
      rcases mem_cons.mp hx with rfl | hx
      · exact ⟨b, rfl⟩
      · exact src_of_mem_bridgeInstances hrest x hx

lemma of_mem_metricsInstances {E : Env} {f : File} {insts : List Instance}
    (h : metricsInstances E f = .ok insts) {x : Instance} (hx : x ∈ insts) :
    x.listen ≠ Process.samplerListen ∧ ∀ f' i binds, x.src ≠ .inbound f' i binds := by
  rw [metricsInstances] at h
  split at h
  · cases h
    cases hx
  · split_ifs at h
    · cases h
      cases hx
    · split at h
      · cases h
      · cases h
        simp only [mem_cons, not_mem_nil, or_false] at hx
        have hhead (s : Str) : lit "metrics:" ++ s ≠ Process.samplerListen := by
          intro heq
          have hthird : some (0x74 : UInt8) = Process.samplerListen[2]? :=
            congrArg (fun t : Str => t[2]?) heq
          exact absurd hthird (by decide)
        rcases hx with rfl | rfl | rfl
        · exact ⟨hhead _, by simp⟩
        · exact ⟨show lit "rate-sampler" ≠ _ by decide, by simp⟩
        · exact ⟨show lit "reaper" ≠ _ by decide, by simp⟩

lemma lastInstances_of_accepts {E : Env} {f : File} (hf : Accepts E f) :
    ∃ p insts, lastInstances E f p = .ok insts ∧ fresh E f = want insts := by
  rw [Accepts] at hf
  cases hprep : prepare E f with
  | error err =>
    rw [build, outcome_bind, outcome_lift, hprep] at hf
    cases hf
  | ok p =>
    rw [fresh]
    rw [outcome_build hprep] at hf ⊢
    cases hout : outcome (buildInbounds E (p.ctx f) 0 f.inbounds) Registry.new with
    | error err =>
      rw [hout] at hf
      cases hf
    | ok u =>
      rw [hout] at hf
      cases hlast : lastInstances E f p with
      | error err =>
        rw [hlast] at hf
        cases hf
      | ok insts => exact ⟨p, insts, hlast, rfl⟩

lemma accepts_of_fresh {E : Env} {f : File} {l : Str} {b : Instance} (h : fresh E f l = some b) :
    Accepts E f := by
  rw [fresh] at h
  rw [Accepts]
  cases hout : outcome (build E f) Registry.new with
  | error err =>
    rw [hout] at h
    cases h
  | ok insts => rfl

lemma lastInstances_eq {E : Env} {f : File} {p : Prepared} {insts : List Instance}
    (h : lastInstances E f p = .ok insts) :
    ∃ bridges metrics, bridgeInstances E f p.table.outs 0 f.bridges = .ok bridges ∧
      metricsInstances E f = .ok metrics ∧
      insts = firstInstances E f p ++ bridges ++ (f.memGuard.toList.map fun s : MemGuardSpec =>
        { listen := lit "mem-guard", hashed := .value (.memGuard s), src := .memGuard f }) ++
          metrics := by
  rw [lastInstances] at h
  split at h
  · cases h
  · next bridges hbridges =>
    dsimp only at h
    split at h
    · cases h
    · next metrics hmetrics =>
      split_ifs at h
      cases h
      exact ⟨bridges, metrics, hbridges, hmetrics, rfl⟩

lemma inbound_of_fresh {E : Env} {f f' : File} {l : Str} {b : Instance} {i : Inbound}
    {binds : List CredBinding} (h : fresh E f l = some b) (hsrc : b.src = .inbound f' i binds) :
    f' = f ∧ ∃ j ∈ f.inbounds, i = j.composed := by
  obtain ⟨p, insts, hlast, hfresh⟩ := lastInstances_of_accepts (accepts_of_fresh h)
  obtain ⟨bridges, metrics, hbridges, hmetrics, rfl⟩ := lastInstances_eq hlast
  rw [hfresh] at h
  have hmem := mem_reverse.mp (mem_of_find?_eq_some h)
  simp only [mem_append, or_assoc] at hmem
  rcases hmem with hfirst | hbridge | hguard | hmetric
  · obtain ⟨x, hx, rfl⟩ := mem_map.mp hfirst
    rcases mem_append.mp hx with hx | hx
    · obtain ⟨g, -, rfl⟩ := mem_map.mp hx
      cases hsrc
    · obtain ⟨j, hj, rfl⟩ := mem_map.mp hx
      cases hsrc
      exact ⟨rfl, j, hj, rfl⟩
  · obtain ⟨c, hc⟩ := src_of_mem_bridgeInstances hbridges b hbridge
    rw [hc] at hsrc
    cases hsrc
  · obtain ⟨s, -, rfl⟩ := mem_map.mp hguard
    cases hsrc
  · exact absurd hsrc ((of_mem_metricsInstances hmetrics hmetric).2 _ _ _)

lemma fresh_samplerListen {E : Env} {f : File} (hf : Accepts E f) (hg : f.memGuard.isSome) :
    ∃ b, fresh E f Process.samplerListen = some b ∧ b.samples = true := by
  obtain ⟨p, insts, hlast, hfresh⟩ := lastInstances_of_accepts hf
  obtain ⟨bridges, metrics, -, hmetrics, rfl⟩ := lastInstances_eq hlast
  obtain ⟨s, hs⟩ := Option.isSome_iff_exists.mp hg
  have hnone : metrics.reverse.find? (fun i => decide (i.listen = Process.samplerListen)) = none :=
    find?_eq_none.mpr fun x hx => by
      simpa using (of_mem_metricsInstances hmetrics (mem_reverse.mp hx)).1
  refine ⟨⟨lit "mem-guard", .value (.memGuard s), .memGuard f⟩, ?_, rfl⟩
  rw [hfresh, want, hs, reverse_append, find?_append, hnone]
  simp [Process.samplerListen]

lemma Instance.guard_isSome {E : Env} {f : File} {l : Str} {b : Instance}
    (h : fresh E f l = some b) (hg : (b.guard E).isSome) : f.memGuard.isSome := by
  rw [Instance.guard] at hg
  split at hg
  · next f' i binds hsrc =>
    obtain ⟨rfl, -⟩ := inbound_of_fresh h hsrc
    split_ifs at hg with hadm
    · exact hg
    · cases hg
  · cases hg

lemma Instance.fileGate_of_fresh {E : Env} {f : File} {l : Str} {b : Instance}
    (h : fresh E f l = some b) (hadm : b.admits E = true) :
    b.fileGate E = (buildGate E f.limits).toOption.join := by
  rw [Instance.admits] at hadm
  rw [Instance.fileGate]
  split at hadm
  · next f' i binds hsrc =>
    obtain ⟨rfl, -⟩ := inbound_of_fresh h hsrc
    rfl
  · cases hadm

namespace Process

variable {E : Env} {p : Process} {f : File} {l : Str} {b : Instance}

/-! ### One reload -/

/-- What runs comes from a build before. -/
def Dated (p : Process) : Prop := ∀ l, (p.mgr.active l).isSome → p.born l < p.builds

lemma reload_of_keeps (h : p.Keeps E f l) :
    (p.reload E f).mgr.active l = p.mgr.active l ∧ (p.reload E f).born l = p.born l := by
  obtain ⟨a, b, ha, hb, hhash⟩ := h
  obtain ⟨insts, hfresh, happ⟩ := applied_of_accepts (accepts_of_fresh hb) p.mgr
  rw [hfresh] at hb
  have hkept := apply_of_some (E := E) ha hb
  constructor
  · change (p.mgr.applied E f).active l = _
    rw [happ, hkept.1, if_pos hhash, ha]
  · refine if_neg ?_
    rw [happ, hkept.2.2]
    exact not_not.mpr hhash

lemma reload_of_not_keeps (hf : Accepts E f) (h : ¬ p.Keeps E f l) :
    (p.reload E f).mgr.active l = fresh E f l ∧
      ((fresh E f l).isSome → (p.reload E f).born l = p.builds) := by
  obtain ⟨insts, hfresh, happ⟩ := applied_of_accepts hf p.mgr
  rw [hfresh]
  cases hw : want insts l with
  | none =>
    refine ⟨?_, by simp⟩
    change (p.mgr.applied E f).active l = _
    rw [happ, apply_active_of_want_none hw]
  | some b =>
    suffices hs : (p.mgr.applied E f).active l = some b ∧ (p.mgr.applied E f).started l = true from
      ⟨hs.1, fun _ => if_pos hs.2⟩
    rw [happ]
    cases ha : p.mgr.active l with
    | none => exact ⟨(apply_active_of_none ha).trans hw, by simp [apply, ha, hw]⟩
    | some a =>
      have hhash : a.hash E ≠ b.hash E := fun hhash =>
        h ⟨a, b, ha, by rw [hfresh, hw], hhash⟩
      have hnew := apply_of_some (E := E) ha hw
      exact ⟨by rw [hnew.1, if_neg hhash], hnew.2.2.mpr hhash⟩

lemma reload_of_not_accepts (hf : ¬ Accepts E f) :
    (p.reload E f).mgr.active = p.mgr.active ∧ (p.reload E f).born = p.born := by
  refine ⟨applied_of_not_accepts hf p.mgr, funext fun l => if_neg ?_⟩
  rw [Manager.applied, steady_build E f p.mgr.reg Registry.new]
  rw [Accepts] at hf
  cases hout : outcome (build E f) Registry.new with
  | error err => simp
  | ok insts =>
    rw [hout] at hf
    exact absurd rfl hf

lemma Dated.reload (h : p.Dated) (f : File) : (p.reload E f).Dated := by
  intro l hl
  change _ < p.builds + 1
  by_cases hf : Accepts E f
  · by_cases hk : p.Keeps E f l
    · rw [(reload_of_keeps hk).1] at hl
      rw [(reload_of_keeps hk).2]
      exact Nat.lt_succ_of_lt (h l hl)
    · have hnew := reload_of_not_keeps hf hk
      rw [hnew.1] at hl
      rw [hnew.2 hl]
      exact Nat.lt_succ_self _
  · have hsame := reload_of_not_accepts (p := p) hf
    rw [hsame.1] at hl
    rw [hsame.2]
    exact Nat.lt_succ_of_lt (h l hl)

/-! What is asked under an address after a reload that keeps what runs there. -/

section
variable (h : p.Keeps E f l)
include h

lemma admits_of_keeps : (p.reload E f).admits E l = p.admits E l := by
  rw [admits, (reload_of_keeps h).1, admits]

lemma gateAt_of_keeps : (p.reload E f).gateAt E l = p.gateAt E l := by
  rw [gateAt, (reload_of_keeps h).1, (reload_of_keeps h).2, gateAt]

lemma guardAt_of_keeps : (p.reload E f).guardAt E l = p.guardAt E l := by
  rw [guardAt, (reload_of_keeps h).1, (reload_of_keeps h).2, guardAt]

end

/-! What is asked after a reload that starts an instance there. -/

lemma admits_of_starts (h : p.Starts E f l b) : (p.reload E f).admits E l = b.admits E := by
  rw [admits, (reload_of_not_keeps (accepts_of_fresh h.1) h.2).1, h.1]
  rfl

lemma gateAt_of_starts (h : p.Starts E f l b) :
    (p.reload E f).gateAt E l = (b.globalGate E).map fun _ => p.builds := by
  have hnew := reload_of_not_keeps (accepts_of_fresh h.1) h.2
  rw [gateAt, hnew.1, hnew.2 (Option.isSome_of_eq_some h.1), h.1]
  rfl

lemma guardAt_of_starts (h : p.Starts E f l b) :
    (p.reload E f).guardAt E l = (b.guard E).map fun _ => p.builds := by
  have hnew := reload_of_not_keeps (accepts_of_fresh h.1) h.2
  rw [guardAt, hnew.1, hnew.2 (Option.isSome_of_eq_some h.1), h.1]
  rfl

lemma keeps_or_starts (hf : Accepts E f) (h : (p.reload E f).admits E l = true) :
    (p.Keeps E f l ∧ p.admits E l = true) ∨ ∃ b, p.Starts E f l b ∧ b.admits E = true := by
  by_cases hk : p.Keeps E f l
  · exact .inl ⟨hk, by rwa [admits_of_keeps hk] at h⟩
  · have hnew := (reload_of_not_keeps hf hk).1
    cases hb : fresh E f l with
    | none => simp [admits, hnew, hb] at h
    | some b =>
      have hs : p.Starts E f l b := ⟨hb, hk⟩
      exact .inr ⟨b, hs, by rwa [admits_of_starts hs] at h⟩

lemma sampled_of_keeps (h : p.Keeps E f samplerListen) : (p.reload E f).sampled = p.sampled := by
  rw [sampled, (reload_of_keeps h).1, (reload_of_keeps h).2, sampled]

variable {n : Nat} {q : Process}

lemma sampled_of_not_keeps (hf : Accepts E f) (h : ¬ p.Keeps E f samplerListen)
    (hn : (p.reload E f).sampled = some n) : n = p.builds := by
  have hnew := reload_of_not_keeps hf h
  rw [sampled, hnew.1] at hn
  obtain ⟨b, hb, rfl⟩ := Option.map_eq_some_iff.mp hn
  exact hnew.2 (Option.isSome_of_eq_some (Option.filter_eq_some_iff.mp hb).1)

lemma Dated.lt_of_map {p : Process} (h : p.Dated) {β : Type} {g : Instance → Option β}
    (hn : (((p.mgr.active l).bind g).map fun _ => p.born l) = some n) : n < p.builds := by
  obtain ⟨x, hx, rfl⟩ := Option.map_eq_some_iff.mp hn
  obtain ⟨a, ha, -⟩ := Option.bind_eq_some_iff.mp hx
  exact h l (Option.isSome_of_eq_some ha)

/-- Objects of an earlier build and of the new one are the same only if there
are none. -/
lemma none_of_eq_map {x : Option Nat} {β : Type} {y : Option β}
    (hx : ∀ m, x = some m → m < n) (h : x = y.map fun _ => n) : x = none ∧ y = none := by
  cases y with
  | none => exact ⟨h, rfl⟩
  | some y => exact absurd (hx n h) (Nat.lt_irrefl n)

lemma calm_of_shared (hd : p.Dated) (hf : Accepts E f) (h : (p.reload E f).Shared E) :
    p.Calm E f where
  gate l l' b hk hadm hs hadm' := by
    have heq := h.gate l l' ((admits_of_keeps hk).trans hadm) ((admits_of_starts hs).trans hadm')
    rw [gateAt_of_keeps hk, gateAt_of_starts hs] at heq
    exact none_of_eq_map (fun m hm => hd.lt_of_map hm) heq
  held l b hs hadm := by
    have hnew := (reload_of_not_keeps hf hs.2).1
    rw [hs.1] at hnew
    exact h.held l b hnew hadm
  guard l l' b hk hadm hs hadm' := by
    have heq := h.guard l l' ((admits_of_keeps hk).trans hadm) ((admits_of_starts hs).trans hadm')
    rw [guardAt_of_keeps hk, guardAt_of_starts hs] at heq
    exact none_of_eq_map (fun m hm => hd.lt_of_map hm) heq
  keeps l hk hadm hg := by
    obtain ⟨n, hn⟩ := Option.isSome_iff_exists.mp hg
    by_contra hsampler
    have hrun := h.sampler l n ((admits_of_keeps hk).trans hadm) ((guardAt_of_keeps hk).trans hn)
    exact absurd (sampled_of_not_keeps hf hsampler hrun) (hd.lt_of_map hn).ne
  starts l b hs hadm hg hsampler := by
    obtain ⟨s, hs'⟩ := Option.isSome_iff_exists.mp hg
    have hn : (p.reload E f).guardAt E l = some p.builds := by rw [guardAt_of_starts hs, hs']; rfl
    have hrun := h.sampler l _ ((admits_of_starts hs).trans hadm) hn
    rw [sampled_of_keeps hsampler, sampled] at hrun
    obtain ⟨a, ha, hborn⟩ := Option.map_eq_some_iff.mp hrun
    have hlt := hd samplerListen (Option.isSome_of_eq_some (Option.filter_eq_some_iff.mp ha).1)
    exact absurd hborn hlt.ne

/-- What all inbounds have in common after a reload, from what the kept ones
have and what the started ones get. -/
lemma common_of_calm (hf : Accepts E f) {at' : Str → Option Nat} {at₀ : Str → Option Nat}
    {own : Instance → Option Nat}
    (hold : ∀ l l', p.admits E l = true → p.admits E l' = true → at₀ l = at₀ l')
    (hkeep : ∀ l, p.Keeps E f l → at' l = at₀ l)
    (hstart : ∀ l b, p.Starts E f l b → b.admits E = true → at' l = own b)
    (hmixed : ∀ l l' b, p.Keeps E f l → p.admits E l = true → p.Starts E f l' b →
      b.admits E = true → at₀ l = own b)
    (hnew : ∀ l l' b b', p.Starts E f l b → p.Starts E f l' b' → b.admits E = true →
      b'.admits E = true → own b = own b')
    (l l' : Str) (hl : (p.reload E f).admits E l = true) (hl' : (p.reload E f).admits E l' = true) :
    at' l = at' l' := by
  rcases keeps_or_starts hf hl with ⟨hk, hadm⟩ | ⟨b, hs, hadm⟩ <;>
    rcases keeps_or_starts hf hl' with ⟨hk', hadm'⟩ | ⟨b', hs', hadm'⟩
  · rw [hkeep l hk, hkeep l' hk', hold l l' hadm hadm']
  · rw [hkeep l hk, hstart l' b' hs' hadm', hmixed l l' b' hk hadm hs' hadm']
  · rw [hstart l b hs hadm, hkeep l' hk', hmixed l' l b hk' hadm' hs hadm]
  · rw [hstart l b hs hadm, hstart l' b' hs' hadm', hnew l l' b b' hs hs' hadm hadm']

lemma guard_of_fresh {l : Str} {b : Instance} (h : fresh E f l = some b)
    (hadm : b.admits E = true) : b.guard E = f.memGuard := by
  rw [Instance.admits] at hadm
  rw [Instance.guard]
  split at hadm
  · next f' i binds hsrc =>
    obtain ⟨rfl, -⟩ := inbound_of_fresh h hsrc
    exact if_pos (of_decide_eq_true hadm)
  · cases hadm

lemma shared_of_calm (hf : Accepts E f) (h : p.Shared E) (hc : p.Calm E f) :
    (p.reload E f).Shared E where
  gate := by
    refine common_of_calm hf h.gate (fun l hk => gateAt_of_keeps hk)
      (fun l b hs _ => gateAt_of_starts hs) (fun l l' b hk hadm hs hadm' => ?_)
      fun l l' b b' hs hs' hadm hadm' => ?_
    · obtain ⟨hold, hnew⟩ := hc.gate l l' b hk hadm hs hadm'
      rw [hold, hnew]
      rfl
    · rw [hc.held l b hs hadm, hc.held l' b' hs' hadm', Instance.fileGate_of_fresh hs.1 hadm,
        Instance.fileGate_of_fresh hs'.1 hadm']
  held l x hx hadm := by
    by_cases hk : p.Keeps E f l
    · rw [(reload_of_keeps hk).1] at hx
      exact h.held l x hx hadm
    · rw [(reload_of_not_keeps hf hk).1] at hx
      exact hc.held l x ⟨hx, hk⟩ hadm
  guard := by
    refine common_of_calm hf h.guard (fun l hk => guardAt_of_keeps hk)
      (fun l b hs _ => guardAt_of_starts hs) (fun l l' b hk hadm hs hadm' => ?_)
      fun l l' b b' hs hs' hadm hadm' => ?_
    · obtain ⟨hold, hnew⟩ := hc.guard l l' b hk hadm hs hadm'
      rw [hold, hnew]
      rfl
    · rw [guard_of_fresh hs.1 hadm, guard_of_fresh hs'.1 hadm']
  sampler l n hl hn := by
    rcases keeps_or_starts hf hl with ⟨hk, hadm⟩ | ⟨b, hs, hadm⟩
    · rw [guardAt_of_keeps hk] at hn
      rw [sampled_of_keeps (hc.keeps l hk hadm (Option.isSome_of_eq_some hn))]
      exact h.sampler l n hadm hn
    · rw [guardAt_of_starts hs] at hn
      obtain ⟨s, hs', rfl⟩ := Option.map_eq_some_iff.mp hn
      have hguard := Option.isSome_of_eq_some hs'
      obtain ⟨c, hfresh, hsamples⟩ := fresh_samplerListen hf (Instance.guard_isSome hs.1 hguard)
      have hnew := reload_of_not_keeps hf (hc.starts l b hs hadm hguard)
      rw [sampled, hnew.1, hnew.2 (Option.isSome_of_eq_some hfresh), hfresh,
        Option.filter_some_pos hsamples]
      rfl

/-- **One reload** keeps the limits shared exactly if it is calm. -/
lemma shared_reload_iff (hd : p.Dated) (hf : Accepts E f) (h : p.Shared E) :
    (p.reload E f).Shared E ↔ p.Calm E f :=
  ⟨calm_of_shared hd hf, shared_of_calm hf h⟩

/-! ### Whole runs -/

/-- What `admitConn` does: nothing, an admission without a gate, a refusal that
leaves the count of the gate as it was, or an admission through the gate. -/
lemma admitConn_cases (E : Env) (p : Process) (l : Str) (pass : Bool) : p.admitConn E l pass = p ∨
    (p.admits E l = true ∧ p.gateAt E l = none ∧
      p.admitConn E l pass = { p with conns := none :: p.conns }) ∨
    (∃ n g, p.admits E l = true ∧ p.gateAt E l = some n ∧
      g.maxConns = (p.gates n).maxConns ∧ g.live = (p.gates n).live ∧
      p.admitConn E l pass = { p with gates := Function.update p.gates n g }) ∨
    ∃ n g, p.admits E l = true ∧ p.gateAt E l = some n ∧
      ((p.gates n).maxConns = 0 ∨ (p.gates n).live < (p.gates n).maxConns) ∧
      g.maxConns = (p.gates n).maxConns ∧ g.live = (p.gates n).live + 1 ∧ p.admitConn E l pass =
        { p with gates := Function.update p.gates n g, conns := some n :: p.conns } := by
  rw [admitConn]
  by_cases hadm : p.admits E l = true
  · rw [if_pos hadm]
    cases hgate : p.gateAt E l with
    | none =>
      cases pass with
      | true => exact .inr (.inl ⟨hadm, rfl, rfl⟩)
      | false => exact .inl rfl
    | some n =>
      by_cases hroom : (p.gates n).maxConns = 0 ∨ (p.gates n).live < (p.gates n).maxConns
      · simp only [Gate.tryAcquire, if_pos hroom, if_true]
        let g : Gate := { p.gates n with live := (p.gates n).live + 1 }
        cases pass with
        | true => exact .inr (.inr (.inr ⟨n, g, hadm, rfl, hroom, rfl, rfl, if_pos rfl⟩))
        | false =>
          exact .inr (.inr (.inl ⟨n, g.release, hadm, rfl, rfl, Int.add_sub_cancel _ 1,
            if_neg Bool.false_ne_true⟩))
      · simp only [Gate.tryAcquire, if_neg hroom]
        let g : Gate := { p.gates n with rejected := (p.gates n).rejected + 1 }
        exact .inr (.inr (.inl ⟨n, g, hadm, rfl, rfl, rfl, if_neg Bool.false_ne_true⟩))
  · exact .inl (if_neg hadm)

lemma mgr_admitConn (E : Env) (p : Process) (l : Str) (pass : Bool) :
    (p.admitConn E l pass).mgr = p.mgr ∧ (p.admitConn E l pass).born = p.born ∧
      (p.admitConn E l pass).builds = p.builds := by
  rcases admitConn_cases E p l pass with h | ⟨-, -, h⟩ | ⟨n, g, -, -, -, -, h⟩ |
    ⟨n, g, -, -, -, -, -, h⟩ <;> rw [h] <;> exact ⟨rfl, rfl, rfl⟩

lemma mgr_release (p : Process) (c : Option Nat) :
    (p.release c).mgr = p.mgr ∧ (p.release c).born = p.born ∧ (p.release c).builds = p.builds := by
  by_cases hc : c ∈ p.conns
  · rw [release.eq_def, if_pos hc]
    exact ⟨rfl, rfl, rfl⟩
  · rw [release.eq_def, if_neg hc]
    exact ⟨rfl, rfl, rfl⟩

structure SameRuns (p q : Process) : Prop where
  active : q.mgr.active = p.mgr.active
  born : q.born = p.born

lemma SameRuns.admits_eq {p : Process} (h : SameRuns p q) (l : Str) :
    q.admits E l = p.admits E l := by
  rw [admits, h.active, admits]

lemma SameRuns.gateAt_eq {p : Process} (h : SameRuns p q) (l : Str) :
    q.gateAt E l = p.gateAt E l := by
  rw [gateAt, h.active, h.born, gateAt]

lemma SameRuns.shared {p : Process} (h : SameRuns p q) (hp : p.Shared E) : q.Shared E := by
  have hguard (l : Str) : q.guardAt E l = p.guardAt E l := by
    rw [guardAt, h.active, h.born, guardAt]
  have hsampled : q.sampled = p.sampled := by rw [sampled, h.active, h.born, sampled]
  constructor
  · simpa only [h.admits_eq, h.gateAt_eq] using hp.gate
  · simpa only [h.active] using hp.held
  · simpa only [h.admits_eq, hguard] using hp.guard
  · simpa only [h.admits_eq, hguard, hsampled] using hp.sampler

lemma sameRuns_admitConn (E : Env) (p : Process) (l : Str) (pass : Bool) :
    SameRuns p (p.admitConn E l pass) :=
  ⟨congrArg Manager.active (mgr_admitConn E p l pass).1, (mgr_admitConn E p l pass).2.1⟩

lemma sameRuns_release (p : Process) (c : Option Nat) : SameRuns p (p.release c) :=
  ⟨congrArg Manager.active (mgr_release p c).1, (mgr_release p c).2.1⟩

lemma sameRuns_reload (hf : ¬ Accepts E f) : SameRuns p (p.reload E f) :=
  ⟨(reload_of_not_accepts hf).1, (reload_of_not_accepts hf).2⟩

lemma SameRuns.dated {p : Process} (h : SameRuns p q) (hle : p.builds ≤ q.builds)
    (hp : p.Dated) : q.Dated := by
  intro l hl
  rw [h.active] at hl
  rw [h.born]
  exact (hp l hl).trans_le hle

lemma dated_step (E : Env) (p : Process) (s : Happening) (h : p.Dated) : (p.step E s).Dated := by
  cases s with
  | reload f => exact h.reload f
  | admitConn l pass =>
    exact (sameRuns_admitConn E p l pass).dated (mgr_admitConn E p l pass).2.2.ge h
  | release c => exact (sameRuns_release p c).dated (mgr_release p c).2.2.ge h

lemma shared_step_iff (E : Env) (p : Process) (s : Happening) (hd : p.Dated) (h : p.Shared E) :
    (p.step E s).Shared E ↔ p.Allowed E s := by
  cases s with
  | reload f =>
    by_cases hf : Accepts E f
    · rw [Allowed, forall_prop_of_true hf]
      exact shared_reload_iff hd hf h
    · exact iff_of_true ((sameRuns_reload hf).shared h) fun hacc => absurd hacc hf
  | admitConn l pass => exact iff_of_true ((sameRuns_admitConn E p l pass).shared h) trivial
  | release c => exact iff_of_true ((sameRuns_release p c).shared h) trivial

lemma dated_new : Process.new.Dated := fun _ h => by cases h

lemma shared_new (E : Env) : Process.new.Shared E where
  gate _ _ h := by cases h
  held _ _ h := by cases h
  guard _ _ h := by cases h
  sampler _ _ h := by cases h

/-! ### The connections that are open -/

/-- The state of a process whose files have one gate, for `max` connections:
the open connections all hold the gate that the inbounds ask, which counts
them. -/
structure Bounded (E : Env) (L : Option LimitsSpec) (max : Int) (p : Process) : Prop where
  dated : p.Dated
  shared : p.Shared E
  limits : ∀ l x, p.mgr.active l = some x → x.admits E = true →
    x.fileGate E = (buildGate E L).toOption.join
  size : ∀ l n, p.gateAt E l = some n → (p.gates n).maxConns = max
  live : ∀ n, (p.gates n).live = p.conns.count (some n)
  old : ∀ c ∈ p.conns, ∃ n < p.builds, c = some n
  one : ∀ c ∈ p.conns, ∀ l, p.admits E l = true → p.gateAt E l = c
  same : ∀ c ∈ p.conns, ∀ c' ∈ p.conns, c = c'
  bound : (p.conns.length : Int) ≤ max

/-! A gate that is asked changes its count. -/

lemma maxConns_update {gates : Nat → Gate} {g : Gate}
    (hg : g.maxConns = (gates n).maxConns) (m : Nat) :
    (Function.update gates n g m).maxConns = (gates m).maxConns := by
  by_cases hm : m = n
  · subst hm
    rw [Function.update_self, hg]
  · rw [Function.update_of_ne hm]

lemma live_update {gates : Nat → Gate} {g : Gate} {d : Int}
    (hg : g.live = (gates n).live + d) (m : Nat) :
    (Function.update gates n g m).live = (gates m).live + if m = n then d else 0 := by
  by_cases hm : m = n
  · subst hm
    rw [Function.update_self, hg, if_pos rfl]
  · rw [Function.update_of_ne hm, if_neg hm, Int.add_zero]

def Loads (E : Env) (L : Option LimitsSpec) : Happening → Prop
  | .reload f => Accepts E f → f.limits = L
  | _ => True

section
variable {L : Option LimitsSpec} {max : Int} {rate : F64}

lemma bounded_new (hmax : 0 < max) : Bounded E L max Process.new where
  dated := dated_new
  shared := shared_new E
  limits _ _ h := by cases h
  size _ _ h := by cases h
  live _ := rfl
  old _ h := by cases h
  one _ h := by cases h
  same _ h := by cases h
  bound := hmax.le

lemma exists_of_admits (h : p.admits E l = true) :
    ∃ x, p.mgr.active l = some x ∧ x.admits E = true := by
  rw [admits] at h
  cases hx : p.mgr.active l with
  | none => simp [hx] at h
  | some x => exact ⟨x, rfl, by simpa [hx] using h⟩

lemma Bounded.exists_gate (h : p.Bounded E L max) (hL : buildGate E L = .ok (some (max, rate)))
    (hadm : p.admits E l = true) : ∃ n, p.gateAt E l = some n := by
  obtain ⟨x, hx, hxadm⟩ := exists_of_admits hadm
  have hgate : x.globalGate E = some (max, rate) := by
    rw [h.shared.held l x hx hxadm, h.limits l x hx hxadm, hL]
    rfl
  exact ⟨p.born l, by rw [gateAt, hx, Option.bind_some, hgate]; rfl⟩

lemma Bounded.count_eq (h : p.Bounded E L max) {n : Nat} (hadm : p.admits E l = true)
    (hn : p.gateAt E l = some n) : p.conns.count (some n) = p.conns.length :=
  count_eq_length.mpr fun c hc => hn.symm.trans (h.one c hc l hadm)

lemma Bounded.admitConn (h : p.Bounded E L max) (hL : buildGate E L = .ok (some (max, rate)))
    (hmax : 0 < max) (l : Str) (pass : Bool) : (p.admitConn E l pass).Bounded E L max := by
  have hruns := sameRuns_admitConn E p l pass
  have hbuilds := (mgr_admitConn E p l pass).2.2
  have hdated := hruns.dated hbuilds.ge h.dated
  have hshared := hruns.shared h.shared
  rcases admitConn_cases E p l pass with heq | ⟨hadm, hnone, -⟩ |
    ⟨n, g, hadm, hn, hgmax, hglive, heq⟩ |
    ⟨n, g, hadm, hn, hroom, hgmax, hglive, heq⟩
  · rw [heq]
    exact h
  · obtain ⟨n, hn⟩ := h.exists_gate hL hadm
    rw [hnone] at hn
    cases hn
  · rw [heq] at hdated hshared ⊢
    refine ⟨hdated, hshared, h.limits, fun l' m hm => ?_, fun m => ?_, h.old, h.one, h.same, h.bound⟩
    · exact (maxConns_update hgmax m).trans (h.size l' m hm)
    · exact (live_update (d := 0) (by rw [hglive, Int.add_zero]) m).trans (by simp [h.live m])
  · rw [heq] at hdated hshared ⊢
    -- every connection that is open holds the gate, which has room
    have hcount := h.count_eq hadm hn
    have hgate := h.size l n hn
    have hborn : n < p.builds := h.dated.lt_of_map hn
    refine ⟨hdated, hshared, h.limits, fun l' m hm => ?_, fun m => ?_, fun c hc => ?_,
      fun c hc l' hl' => ?_, fun c hc c' hc' => ?_, ?_⟩
    · exact (maxConns_update hgmax m).trans (h.size l' m hm)
    · refine (live_update hglive m).trans ?_
      rw [h.live m, count_cons]
      by_cases hmn : m = n
      · simp [hmn]
      · simp [hmn, Ne.symm hmn]
    · rcases mem_cons.mp hc with rfl | hc
      · exact ⟨n, hborn, rfl⟩
      · exact h.old c hc
    · rcases mem_cons.mp hc with rfl | hc
      · exact (h.shared.gate l' l hl' hadm).trans hn
      · exact h.one c hc l' hl'
    · have hall : ∀ d ∈ some n :: p.conns, d = some n := fun d hd => by
        rcases mem_cons.mp hd with rfl | hd
        · rfl
        · exact (h.one d hd l hadm).symm.trans hn
      rw [hall c hc, hall c' hc']
    · have hlive := h.live n
      rw [hcount] at hlive
      rw [hgate, hlive] at hroom
      rw [length_cons]
      push_cast
      omega

lemma Bounded.release (h : p.Bounded E L max) (c : Option Nat) : (p.release c).Bounded E L max := by
  by_cases hc : c ∈ p.conns
  · have hruns := sameRuns_release p c
    have hdated := hruns.dated (mgr_release p c).2.2.ge h.dated
    have hshared := hruns.shared h.shared
    obtain ⟨n, hn, rfl⟩ := h.old c hc
    have hsub {d : Option Nat} (hd : d ∈ p.conns.erase (some n)) : d ∈ p.conns :=
      mem_of_mem_erase hd
    rw [release.eq_def, if_pos hc] at hdated hshared ⊢
    refine ⟨hdated, hshared, h.limits, fun l m hm => ?_, fun m => ?_, fun d hd => h.old d (hsub hd),
      fun d hd => h.one d (hsub hd), fun d hd d' hd' => h.same d (hsub hd) d' (hsub hd'), ?_⟩
    · have hsame : (p.gates n).release.maxConns = (p.gates n).maxConns := rfl
      exact (maxConns_update hsame m).trans (h.size l m hm)
    · refine (live_update (d := -1) rfl m).trans ?_
      rw [h.live m, count_erase]
      by_cases hmn : m = n
      · have hpos := count_pos_iff.mpr hc
        simp only [hmn, if_true, beq_self_eq_true]
        omega
      · simp [hmn, Ne.symm hmn]
    · have hle := length_erase_le (a := some n) (l := p.conns)
      exact le_trans (by exact_mod_cast hle) h.bound
  · rw [release.eq_def, if_neg hc]
    exact h

lemma gates_reload_cases (E : Env) (p : Process) (f : File) : (p.reload E f).gates = p.gates ∨
    ∃ maxConns, (p.reload E f).gates = Function.update p.gates p.builds { maxConns } := by
  rw [reload]
  dsimp only
  cases (buildGate E f.limits).toOption.join with
  | none => exact .inl rfl
  | some g => exact .inr ⟨g.1, rfl⟩

lemma gates_reload_of_lt {m : Nat} (hm : m < p.builds) (f : File) :
    (p.reload E f).gates m = p.gates m := by
  rcases gates_reload_cases E p f with h | ⟨_, h⟩
  · rw [h]
  · rw [h, Function.update_of_ne hm.ne]

lemma Bounded.live_reload (h : p.Bounded E L max) (f : File) (m : Nat) :
    ((p.reload E f).gates m).live = p.conns.count (some m) := by
  have hnew : p.conns.count (some p.builds) = 0 := by
    refine count_eq_zero.mpr fun hmem => ?_
    obtain ⟨n, hn, heq⟩ := h.old _ hmem
    exact absurd (Option.some.inj heq) hn.ne'
  rcases gates_reload_cases E p f with heq | ⟨_, heq⟩
  · rw [heq]
    exact h.live m
  · rw [heq]
    by_cases hm : m = p.builds
    · subst hm
      rw [Function.update_self, hnew]
      rfl
    · rw [Function.update_of_ne hm]
      exact h.live m

lemma Bounded.reload_failed (h : p.Bounded E L max) (hf : ¬ Accepts E f) :
    (p.reload E f).Bounded E L max := by
  have hruns := sameRuns_reload (p := p) hf
  refine ⟨h.dated.reload f, hruns.shared h.shared, ?_, fun l n hn => ?_, h.live_reload f,
    fun c hc => ?_, fun c hc l hl => ?_, h.same, h.bound⟩
  · rw [hruns.active]
    exact h.limits
  · rw [hruns.gateAt_eq] at hn
    rw [gates_reload_of_lt (h.dated.lt_of_map hn)]
    exact h.size l n hn
  · obtain ⟨n, hn, rfl⟩ := h.old c hc
    exact ⟨n, Nat.lt_succ_of_lt hn, rfl⟩
  · rw [hruns.admits_eq] at hl
    rw [hruns.gateAt_eq]
    exact h.one c hc l hl

lemma Bounded.reload_accepted (h : p.Bounded E L max)
    (hL : buildGate E L = .ok (some (max, rate))) (hf : Accepts E f) (hlimits : f.limits = L)
    (hcalm : p.Calm E f) (hdrained : (∃ l b, p.Starts E f l b ∧ b.admits E = true) → p.conns = []) :
    (p.reload E f).Bounded E L max := by
  have hgates : (p.reload E f).gates = Function.update p.gates p.builds { maxConns := max } := by
    rw [reload]
    dsimp only
    rw [hlimits, hL]
    rfl
  refine ⟨h.dated.reload f, shared_of_calm hf h.shared hcalm, fun l x hx hadm => ?_,
    fun l n hn => ?_, h.live_reload f, fun c hc => ?_, fun c hc l hl => ?_, h.same, h.bound⟩
  · by_cases hk : p.Keeps E f l
    · rw [(reload_of_keeps hk).1] at hx
      exact h.limits l x hx hadm
    · rw [(reload_of_not_keeps hf hk).1] at hx
      rw [Instance.fileGate_of_fresh hx hadm, hlimits]
  · by_cases hk : p.Keeps E f l
    · rw [gateAt_of_keeps hk] at hn
      rw [gates_reload_of_lt (h.dated.lt_of_map hn)]
      exact h.size l n hn
    · obtain ⟨x, hx, rfl⟩ := Option.map_eq_some_iff.mp hn
      obtain ⟨b, hb, -⟩ := Option.bind_eq_some_iff.mp hx
      have hnew := reload_of_not_keeps hf hk
      rw [hnew.1] at hb
      rw [hnew.2 (Option.isSome_of_eq_some hb), hgates, Function.update_self]
  · obtain ⟨n, hn, rfl⟩ := h.old c hc
    exact ⟨n, Nat.lt_succ_of_lt hn, rfl⟩
  · rcases keeps_or_starts hf hl with ⟨hk, hadm⟩ | ⟨b, hs, hadm⟩
    · rw [gateAt_of_keeps hk]
      exact h.one c hc l hadm
    · have hc' : c ∈ p.conns := hc
      rw [hdrained ⟨l, b, hs, hadm⟩] at hc'
      cases hc'

lemma bounded_step (hL : buildGate E L = .ok (some (max, rate))) (hmax : 0 < max) (p : Process)
    (s : Happening) (h : p.Bounded E L max)
    (hs : (p.Allowed E s ∧ p.Drained E s) ∧ Loads E L s) : (p.step E s).Bounded E L max := by
  obtain ⟨⟨hallowed, hdrained⟩, hloads⟩ := hs
  cases s with
  | reload f =>
    by_cases hf : Accepts E f
    · exact h.reload_accepted hL hf (hloads hf) (hallowed hf) (hdrained hf)
    · exact h.reload_failed hf
  | admitConn l pass => exact h.admitConn hL hmax l pass
  | release c => exact h.release c

end

/-- The first build is calm unless an inbound is on a base transport. -/
lemma calm_new (h : ∀ j ∈ f.inbounds, j.composed.onBase E = false) : Process.new.Calm E f := by
  have hnone (l : Str) : ¬ Process.new.Keeps E f l := by
    rintro ⟨a, b, ha, -⟩
    cases ha
  refine ⟨fun l _ _ hk => absurd hk (hnone l), fun l b hs hadm => ?_,
    fun l _ _ hk => absurd hk (hnone l), fun l hk => absurd hk (hnone l), fun _ _ _ _ _ => hnone _⟩
  rw [Instance.admits] at hadm
  rw [Instance.globalGate]
  split at hadm
  · next f' i binds hsrc =>
    obtain ⟨rfl, j, hj, rfl⟩ := inbound_of_fresh hs.1 hsrc
    refine if_pos ((of_decide_eq_true hadm).imp (fun hstack => ⟨hstack, ?_⟩) id)
    rw [h j hj]
    rfl
  · cases hadm

/-- Two ports under a limit of one connection and a memory guard, the second
with `n` users. -/
def twoPorts (n : Nat) : File where
  inbounds := [trojanIn (lit "127.0.0.1:443") 0 1,
    { trojanIn (lit "127.0.0.1:444") 0 n with name := lit "second" }]
  limits := some { maxConns := 1 }
  memGuard := some { limit := lit "512m" }

end Process

end Ntr.Config
