/-
The flags by which the layers above skip work (`HasProcess`, `HasIPRules`).

* `hasProc_eq`, `hasIP_eq`: what the flags of a compiled table say. The process
  flag is raised by top-level leaves only, the IP flag by rules at any depth;
* `routeConnIPs_of_noIP`: without the IP flag the addresses that a domain
  resolved to do not matter;
* `processBlind_iff`: without the process flag the source and the finder do not
  matter, and no leaf could have matched by its process, exactly if no
  composite names a process at any depth.
-/
import Ntr.Rule.Blind

namespace Ntr.Routing

open Go Engine

/-! ### The flags -/

def Dims.NoProcess (d : Dims) : Prop := d.processName = [] ∧ d.processPath = []

/-- No leaf of the rule names a process, at any depth. -/
def Rule.NoProcess (r : Rule) : Prop := r.EachLeaf Dims.NoProcess

section
variable {T : TextLib}

lemma hasProc_enter (i : Nat) (r : Rule) (e : Engine) : (e.enter T i r).hasProc = false ↔
    e.hasProc = false ∧ (r.op = [] → r.toDims.NoProcess) := by
  rw [enter]
  by_cases hop : r.op = []
  · simp [hop, addLeaf, addTarget, Dims.NoProcess, and_assoc]
  · simp [hop, addLogical, addTarget]

lemma hasIP_enter (i : Nat) (r : Rule) (e : Engine) :
    (e.enter T i r).hasIP = false ↔ e.hasIP = false ∧ ruleUsesIP r = false := by
  rw [enter]
  by_cases hop : r.op = []
  · simp [hop, addLeaf, addTarget]
  · simp [hop, addLogical, addTarget]

lemma flags_enterFrom : ∀ (rs : List Rule) (i : Nat) (e : Engine),
    ((e.enterFrom T i rs).hasProc = false ↔
      e.hasProc = false ∧ ∀ r ∈ rs, r.op = [] → r.toDims.NoProcess) ∧
    ((e.enterFrom T i rs).hasIP = false ↔ e.hasIP = false ∧ ∀ r ∈ rs, ruleUsesIP r = false)
  | [], i, e => by simp [enterFrom]
  | r :: rs, i, e => by
    obtain ⟨hproc, hip⟩ := flags_enterFrom rs (i + 1) (e.enter T i r)
    rw [enterFrom, hproc, hip, hasProc_enter, hasIP_enter, List.forall_mem_cons,
      List.forall_mem_cons, and_assoc, and_assoc]
    exact ⟨Iff.rfl, Iff.rfl⟩

variable {rs : List Rule} {dflt : Str} {e : Engine}

lemma hasProc_eq (he : compile T rs dflt = .ok e) :
    e.hasProc = false ↔ ∀ r ∈ rs, r.op = [] → r.toDims.NoProcess := by
  obtain ⟨-, -, rfl⟩ := compile_eq_ok_iff.mp he
  rw [(flags_enterFrom rs 0 _).1]
  simp

lemma hasIP_eq (he : compile T rs dflt = .ok e) :
    e.hasIP = false ↔ ∀ r ∈ rs, ruleUsesIP r = false := by
  obtain ⟨-, -, rfl⟩ := compile_eq_ok_iff.mp he
  rw [(flags_enterFrom rs 0 _).2]
  simp

end

/-! ### IP dimensions -/

def Dims.NoIP (d : Dims) : Prop := d.ipCIDR = [] ∧ d.geoIP = []

mutual

lemma every_noIP : ∀ r : Rule, ruleUsesIP r = false → r.Every Dims.NoIP
  | ⟨d, op, sub, neg, toOut⟩, h => by
    simp only [ruleUsesIP, Bool.or_eq_false_iff, Bool.not_eq_false', List.isEmpty_iff] at h
    rw [Rule.Every]
    exact ⟨h.1, everySub_noIP sub h.2⟩

lemma everySub_noIP : ∀ sub : List Rule, anyUsesIP sub = false → everySub Dims.NoIP sub
  | [], _ => by rw [everySub]; trivial
  | r :: rs, h => by
    rw [anyUsesIP, Bool.or_eq_false_iff] at h
    rw [everySub]
    exact ⟨every_noIP r h.1, everySub_noIP rs h.2⟩

end

/-- **Without the IP flag** the resolved addresses do not matter, for every
nesting of composites. -/
lemma routeConnIPs_of_noIP {T : TextLib} {rs : List Rule} {dflt : Str} {e : Engine}
    (he : compile T rs dflt = .ok e) (hip : e.hasIP = false) (dst : Socksaddr)
    (ips ips' : List Addr) (src : AddrPort) (network proto : Str) (finder : Option ProcessFinder) :
    e.routeConnIPs T ⟨dst, ips, src, network, proto, finder⟩ =
      e.routeConnIPs T ⟨dst, ips', src, network, proto, finder⟩ := by
  have hnone : ∀ l : List Addr, (l.any fun _ => false) = false := fun l => by simp
  refine routeConnIPs_of_eachLeaf he fun r hr =>
    (every_noIP r ((hasIP_eq he).mp hip r hr)).eachLeaf.imp fun d hd => ⟨?_, ?_⟩
  · simp [matchLeaf, hd.1, hd.2, hnone, EvalCtx.proc]
  · simp [Dims.holds, Dims.holdsIP, Dims.walked, hd.1, hd.2, hnone, EvalCtx.proc]

/-! ### Process dimensions -/

/-- Two questions about one flow, which may differ in the source and in the
process finder. -/
structure EvalCtx.SameFlow (c c' : EvalCtx) : Prop where
  dst : c.dst = c'.dst
  ips : c.ips = c'.ips
  network : c.network = c'.network
  proto : c.proto = c'.proto

/-- The leaf does not look at the source or at the process. -/
def Dims.Unseeing (T : TextLib) (d : Dims) : Prop :=
  ∀ c c' : EvalCtx, c.SameFlow c' → matchLeaf T d c = matchLeaf T d c'

/-- Neither the table nor any leaf of it, at any depth, tells two questions apart
by the source and the finder. -/
structure ProcessBlind (T : TextLib) (rs : List Rule) (e : Engine) : Prop where
  route : ∀ c c' : EvalCtx, c.SameFlow c' → e.routeConnIPs T c = e.routeConnIPs T c'
  leaves : ∀ r ∈ rs, r.EachLeaf (Dims.Unseeing T)

section
variable {T : TextLib}

lemma unseeing_of_noProcess {d : Dims} (h : d.NoProcess) : d.Unseeing T := by
  intro c c' hc
  simp [matchLeaf, h.1, h.2, hc.dst, hc.ips, hc.network, hc.proto]

lemma Dims.only_process {d : Dims} (hdim : d.dimCount ≤ 1) (hp : ¬ d.NoProcess) :
    ∃ names paths, d = { processName := names, processPath := paths } ∧
      (names ≠ [] ∨ paths ≠ []) := by
  refine ⟨d.processName, d.processPath, ?_, not_and_or.mp hp⟩
  have hone : 1 ≤ (if d.processName = [] then 0 else 1) +
      (if d.processPath = [] then 0 else 1) := by
    rcases not_and_or.mp hp with h | h
    · rw [if_neg h]
      exact Nat.le_add_right _ _
    · rw [if_neg h]
      exact Nat.le_add_left _ _
  rw [Dims.dimCount_eq_sum] at hdim
  obtain ⟨_, _, _, _, _, _, _, _, _, names, paths⟩ := d
  simp only [Dims.mk.injEq, and_true] at hone hdim ⊢
  constructorm* _ ∧ _ <;> by_contra hne <;> rw [if_neg hne] at hdim <;> omega

/-- A leaf with one dimension that names a process sees it: with a finder that
gives this process it matches, without a finder it does not. -/
lemma noProcess_of_unseeing {d : Dims} (hdim : d.dimCount ≤ 1) (h : d.Unseeing T) :
    d.NoProcess := by
  by_contra hp
  obtain ⟨names, paths, rfl, hne⟩ := Dims.only_process hdim hp
  -- the first name or the first path of the leaf
  obtain ⟨name, path, hmem⟩ : ∃ name path, name ∈ names ∨ path ∈ paths := by
    rcases hne with hne | hne
    · obtain ⟨name, hname⟩ := List.exists_mem_of_ne_nil names hne
      exact ⟨name, [], .inl hname⟩
    · obtain ⟨path, hpath⟩ := List.exists_mem_of_ne_nil paths hne
      exact ⟨[], path, .inr hpath⟩
  let found : EvalCtx :=
    { dst := ⟨.zero, [], 0⟩, src := ⟨.v4 0, 1⟩, finder := some fun _ _ => some (name, path) }
  let unknown : EvalCtx := { dst := ⟨.zero, [], 0⟩ }
  have heq := h found unknown ⟨rfl, rfl, rfl, rfl⟩
  have hproc : found.proc = some (name, path) := rfl
  have hnone : unknown.proc = none := rfl
  simp only [matchLeaf, hproc, hnone, Dims.namesProcess] at heq
  rcases hmem with hmem | hmem <;>
    simp [hmem, found, unknown, Socksaddr.isFqdn, ipSet, Socksaddr.isIP, Addr.isValid] at heq <;>
    exact hne.elim (fun h => h heq.1) fun h => h heq.2

mutual

/-- The leaves of a composite that compiles have one dimension each, so each that
sees no process names none. -/
lemma noProcess_of_eachLeaf : ∀ r : Rule, validateComposite r = none →
    r.EachLeaf (Dims.Unseeing T) → r.NoProcess
  | ⟨d, op, sub, neg, toOut⟩, h, hr => by
    rw [validateComposite] at h
    split_ifs at h with hop hsub hdim
    have hne : op ≠ [] := fun hnil => hop (by rw [hnil]; decide)
    rw [Rule.EachLeaf, if_neg hne] at hr
    rw [Rule.NoProcess, Rule.EachLeaf, if_neg hne]
    exact noProcess_of_eachLeafSub sub h hr

lemma noProcess_of_eachLeafSub : ∀ sub : List Rule, validateSubs sub = none →
    eachLeafSub (Dims.Unseeing T) sub → eachLeafSub Dims.NoProcess sub
  | [], _, _ => by rw [eachLeafSub]; trivial
  | s :: ss, h, hs => by
    rw [validateSubs] at h
    rw [eachLeafSub] at hs ⊢
    split_ifs at h with hto hop hdim
    · -- a nested composite
      cases hv : validateComposite s with
      | some err => simp [hv] at h
      | none =>
        rw [hv] at h
        exact ⟨noProcess_of_eachLeaf s hv hs.1, noProcess_of_eachLeafSub ss h hs.2⟩
    · rw [not_not] at hop hdim
      rw [eachLeaf_of_leaf hop] at hs ⊢
      exact ⟨noProcess_of_unseeing hdim.le hs.1, noProcess_of_eachLeafSub ss h hs.2⟩

end

/-- **Without the process flag** a table does not see sources and processes
exactly if no composite of it names a process, at any depth. -/
theorem processBlind_iff (T : TextLib) (rs : List Rule) (dflt : Str) (e : Engine)
    (he : compile T rs dflt = .ok e) (hproc : e.hasProc = false) :
    ProcessBlind T rs e ↔ ∀ r ∈ rs, r.op ≠ [] → r.NoProcess := by
  have hleaf := (hasProc_eq he).mp hproc
  obtain ⟨-, hacc, -⟩ := compile_eq_ok_iff.mp he
  constructor
  · intro h r hr hop
    have hv : validateComposite r = none := by simpa [Rule.Accepted, hop] using (hacc r hr).2
    exact noProcess_of_eachLeaf r hv (h.leaves r hr)
  · intro h
    have hall : ∀ r ∈ rs, r.NoProcess := by
      intro r hr
      by_cases hop : r.op = []
      · exact (eachLeaf_of_leaf hop).mpr (hleaf r hr hop)
      · exact h r hr hop
    constructor
    · intro c c' hc
      refine routeConnIPs_of_eachLeaf he fun r hr => (hall r hr).imp fun d hd => ⟨?_, ?_⟩
      · exact unseeing_of_noProcess hd c c' hc
      · have hname : ∀ p, (d.walked T).namesProcess p = false := by
          rintro (_ | ⟨name, path⟩) <;> simp [Dims.namesProcess, Dims.walked, hd.1, hd.2]
        simp [Dims.holds, hname, hc.dst, hc.ips, hc.network, hc.proto]
    · exact fun r hr => (hall r hr).imp fun d hd => unseeing_of_noProcess hd

end

/-- A composite over the process `curl`. -/
def curlRule : Rule :=
  { op := lit "and", sub := [{ processName := [lit "curl"] }], toOut := lit "proxy" }

/-- A table that the theorem is about. -/
theorem processBlind_iff_curl : ∃ e, compile asciiText [curlRule] (lit "direct") = .ok e ∧
    e.hasProc = false ∧ (ProcessBlind asciiText [curlRule] e ↔
      ∀ r ∈ [curlRule], r.op ≠ [] → r.NoProcess) :=
  ⟨_, rfl, rfl, processBlind_iff asciiText [curlRule] (lit "direct") _ rfl rfl⟩

/-- **The flag misses composites**: it is not raised for this table, and the
table sends `curl` elsewhere when there is a finder. -/
theorem hasProc_misses : ∃ e, compile asciiText [curlRule] (lit "direct") = .ok e ∧
    e.hasProc = false ∧
    let c : EvalCtx := { dst := ⟨.v4 0x01010101, [], 443⟩, src := ⟨.v4 0x7F000001, 4000⟩ }
    e.routeConnIPs asciiText c = lit "direct" ∧
      e.routeConnIPs asciiText { c with finder := some fun _ _ => some (lit "curl", []) } =
        lit "proxy" :=
  ⟨_, rfl, rfl, by decide +kernel, by decide +kernel⟩

end Ntr.Routing
