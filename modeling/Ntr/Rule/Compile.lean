/-
What `Compile` accepts and what it leaves in the indexes.

* `Rule.Accepted`, `compile_eq_ok_iff`: the rule tables that compile, and the
  engine each of them gives;
* `gains_addLeaf`, `gains_addLogical`: entering one rule offers its ordinal to
  the hits exactly of the questions it answers;
* `undercuts_hits_enterFrom`: over the whole table, every hit is the ordinal of
  a rule that answers the question, and no such rule lies below all hits.
-/
import Ntr.Lib.Least
import Ntr.Rule.Engine

namespace Ntr.Routing

open Go Lib

/-! ### Accepted tables -/

/-- The prefixes that `Compile` enters for the CIDR entries of a leaf. -/
def cidrPrefixes (T : TextLib) (cs : List Str) : List Prefix :=
  cs.filterMap fun c =>
    match T.parsePrefix c with
    | .ok p => some p.masked
    | .error _ => none

/-- The leaves that `Compile` accepts. -/
structure Dims.Accepted (T : TextLib) (d : Dims) : Prop where
  one : d.dimCount = 1
  cidr : ∀ c ∈ d.ipCIDR, ∃ p, T.parsePrefix c = .ok p
  network : ∀ nw ∈ d.network, nw = lit "tcp" ∨ nw = lit "udp"

/-- The rules that `Compile` accepts. -/
def Rule.Accepted (T : TextLib) (r : Rule) : Prop :=
  r.toOut ≠ [] ∧ if r.op = [] then r.toDims.Accepted T else validateComposite r = none

/-- The engine with the accepted rule `r` entered at index `i`. -/
def Engine.enter (T : TextLib) (i : Nat) (r : Rule) (e : Engine) : Engine :=
  if r.op = [] then
    (e.addTarget r).addLeaf T r.toDims (cidrPrefixes T r.ipCIDR) (UInt32.ofNat i)
  else (e.addTarget r).addLogical T r (UInt32.ofNat i)

/-- The engine with a whole table entered from index `i` on. -/
def Engine.enterFrom (T : TextLib) (i : Nat) : List Rule → Engine → Engine
  | [], e => e
  | r :: rs, e => enterFrom T (i + 1) rs (e.enter T i r)

lemma parseCIDRs_eq_ok_iff {T : TextLib} {i : Nat} : ∀ {cs : List Str} {ps : List Prefix},
    parseCIDRs T i cs = .ok ps ↔ (∀ c ∈ cs, ∃ p, T.parsePrefix c = .ok p) ∧ ps = cidrPrefixes T cs
  | [], ps => by simp [parseCIDRs, cidrPrefixes, eq_comm]
  | c :: cs, ps => by
      cases hc : T.parsePrefix c with
      | error err => simp [parseCIDRs, hc]
      | ok p =>
        have ih := @parseCIDRs_eq_ok_iff T i cs
        cases hcs : parseCIDRs T i cs with
        | error err =>
          have hbad : ¬ ∀ c ∈ cs, ∃ p, T.parsePrefix c = .ok p := fun hall => by
            simpa [hcs] using ih.mpr ⟨hall, rfl⟩
          simp [parseCIDRs, hc, hcs, hbad]
        | ok qs =>
          obtain ⟨hall, rfl⟩ := ih.mp hcs
          have hstep : cidrPrefixes T (c :: cs) = p.masked :: cidrPrefixes T cs := by
            simp [cidrPrefixes, hc]
          have hall' : ∀ c' ∈ c :: cs, ∃ p, T.parsePrefix c' = .ok p :=
            List.forall_mem_cons.mpr ⟨⟨p, hc⟩, hall⟩
          simp only [parseCIDRs, hc, hcs, hstep, Except.ok.injEq]
          exact ⟨fun h => ⟨hall', h.symm⟩, fun h => h.2.symm⟩

lemma checkNetworks_eq_none_iff {i : Nat} : ∀ {nws : List Str},
    checkNetworks i nws = none ↔ ∀ nw ∈ nws, nw = lit "tcp" ∨ nw = lit "udp"
  | [] => by simp [checkNetworks]
  | nw :: nws => by
      rw [checkNetworks, List.forall_mem_cons, ← checkNetworks_eq_none_iff (i := i)]
      split_ifs with h
      · simp [h.1, h.2]
      · simp only [not_and_or, not_not] at h
        simp [h]

lemma compileRule_eq_ok_iff {T : TextLib} {i : Nat} {r : Rule} {e e' : Engine} :
    compileRule T i r e = .ok e' ↔ r.Accepted T ∧ e' = e.enter T i r := by
  by_cases hto : r.toOut = []
  · simp [compileRule, Rule.Accepted, hto]
  by_cases hop : r.op = []
  · by_cases hdim : r.dimCount = 1
    · cases hps : parseCIDRs T i r.ipCIDR with
      | error err =>
        have hbad : ¬ r.toDims.Accepted T := fun h => by
          simpa [hps] using (parseCIDRs_eq_ok_iff (i := i)).mpr ⟨h.cidr, rfl⟩
        simp [compileRule, Rule.Accepted, hto, hop, hdim, hps, hbad]
      | ok ps =>
        obtain ⟨hcidr, rfl⟩ := parseCIDRs_eq_ok_iff.mp hps
        cases hnw : checkNetworks i r.network with
        | some err =>
          have hbad : ¬ r.toDims.Accepted T := fun h => by
            simpa [hnw] using (checkNetworks_eq_none_iff (i := i)).mpr h.network
          simp [compileRule, Rule.Accepted, hto, hop, hdim, hps, hnw, hbad]
        | none =>
          have hok : r.toDims.Accepted T := ⟨hdim, hcidr, checkNetworks_eq_none_iff.mp hnw⟩
          simp [compileRule, Rule.Accepted, Engine.enter, hto, hop, hdim, hps, hnw, hok, eq_comm]
    · have hbad : ¬ r.toDims.Accepted T := fun h => hdim h.one
      simp [compileRule, Rule.Accepted, hto, hop, hdim, hbad]
  · cases hv : validateComposite r <;>
      simp [compileRule, Rule.Accepted, Engine.enter, hto, hop, hv, eq_comm]

lemma compileFrom_eq_ok_iff {T : TextLib} : ∀ {rs : List Rule} {i : Nat} {e e' : Engine},
    compileFrom T i rs e = .ok e' ↔ (∀ r ∈ rs, r.Accepted T) ∧ e' = e.enterFrom T i rs
  | [], i, e, e' => by simp [compileFrom, Engine.enterFrom, eq_comm]
  | r :: rs, i, e, e' => by
      rw [List.forall_mem_cons, Engine.enterFrom]
      cases hr : compileRule T i r e with
      | error err =>
        have hbad : ¬ r.Accepted T := fun h => by
          simpa [hr] using compileRule_eq_ok_iff.mpr ⟨h, Eq.refl (e.enter T i r)⟩
        simp [compileFrom, hr, hbad]
      | ok e₁ =>
        obtain ⟨hacc, rfl⟩ := compileRule_eq_ok_iff.mp hr
        simp only [compileFrom, hr, compileFrom_eq_ok_iff, hacc, true_and]

/-- **Accepted tables**: `Compile` succeeds exactly on a non-empty default and
rules that are accepted one by one, and enters them in order. -/
theorem compile_eq_ok_iff {T : TextLib} {rules : List Rule} {dflt : Str} {e : Engine} :
    compile T rules dflt = .ok e ↔ dflt ≠ [] ∧ (∀ r ∈ rules, r.Accepted T) ∧
        e = Engine.enterFrom T 0 rules { dflt := dflt } := by
  by_cases hd : dflt = []
  · simp [compile, hd]
  · simp [compile, hd, compileFrom_eq_ok_iff]

/-! ### The plain meaning of a leaf -/

def Dims.holdsDomain (T : TextLib) (d : Dims) (host : Str) : Bool :=
  d.domain.any (fun x => host == normDomain T x) ||
  d.domainSuffix.any (fun s =>
    host == normSuffix T s || hasSuffix host (lit "." ++ normSuffix T s)) ||
  d.domainKeyword.any (fun k => contains host (toLower T.toUnicode k)) ||
  d.geoSite.any (fun ds => ds host)

def Dims.holdsIP (T : TextLib) (d : Dims) (ip : Addr) : Bool :=
  d.ipCIDR.any (fun cc =>
    match T.parsePrefix cc with
    | .ok p => p.contains ip
    | .error _ => false) ||
  d.geoIP.any (fun gs => gs ip)

/-- The predicate of a top-level leaf: an entry of some dimension fits the
question. Domains, keywords and protocols are compared in lower case, as the
rule table is documented to be read. -/
def Dims.holds (T : TextLib) (d : Dims) (c : EvalCtx) : Bool :=
  (!c.network.isEmpty && d.network.contains c.network) ||
  (!c.proto.isEmpty && d.protocol.any (fun p => toLower T.toUnicode p == c.proto)) ||
  (c.dst.isFqdn && d.holdsDomain T (normDomain T c.dst.fqdn)) ||
  (ipSet c.dst c.ips).any (fun ip => d.holdsIP T ip) ||
  d.port.contains c.dst.port ||
  d.namesProcess c.proc

/-- The leaf without the suffix entries that normalise to the empty string:
the label walk never asks for that key. -/
def Dims.walked (T : TextLib) (d : Dims) : Dims :=
  { d with domainSuffix := d.domainSuffix.filter (fun s => normSuffix T s ≠ []) }

/-- The questions that a rule of either kind answers through the engine. -/
def Rule.answers (T : TextLib) (r : Rule) (c : EvalCtx) : Bool :=
  if r.op = [] then (r.toDims.walked T).holds T c else compileEval T r c

/-! ### What the indexes hold -/

def mapHits {κ : Type} (m : OrdMap κ) (k : κ) : Set UInt32 := {o | m k = some o}

/-- The ordinals of the entries of a list that are hit. -/
def entryHits {α : Type} (hit : α → Bool) (es : List (Entry α)) : Set UInt32 :=
  {o | ∃ x ∈ es, hit x.val = true ∧ x.ord = o}

/-- The keys that the label walk from `host` asks for. -/
def suffixKeys (host : Str) : Set Str := {s | s ≠ [] ∧ (s = host ∨ 0x2E :: s <:+ host)}

namespace Engine

def domainHits (e : Engine) (host : Str) : Set UInt32 :=
  mapHits e.exact host ∪ (⋃ s ∈ suffixKeys host, mapHits e.suffix s) ∪
    entryHits (fun kw => contains host kw) e.keyword ∪ entryHits (fun ds => ds host) e.geosite

def ipHits (e : Engine) (ip : Addr) : Set UInt32 :=
  entryHits (fun p => p.contains ip) e.cidr ∪ entryHits (fun gs => gs ip) e.geoip

def procHits (e : Engine) (p : Str × Str) : Set UInt32 :=
  mapHits e.procName p.1 ∪ mapHits e.procPath p.2

/-- All ordinals that the engine holds for the question `c`. -/
def hits (T : TextLib) (e : Engine) (c : EvalCtx) : Set UInt32 :=
  (⋃ _ : c.network ≠ [], mapHits e.netw c.network) ∪
  (⋃ _ : c.proto ≠ [], mapHits e.protocol c.proto) ∪
  (⋃ _ : c.dst.isFqdn = true, e.domainHits (normDomain T c.dst.fqdn)) ∪
  (⋃ ip ∈ ipSet c.dst c.ips, e.ipHits ip) ∪
  mapHits e.ports c.dst.port ∪
  (⋃ p, ⋃ _ : c.proc = some p, e.procHits p) ∪
  entryHits (fun eval => eval c) e.logical

end Engine

/-! ### Entering one rule -/

/-- Ordinals are compared as the numbers they are. -/
instance linearOrderUInt32 : LinearOrder UInt32 where
  le_refl := UInt32.le_refl
  le_trans _ _ _ := UInt32.le_trans
  lt_iff_le_not_ge a b := by
    simp only [UInt32.le_iff_toNat_le, UInt32.lt_iff_toNat_lt]
    omega
  le_antisymm _ _ := UInt32.le_antisymm
  le_total := UInt32.le_total
  toDecidableLE := inferInstance
  toDecidableEq := inferInstance
  toDecidableLT := inferInstance

lemma putMin_of_ne {κ : Type} [DecidableEq κ] (m : OrdMap κ) {k k' : κ} (ord : UInt32)
    (hk : k ≠ k') : putMin m k' ord k = m k := by
  cases hm : m k' with
  | none => simp [putMin, hm, hk]
  | some o => by_cases hlt : ord < o <;> simp [putMin, hm, hk, hlt]

lemma putMin_self {κ : Type} [DecidableEq κ] (m : OrdMap κ) (k : κ) (ord : UInt32) :
    putMin m k ord k = some (takeKey ord (m k)) := by
  cases hm : m k with
  | none => simp [putMin, hm, takeKey]
  | some o =>
    rcases lt_trichotomy ord o with h | rfl | h
    · simp [putMin, hm, takeKey, h, h.not_gt]
    · simp [putMin, hm, takeKey]
    · simp [putMin, hm, takeKey, h, h.not_gt]

lemma isLeast_takeKey (best : UInt32) (m : Option UInt32) :
    IsLeast (insert best {o | m = some o}) (takeKey best m) := by
  cases m with
  | none => simp [takeKey]
  | some o =>
    have hset : {x | some o = some x} = {o} := by
      ext x
      simp [eq_comm]
    rw [hset]
    exact isLeast_insert_singleton best o

lemma gains_putMin {κ : Type} [DecidableEq κ] (m : OrdMap κ) (k k' : κ) (ord : UInt32) :
    Gains (mapHits (putMin m k' ord) k) (mapHits m k) (k' = k) ord := by
  by_cases hk : k' = k
  · subst hk
    have hleast := isLeast_takeKey ord (m k')
    have hset : mapHits m k' ∪ {x | k' = k' ∧ x = ord} = insert ord (mapHits m k') := by
      ext x
      simp
    have hsingle : mapHits (putMin m k' ord) k' = {takeKey ord (m k')} := by
      ext x
      simp [mapHits, putMin_self, eq_comm]
    rw [Gains, hset, hsingle]
    exact ⟨Set.singleton_subset_iff.mpr hleast.1, fun x hx => ⟨_, rfl, hleast.2 hx⟩⟩
  · have hsame : mapHits (putMin m k' ord) k = mapHits m k := by
      simp only [mapHits, putMin_of_ne m ord (Ne.symm hk)]
    rw [hsame]
    exact Gains.of_not _ _ hk

lemma gains_putAll {κ : Type} [DecidableEq κ] (k : κ) (ord : UInt32) :
    ∀ (ks : List κ) (m : OrdMap κ), Gains (mapHits (putAll m ks ord) k) (mapHits m k) (k ∈ ks) ord
  | [], m => Gains.of_not _ _ (by simp)
  | k' :: ks, m => by
      have h := Gains.trans (gains_putMin m k k' ord) (gains_putAll k ord ks (putMin m k' ord))
      exact h.congr (by rw [List.mem_cons, eq_comm])

/-- One loop of `Compile` that appends the entries of a leaf to a list. -/
lemma gains_append {α β : Type} (hit : β → Bool) (es : List (Entry β)) (f : α → β)
    (ord : UInt32) (xs : List α) :
    Gains (entryHits hit (es ++ xs.map fun x => ⟨f x, ord⟩)) (entryHits hit es)
      (∃ x ∈ xs, hit (f x) = true) ord := by
  have hset : entryHits hit (es ++ xs.map fun x => ⟨f x, ord⟩) =
      entryHits hit es ∪ {o | (∃ x ∈ xs, hit (f x) = true) ∧ o = ord} := by
    ext o
    simp only [entryHits, List.mem_append, List.mem_map, Set.mem_union, Set.mem_ofPred_eq]
    constructor
    · rintro ⟨x, hx | ⟨y, hy, rfl⟩, hhit, rfl⟩
      · exact Or.inl ⟨x, hx, hhit, rfl⟩
      · exact Or.inr ⟨⟨y, hy, hhit⟩, rfl⟩
    · rintro (⟨x, hx, hhit, hord⟩ | ⟨⟨y, hy, hhit⟩, hord⟩)
      · exact ⟨x, Or.inl hx, hhit, hord⟩
      · exact ⟨⟨f y, ord⟩, Or.inr ⟨y, hy, rfl⟩, hhit, hord.symm⟩
  rw [hset]
  exact Undercuts.refl _

section
variable (T : TextLib) (e : Engine) (d : Dims) (ord : UInt32)

lemma gains_domainHits (cidrs : List Prefix) (host : Str) :
    Gains ((e.addLeaf T d cidrs ord).domainHits host) (e.domainHits host)
      ((d.walked T).holdsDomain T host = true) ord := by
  have hex := gains_putAll host ord (d.domain.map (normDomain T)) e.exact
  have hsuf := Gains.iUnion fun s => Gains.iUnion fun _ : s ∈ suffixKeys host =>
    gains_putAll s ord (d.domainSuffix.map (normSuffix T)) e.suffix
  have hkw := gains_append (fun kw => contains host kw) e.keyword (toLower T.toUnicode) ord
    d.domainKeyword
  have hsite := gains_append (fun ds : DomainSet => ds host) e.geosite id ord d.geoSite
  refine (((hex.union hsuf).union hkw).union hsite).congr ?_
  have hkey : (∃ s, ∃ _ : s ∈ suffixKeys host, s ∈ d.domainSuffix.map (normSuffix T)) ↔
      ∃ s ∈ d.domainSuffix, normSuffix T s ≠ [] ∧
        (host = normSuffix T s ∨ lit "." ++ normSuffix T s <:+ host) := by
    constructor
    · rintro ⟨s, ⟨hne, hs⟩, hmem⟩
      obtain ⟨t, ht, rfl⟩ := List.mem_map.mp hmem
      exact ⟨t, ht, hne, hs.imp Eq.symm id⟩
    · rintro ⟨t, ht, hne, hs⟩
      exact ⟨normSuffix T t, ⟨hne, hs.imp Eq.symm id⟩, List.mem_map_of_mem ht⟩
  rw [hkey]
  simp only [Dims.holdsDomain, Dims.walked, hasSuffix, List.any_filter, Bool.or_eq_true,
    List.any_eq_true, Bool.and_eq_true, decide_eq_true_eq, beq_iff_eq, List.mem_map, id,
    eq_comm (a := host)]

lemma gains_ipHits (ip : Addr) :
    Gains ((e.addLeaf T d (cidrPrefixes T d.ipCIDR) ord).ipHits ip) (e.ipHits ip)
      (d.holdsIP T ip = true) ord := by
  have hcidr := gains_append (fun p : Prefix => p.contains ip) e.cidr id ord
    (cidrPrefixes T d.ipCIDR)
  have hgeo := gains_append (fun gs : IPSet => gs ip) e.geoip id ord d.geoIP
  refine (hcidr.union hgeo).congr ?_
  have hkey : (∃ p ∈ cidrPrefixes T d.ipCIDR, (id p).contains ip = true) ↔
      ∃ cc ∈ d.ipCIDR, (match T.parsePrefix cc with
        | .ok p => p.contains ip
        | .error _ => false) = true := by
    constructor
    · rintro ⟨p, hp, hip⟩
      obtain ⟨cc, hcc, hparse⟩ := List.mem_filterMap.mp hp
      refine ⟨cc, hcc, ?_⟩
      cases hq : T.parsePrefix cc with
      | error err => simp [hq] at hparse
      | ok q =>
        obtain rfl : q.masked = p := by simpa [hq] using hparse
        simpa only [id, Prefix.contains_masked] using hip
    · rintro ⟨cc, hcc, hip⟩
      cases hq : T.parsePrefix cc with
      | error err => simp [hq] at hip
      | ok q =>
        refine ⟨q.masked, List.mem_filterMap.mpr ⟨cc, hcc, by simp [hq]⟩, ?_⟩
        simpa only [id, Prefix.contains_masked, hq] using hip
  rw [hkey]
  simp only [Dims.holdsIP, Bool.or_eq_true, List.any_eq_true, id]

lemma gains_procHits (cidrs : List Prefix) (p : Str × Str) :
    Gains ((e.addLeaf T d cidrs ord).procHits p) (e.procHits p)
      (p.1 ∈ d.processName ∨ p.2 ∈ d.processPath) ord :=
  (gains_putAll p.1 ord d.processName e.procName).union
    (gains_putAll p.2 ord d.processPath e.procPath)

lemma gains_addLeaf (c : EvalCtx) :
    Gains ((e.addLeaf T d (cidrPrefixes T d.ipCIDR) ord).hits T c) (e.hits T c)
      ((d.walked T).holds T c = true) ord := by
  have hnet := Gains.iUnion fun _ : c.network ≠ [] =>
    gains_putAll c.network ord d.network e.netw
  have hproto := Gains.iUnion fun _ : c.proto ≠ [] =>
    gains_putAll c.proto ord (d.protocol.map (toLower T.toUnicode)) e.protocol
  have hdom := Gains.iUnion fun _ : c.dst.isFqdn = true =>
    gains_domainHits T e d ord (cidrPrefixes T d.ipCIDR) (normDomain T c.dst.fqdn)
  have hip := Gains.iUnion fun ip => Gains.iUnion fun _ : ip ∈ ipSet c.dst c.ips =>
    gains_ipHits T e d ord ip
  have hport := gains_putAll c.dst.port ord d.port e.ports
  have hproc := Gains.iUnion fun p => Gains.iUnion fun _ : c.proc = some p =>
    gains_procHits T e d ord (cidrPrefixes T d.ipCIDR) p
  have hlog := Gains.of_not (p := False) (entryHits (fun eval => eval c) e.logical) ord id
  refine ((((((hnet.union hproto).union hdom).union hip).union hport).union hproc).union
    hlog).congr ?_
  have hpr : (∃ p, ∃ _ : c.proc = some p, p.1 ∈ d.processName ∨ p.2 ∈ d.processPath) ↔
      d.namesProcess c.proc = true := by
    cases c.proc <;> simp [Dims.namesProcess]
  have hwalked : (d.walked T).namesProcess c.proc = d.namesProcess c.proc := by
    cases c.proc <;> rfl
  rw [hpr, Dims.holds, hwalked]
  simp [Dims.walked, Dims.holdsIP]

end

/-- Entering a composite offers its ordinal to the questions it holds of. -/
lemma gains_addLogical (T : TextLib) (e : Engine) (r : Rule) (ord : UInt32) (c : EvalCtx) :
    Gains ((e.addLogical T r ord).hits T c) (e.hits T c) (compileEval T r c = true) ord := by
  have hlog := gains_append (fun eval : EvalCtx → Bool => eval c) e.logical (compileEval T) ord [r]
  have hrest := Gains.of_not (p := False) ((⋃ _ : c.network ≠ [], mapHits e.netw c.network) ∪
      (⋃ _ : c.proto ≠ [], mapHits e.protocol c.proto) ∪
      (⋃ _ : c.dst.isFqdn = true, e.domainHits (normDomain T c.dst.fqdn)) ∪
      (⋃ ip ∈ ipSet c.dst c.ips, e.ipHits ip) ∪
      mapHits e.ports c.dst.port ∪
      (⋃ p, ⋃ _ : c.proc = some p, e.procHits p)) ord id
  exact (hrest.union hlog).congr (by simp)

lemma gains_enter (T : TextLib) (e : Engine) (r : Rule) (i : Nat) (c : EvalCtx) :
    Gains ((e.enter T i r).hits T c) (e.hits T c) (r.answers T c = true) (UInt32.ofNat i) := by
  by_cases hop : r.op = []
  · simp only [Engine.enter, Rule.answers, if_pos hop]
    exact gains_addLeaf T (e.addTarget r) r.toDims _ c
  · simp only [Engine.enter, Rule.answers, if_neg hop]
    exact gains_addLogical T (e.addTarget r) r _ c

/-! ### Entering a table -/

/-- The ordinals of the rules of a table that answer a question, where the
table starts at index `i`. -/
def answering (T : TextLib) (i : Nat) (rs : List Rule) (c : EvalCtx) : Set UInt32 :=
  {o | ∃ j r, rs[j]? = some r ∧ r.answers T c = true ∧ o = UInt32.ofNat (i + j)}

lemma answering_cons (T : TextLib) (i : Nat) (r : Rule) (rs : List Rule) (c : EvalCtx) :
    answering T i (r :: rs) c =
      {o | r.answers T c = true ∧ o = UInt32.ofNat i} ∪ answering T (i + 1) rs c := by
  ext o
  constructor
  · rintro ⟨j, r', hj, hans, rfl⟩
    cases j with
    | zero =>
      obtain rfl : r = r' := by simpa using hj
      exact Or.inl ⟨hans, rfl⟩
    | succ j =>
      refine Or.inr ⟨j, r', by simpa using hj, hans, ?_⟩
      rw [Nat.add_right_comm, Nat.add_assoc]
  · rintro (⟨hans, rfl⟩ | ⟨j, r', hj, hans, rfl⟩)
    · exact ⟨0, r, rfl, hans, rfl⟩
    · refine ⟨j + 1, r', by simpa using hj, hans, ?_⟩
      rw [Nat.add_right_comm, Nat.add_assoc]

/-- **The indexes of a table**: each ordinal they hold for a question belongs
to a rule that answers it, and each such rule lies above one they hold. -/
theorem undercuts_hits_enterFrom (T : TextLib) (c : EvalCtx) :
    ∀ (rs : List Rule) (i : Nat) (e : Engine),
      Undercuts ((e.enterFrom T i rs).hits T c) (e.hits T c ∪ answering T i rs c)
  | [], i, e => by
      have hset : e.hits T c ∪ answering T i [] c = e.hits T c := by simp [answering]
      rw [hset]
      exact Undercuts.refl _
  | r :: rs, i, e => by
      rw [answering_cons, ← Set.union_assoc]
      exact (undercuts_hits_enterFrom T c rs (i + 1) (e.enter T i r)).trans
        (Undercuts.union (gains_enter T e r i c) (Undercuts.refl _))

end Ntr.Routing
