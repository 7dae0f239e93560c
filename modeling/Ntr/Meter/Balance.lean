/-
The balance of the counters of a registry along runs.

* `Balanced k conns`: every counter counts what is open;
* `balanced_admit`, `balanced_release`: connections that come and go keep the
  balance;
* `balanced_regate_iff`, `balanced_regroup_iff`: new limits keep it if and only
  if they are not put under open connections;
* `Usage.step`: one call on a registry with open connections;
* `alwaysBalanced_iff`: a run keeps the balance if and only if no call of it
  replaces limits under open connections. A new unit and a new gate start at
  zero, whatever is open.
-/
import Ntr.Meter.Counters

namespace Ntr.Meter

open Go List Counters Registry

/-- An open connection: its credential, its source and its number. -/
structure Conn where
  id : CredID
  src : Addr
  connID : ConnID
  deriving DecidableEq

/-- **Every counter counts what is open**: that of a credential its connections;
that of a unit with a bound the connections of the credentials in it, and not
more than the bound; and a gate, for each address, the connections from it of the
credentials at the gate. -/
structure Balanced (k : Counters) (conns : List Conn) : Prop where
  live : ∀ id, k.connsLive id = (conns.countP (·.id = id) : Nat)
  shares : ∀ (s : Ref) (bound live : Int), k.shares[s]? = some (bound, live) → 0 < bound →
    live = (conns.countP (fun c => k.shared c.id = some s) : Nat) ∧ 0 ≤ live ∧ live ≤ bound
  gates : ∀ (g : Ref) (ips : List Addr), k.gates[g]? = some ips → ∀ ip,
    ips.count ip = conns.countP fun c => k.ipg c.id = some g ∧ c.src = ip

/-- The units and gates that credentials point to exist. -/
structure Counters.Valid (k : Counters) : Prop where
  shared_lt : ∀ id s, k.shared id = some s → s < k.shares.length
  ipg_lt : ∀ id g, k.ipg id = some g → g < k.gates.length

/-! ### Counting -/

section
variable {α : Type} [DecidableEq α] {p q : α → Bool} {l : List α} {a : α}

lemma countP_lt_countP (h : ∀ x ∈ l, q x = true → p x = true) (ha : a ∈ l) (hp : p a = true)
    (hq : q a = false) : l.countP q < l.countP p := by
  have hperm := perm_cons_erase ha
  rw [hperm.countP_eq q, hperm.countP_eq p, countP_cons_of_pos hp,
    countP_cons_of_neg (by rw [hq]; exact Bool.false_ne_true)]
  have hle : (l.erase a).countP q ≤ (l.erase a).countP p :=
    countP_mono_left fun x hx => h x (mem_of_mem_erase hx)
  omega

lemma getElem?_concat_cases {α : Type} {l : List α} {a x : α} {i : Nat}
    (h : (l ++ [a])[i]? = some x) : l[i]? = some x ∨ i = l.length ∧ x = a := by
  rcases Nat.lt_trichotomy i l.length with hlt | heq | hgt
  · rw [getElem?_append_left hlt] at h
    exact .inl h
  · subst heq
    rw [getElem?_concat_length, Option.some.injEq] at h
    exact .inr ⟨rfl, h.symm⟩
  · rw [getElem?_eq_none (by rw [length_append, length_singleton]; omega)] at h
    cases h

end

namespace Counters

variable {k : Counters} {conns : List Conn}

lemma bounding_eq_some {id : CredID} {s : Ref} : k.bounding id = some s ↔
    k.shared id = some s ∧ ∃ bound live, k.shares[s]? = some (bound, live) ∧ 0 < bound := by
  rw [bounding, Option.filter_eq_some_iff]
  refine and_congr_right fun _ => ?_
  cases k.shares[s]? with
  | none => simp
  | some x =>
    obtain ⟨bound, live⟩ := x
    simp

/-- A connection is counted in the unit of its credential, where that has a
bound. -/
lemma bounding_iff_shared {s : Ref} {bound live : Int} (hs : k.shares[s]? = some (bound, live))
    (hpos : 0 < bound) (id : CredID) : k.bounding id = some s ↔ k.shared id = some s := by
  rw [bounding_eq_some]
  exact ⟨fun h => h.1, fun h => ⟨h, bound, live, hs, hpos⟩⟩

end Counters

section
variable {k : Counters} {conns : List Conn}

lemma balanced_admit (h : Balanced k conns) (c : Conn)
    (hroom : ∀ s, k.bounding c.id = some s → ∀ x, k.shares[s]? = some x → x.2 < x.1) :
    Balanced ((k.count c.id 1).onGate c.id (c.src :: ·)) (c :: conns) := by
  refine ⟨fun id => ?_, fun s bound live hs hpos => ?_, fun g ips hg ip => ?_⟩
  · rw [connsLive_onGate, connsLive_count, h.live, countP_cons]
    by_cases hid : id = c.id
    · simp [hid]
    · simp [hid, Ne.symm hid]
  · rw [shares_onGate, shares_count, Option.map_eq_some_iff] at hs
    obtain ⟨⟨bound', live'⟩, hs, heq⟩ := hs
    rw [Prod.mk.injEq] at heq
    obtain ⟨rfl, rfl⟩ := heq
    obtain ⟨hlive, hnonneg, hle⟩ := h.shares s bound' live' hs hpos
    have hb := bounding_iff_shared hs hpos c.id
    change _ = (((c :: conns).countP fun c => k.shared c.id = some s : Nat) : Int) ∧ _
    rw [countP_cons]
    by_cases hin : k.shared c.id = some s
    · have hlt := hroom s (hb.mpr hin) _ hs
      simp only [hb.mpr hin, hin, if_true, decide_true]
      dsimp only at hlt
      omega
    · have hout : k.bounding c.id ≠ some s := fun hs => hin (hb.mp hs)
      simp only [hout, hin, if_false, decide_false]
      simpa using ⟨hlive, hnonneg, hle⟩
  · rw [gates_onGate, Option.map_eq_some_iff] at hg
    obtain ⟨ips', hg, rfl⟩ := hg
    have hold := h.gates g ips' hg ip
    change List.count ip (if k.ipg c.id = some g then c.src :: ips' else ips') =
      (c :: conns).countP fun c => k.ipg c.id = some g ∧ c.src = ip
    rw [countP_cons, ← hold]
    by_cases hin : k.ipg c.id = some g
    · by_cases hip : c.src = ip <;> simp [hin, hip]
    · simp [hin]

lemma balanced_release (h : Balanced k conns) {c : Conn} (hc : c ∈ conns) :
    Balanced ((k.count c.id (-1)).onGate c.id (·.erase c.src)) (conns.erase c) := by
  have hcount (p : Conn → Bool) :
      conns.countP p = (conns.erase c).countP p + if p c then 1 else 0 := by
    rw [(perm_cons_erase hc).countP_eq p, countP_cons]
  refine ⟨fun id => ?_, fun s bound live hs hpos => ?_, fun g ips hg ip => ?_⟩
  · rw [connsLive_onGate, connsLive_count, h.live, hcount]
    by_cases hid : id = c.id
    · simp [hid]
    · simp [hid, Ne.symm hid]
  · rw [shares_onGate, shares_count, Option.map_eq_some_iff] at hs
    obtain ⟨⟨bound', live'⟩, hs, heq⟩ := hs
    rw [Prod.mk.injEq] at heq
    obtain ⟨rfl, rfl⟩ := heq
    obtain ⟨hlive, hnonneg, hle⟩ := h.shares s bound' live' hs hpos
    have hb := bounding_iff_shared hs hpos c.id
    rw [hcount] at hlive
    change _ = (((conns.erase c).countP fun c => k.shared c.id = some s : Nat) : Int) ∧ _
    by_cases hin : k.shared c.id = some s
    · simp only [hb.mpr hin, hin, if_true, decide_true] at hlive ⊢
      omega
    · have hout : k.bounding c.id ≠ some s := fun hs => hin (hb.mp hs)
      simp only [hout, hin, if_false, decide_false] at hlive ⊢
      simpa using ⟨hlive, hnonneg, hle⟩
  · rw [gates_onGate, Option.map_eq_some_iff] at hg
    obtain ⟨ips', hg, rfl⟩ := hg
    have hold := h.gates g ips' hg ip
    rw [hcount] at hold
    change List.count ip (if k.ipg c.id = some g then ips'.erase c.src else ips') =
      (conns.erase c).countP fun c => k.ipg c.id = some g ∧ c.src = ip
    by_cases hin : k.ipg c.id = some g
    · rw [if_pos hin, count_erase, hold]
      by_cases hip : c.src = ip
      · simp [hin, hip]
      · simp [hip]
    · simpa [hin] using hold

/-! ### New limits -/

lemma balanced_regate_iff (hk : k.Valid) (h : Balanced k conns) (id : CredID) :
    Balanced (k.regate id) conns ↔ ∀ c ∈ conns, c.id ≠ id := by
  constructor
  · rintro hnew c hc rfl
    have hget : (k.regate c.id).gates[k.gates.length]? = some [] := by simp [regate]
    have hzero := (hnew.gates _ _ hget c.src).symm
    rw [count_nil, countP_eq_zero] at hzero
    exact hzero c hc (by simp [regate])
  · intro hno
    refine ⟨h.live, h.shares, fun g ips hg ip => ?_⟩
    have hsame : ∀ c ∈ conns, (k.regate id).ipg c.id = k.ipg c.id := by
      intro c hc
      simp [regate, hno c hc]
    have hcongr : conns.countP (fun c => (k.regate id).ipg c.id = some g ∧ c.src = ip) =
        conns.countP fun c => k.ipg c.id = some g ∧ c.src = ip :=
      countP_congr fun c hc => by rw [hsame c hc]
    rw [hcongr]
    rcases getElem?_concat_cases hg with hg | ⟨rfl, rfl⟩
    · exact h.gates g ips hg ip
    · rw [count_nil, eq_comm, countP_eq_zero]
      intro c hc hat
      have hlt := hk.ipg_lt c.id _ (of_decide_eq_true hat).1
      exact absurd hlt (Nat.lt_irrefl _)

/-- What stays at an old unit or gate was there before. -/
structure Stays (k k' : Counters) (ids : List CredID) : Prop where
  shared : ∀ id s, s < k.shares.length → k'.shared id = some s → id ∉ ids ∧ k.shared id = some s
  ipg : ∀ id g, g < k.gates.length → k'.ipg id = some g → id ∉ ids ∧ k.ipg id = some g
  gates : ∀ (g : Ref) (ips : List Addr), k.gates[g]? = some ips → k'.gates[g]? = some ips

lemma stays_regroup (k : Counters) (ids : List CredID) (m : Int) (gate : Bool) :
    Stays k (k.regroup ids m gate) ids := by
  refine ⟨fun id s hlt hs => ?_, fun id g hlt hg => ?_, fun g ips hg => ?_⟩
  · by_cases hid : id ∈ ids
    · rw [shared_regroup, if_pos hid] at hs
      exact absurd (Option.some.inj hs) hlt.ne'
    · rw [shared_regroup, if_neg hid] at hs
      exact ⟨hid, hs⟩
  · by_cases hid : id ∈ ids
    · rw [ipg_regroup, if_pos hid] at hg
      cases gate with
      | false => cases hg
      | true => exact absurd (Option.some.inj hg) hlt.ne'
    · rw [ipg_regroup, if_neg hid] at hg
      exact ⟨hid, hg⟩
  · cases gate with
    | false => exact hg
    | true =>
      have hlt := (List.getElem?_eq_some_iff.mp hg).1
      exact (List.getElem?_append_left hlt).trans hg

section
variable {ids : List CredID} {m : Int} {gate : Bool} {id : CredID}

lemma shared_regroup_old {s : Ref} (hlt : s < k.shares.length) :
    (k.regroup ids m gate).shared id = some s ↔ id ∉ ids ∧ k.shared id = some s :=
  ⟨(stays_regroup k ids m gate).shared id s hlt, fun h => (if_neg h.1).trans h.2⟩

lemma shared_regroup_new (hk : k.Valid) :
    (k.regroup ids m gate).shared id = some k.shares.length ↔ id ∈ ids := by
  rw [shared_regroup]
  split_ifs with hid
  · exact iff_of_true rfl hid
  · exact iff_of_false (fun h => Nat.lt_irrefl _ (hk.shared_lt id _ h)) hid

lemma ipg_regroup_old {g : Ref} (hlt : g < k.gates.length) :
    (k.regroup ids m gate).ipg id = some g ↔ id ∉ ids ∧ k.ipg id = some g :=
  ⟨(stays_regroup k ids m gate).ipg id g hlt, fun h => (if_neg h.1).trans h.2⟩

lemma ipg_regroup_new (hk : k.Valid) :
    (k.regroup ids m true).ipg id = some k.gates.length ↔ id ∈ ids := by
  rw [ipg_regroup, if_pos rfl]
  split_ifs with hid
  · exact iff_of_true rfl hid
  · exact iff_of_false (fun h => Nat.lt_irrefl _ (hk.ipg_lt id _ h)) hid

/-- A count without the connections of some credentials is the same exactly if there
were none of these in it. -/
lemma countP_without_iff {p p' : Conn → Prop} [DecidablePred p] [DecidablePred p']
    (h : ∀ c, p' c ↔ c.id ∉ ids ∧ p c) :
    conns.countP (fun c => p' c) = conns.countP (fun c => p c) ↔
      ∀ c ∈ conns, c.id ∈ ids → ¬ p c := by
  constructor
  · intro heq c hc hid hp
    refine absurd heq (countP_lt_countP (a := c) (fun x _ hx => ?_) hc (decide_eq_true hp)
      (decide_eq_false fun hx => ((h c).mp hx).1 hid)).ne
    exact decide_eq_true ((h x).mp (of_decide_eq_true hx)).2
  · intro hno
    refine countP_congr fun c hc => ?_
    rw [decide_eq_true_iff, decide_eq_true_iff, h]
    exact and_iff_right_of_imp fun hp hid => hno c hc hid hp

end

/-- **What must not be counted under a new unit**: an open connection of one of
its credentials is not to be counted, before and after. -/
def Uncounted (k : Counters) (m : Int) (gate : Bool) (id : CredID) : Prop :=
  m ≤ 0 ∧ gate = false ∧ k.bounding id = none ∧ k.ipg id = none

/-- A new unit keeps the balance if and only if, of the credentials in it, none
has open connections that are to be counted. -/
lemma balanced_regroup_iff (hk : k.Valid) (h : Balanced k conns) (ids : List CredID) (m : Int)
    (gate : Bool) : Balanced (k.regroup ids m gate) conns ↔
      ∀ c ∈ conns, c.id ∈ ids → Uncounted k m gate c.id := by
  constructor
  · intro hnew c hc hid
    refine ⟨?_, ?_, ?_, ?_⟩
    · by_contra hpos
      have hget : (k.regroup ids m gate).shares[k.shares.length]? = some (m, 0) := by
        simp [regroup]
      have hzero := (hnew.shares _ _ _ hget (Int.not_le.mp hpos)).1
      have hnone := countP_eq_zero.mp (Int.ofNat_inj.mp hzero.symm) c hc
      exact hnone (decide_eq_true ((shared_regroup_new hk).mpr hid))
    · by_contra hgate
      obtain rfl := Bool.not_eq_false _ ▸ hgate
      have hget : (k.regroup ids m true).gates[k.gates.length]? = some [] := by
        simp [regroup]
      have hnone := countP_eq_zero.mp (hnew.gates _ _ hget c.src).symm c hc
      exact hnone (decide_eq_true ⟨(ipg_regroup_new hk).mpr hid, rfl⟩)
    · refine Option.eq_none_iff_forall_ne_some.mpr fun s hs => ?_
      obtain ⟨hin, bound, live, hget, hpos⟩ := bounding_eq_some.mp hs
      have hlt := hk.shared_lt c.id s hin
      have hafter := hnew.shares s bound live ((getElem?_append_left hlt).trans hget) hpos
      have hsame := Int.ofNat_inj.mp (hafter.1.symm.trans (h.shares s bound live hget hpos).1)
      exact (countP_without_iff fun c => shared_regroup_old hlt).mp hsame c hc hid hin
    · refine Option.eq_none_iff_forall_ne_some.mpr fun g hg => ?_
      have hlt := hk.ipg_lt c.id g hg
      have hget : k.gates[g]? = some k.gates[g] := getElem?_eq_getElem hlt
      have hafter := hnew.gates g _ ((stays_regroup k ids m gate).gates g _ hget) c.src
      refine (countP_without_iff fun c => ?_).mp (hafter.symm.trans (h.gates g _ hget c.src))
        c hc hid ⟨hg, rfl⟩
      rw [ipg_regroup_old hlt, and_assoc]
  · intro hno
    refine ⟨h.live, fun s bound live hs hpos => ?_, fun g ips hg ip => ?_⟩
    · rcases getElem?_concat_cases hs with hs | ⟨rfl, heq⟩
      · have hlt := (List.getElem?_eq_some_iff.mp hs).1
        rw [(countP_without_iff fun c => shared_regroup_old hlt).mpr]
        · exact h.shares s bound live hs hpos
        · intro c hc hid hin
          have hb := (bounding_iff_shared hs hpos c.id).mpr hin
          rw [(hno c hc hid).2.2.1] at hb
          cases hb
      · obtain ⟨rfl, rfl⟩ := Prod.mk.inj heq
        rw [countP_eq_zero.mpr fun c hc hx => absurd
          (hno c hc ((shared_regroup_new hk).mp (of_decide_eq_true hx))).1 (Int.not_le.mpr hpos)]
        omega
    · have hcases : k.gates[g]? = some ips ∨ gate = true ∧ g = k.gates.length ∧ ips = [] := by
        cases gate with
        | false => exact .inl hg
        | true => exact (getElem?_concat_cases hg).imp_right fun hg => ⟨rfl, hg⟩
      rcases hcases with hg | ⟨rfl, rfl, rfl⟩
      · have hlt := (List.getElem?_eq_some_iff.mp hg).1
        rw [h.gates g ips hg ip, eq_comm]
        refine (countP_without_iff fun c => ?_).mpr fun c hc (hid : c.id ∈ ids) hin => ?_
        · rw [ipg_regroup_old hlt, and_assoc]
        · rw [(hno c hc hid).2.2.2] at hin
          cases hin.1
      · rw [count_nil, eq_comm]
        refine countP_eq_zero.mpr fun c hc hx => ?_
        have hid := (ipg_regroup_new hk).mp (of_decide_eq_true hx).1
        exact absurd (hno c hc hid).2.1 (by decide)

end

/-! ### What is pointed to exists -/

namespace Counters

variable {k : Counters}

lemma Valid.of_fields {k' : Counters} (h : k.Valid) (hshared : k'.shared = k.shared)
    (hipg : k'.ipg = k.ipg) (hshares : k'.shares.length = k.shares.length)
    (hgates : k'.gates.length = k.gates.length) : k'.Valid := by
  refine ⟨fun id s hs => ?_, fun id g hg => ?_⟩
  · rw [hshares]
    exact h.shared_lt id s (hshared ▸ hs)
  · rw [hgates]
    exact h.ipg_lt id g (hipg ▸ hg)

lemma Valid.count (h : k.Valid) (id : CredID) (d : Int) : (k.count id d).Valid := by
  refine h.of_fields rfl rfl ?_ rfl
  rw [Counters.count]
  cases k.bounding id <;> simp

lemma Valid.onGate (h : k.Valid) (id : CredID) (f : List Addr → List Addr) :
    (k.onGate id f).Valid := by
  refine h.of_fields rfl rfl rfl ?_
  rw [Counters.onGate]
  cases k.ipg id <;> simp

lemma Valid.regate (h : k.Valid) (id : CredID) : (k.regate id).Valid := by
  refine ⟨h.shared_lt, fun id' g hg => ?_⟩
  change Function.update k.ipg id (some k.gates.length) id' = some g at hg
  change g < (k.gates ++ [[]]).length
  rw [length_append, length_singleton]
  by_cases hid : id' = id
  · rw [hid, Function.update_self, Option.some.injEq] at hg
    exact hg ▸ Nat.lt_succ_self _
  · rw [Function.update_of_ne hid] at hg
    exact Nat.lt_succ_of_lt (h.ipg_lt id' g hg)

lemma Valid.regroup (h : k.Valid) (ids : List CredID) (m : Int) (gate : Bool) :
    (k.regroup ids m gate).Valid := by
  refine ⟨fun id s hs => ?_, fun id g hg => ?_⟩
  · change s < (k.shares ++ [(m, 0)]).length
    rw [length_append, length_singleton]
    rw [shared_regroup] at hs
    split at hs
    · exact Option.some.inj hs ▸ Nat.lt_succ_self _
    · exact Nat.lt_succ_of_lt (h.shared_lt id s hs)
  · have hle : k.gates.length ≤ (k.regroup ids m gate).gates.length := by
      cases gate <;> simp [Counters.regroup]
    rw [ipg_regroup] at hg
    split at hg
    · cases gate with
      | false => cases hg
      | true =>
        change g < (k.gates ++ [[]]).length
        rw [length_append, length_singleton]
        exact Option.some.inj hg ▸ Nat.lt_succ_self _
    · exact Nat.lt_of_lt_of_le (h.ipg_lt id g hg) hle

end Counters

/-! ### Runs -/

/-- A registry with the connections that are open on it. -/
structure Usage where
  reg : Registry
  conns : List Conn

/-- A call on the registry. A connection is released once, by the function that
its admission returned. -/
inductive Op where
  | openConn (id : CredID) (src : Addr) (kill : List Closer) (now : Int)
  | done (c : Conn)
  | setLimits (id : CredID) (l : Limits)
  | setLimitsShared (ids : List CredID) (l : Limits)
  | cut (k : Registry.Kill)
  | enable (id : CredID)

namespace Usage

def new : Usage := ⟨Registry.new, []⟩

def step (u : Usage) : Op → Usage
  | .openConn id src kill now =>
    let (reg, admitted) := u.reg.openConn id src kill now
    match admitted with
    | some connID => ⟨reg, ⟨id, src, connID⟩ :: u.conns⟩
    | none => ⟨reg, u.conns⟩
  | .done c =>
    if c ∈ u.conns then ⟨u.reg.done c.id c.src c.connID, u.conns.erase c⟩ else u
  | .setLimits id l => ⟨u.reg.setLimits id l, u.conns⟩
  | .setLimitsShared ids l => ⟨u.reg.setLimitsShared ids l, u.conns⟩
  | .cut k => ⟨(u.reg.cut k).1, u.conns⟩
  | .enable id => ⟨(u.reg.enable id).1, u.conns⟩

/-- The counters count what is open. -/
def Balanced (u : Usage) : Prop := Meter.Balanced u.reg.counters u.conns

def AlwaysBalanced (u : Usage) : List Op → Prop
  | [] => u.Balanced
  | op :: ops => u.Balanced ∧ (u.step op).AlwaysBalanced ops

/-- Limits are not replaced under open connections: a credential that gets a new
gate has none, and a credential that gets a new unit has none that are to be
counted. -/
def Calm (u : Usage) : Op → Prop
  | .setLimits id l => 0 < l.maxIPs → ∀ c ∈ u.conns, c.id ≠ id
  | .setLimitsShared ids l => ∀ c ∈ u.conns, c.id ∈ ids →
      Uncounted u.reg.counters l.maxConns (decide (0 < l.maxIPs)) c.id
  | _ => True

def AlwaysCalm (u : Usage) : List Op → Prop
  | [] => True
  | op :: ops => u.Calm op ∧ (u.step op).AlwaysCalm ops

lemma valid_step {u : Usage} (h : u.reg.counters.Valid) (op : Op) :
    (u.step op).reg.counters.Valid := by
  cases op with
  | openConn id src kill now =>
    rcases u.reg.counters_openConn id src kill now with ⟨hnone, hk⟩ | ⟨⟨connID, hsome⟩, hk, -⟩
    · simp only [step, hnone, hk, h]
    · simp only [step, hsome, hk]
      exact (h.count id 1).onGate id _
  | done c =>
    rw [step]
    split
    · rw [counters_done]
      exact (h.count c.id (-1)).onGate c.id _
    · exact h
  | setLimits id l =>
    rw [step, counters_setLimits]
    split
    · exact h.regate id
    · exact h
  | setLimitsShared ids l =>
    rw [step, counters_setLimitsShared]
    exact h.regroup ids _ _
  | cut k =>
    rw [step, counters_cut]
    exact h
  | enable id =>
    rw [step, counters_enable]
    exact h

/-- **One call keeps the balance if and only if it is calm.** -/
lemma balanced_step_iff {u : Usage} (hk : u.reg.counters.Valid) (h : u.Balanced) (op : Op) :
    (u.step op).Balanced ↔ u.Calm op := by
  cases op with
  | openConn id src kill now =>
    refine iff_of_true ?_ trivial
    rcases u.reg.counters_openConn id src kill now with ⟨hnone, hk⟩ | ⟨⟨connID, hsome⟩, hk, hroom⟩
    · simp only [step, hnone, Balanced, hk]
      exact h
    · simp only [step, hsome, Balanced, hk]
      exact balanced_admit h ⟨id, src, connID⟩ hroom
  | done c =>
    refine iff_of_true ?_ trivial
    rw [step]
    split
    · next hc =>
      rw [Balanced, counters_done]
      exact balanced_release h hc
    · exact h
  | setLimits id l =>
    rw [Calm, step, Balanced, counters_setLimits]
    by_cases hips : 0 < l.maxIPs
    · simp only [hips, if_true, forall_const]
      exact balanced_regate_iff hk h id
    · simp only [hips, if_false, false_imp_iff, iff_true]
      exact h
  | setLimitsShared ids l =>
    rw [Calm, step, Balanced, counters_setLimitsShared]
    exact balanced_regroup_iff hk h ids _ _
  | cut k =>
    refine iff_of_true ?_ trivial
    rw [step, Balanced, counters_cut]
    exact h
  | enable id =>
    refine iff_of_true ?_ trivial
    rw [step, Balanced, counters_enable]
    exact h

lemma alwaysBalanced_iff_of_balanced (ops : List Op) : ∀ {u : Usage}, u.reg.counters.Valid →
    u.Balanced → (u.AlwaysBalanced ops ↔ u.AlwaysCalm ops) := by
  induction ops with
  | nil =>
    intro u _ h
    exact iff_of_true h trivial
  | cons op ops ih =>
    intro u hk h
    rw [AlwaysBalanced, AlwaysCalm, ← balanced_step_iff hk h op]
    constructor
    · rintro ⟨-, hrest⟩
      have hstep : (u.step op).Balanced := by
        cases ops with
        | nil => exact hrest
        | cons op' ops => exact hrest.1
      exact ⟨hstep, (ih (valid_step hk op) hstep).mp hrest⟩
    · rintro ⟨hstep, hrest⟩
      exact ⟨h, (ih (valid_step hk op) hstep).mpr hrest⟩

/-- **The counters of a registry count what is open, exactly as long as limits are
not replaced under open connections**: for every run of admissions, releases,
limits and switches from a new registry. -/
theorem alwaysBalanced_iff (ops : List Op) :
    Usage.new.AlwaysBalanced ops ↔ Usage.new.AlwaysCalm ops := by
  refine alwaysBalanced_iff_of_balanced ops ⟨nofun, nofun⟩ ⟨fun id => rfl, ?_, ?_⟩
  · intro s bound live hs
    simp [new, Registry.new, Registry.counters] at hs
  · intro g ips hg
    simp [new, Registry.new, Registry.counters] at hg

/-- **A reload under an open connection**: a user with a bound of two connections
has one open, and a reload sets the same limits again. The new unit counts no
connection, and after the release it counts minus one. -/
theorem reload_loses_connection :
    let ops : List Op := [.setLimitsShared [7] { maxConns := 2 }, .openConn 7 (.v4 1) [] 0,
      .setLimitsShared [7] { maxConns := 2 }, .done ⟨7, .v4 1, 1⟩]
    ¬ Usage.new.AlwaysBalanced ops ∧
      (ops.foldl step Usage.new).reg.shares.map (fun sh => sh.live) = [1, -1] := by
  refine ⟨fun h => ?_, by decide +kernel⟩
  obtain ⟨-, -, -, hthird, -⟩ := h
  have hcount := (hthird.shares 1 2 0 (by decide +kernel) (by decide)).1
  exact absurd hcount (by decide +kernel)

end Usage

end Ntr.Meter
