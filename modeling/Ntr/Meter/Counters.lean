/-
The counters of a registry: the connections of each credential and of each
shared unit, and the references of each IP gate.

* `Counters.count`, `Counters.onGate`, `Counters.regate`, `Counters.regroup`: what
  happens to them;
* `counters_openConn`, `counters_done`, `counters_setLimits`,
  `counters_setLimitsShared`: each operation of the registry is one of these on
  its counters.
-/
import Ntr.Meter.Live

namespace Ntr.Meter

open Go List

/-! ### Counters -/

/-- The counters of a registry: the connections of each credential, the unit and
the gate that it points to, the bound and the connections of each unit, and the
references that each gate holds. -/
@[ext]
structure Counters where
  connsLive : CredID → Int
  shared : CredID → Option Ref
  ipg : CredID → Option Ref
  shares : List (Int × Int)
  gates : List (List Addr)

namespace Counters

/-- The unit in which the connections of `id` are counted. -/
def bounding (k : Counters) (id : CredID) : Option Ref :=
  (k.shared id).filter fun s => (k.shares[s]?).any fun x => 0 < x.1

/-- `d` more connections of `id`. -/
def count (k : Counters) (id : CredID) (d : Int) : Counters :=
  { k with
    connsLive := Function.update k.connsLive id (k.connsLive id + d)
    shares := match k.bounding id with
      | some s => k.shares.modify s fun x => (x.1, x.2 + d)
      | none => k.shares }

/-- A change to the references of the gate of `id`. -/
def onGate (k : Counters) (id : CredID) (f : List Addr → List Addr) : Counters :=
  { k with
    gates := match k.ipg id with
      | some g => k.gates.modify g f
      | none => k.gates }

/-- A new unit with the given bound for all of `ids`, and a new gate or none. -/
def regroup (k : Counters) (ids : List CredID) (maxConns : Int) (gate : Bool) : Counters :=
  { k with
    shared := fun id => if id ∈ ids then some k.shares.length else k.shared id
    ipg := fun id => if id ∈ ids then (if gate then some k.gates.length else none) else k.ipg id
    shares := k.shares ++ [(maxConns, 0)]
    gates := if gate then k.gates ++ [[]] else k.gates }

/-- A new gate for `id`. -/
def regate (k : Counters) (id : CredID) : Counters :=
  { k with
    ipg := Function.update k.ipg id (some k.gates.length)
    gates := k.gates ++ [[]] }

section
variable (k : Counters) (id : CredID) (d : Int) (f : List Addr → List Addr)

@[simp]
lemma connsLive_onGate : (k.onGate id f).connsLive = k.connsLive := rfl

@[simp]
lemma shares_onGate : (k.onGate id f).shares = k.shares := rfl

lemma connsLive_count (id' : CredID) :
    (k.count id d).connsLive id' = k.connsLive id' + if id' = id then d else 0 := by
  by_cases h : id' = id
  · subst h
    simp [count]
  · simp [count, h]

lemma shared_regroup (ids : List CredID) (m : Int) (gate : Bool) :
    (k.regroup ids m gate).shared id = if id ∈ ids then some k.shares.length else k.shared id := rfl

lemma ipg_regroup (ids : List CredID) (m : Int) (gate : Bool) : (k.regroup ids m gate).ipg id =
    if id ∈ ids then (if gate then some k.gates.length else none) else k.ipg id := rfl

end

lemma shares_count (k : Counters) (id : CredID) (d : Int) (s : Ref) : (k.count id d).shares[s]? =
    (k.shares[s]?).map fun x => (x.1, x.2 + if k.bounding id = some s then d else 0) := by
  rw [count]
  cases k.bounding id with
  | none => simp
  | some t => by_cases h : t = s <;> simp [h]

lemma gates_onGate (k : Counters) (id : CredID) (f : List Addr → List Addr) (g : Ref) :
    (k.onGate id f).gates[g]? =
      (k.gates[g]?).map fun ips => if k.ipg id = some g then f ips else ips := by
  rw [onGate]
  cases k.ipg id with
  | none => simp
  | some t => by_cases h : t = g <;> simp [h]

@[simp]
lemma bounding_count (k : Counters) (id id' : CredID) (d : Int) :
    (k.count id d).bounding id' = k.bounding id' := by
  have hany (s : Ref) : ((k.count id d).shares[s]?).any (fun x => 0 < x.1) =
      (k.shares[s]?).any fun x => 0 < x.1 := by
    rw [shares_count, Option.any_map]
  simp only [bounding, hany]
  rfl

lemma count_count (k : Counters) (id : CredID) : (k.count id 1).count id (-1) = k := by
  refine Counters.ext ?_ rfl rfl (ext_getElem? fun s => ?_) rfl
  · simp [count]
  · rw [shares_count, shares_count, bounding_count, Option.map_map]
    cases k.shares[s]? with
    | none => rfl
    | some x => by_cases h : k.bounding id = some s <;> simp [h]

lemma onGate_onGate (k : Counters) (id : CredID) {f g : List Addr → List Addr}
    (h : ∀ ips, g (f ips) = ips) : (k.onGate id f).onGate id g = k := by
  refine Counters.ext rfl rfl rfl rfl (ext_getElem? fun t => ?_)
  rw [gates_onGate, gates_onGate, Option.map_map]
  cases k.gates[t]? with
  | none => rfl
  | some ips =>
    by_cases ht : k.ipg id = some t
    · simp [onGate, ht, h]
    · simp [onGate, ht]

lemma count_onGate (k : Counters) (id : CredID) (d : Int) (f : List Addr → List Addr) :
    (k.onGate id f).count id d = (k.count id d).onGate id f := rfl

end Counters

namespace Registry

def counters (r : Registry) : Counters where
  connsLive id := (r.cell id).connsLive
  shared id := (r.cell id).shared
  ipg id := (r.cell id).ipg
  shares := r.shares.map fun sh => (sh.maxConns, sh.live)
  gates := r.gates.map (·.ips)

lemma cell_modifyCell (r : Registry) (id id' : CredID) (f : Cell → Cell) :
    (r.modifyCell id f).cell id' = if id' = id then f (r.cell id) else r.cell id' := by
  by_cases hid : id' = id
  · rw [if_pos hid, hid, cell_modifyCell_self]
  · rw [if_neg hid, cell_modifyCell_of_ne r hid]

lemma counters_modifyCell_eq (r : Registry) (id : CredID) (f : Cell → Cell) :
    (r.modifyCell id f).counters =
      { r.counters with
        connsLive := Function.update r.counters.connsLive id (f (r.cell id)).connsLive
        shared := Function.update r.counters.shared id (f (r.cell id)).shared
        ipg := Function.update r.counters.ipg id (f (r.cell id)).ipg } := by
  have hfield {α : Type} (get : Cell → α) (id' : CredID) : get ((r.modifyCell id f).cell id') =
        Function.update (fun id => get (r.cell id)) id (get (f (r.cell id))) id' := by
    rw [cell_modifyCell, Function.update_apply]
    exact apply_ite get _ _ _
  exact Counters.ext (funext (hfield (·.connsLive))) (funext (hfield (·.shared)))
    (funext (hfield (·.ipg))) rfl rfl

lemma counters_modifyCell (r : Registry) (id : CredID) {f : Cell → Cell}
    (hlive : (f (r.cell id)).connsLive = (r.cell id).connsLive)
    (hshared : (f (r.cell id)).shared = (r.cell id).shared)
    (hipg : (f (r.cell id)).ipg = (r.cell id).ipg) : (r.modifyCell id f).counters = r.counters := by
  rw [counters_modifyCell_eq, hlive, hshared, hipg]
  exact Counters.ext (Function.update_eq_self id _) (Function.update_eq_self id _)
    (Function.update_eq_self id _) rfl rfl

lemma counters_idx (r : Registry) (idx : ConnID → Option CredID) :
    Registry.counters { r with idx := idx } = r.counters := rfl

lemma boundingShare_cases (r : Registry) (id : CredID) :
    (r.boundingShare (r.cell id) = none ∧ r.counters.bounding id = none) ∨
      ∃ s sh, r.boundingShare (r.cell id) = some (s, sh) ∧ r.counters.bounding id = some s ∧
        r.shares[s]? = some sh ∧ 0 < sh.maxConns := by
  rw [boundingShare, Counters.bounding]
  change _ ∧ ((r.cell id).shared).filter _ = _ ∨ ∃ s sh, _ ∧ ((r.cell id).shared).filter _ = _ ∧ _
  cases (r.cell id).shared with
  | none => exact .inl ⟨rfl, rfl⟩
  | some s =>
    cases hs : r.shares[s]? with
    | none => simp [counters, hs, Option.filter]
    | some sh => by_cases h : 0 < sh.maxConns <;> simp [counters, hs, h, Option.filter]

lemma counters_count (r : Registry) (id : CredID) (d : Int) {f : Cell → Cell}
    (hlive : (f (r.cell id)).connsLive = (r.cell id).connsLive + d)
    (hshared : (f (r.cell id)).shared = (r.cell id).shared)
    (hipg : (f (r.cell id)).ipg = (r.cell id).ipg) {shares : List SharedLimit}
    (hshares : shares.map (fun sh => (sh.maxConns, sh.live)) = (r.counters.count id d).shares) :
    (Registry.modifyCell { r with shares := shares } id f).counters = r.counters.count id d := by
  have hcell : Registry.cell { r with shares := shares } id = r.cell id := rfl
  rw [counters_modifyCell_eq, hcell, hlive, hshared, hipg]
  exact Counters.ext rfl (Function.update_eq_self id _) (Function.update_eq_self id _) hshares rfl

/-- The units where the one that counts `id` has `d` more connections. -/
lemma map_set_share {r : Registry} {id : CredID} {s : Ref} {sh : SharedLimit}
    (hb : r.counters.bounding id = some s) (hs : r.shares[s]? = some sh) (d : Int)
    (sh' : SharedLimit) (hmax : sh'.maxConns = sh.maxConns) (hlive : sh'.live = sh.live + d) :
    (r.shares.set s sh').map (fun sh => (sh.maxConns, sh.live)) =
      (r.counters.count id d).shares := by
  refine ext_getElem? fun t => ?_
  rw [Counters.shares_count, hb, getElem?_map, getElem?_set]
  change _ = ((r.shares.map fun sh => (sh.maxConns, sh.live))[t]?).map _
  rw [getElem?_map, Option.map_map]
  by_cases ht : s = t
  · subst ht
    have hlt := (List.getElem?_eq_some_iff.mp hs).1
    rw [hs, if_pos rfl, if_pos hlt]
    simp [hmax, hlive]
  · cases r.shares[t]? <;> simp [ht]

lemma shares_count_none {k : Counters} {id : CredID} (h : k.bounding id = none) (d : Int) :
    (k.count id d).shares = k.shares := by
  rw [Counters.count, h]

lemma counters_tryAcquireConn (r : Registry) (id : CredID) :
    ((r.tryAcquireConn id).2 = false ∧ (r.tryAcquireConn id).1.counters = r.counters) ∨
      ((r.tryAcquireConn id).2 = true ∧ (r.tryAcquireConn id).1.counters = r.counters.count id 1 ∧
        ∀ s, r.counters.bounding id = some s → ∀ x, r.counters.shares[s]? = some x →
          x.2 < x.1) := by
  rw [tryAcquireConn]
  rcases r.boundingShare_cases id with ⟨hb, hk⟩ | ⟨s, sh, hb, hk, hs, hpos⟩
  · simp only [hb]
    split
    · refine .inl ⟨rfl, ?_⟩
      dsimp only
      exact counters_modifyCell r id rfl rfl rfl
    · refine .inr ⟨rfl, ?_, fun s hs => ?_⟩
      · dsimp only
        exact counters_count r id 1 rfl rfl rfl (shares_count_none hk 1).symm
      · rw [hk] at hs
        cases hs
  · simp only [hb]
    split
    · refine .inl ⟨rfl, ?_⟩
      -- a refusal is counted on its own
      have hshares : (r.shares.set s { sh with rejected := sh.rejected + 1 }).map
          (fun sh => (sh.maxConns, sh.live)) = r.counters.shares := by
        obtain ⟨hlt, hget⟩ := List.getElem?_eq_some_iff.mp hs
        refine List.ext_getElem? fun t => ?_
        by_cases ht : s = t
        · subst ht
          simp [counters, hlt, hget]
        · simp [counters, ht]
      dsimp only
      rw [counters_modifyCell _ id rfl rfl rfl]
      exact Counters.ext rfl rfl rfl hshares rfl
    · next hroom =>
      refine .inr ⟨rfl, ?_, ?_⟩
      · have hshares := map_set_share hk hs 1 { sh with live := sh.live + 1 } rfl rfl
        dsimp only
        exact counters_count r id 1 rfl rfl rfl hshares
      · intro t ht x hx
        rw [hk, Option.some.injEq] at ht
        subst ht
        have hx' : some (sh.maxConns, sh.live) = some x := by
          rw [← hx]
          simp [counters, hs]
        cases hx'
        exact Int.not_le.mp hroom

lemma counters_releaseConn (r : Registry) (id : CredID) :
    (r.releaseConn id).counters = r.counters.count id (-1) := by
  rw [releaseConn]
  rcases r.boundingShare_cases id with ⟨hb, hk⟩ | ⟨s, sh, hb, hk, hs, -⟩
  · simp only [hb]
    exact counters_count r id (-1) rfl rfl rfl (shares_count_none hk (-1)).symm
  · have hshares := map_set_share hk hs (-1) { sh with live := sh.live - 1 } rfl rfl
    simp only [hb]
    exact counters_count r id (-1) rfl rfl rfl hshares

lemma counters_gates (r : Registry) (id : CredID) {g : Ref} (hg : (r.cell id).ipg = some g)
    (f : List Addr → List Addr) (gates : List IPGate)
    (h : gates.map (·.ips) = (r.gates.map (·.ips)).modify g f) :
    Registry.counters { r with gates := gates } = r.counters.onGate id f := by
  refine Counters.ext rfl rfl rfl rfl ?_
  have hk : r.counters.ipg id = some g := hg
  rw [Counters.onGate, hk]
  exact h

lemma counters_acquireIP (r : Registry) (id : CredID) (src : Addr) :
    ((r.acquireIP id src).2 = false ∧ (r.acquireIP id src).1.counters = r.counters) ∨
      ((r.acquireIP id src).2 = true ∧
        (r.acquireIP id src).1.counters = r.counters.onGate id (src :: ·)) := by
  rw [acquireIP]
  cases hg : (r.cell id).ipg with
  | none =>
    have hk : r.counters.ipg id = none := hg
    refine .inr ⟨rfl, ?_⟩
    rw [Counters.onGate, hk]
  | some g =>
    cases hget : r.gates[g]? with
    | none =>
      refine .inr ⟨by simp only [hget], ?_⟩
      simp only [hget]
      refine counters_gates r id hg (src :: ·) r.gates ?_
      rw [List.modify_eq_self (by simpa using hget)]
    | some gate =>
      obtain ⟨hlt, hgate⟩ := List.getElem?_eq_some_iff.mp hget
      have hset (gate' : IPGate) (f : List Addr → List Addr) (hf : gate'.ips = f gate.ips) :
          (r.gates.set g gate').map (·.ips) = (r.gates.map (·.ips)).modify g f := by
        refine ext_getElem? fun t => ?_
        by_cases ht : g = t
        · subst ht
          simp [hlt, hgate, hf]
        · simp [ht]
      simp only [hget, IPGate.acquire]
      split
      · exact .inr ⟨rfl, counters_gates r id hg _ _ (hset _ _ rfl)⟩
      · split
        · refine .inl ⟨rfl, Counters.ext rfl rfl rfl rfl ?_⟩
          have hsame := hset { gate with rejected := gate.rejected + 1 } (fun ips => ips) rfl
          exact hsame.trans (modify_id _ _)
        · exact .inr ⟨rfl, counters_gates r id hg _ _ (hset _ _ rfl)⟩

lemma counters_releaseIP (r : Registry) (id : CredID) (src : Addr) :
    (r.releaseIP id src).counters = r.counters.onGate id (·.erase src) := by
  rw [releaseIP]
  cases hg : (r.cell id).ipg with
  | none =>
    have hk : r.counters.ipg id = none := hg
    rw [Counters.onGate, hk]
  | some g =>
    refine counters_gates r id hg _ _ (ext_getElem? fun t => ?_)
    by_cases ht : g = t
    · subst ht
      simp [Function.comp_def, IPGate.release]
    · simp [ht]

/-- **An admission counts the connection everywhere, a refusal nowhere.** -/
lemma counters_openConn (r : Registry) (id : CredID) (src : Addr) (kill : List Closer) (now : Int) :
    ((r.openConn id src kill now).2 = none ∧ (r.openConn id src kill now).1.counters = r.counters) ∨
      (∃ connID, (r.openConn id src kill now).2 = some connID) ∧
        (r.openConn id src kill now).1.counters = (r.counters.count id 1).onGate id (src :: ·) ∧
        ∀ s, r.counters.bounding id = some s → ∀ x, r.counters.shares[s]? = some x → x.2 < x.1 := by
  have herase : ∀ ips : List Addr, (src :: ips).erase src = ips := fun ips => by simp
  have hip := counters_acquireIP r id src
  have hconn := counters_tryAcquireConn (r.acquireIP id src).1 id
  unfold openConn
  generalize r.acquireIP id src = x at *
  obtain ⟨r₁, ok₁⟩ := x
  rcases hip with ⟨rfl, hip⟩ | ⟨rfl, hip⟩
  · exact .inl ⟨rfl, hip⟩
  · dsimp only at *
    generalize r₁.tryAcquireConn id = y at *
    obtain ⟨r₂, ok₂⟩ := y
    rw [hip] at hconn
    rcases hconn with ⟨rfl, hconn⟩ | ⟨rfl, hconn, hroom⟩
    · refine .inl ⟨rfl, ?_⟩
      change (r₂.releaseIP id src).counters = _
      rw [counters_releaseIP, hconn, Counters.onGate_onGate _ _ herase]
    · simp only [Bool.not_true, Bool.false_eq_true, if_false]
      have hcell : Registry.cell { r₂ with connSeq := r₂.connSeq + 1 } id = r₂.cell id := rfl
      have hseq : Registry.counters { r₂ with connSeq := r₂.connSeq + 1 } = r₂.counters := rfl
      rw [hcell, Cell.addGuarded]
      by_cases hdis : (r₂.cell id).disabled = true
      · simp only [hdis, if_true, Bool.not_false]
        refine .inl ⟨trivial, ?_⟩
        rw [counters_releaseIP, counters_releaseConn, hseq, hconn, Counters.count_count,
          Counters.onGate_onGate _ _ herase]
      · simp only [hdis, if_false, Bool.not_true, Bool.false_eq_true]
        refine .inr ⟨⟨_, rfl⟩, ?_, hroom⟩
        rw [counters_idx, counters_modifyCell _ id rfl rfl rfl, hseq, hconn, Counters.count_onGate]

lemma counters_done (r : Registry) (id : CredID) (src : Addr) (connID : ConnID) :
    (r.done id src connID).counters = (r.counters.count id (-1)).onGate id (·.erase src) := by
  rw [done, counters_idx, counters_modifyCell _ id rfl rfl rfl, counters_releaseIP,
    counters_releaseConn]

/-! ### Limits -/

lemma counters_newRate (r : Registry) (rate : F64) : (r.newRate rate).2.counters = r.counters := by
  rw [newRate]
  split <;> rfl

lemma counters_newGate (r : Registry) (cap : Int) :
    (r.newGate cap).1 = (if 0 < cap then some r.counters.gates.length else none) ∧
      (r.newGate cap).2.counters =
        { r.counters with
          gates := if 0 < cap then r.counters.gates ++ [[]] else r.counters.gates } := by
  rw [newGate]
  split <;> simp [counters, cell]

/-- `SetLimits` puts in a new gate where the new limits bound the addresses. -/
lemma counters_setLimits (r : Registry) (id : CredID) (l : Limits) : (r.setLimits id l).counters =
    if 0 < l.maxIPs then r.counters.regate id else r.counters := by
  have hrate := counters_newRate r l.rate
  rw [setLimits]
  generalize r.newRate l.rate = x at *
  obtain ⟨rate, r₁⟩ := x
  obtain ⟨hipg, hgate⟩ := counters_newGate r₁ l.maxIPs
  dsimp only at *
  generalize r₁.newGate l.maxIPs = y at *
  obtain ⟨ipg, r₂⟩ := y
  dsimp only at *
  rw [hrate] at hgate hipg
  by_cases h : 0 < l.maxIPs
  · rw [if_pos h] at hipg hgate ⊢
    have hlive : (r₂.cell id).connsLive = r.counters.connsLive id :=
      congrFun (congrArg Counters.connsLive hgate) id
    have hshared : (r₂.cell id).shared = r.counters.shared id :=
      congrFun (congrArg Counters.shared hgate) id
    rw [counters_modifyCell_eq, hgate, hipg]
    dsimp only
    rw [hlive, hshared]
    exact Counters.ext (Function.update_eq_self id _) (Function.update_eq_self id _) rfl rfl rfl
  · rw [if_neg h] at hipg hgate ⊢
    rw [counters_modifyCell _ id rfl rfl (by rw [hipg]; rfl), hgate]

/-- The cells after one change to each of several, which does nothing more when
it is made again. -/
lemma cell_foldl {g : Cell → Cell} (hg : ∀ c, g (g c) = g c) (id : CredID) :
    ∀ (ids : List CredID) (r : Registry), (ids.foldl (fun r id => r.modifyCell id g) r).cell id =
        if id ∈ ids then g (r.cell id) else r.cell id
  | [], _ => by simp
  | id' :: ids, r => by
    rw [foldl_cons, cell_foldl hg id ids, cell_modifyCell]
    by_cases hid : id = id'
    · subst hid
      by_cases hmem : id ∈ ids <;> simp [hmem, hg]
    · by_cases hmem : id ∈ ids <;> simp [hmem, hid]

lemma foldl_modifyCell {g : Cell → Cell} : ∀ (ids : List CredID) (r : Registry),
    (ids.foldl (fun r id => r.modifyCell id g) r).shares = r.shares ∧
      (ids.foldl (fun r id => r.modifyCell id g) r).gates = r.gates ∧
      (ids.foldl (fun r id => r.modifyCell id g) r).rates = r.rates ∧
      (ids.foldl (fun r id => r.modifyCell id g) r).bills = r.bills
  | [], _ => ⟨rfl, rfl, rfl, rfl⟩
  | id :: ids, r => foldl_modifyCell ids (r.modifyCell id g)

/-- `SetLimitsShared` puts in a new unit for all the credentials, and a new gate
or none. -/
lemma counters_setLimitsShared (r : Registry) (ids : List CredID) (l : Limits) :
    (r.setLimitsShared ids l).counters =
      r.counters.regroup ids l.maxConns (decide (0 < l.maxIPs)) := by
  have hrate := counters_newRate r l.rate
  rw [setLimitsShared]
  generalize r.newRate l.rate = x at *
  obtain ⟨rate, r₁⟩ := x
  obtain ⟨hipg, hgate⟩ := counters_newGate r₁ l.maxIPs
  dsimp only at *
  generalize r₁.newGate l.maxIPs = y at *
  obtain ⟨ipg, r₂⟩ := y
  dsimp only at *
  rw [hrate] at hgate hipg
  have hlen : r₂.shares.length = r.counters.shares.length := by
    rw [← length_map (f := fun sh => (sh.maxConns, sh.live))]
    exact congrArg (fun k : Counters => k.shares.length) hgate
  have hshares : r₂.shares.map (fun sh => (sh.maxConns, sh.live)) = r.counters.shares :=
    congrArg Counters.shares hgate
  have hcell (id : CredID) := cell_foldl (g := fun c =>
      { c with shared := some r₂.shares.length, rate := rate, ipg := ipg, maxConns := 0 })
    (fun _ => rfl) id ids
    { r₂ with shares := r₂.shares ++ [{ maxConns := l.maxConns, rate := rate, ipg := ipg }] }
  refine Counters.ext (funext fun id => ?_) (funext fun id => ?_) (funext fun id => ?_) ?_ ?_
  · refine (congrArg Cell.connsLive (hcell id)).trans ?_
    rw [apply_ite Cell.connsLive, ite_self]
    exact congrFun (congrArg Counters.connsLive hgate) id
  · refine (congrArg Cell.shared (hcell id)).trans ?_
    rw [apply_ite Cell.shared, hlen]
    exact congrArg (ite _ _) (congrFun (congrArg Counters.shared hgate) id)
  · refine (congrArg Cell.ipg (hcell id)).trans ?_
    rw [apply_ite Cell.ipg, hipg, Counters.regroup]
    simp only [decide_eq_true_eq]
    exact congrArg (ite _ _) (congrFun (congrArg Counters.ipg hgate) id)
  · refine (congrArg _ (foldl_modifyCell ids _).1).trans ?_
    rw [map_append, hshares]
    rfl
  · refine (congrArg _ (foldl_modifyCell ids _).2.1).trans ?_
    refine (congrArg Counters.gates hgate).trans ?_
    simp only [Counters.regroup, decide_eq_true_eq]

/-! ### Switches -/

lemma counters_cut (r : Registry) (k : Kill) : (r.cut k).1.counters = r.counters := by
  cases k with
  | cred id =>
    simp only [cut, disable]
    cases r.cells id with
    | none => rfl
    | some c =>
      dsimp only
      exact counters_modifyCell r id rfl rfl rfl
  | conn connID =>
    simp only [cut, killConn]
    cases r.idx connID with
    | none => rfl
    | some id =>
      dsimp only
      exact counters_modifyCell r id rfl rfl rfl
  | ip id ip =>
    simp only [cut, killIP]
    cases r.cells id with
    | none => rfl
    | some c =>
      dsimp only
      exact counters_modifyCell r id rfl rfl rfl

lemma counters_enable (r : Registry) (id : CredID) : (r.enable id).1.counters = r.counters := by
  rw [enable]
  cases r.cells id with
  | none => rfl
  | some c =>
    dsimp only
    exact counters_modifyCell r id rfl rfl rfl

end Registry

end Ntr.Meter
