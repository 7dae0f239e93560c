/-
What a build asks of the registry: to number bills, and to set limits for a
credential or for all credentials of a user.

* `LimitCall`, `Registry.call`: the calls, by bill;
* `Registry.bounds`, `SameBounds`: what bounds a credential, and that two
  registries bound credentials alike up to the identity of the objects, with the
  same credentials sharing them;
* `sameBounds_iff`: the same calls leave the same bounds in a registry as in a
  new one exactly if they replace what bounded their credentials before.
-/
import Ntr.Meter.Counters

namespace Ntr.Meter

open Go List

inductive LimitCall where
  | number (bill : Str)
  | own (bill : Str) (l : Limits)
  | shared (bills : List Str) (l : Limits)
  deriving DecidableEq, Repr

namespace LimitCall

def bills : LimitCall → List Str
  | .number b => [b]
  | .own b _ => [b]
  | .shared bs _ => bs

def ownOf (b : Str) : LimitCall → Option Limits
  | .own b' l => if b' = b then some l else none
  | _ => none

def shares (b : Str) : LimitCall → Bool
  | .shared bs _ => b ∈ bs
  | _ => false

end LimitCall

namespace Registry

def numberAll (r : Registry) (bs : List Str) : Registry :=
  bs.foldl (fun r b => (r.idForBill b).2) r

def call (r : Registry) : LimitCall → Registry
  | .number b => (r.idForBill b).2
  | .own b l => (r.idForBill b).2.setLimits (r.idForBill b).1 l
  | .shared bs l => (r.numberAll bs).setLimitsShared (bs.filterMap (r.numberAll bs).bills.bills) l

end Registry

/-! ### Limits by bill -/

structure Lims where
  maxConns : Int := 0
  rate : Option Ref := none
  ipg : Option Ref := none
  shared : Option Ref := none
  deriving DecidableEq

def Cell.lims (c : Cell) : Lims := ⟨c.maxConns, c.rate, c.ipg, c.shared⟩

/-- The limits of the bills, with the buckets, the gates and the units. -/
@[ext]
structure LimitTable where
  lims : Str → Lims := fun _ => {}
  rates : List F64 := []
  caps : List Int := []
  shares : List Int := []

namespace LimitTable

def nextRate (t : LimitTable) (l : Limits) : Option Ref :=
  if l.rate.isPos then some t.rates.length else none

def nextGate (t : LimitTable) (l : Limits) : Option Ref :=
  if 0 < l.maxIPs then some t.caps.length else none

/-- The buckets with a new one, where the limits have a rate. -/
def newRates (t : LimitTable) (l : Limits) : List F64 :=
  t.rates ++ if l.rate.isPos then [l.rate] else []

/-- The gates with a new one, where the limits have a bound for it. -/
def newCaps (t : LimitTable) (l : Limits) : List Int :=
  t.caps ++ if 0 < l.maxIPs then [l.maxIPs] else []

/-- `SetLimits`, by bill. -/
def own (t : LimitTable) (b : Str) (l : Limits) : LimitTable where
  lims := Function.update t.lims b
    { t.lims b with
      maxConns := l.maxConns
      rate := (t.nextRate l).or (t.lims b).rate
      ipg := (t.nextGate l).or (t.lims b).ipg }
  rates := t.newRates l
  caps := t.newCaps l
  shares := t.shares

/-- `SetLimitsShared`, by bill. -/
def shared (t : LimitTable) (bs : List Str) (l : Limits) : LimitTable where
  lims b :=
    if b ∈ bs then
      { maxConns := 0, rate := t.nextRate l, ipg := t.nextGate l, shared := some t.shares.length }
    else t.lims b
  rates := t.newRates l
  caps := t.newCaps l
  shares := t.shares ++ [l.maxConns]

def call (t : LimitTable) : LimitCall → LimitTable
  | .number _ => t
  | .own b l => t.own b l
  | .shared bs l => t.shared bs l

end LimitTable

namespace Registry

/-- The table of the registry; a bill without a number has no limits. -/
def table (r : Registry) : LimitTable where
  lims b := match r.bills.bills b with
    | some id => (r.cell id).lims
    | none => {}
  rates := r.rates
  caps := r.gates.map (·.cap)
  shares := r.shares.map (·.maxConns)

def Tidy (r : Registry) : Prop := ∀ id, r.bills.labels id = none → (r.cell id).lims = {}

lemma tidy_new : Registry.new.Tidy := fun _ _ => rfl

lemma table_new : Registry.new.table = {} := rfl

variable {r : Registry} {b : Str} {id : CredID}

lemma lims_table (h : r.bills.bills b = some id) : r.table.lims b = (r.cell id).lims := by
  simp only [table, h]

lemma idForBill_of_some (h : r.bills.bills b = some id) : r.idForBill b = (id, r) := by
  rw [idForBill, Bills.idFor_of_some h]

lemma Tidy.lims_nextID (h : r.Tidy) : (r.cell r.bills.nextID).lims = {} := by
  refine h _ ?_
  cases hl : r.bills.labels r.bills.nextID with
  | none => rfl
  | some b => exact absurd (r.bills.lt_nextID _ b hl) (Nat.lt_irrefl _)

lemma Tidy.number (h : r.Tidy) (b : Str) : (r.idForBill b).2.Tidy := by
  cases hb : r.bills.bills b with
  | some id =>
    rw [idForBill_of_some hb]
    exact h
  | none =>
    rw [idForBill, Bills.idFor_of_none hb]
    intro id hid
    refine h id ?_
    by_cases heq : id = r.bills.nextID
    · simp [Bills.give, heq] at hid
    · simpa [Bills.give, heq] using hid

lemma table_number (h : r.Tidy) (b : Str) : (r.idForBill b).2.table = r.table := by
  cases hb : r.bills.bills b with
  | some id => rw [idForBill_of_some hb]
  | none =>
    rw [idForBill, Bills.idFor_of_none hb]
    refine LimitTable.ext (funext fun b' => ?_) rfl rfl rfl
    by_cases heq : b' = b
    · subst heq
      simp only [table, Bills.give, Function.update_self, hb]
      exact h.lims_nextID
    · simp only [table, Bills.give, Function.update_of_ne heq]
      rfl

lemma Tidy.numberAll {r : Registry} (h : r.Tidy) (bs : List Str) :
    (r.numberAll bs).Tidy ∧ (r.numberAll bs).table = r.table := by
  induction bs generalizing r with
  | nil => exact ⟨h, rfl⟩
  | cons b bs ih =>
    obtain ⟨htidy, htable⟩ := ih (h.number b)
    exact ⟨htidy, htable.trans (table_number h b)⟩

/-! ### The setters -/

lemma newRate_eq (r : Registry) (l : Limits) :
    r.newRate l.rate = (r.table.nextRate l, { r with rates := r.table.newRates l }) := by
  by_cases h : l.rate.isPos <;> simp [newRate, LimitTable.nextRate, LimitTable.newRates, h, table]

lemma newGate_cases (r : Registry) (l : Limits) :
    ∃ gates, r.newGate l.maxIPs = (r.table.nextGate l, { r with gates }) ∧
      gates.map (·.cap) = r.table.newCaps l := by
  by_cases h : 0 < l.maxIPs
  · refine ⟨r.gates ++ [{ cap := l.maxIPs }], ?_, ?_⟩
    · simp [newGate, LimitTable.nextGate, h, table]
    · simp [LimitTable.newCaps, h, table]
  · refine ⟨r.gates, ?_, ?_⟩
    · simp [newGate, LimitTable.nextGate, h]
    · simp [LimitTable.newCaps, h, table]

lemma setLimits_eq (r : Registry) (id : CredID) (l : Limits) :
    ∃ gates, gates.map (·.cap) = r.table.newCaps l ∧ r.setLimits id l =
        { r with rates := r.table.newRates l, gates }.modifyCell id fun c =>
          { c with
            maxConns := l.maxConns
            rate := (r.table.nextRate l).or c.rate
            ipg := (r.table.nextGate l).or c.ipg } := by
  obtain ⟨gates, hnew, hcaps⟩ := newGate_cases { r with rates := r.table.newRates l } l
  refine ⟨gates, hcaps, ?_⟩
  rw [setLimits, newRate_eq]
  dsimp only
  rw [hnew]
  rfl

lemma setLimitsShared_eq (r : Registry) (ids : List CredID) (l : Limits) :
    ∃ gates shares, gates.map (·.cap) = r.table.newCaps l ∧
      shares.map (·.maxConns) = r.table.shares ++ [l.maxConns] ∧ r.setLimitsShared ids l =
        ids.foldl (fun r' id => r'.modifyCell id fun c =>
          { c with
            shared := some r.table.shares.length
            rate := r.table.nextRate l
            ipg := r.table.nextGate l
            maxConns := 0 }) { r with rates := r.table.newRates l, gates, shares } := by
  obtain ⟨gates, hnew, hcaps⟩ := newGate_cases { r with rates := r.table.newRates l } l
  let unit : SharedLimit :=
    { maxConns := l.maxConns, rate := r.table.nextRate l, ipg := r.table.nextGate l }
  refine ⟨gates, r.shares ++ [unit], hcaps, by simp [table, unit], ?_⟩
  have hlen : r.table.shares.length = r.shares.length := length_map ..
  rw [setLimitsShared, newRate_eq]
  dsimp only
  rw [hnew, hlen]
  rfl

lemma table_setLimits (h : r.bills.bills b = some id) (l : Limits) :
    (r.setLimits id l).table = r.table.own b l := by
  obtain ⟨gates, hcaps, heq⟩ := setLimits_eq r id l
  rw [heq]
  refine LimitTable.ext (funext fun b' => ?_) rfl hcaps rfl
  by_cases hb : b' = b
  · subst hb
    have hold := lims_table h
    simp only [table, modifyCell, h, LimitTable.own, Function.update_self, cell, Option.getD_some]
    rw [table] at hold
    simp only [h] at hold
    simp only [Cell.lims] at hold ⊢
  · simp only [LimitTable.own, Function.update_of_ne hb, table]
    change (match r.bills.bills b' with | some id => _ | none => _) = _
    cases hid : r.bills.bills b' with
    | none => rfl
    | some id' =>
      have hne : id' ≠ id := by
        rintro rfl
        exact hb (Bills.bills_injective hid h)
      exact congrArg Cell.lims (cell_modifyCell_of_ne _ hne _)

lemma tidy_setLimits (ht : r.Tidy) (h : r.bills.bills b = some id) (l : Limits) :
    (r.setLimits id l).Tidy := by
  obtain ⟨gates, -, heq⟩ := setLimits_eq r id l
  rw [heq]
  intro id' hid
  have hlabel : r.bills.labels id' = none := hid
  have hne : id' ≠ id := by
    rintro rfl
    rw [(r.bills.bills_iff b id').mp h] at hlabel
    cases hlabel
  exact (congrArg Cell.lims (cell_modifyCell_of_ne _ hne _)).trans (ht id' hid)

lemma mem_filterMap_bills {bs : List Str} (h : r.bills.bills b = some id) :
    id ∈ bs.filterMap r.bills.bills ↔ b ∈ bs := by
  rw [mem_filterMap]
  constructor
  · rintro ⟨b', hb', hid⟩
    rwa [Bills.bills_injective h hid]
  · exact fun hb => ⟨b, hb, h⟩

lemma setLimitsShared_spec (r : Registry) (ids : List CredID) (l : Limits) :
    (r.setLimitsShared ids l).bills = r.bills ∧
      (r.setLimitsShared ids l).rates = r.table.newRates l ∧
      (r.setLimitsShared ids l).gates.map (·.cap) = r.table.newCaps l ∧
      (r.setLimitsShared ids l).shares.map (·.maxConns) = r.table.shares ++ [l.maxConns] ∧
      ∀ id, ((r.setLimitsShared ids l).cell id).lims =
        if id ∈ ids then
          { maxConns := 0, rate := r.table.nextRate l, ipg := r.table.nextGate l
            shared := some r.table.shares.length }
        else (r.cell id).lims := by
  obtain ⟨gates, shares, hcaps, hshares, heq⟩ := setLimitsShared_eq r ids l
  let g : Cell → Cell := fun c =>
    { c with
      shared := some r.table.shares.length
      rate := r.table.nextRate l
      ipg := r.table.nextGate l
      maxConns := 0 }
  obtain ⟨h₁, h₂, h₃, h₄⟩ := foldl_modifyCell (g := g) ids
    { r with rates := r.table.newRates l, gates, shares }
  rw [heq]
  refine ⟨h₄, h₃, (congrArg _ h₂).trans hcaps, (congrArg _ h₁).trans hshares, fun id => ?_⟩
  refine (congrArg Cell.lims (cell_foldl (g := g) (fun _ => rfl) id ids _)).trans ?_
  by_cases hid : id ∈ ids
  · rw [if_pos hid, if_pos hid]
    rfl
  · rw [if_neg hid, if_neg hid]
    rfl

lemma table_setLimitsShared {bs : List Str} (h : ∀ b ∈ bs, (r.bills.bills b).isSome) (l : Limits) :
    (r.setLimitsShared (bs.filterMap r.bills.bills) l).table = r.table.shared bs l := by
  obtain ⟨hbills, hrates, hcaps, hshares, hcell⟩ :=
    r.setLimitsShared_spec (bs.filterMap r.bills.bills) l
  refine LimitTable.ext (funext fun b => ?_) hrates hcaps hshares
  change (match (r.setLimitsShared _ l).bills.bills b with | some id => _ | none => _) = _
  rw [hbills, LimitTable.shared]
  dsimp only
  cases hb : r.bills.bills b with
  | none =>
    have hnot : b ∉ bs := fun hmem => by simpa [hb] using h b hmem
    simp only [if_neg hnot, table, hb]
  | some id =>
    simp only [hcell, mem_filterMap_bills hb]
    rw [lims_table hb]

lemma tidy_setLimitsShared (ht : r.Tidy) (bs : List Str) (l : Limits) :
    (r.setLimitsShared (bs.filterMap r.bills.bills) l).Tidy := by
  obtain ⟨hbills, -, -, -, hcell⟩ := r.setLimitsShared_spec (bs.filterMap r.bills.bills) l
  intro id hid
  rw [hbills] at hid
  have hnot : id ∉ bs.filterMap r.bills.bills := by
    intro hmem
    obtain ⟨b, -, hb⟩ := mem_filterMap.mp hmem
    rw [(r.bills.bills_iff b id).mp hb] at hid
    cases hid
  rw [hcell, if_neg hnot]
  exact ht id hid

/-! ### Calls -/

lemma isSome_idForBill_iff (r : Registry) (b b' : Str) :
    ((r.idForBill b).2.bills.bills b').isSome ↔ (r.bills.bills b').isSome ∨ b' = b := by
  cases hb : r.bills.bills b with
  | some id =>
    rw [idForBill_of_some hb]
    exact ⟨.inl, fun h => h.elim (fun h => h) fun heq => by simp [heq, hb]⟩
  | none =>
    rw [idForBill, Bills.idFor_of_none hb]
    by_cases heq : b' = b <;> simp [Bills.give, heq]

lemma isSome_numberAll_iff (r : Registry) (bs : List Str) (b : Str) :
    ((r.numberAll bs).bills.bills b).isSome ↔ (r.bills.bills b).isSome ∨ b ∈ bs := by
  induction bs generalizing r with
  | nil => simp [numberAll]
  | cons b' bs ih =>
    refine (ih _).trans ?_
    rw [isSome_idForBill_iff, mem_cons, or_assoc]

lemma isSome_call_iff (r : Registry) (c : LimitCall) (b : Str) :
    ((r.call c).bills.bills b).isSome ↔ (r.bills.bills b).isSome ∨ b ∈ c.bills := by
  cases c with
  | number b' =>
    rw [call, isSome_idForBill_iff, LimitCall.bills, mem_singleton]
  | own b' l =>
    obtain ⟨gates, -, heq⟩ := setLimits_eq (r.idForBill b').2 (r.idForBill b').1 l
    rw [call, heq, LimitCall.bills, mem_singleton]
    exact isSome_idForBill_iff r b' b
  | shared bs l =>
    rw [call, (setLimitsShared_spec _ _ l).1]
    exact isSome_numberAll_iff r bs b

lemma numberAll_of_isSome {r : Registry} {bs : List Str}
    (h : ∀ b ∈ bs, (r.bills.bills b).isSome) : r.numberAll bs = r := by
  induction bs with
  | nil => rfl
  | cons b bs ih =>
    obtain ⟨id, hid⟩ := Option.isSome_iff_exists.mp (h b (.head _))
    rw [numberAll, foldl_cons, idForBill_of_some hid]
    exact ih fun b' hb' => h b' (.tail _ hb')

lemma bills_numberAll_of_some : ∀ (bs : List Str) {r : Registry}, r.bills.bills b = some id →
    (r.numberAll bs).bills.bills b = some id
  | [], _, h => h
  | _ :: bs, _, h => bills_numberAll_of_some bs (Bills.bills_idFor_of_some h)

lemma bills_call_of_some (c : LimitCall) (h : r.bills.bills b = some id) :
    (r.call c).bills.bills b = some id := by
  cases c with
  | number b' => exact Bills.bills_idFor_of_some h
  | own b' l =>
    obtain ⟨gates, -, heq⟩ := setLimits_eq (r.idForBill b').2 (r.idForBill b').1 l
    rw [call, heq]
    exact Bills.bills_idFor_of_some h
  | shared bs l =>
    rw [call, (setLimitsShared_spec _ _ l).1]
    exact bills_numberAll_of_some bs h

/-- **The calls work on the table**, and leave the numbers that were not given
without limits. -/
lemma table_call (h : r.Tidy) (c : LimitCall) :
    (r.call c).table = r.table.call c ∧ (r.call c).Tidy := by
  cases c with
  | number b => exact ⟨table_number h b, h.number b⟩
  | own b l =>
    have hb := r.bills_idForBill b
    exact ⟨(table_setLimits hb l).trans (by rw [table_number h b]; rfl),
      tidy_setLimits (h.number b) hb l⟩
  | shared bs l =>
    obtain ⟨htidy, htable⟩ := h.numberAll bs
    have hall : ∀ b ∈ bs, ((r.numberAll bs).bills.bills b).isSome := fun b hb =>
      (isSome_numberAll_iff r bs b).mpr (.inr hb)
    exact ⟨(table_setLimitsShared hall l).trans (by rw [htable]; rfl),
      tidy_setLimitsShared htidy bs l⟩

lemma table_calls {r : Registry} (h : r.Tidy) (cs : List LimitCall) :
    (cs.foldl call r).table = cs.foldl LimitTable.call r.table ∧ (cs.foldl call r).Tidy := by
  induction cs generalizing r with
  | nil => exact ⟨rfl, h⟩
  | cons c cs ih =>
    obtain ⟨htable, htidy⟩ := table_call h c
    rw [foldl_cons, foldl_cons, ← htable]
    exact ih htidy

lemma isSome_calls_iff (r : Registry) (cs : List LimitCall) (b : Str) :
    ((cs.foldl call r).bills.bills b).isSome ↔
      (r.bills.bills b).isSome ∨ b ∈ cs.flatMap LimitCall.bills := by
  induction cs generalizing r with
  | nil => simp
  | cons c cs ih =>
    rw [foldl_cons, ih, isSome_call_iff, flatMap_cons, mem_append, or_assoc]

end Registry

/-! ### What bounds a credential -/

/-- What bounds a credential: the number of its connections, by itself or in a
unit that it shares, its rate and its addresses. -/
@[ext]
structure Bounds where
  conns : Option (Option Ref × Int)
  rate : Option (Ref × Option F64)
  ips : Option (Ref × Option Int)

def Bounds.rename (fs fr fi : Ref → Ref) (x : Bounds) : Bounds where
  conns := x.conns.map fun y => (y.1.map fs, y.2)
  rate := x.rate.map fun y => (fr y.1, y.2)
  ips := x.ips.map fun y => (fi y.1, y.2)

def Registry.bounds (r : Registry) (id : CredID) : Bounds where
  conns :=
    match r.boundingShare (r.cell id) with
    | some (s, sh) => some (some s, sh.maxConns)
    | none => if (r.cell id).maxConns = 0 then none else some (none, (r.cell id).maxConns)
  rate := (r.cell id).rate.map fun k => (k, r.rates[k]?)
  ips := (r.cell id).ipg.map fun k => (k, (r.gates[k]?).map (·.cap))

/-- **The registries bound credentials alike**: every credential that `r₀` has
numbered is bounded in `r` by the same numbers, and the same credentials share a
unit, a bucket or a gate. -/
def SameBounds (r r₀ : Registry) : Prop :=
  ∃ fs fr fi : Ref → Ref, fs.Injective ∧ fr.Injective ∧ fi.Injective ∧
    ∀ b id₀, r₀.bills.bills b = some id₀ →
      ∃ id, r.bills.bills b = some id ∧ r.bounds id = (r₀.bounds id₀).rename fs fr fi

namespace LimitTable

/-- The unit at a place, where it bounds connections. -/
def unit (t : LimitTable) (s : Ref) : Option (Ref × Int) :=
  ((t.shares[s]?).filter (0 < ·)).map fun m => (s, m)

def bounds (t : LimitTable) (b : Str) : Bounds where
  conns :=
    match (t.lims b).shared.bind t.unit with
    | some (s, m) => some (some s, m)
    | none => if (t.lims b).maxConns = 0 then none else some (none, (t.lims b).maxConns)
  rate := (t.lims b).rate.map fun k => (k, t.rates[k]?)
  ips := (t.lims b).ipg.map fun k => (k, t.caps[k]?)

def Sets (cs : List LimitCall) (b : Str) : Bool := cs.any fun c => c.shares b || (c.ownOf b).isSome

/-- **The calls replace what bounds the bill**: they set limits that it shares,
or nothing bounds it that they do not set again. Limits of its own replace
neither a unit that it shares nor what they do not bound. -/
def Replaces (t : LimitTable) (cs : List LimitCall) (b : Str) : Prop :=
  cs.any (·.shares b) = true ∨ ((t.lims b).shared.bind t.unit = none ∧
      ((t.lims b).maxConns ≠ 0 → Sets cs b = true) ∧
      ((t.lims b).rate.isSome → (cs.filterMap (·.ownOf b)).any (·.rate.isPos) = true) ∧
      ((t.lims b).ipg.isSome → (cs.filterMap (·.ownOf b)).any (fun l => 0 < l.maxIPs) = true))

/-- Bills point to units that are there. -/
def Valid (t : LimitTable) : Prop := ∀ b s, (t.lims b).shared = some s → s < t.shares.length

lemma valid_new : Valid {} := fun _ _ h => by cases h

lemma Valid.call {t : LimitTable} (h : t.Valid) (c : LimitCall) : (t.call c).Valid := by
  cases c with
  | number b => exact h
  | own b l =>
    intro b' s hs
    refine h b' s ?_
    by_cases hb : b' = b
    · subst hb
      simpa [LimitTable.call, own] using hs
    · simpa [LimitTable.call, own, hb] using hs
  | shared bs l =>
    intro b s hs
    simp only [LimitTable.call, shared, length_append, length_singleton] at hs ⊢
    by_cases hb : b ∈ bs
    · rw [if_pos hb] at hs
      rw [← Option.some.inj hs]
      exact Nat.lt_succ_self _
    · rw [if_neg hb] at hs
      exact Nat.lt_succ_of_lt (h b s hs)

lemma Valid.calls {t : LimitTable} (h : t.Valid) (cs : List LimitCall) :
    (cs.foldl LimitTable.call t).Valid := by
  induction cs generalizing t with
  | nil => exact h
  | cons c cs ih => exact ih (h.call c)

end LimitTable

lemma Registry.bounds_eq {r : Registry} {b : Str} {id : CredID} (h : r.bills.bills b = some id) :
    r.bounds id = r.table.bounds b := by
  have hlims := Registry.lims_table h
  rw [Registry.bounds, LimitTable.bounds, hlims]
  refine Bounds.ext ?_ rfl ?_
  · change _ = match (r.cell id).shared.bind r.table.unit with
      | some (s, m) => some (some s, m)
      | none => if (r.cell id).maxConns = 0 then none else some (none, (r.cell id).maxConns)
    rw [Registry.boundingShare]
    cases (r.cell id).shared with
    | none => rfl
    | some s =>
      simp only [Option.bind_some, LimitTable.unit, Registry.table, getElem?_map]
      cases r.shares[s]? with
      | none => rfl
      | some sh =>
        by_cases hpos : 0 < sh.maxConns
        · simp [hpos, Option.filter]
        · simp [hpos, Option.filter]
  · simp [Registry.table, Cell.lims]

namespace LimitTable

/-! ### The same calls on two tables -/

section
variable {cs : List LimitCall} {b : Str} {t₀ t u : LimitTable}

/-- The tables `t` and `u` after the same calls on `t₀` and on the empty table:
the objects of `u` come in `t` behind those of `t₀`. -/
structure Appended (t₀ t u : LimitTable) : Prop where
  rates : t.rates = t₀.rates ++ u.rates
  caps : t.caps = t₀.caps ++ u.caps
  shares : t.shares = t₀.shares ++ u.shares

/-- The limits of a bill in the tables: the calls `cs` have set those in `u`, and
what they leave in `t` as it was in `t₀`. -/
structure Merged (cs : List LimitCall) (b : Str) (t₀ t u : LimitTable) : Prop where
  shared : (t.lims b).shared =
    ((u.lims b).shared.map (t₀.shares.length + ·)).or (t₀.lims b).shared
  rate : (t.lims b).rate = ((u.lims b).rate.map (t₀.rates.length + ·)).or
    (if cs.any (·.shares b) then none else (t₀.lims b).rate)
  ipg : (t.lims b).ipg = ((u.lims b).ipg.map (t₀.caps.length + ·)).or
    (if cs.any (·.shares b) then none else (t₀.lims b).ipg)
  maxConns : (t.lims b).maxConns =
    if Sets cs b then (u.lims b).maxConns else (t₀.lims b).maxConns
  unset : Sets cs b = false → (u.lims b).maxConns = 0
  isShared : (u.lims b).shared.isSome = cs.any (·.shares b)
  hasRate : cs.any (·.shares b) = false →
    (u.lims b).rate.isSome = (cs.filterMap (·.ownOf b)).any (·.rate.isPos)
  hasGate : cs.any (·.shares b) = false →
    (u.lims b).ipg.isSome = (cs.filterMap (·.ownOf b)).any (fun l => 0 < l.maxIPs)

lemma Appended.nextRate (h : Appended t₀ t u) (l : Limits) :
    t.nextRate l = (u.nextRate l).map (t₀.rates.length + ·) := by
  by_cases hl : l.rate.isPos <;> simp [LimitTable.nextRate, hl, h.rates]

lemma Appended.nextGate (h : Appended t₀ t u) (l : Limits) :
    t.nextGate l = (u.nextGate l).map (t₀.caps.length + ·) := by
  by_cases hl : 0 < l.maxIPs <;> simp [LimitTable.nextGate, hl, h.caps]

lemma isSome_nextRate (t : LimitTable) (l : Limits) : (t.nextRate l).isSome = l.rate.isPos := by
  by_cases hl : l.rate.isPos <;> simp [nextRate, hl]

lemma isSome_nextGate (t : LimitTable) (l : Limits) :
    (t.nextGate l).isSome = decide (0 < l.maxIPs) := by
  by_cases hl : 0 < l.maxIPs <;> simp [nextGate, hl]

lemma Appended.call (h : Appended t₀ t u) (c : LimitCall) : Appended t₀ (t.call c) (u.call c) := by
  cases c with
  | number b => exact h
  | own b l =>
    refine ⟨?_, ?_, h.shares⟩
    · simp [LimitTable.call, own, newRates, h.rates]
    · simp [LimitTable.call, own, newCaps, h.caps]
  | shared bs l =>
    refine ⟨?_, ?_, ?_⟩
    · simp [LimitTable.call, LimitTable.shared, newRates, h.rates]
    · simp [LimitTable.call, LimitTable.shared, newCaps, h.caps]
    · simp [LimitTable.call, LimitTable.shared, h.shares]

lemma Merged.other (h : Merged cs b t₀ t u) {c : LimitCall} (ht : (t.call c).lims b = t.lims b)
    (hu : (u.call c).lims b = u.lims b) (hs : c.shares b = false) (ho : c.ownOf b = none) :
    Merged (cs ++ [c]) b t₀ (t.call c) (u.call c) := by
  have hany : (cs ++ [c]).any (·.shares b) = cs.any (·.shares b) := by simp [hs]
  have hsets : Sets (cs ++ [c]) b = Sets cs b := by simp [Sets, hs, ho]
  have hown : (cs ++ [c]).filterMap (·.ownOf b) = cs.filterMap (·.ownOf b) := by simp [ho]
  constructor
  · rw [ht, hu]
    exact h.shared
  · rw [ht, hu, hany]
    exact h.rate
  · rw [ht, hu, hany]
    exact h.ipg
  · rw [ht, hu, hsets]
    exact h.maxConns
  · rw [hu, hsets]
    exact h.unset
  · rw [hu, hany]
    exact h.isShared
  · rw [hu, hany, hown]
    exact h.hasRate
  · rw [hu, hany, hown]
    exact h.hasGate

lemma Merged.own (ha : Appended t₀ t u) (h : Merged cs b t₀ t u) (l : Limits) :
    Merged (cs ++ [.own b l]) b t₀ (t.own b l) (u.own b l) := by
  have hany : (cs ++ [LimitCall.own b l]).any (·.shares b) = cs.any (·.shares b) := by
    simp [LimitCall.shares]
  have hsets : Sets (cs ++ [.own b l]) b = true := by simp [Sets, LimitCall.ownOf]
  have hown : (cs ++ [LimitCall.own b l]).filterMap (·.ownOf b) = cs.filterMap (·.ownOf b) ++ [l] := by
    simp [LimitCall.ownOf]
  constructor
  · simpa [LimitTable.own] using h.shared
  · rw [hany]
    simp only [LimitTable.own, Function.update_self, ha.nextRate, h.rate, Option.map_or,
      Option.or_assoc]
  · rw [hany]
    simp only [LimitTable.own, Function.update_self, ha.nextGate, h.ipg, Option.map_or,
      Option.or_assoc]
  · simp [LimitTable.own, hsets]
  · simp [hsets]
  · rw [hany]
    simpa [LimitTable.own] using h.isShared
  · rw [hany, hown]
    intro hno
    simp only [LimitTable.own, Function.update_self, Option.isSome_or, isSome_nextRate,
      h.hasRate hno, any_append, any_cons, any_nil, Bool.or_false]
    exact Bool.or_comm _ _
  · rw [hany, hown]
    intro hno
    simp only [LimitTable.own, Function.update_self, Option.isSome_or, isSome_nextGate,
      h.hasGate hno, any_append, any_cons, any_nil, Bool.or_false]
    exact Bool.or_comm _ _

lemma Merged.share (ha : Appended t₀ t u) {bs : List Str} (hb : b ∈ bs) (l : Limits) :
    Merged (cs ++ [.shared bs l]) b t₀ (t.shared bs l) (u.shared bs l) := by
  have hany : (cs ++ [LimitCall.shared bs l]).any (·.shares b) = true := by simp [LimitCall.shares, hb]
  have hsets : Sets (cs ++ [.shared bs l]) b = true := by simp [Sets, LimitCall.shares, hb]
  constructor
  · simp [LimitTable.shared, hb, ha.shares]
  · rw [hany]
    simp [LimitTable.shared, hb, ha.nextRate]
  · rw [hany]
    simp [LimitTable.shared, hb, ha.nextGate]
  · rw [hsets]
    simp [LimitTable.shared, hb]
  · simp [hsets]
  · rw [hany]
    simp [LimitTable.shared, hb]
  · simp [hany]
  · simp [hany]

lemma merged_calls (t₀ : LimitTable) (cs : List LimitCall) :
    Appended t₀ (cs.foldl LimitTable.call t₀) (cs.foldl LimitTable.call {}) ∧
      ∀ b, Merged cs b t₀ (cs.foldl LimitTable.call t₀) (cs.foldl LimitTable.call {}) := by
  induction cs using List.reverseRecOn with
  | nil => exact ⟨⟨by simp, by simp, by simp⟩, fun b => by constructor <;> simp [Sets]⟩
  | append_singleton cs c ih =>
    obtain ⟨ha, hm⟩ := ih
    rw [foldl_append, foldl_append]
    refine ⟨ha.call c, fun b => ?_⟩
    cases c with
    | number b' => exact (hm b).other rfl rfl rfl rfl
    | own b' l =>
      by_cases hb : b' = b
      · subst hb
        exact (hm b').own ha l
      · have hb' : b ≠ b' := Ne.symm hb
        exact (hm b).other (Function.update_of_ne hb' ..) (Function.update_of_ne hb' ..) rfl
          (if_neg hb)
    | shared bs l =>
      by_cases hb : b ∈ bs
      · exact Merged.share ha hb l
      · exact (hm b).other (if_neg hb) (if_neg hb) (decide_eq_false hb) rfl

/-! ### Bounds after the calls -/

lemma getElem?_append_add {α : Type} (xs ys : List α) (k : Nat) :
    (xs ++ ys)[xs.length + k]? = ys[k]? := by
  rw [getElem?_append_right (Nat.le_add_right ..), Nat.add_sub_cancel_left]

lemma Appended.unit_new (h : Appended t₀ t u) (s : Ref) :
    t.unit (t₀.shares.length + s) = (u.unit s).map fun y => (t₀.shares.length + y.1, y.2) := by
  simp only [unit, h.shares, getElem?_append_add, Option.map_map, Function.comp_def]

lemma Appended.unit_old (h : Appended t₀ t u) {s : Ref} (hs : s < t₀.shares.length) :
    t.unit s = t₀.unit s := by
  rw [unit, unit, h.shares, getElem?_append_left hs]

lemma Merged.unit_of_shared (ha : Appended t₀ t u) (h : Merged cs b t₀ t u)
    (hs : cs.any (·.shares b) = true) : (t.lims b).shared.bind t.unit =
      ((u.lims b).shared.bind u.unit).map fun y => (t₀.shares.length + y.1, y.2) := by
  have hsome := h.isShared.trans hs
  obtain ⟨s, hu⟩ := Option.isSome_iff_exists.mp hsome
  rw [h.shared, hu]
  exact ha.unit_new s

lemma Merged.unit_of_not_shared (ha : Appended t₀ t u) (hv : t₀.Valid) (h : Merged cs b t₀ t u)
    (hs : cs.any (·.shares b) = false) : (u.lims b).shared.bind u.unit = none ∧
      (t.lims b).shared.bind t.unit = (t₀.lims b).shared.bind t₀.unit := by
  have hu : (u.lims b).shared = none := by
    rw [← Option.not_isSome_iff_eq_none, h.isShared, hs]
    exact Bool.false_ne_true
  rw [h.shared, hu]
  refine ⟨rfl, ?_⟩
  cases hold : (t₀.lims b).shared with
  | none => rfl
  | some s => exact ha.unit_old (hv b s hold)

/-- What the calls set stands alone where it replaces the rest, or there is no
rest. -/
lemma eq_map_of_replaced {x y z : Option Ref} {f : Ref → Ref} {shared : Bool}
    (hz : z = (x.map f).or (if shared then none else y))
    (h : shared = false → y.isSome → x.isSome) : z = x.map f := by
  rw [hz]
  cases x with
  | some k => rfl
  | none =>
    cases y with
    | none => simp
    | some k =>
      cases shared with
      | true => rfl
      | false => cases h rfl rfl

lemma Merged.bounds_eq (ha : Appended t₀ t u) (hv : t₀.Valid) (h : Merged cs b t₀ t u)
    (hr : t₀.Replaces cs b) :
    t.bounds b = (u.bounds b).rename (t₀.shares.length + ·) (t₀.rates.length + ·)
      (t₀.caps.length + ·) := by
  have hkept (hs : cs.any (·.shares b) = false) := hr.resolve_left (Bool.eq_false_iff.mp hs)
  have hrate : (t.lims b).rate = (u.lims b).rate.map (t₀.rates.length + ·) :=
    eq_map_of_replaced h.rate fun hs hold => (h.hasRate hs).trans ((hkept hs).2.2.1 hold)
  have hipg : (t.lims b).ipg = (u.lims b).ipg.map (t₀.caps.length + ·) :=
    eq_map_of_replaced h.ipg fun hs hold => (h.hasGate hs).trans ((hkept hs).2.2.2 hold)
  have hconns : (t.lims b).maxConns = (u.lims b).maxConns := by
    rw [h.maxConns]
    cases hsets : Sets cs b with
    | true => rfl
    | false =>
      rw [h.unset hsets, if_neg Bool.false_ne_true]
      by_contra hne
      refine absurd ?_ (Bool.eq_false_iff.mp hsets)
      rcases hr with hs | ⟨-, hold, -⟩
      · obtain ⟨c, hc, hcs⟩ := any_eq_true.mp hs
        exact any_eq_true.mpr ⟨c, hc, by simp [hcs]⟩
      · exact hold hne
  have hunit : (t.lims b).shared.bind t.unit =
      ((u.lims b).shared.bind u.unit).map fun y => (t₀.shares.length + y.1, y.2) := by
    cases hs : cs.any (·.shares b) with
    | true => exact h.unit_of_shared ha hs
    | false =>
      obtain ⟨hu, ht⟩ := h.unit_of_not_shared ha hv hs
      rw [ht, hu]
      exact (hkept hs).1
  refine Bounds.ext ?_ ?_ ?_
  · rw [bounds, Bounds.rename, bounds, hunit, hconns]
    cases (u.lims b).shared.bind u.unit with
    | none => by_cases hz : (u.lims b).maxConns = 0 <;> simp [hz]
    | some y => rfl
  · rw [bounds, Bounds.rename, bounds, hrate, ha.rates]
    simp only [Option.map_map, Function.comp_def, getElem?_append_add]
  · rw [bounds, Bounds.rename, bounds, hipg, ha.caps]
    simp only [Option.map_map, Function.comp_def, getElem?_append_add]

/-- Bounds that are the same through some objects were set by the calls. -/
lemma Merged.replaces (ha : Appended t₀ t u) (hv : t₀.Valid) (h : Merged cs b t₀ t u)
    {fs fr fi : Ref → Ref} (heq : t.bounds b = (u.bounds b).rename fs fr fi) :
    t₀.Replaces cs b := by
  cases hs : cs.any (·.shares b) with
  | true => exact .inl hs
  | false =>
    obtain ⟨hu, ht⟩ := h.unit_of_not_shared ha hv hs
    have hconns := congrArg Bounds.conns heq
    simp only [bounds, Bounds.rename, hu, ht] at hconns
    have hunit : (t₀.lims b).shared.bind t₀.unit = none := by
      cases hold : (t₀.lims b).shared.bind t₀.unit with
      | none => rfl
      | some y =>
        rw [hold] at hconns
        by_cases hz : (u.lims b).maxConns = 0 <;> simp [hz] at hconns
    refine .inr ⟨hunit, fun hne => ?_, fun hold => ?_, fun hold => ?_⟩
    · by_contra hsets
      rw [Bool.not_eq_true] at hsets
      have hmax := h.maxConns
      rw [hsets, if_neg Bool.false_ne_true] at hmax
      rw [hunit, hmax, h.unset hsets] at hconns
      simp [hne] at hconns
    · have hsame := congrArg (fun x => x.rate.isSome) heq
      simp only [bounds, Bounds.rename, Option.isSome_map] at hsame
      rw [← h.hasRate hs, ← hsame, h.rate, hs, if_neg Bool.false_ne_true, Option.isSome_or, hold,
        Bool.or_true]
    · have hsame := congrArg (fun x => x.ips.isSome) heq
      simp only [bounds, Bounds.rename, Option.isSome_map] at hsame
      rw [← h.hasGate hs, ← hsame, h.ipg, hs, if_neg Bool.false_ne_true, Option.isSome_or, hold,
        Bool.or_true]

end

end LimitTable

/-- **The same calls on a registry and on a new one** bound their credentials
alike exactly if they replace what bounded these before. -/
theorem sameBounds_iff {r : Registry} (ht : r.Tidy) (hv : r.table.Valid) (cs : List LimitCall) :
    SameBounds (cs.foldl Registry.call r) (cs.foldl Registry.call Registry.new) ↔
      ∀ b ∈ cs.flatMap LimitCall.bills, r.table.Replaces cs b := by
  obtain ⟨ha, hm⟩ := LimitTable.merged_calls r.table cs
  have htable := (Registry.table_calls ht cs).1
  have htable₀ := (Registry.table_calls Registry.tidy_new cs).1
  rw [Registry.table_new] at htable₀
  rw [← htable, ← htable₀] at ha hm
  constructor
  · rintro ⟨fs, fr, fi, -, -, -, hall⟩ b hb
    obtain ⟨id₀, hid₀⟩ := Option.isSome_iff_exists.mp
      ((Registry.isSome_calls_iff Registry.new cs b).mpr (.inr hb))
    obtain ⟨id, hid, heq⟩ := hall b id₀ hid₀
    rw [Registry.bounds_eq hid, Registry.bounds_eq hid₀] at heq
    exact (hm b).replaces ha hv heq
  · intro hall
    refine ⟨_, _, _, add_right_injective r.table.shares.length,
      add_right_injective r.table.rates.length, add_right_injective r.table.caps.length,
      fun b id₀ hid₀ => ?_⟩
    have hb : b ∈ cs.flatMap LimitCall.bills :=
      ((Registry.isSome_calls_iff Registry.new cs b).mp
        (Option.isSome_of_eq_some hid₀)).resolve_left (by simp [Registry.new, Bills.new])
    obtain ⟨id, hid⟩ := Option.isSome_iff_exists.mp
      ((Registry.isSome_calls_iff r cs b).mpr (.inr hb))
    refine ⟨id, hid, ?_⟩
    rw [Registry.bounds_eq hid, Registry.bounds_eq hid₀]
    exact (hm b).bounds_eq ha hv (hall b hb)

end Ntr.Meter
