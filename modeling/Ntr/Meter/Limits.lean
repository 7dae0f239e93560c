/-
The limits of the credentials in a registry, as one value for each credential.
-/
import Ntr.Meter.Registry

namespace Ntr.Meter

open Go

/-- The limits of one credential. Buckets, gates and shared units stand with
their identity, as credentials may share them. -/
structure LimitView where
  maxConns : Int := 0
  rate : Option (Ref × Option F64) := none
  maxIPs : Option (Ref × Option Int) := none
  shared : Option (Ref × Option Int) := none
  deriving DecidableEq

namespace Registry

/-- The limits of `id`. -/
def limitsOf (r : Registry) (id : CredID) : LimitView where
  maxConns := (r.cell id).maxConns
  rate := (r.cell id).rate.map fun k => (k, r.rates[k]?)
  maxIPs := (r.cell id).ipg.map fun k => (k, (r.gates[k]?).map (·.cap))
  shared := (r.cell id).shared.map fun k => (k, (r.shares[k]?).map (·.maxConns))

end Registry

/-- Every credential has the same limits in both registries. -/
def SameLimits (r r' : Registry) : Prop := ∀ id, r.limitsOf id = r'.limitsOf id

instance : Std.Refl SameLimits := ⟨fun _ _ => rfl⟩

instance : IsTrans Registry SameLimits := ⟨fun _ _ _ h h' id => (h id).trans (h' id)⟩

def Limited (r : Registry) : Prop := ∃ id, r.limitsOf id ≠ {}

lemma not_limited_new : ¬ Limited Registry.new := by
  rintro ⟨id, hid⟩
  exact hid rfl

lemma SameLimits.symm {r r' : Registry} (h : SameLimits r r') : SameLimits r' r :=
  fun id => (h id).symm

lemma SameLimits.limited {r r' : Registry} (h : SameLimits r r') (hr : Limited r') : Limited r := by
  obtain ⟨id, hid⟩ := hr
  exact ⟨id, by rwa [h id]⟩

/-! ### Bills -/

namespace Bills

variable {b : Bills} {bill : Str} {id : CredID}

lemma idFor_of_some (h : b.bills bill = some id) : b.idFor bill = (id, b) := by
  unfold idFor
  split
  · next id' h' => rw [Option.some.inj (h.symm.trans h')]
  · next h' => simp [h] at h'

lemma idFor_of_none (h : b.bills bill = none) : b.idFor bill = (b.nextID, b.give bill h) := by
  unfold idFor
  split
  · next id' h' => simp [h] at h'
  · rfl

lemma bills_idFor (b : Bills) (bill : Str) :
    (b.idFor bill).2.bills bill = some (b.idFor bill).1 := by
  cases h : b.bills bill with
  | some id => rw [idFor_of_some h, h]
  | none => rw [idFor_of_none h]; simp [give]

lemma bills_idFor_of_some {bill' : Str}
    (h : b.bills bill' = some id) : (b.idFor bill).2.bills bill' = some id := by
  cases hb : b.bills bill with
  | some _ => rw [idFor_of_some hb, h]
  | none =>
    have hne : bill' ≠ bill := by
      rintro rfl
      simp [h] at hb
    rw [idFor_of_none hb]
    simp [give, hne, h]

lemma bills_injective {bill' : Str} (h : b.bills bill = some id)
    (h' : b.bills bill' = some id) : bill = bill' :=
  Option.some.inj (((b.bills_iff bill id).mp h).symm.trans ((b.bills_iff bill' id).mp h'))

end Bills

namespace Registry

lemma bills_idForBill (r : Registry) (bill : Str) :
    (r.idForBill bill).2.bills.bills bill = some (r.idForBill bill).1 :=
  r.bills.bills_idFor bill

lemma sameLimits_idForBill (r : Registry) (bill : Str) : SameLimits r (r.idForBill bill).2 :=
  fun _ => rfl

/-! ### Setting limits -/

@[simp]
lemma cell_modifyCell_self (r : Registry) (id : CredID) (f : Cell → Cell) :
    (r.modifyCell id f).cell id = f (r.cell id) := by
  simp [modifyCell, cell]

lemma cell_modifyCell_of_ne (r : Registry) {id id' : CredID} (h : id' ≠ id) (f : Cell → Cell) :
    (r.modifyCell id f).cell id' = r.cell id' := by
  simp [modifyCell, cell, h]

end Registry

def Limits.Binding (l : Limits) : Prop := 0 < l.maxConns ∨ 0 < l.maxIPs ∨ l.rate.isPos

namespace Registry

lemma limited_setLimits (r : Registry) (id : CredID) {l : Limits} (hl : l.Binding) :
    Limited (r.setLimits id l) := by
  refine ⟨id, fun heq => ?_⟩
  have hconns := congrArg LimitView.maxConns heq
  have hrate := congrArg LimitView.rate heq
  have hips := congrArg LimitView.maxIPs heq
  simp only [limitsOf, setLimits, cell_modifyCell_self, Option.map_eq_none_iff] at hconns hrate hips
  rcases hl with h | h | h
  · omega
  · simp [newGate, h] at hips
  · simp [newRate, h] at hrate

lemma shared_foldl {g : Cell → Cell} {s : Ref} (hg : ∀ c, (g c).shared = some s) {id : CredID} :
    ∀ (ids : List CredID) (r : Registry), id ∈ ids ∨ (r.cell id).shared = some s →
      ((ids.foldl (fun r id => r.modifyCell id g) r).cell id).shared = some s
  | [], _, h => by simpa using h
  | id' :: ids, r, h => by
      refine shared_foldl hg ids (r.modifyCell id' g) ?_
      by_cases hid : id = id'
      · exact Or.inr (by rw [hid, cell_modifyCell_self]; exact hg _)
      · rw [cell_modifyCell_of_ne r hid]
        exact h.imp_left fun h => (List.mem_cons.mp h).resolve_left hid

lemma limited_setLimitsShared (r : Registry) {ids : List CredID} (hids : ids ≠ []) (l : Limits) :
    Limited (r.setLimitsShared ids l) := by
  obtain ⟨id, hid⟩ := List.exists_mem_of_ne_nil ids hids
  refine ⟨id, fun heq => ?_⟩
  have hshared := congrArg LimitView.shared heq
  simp only [limitsOf, setLimitsShared, Option.map_eq_none_iff] at hshared
  rw [shared_foldl (fun _ => rfl) _ _ (Or.inl hid)] at hshared
  cases hshared

end Registry

end Ntr.Meter
