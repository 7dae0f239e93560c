/-
The replay guard of Snell v6 (`proto/snell/internal/snellv6/replay.go`): two
banks of salts, where the active bank takes the new ones and, once full, becomes
the history.

* `seenBefore_history`: what the guard says of a salt after any sequence of
  calls.
-/
import Mathlib.Data.Finset.Dedup
import Mathlib.Data.List.Dedup
import Mathlib.Tactic

namespace Ntr.Snell

/-- The salt of a connection, `[16]byte`. -/
abbrev Salt := Vector UInt8 16

structure ReplayGuard where
  banks : Fin 2 → Finset Salt
  active : Fin 2
  count : Nat
  capacity : Nat

def emptyGuard (capacity : Nat) : ReplayGuard := ⟨fun _ => ∅, 0, 0, capacity⟩

def newReplayGuard : ReplayGuard := emptyGuard 500000

namespace ReplayGuard

def other (g : ReplayGuard) : Fin 2 := 1 - g.active

def record (g : ReplayGuard) (salt : Salt) : ReplayGuard :=
  { g with
    banks := Function.update g.banks g.active (insert salt (g.banks g.active))
    count := g.count + 1 }

def flip (g : ReplayGuard) : ReplayGuard :=
  { g with banks := Function.update g.banks g.other ∅, active := g.other, count := 0 }

def seenBefore (g : ReplayGuard) (salt : Salt) : Bool × ReplayGuard :=
  if salt ∈ g.banks g.active then (true, g)
  else if salt ∈ g.banks g.other then (true, g)
  else if g.capacity ≤ (g.record salt).count then (false, (g.record salt).flip)
  else (false, g.record salt)

end ReplayGuard

/-! ### Histories -/

/-- A salt presented, where the salts accepted so far are kept beside the guard. -/
def present (s : ReplayGuard × List Salt) (salt : Salt) : ReplayGuard × List Salt :=
  match s.1.seenBefore salt with
  | (true, g) => (g, s.2)
  | (false, g) => (g, s.2 ++ [salt])

/-- The guard and the accepted salts after a sequence of salts. -/
def afterSalts (capacity : Nat) (salts : List Salt) : ReplayGuard × List Salt :=
  salts.foldl present (emptyGuard capacity, [])

/-- The last `n` distinct salts of a sequence, by where each stands last. -/
def lastDistinct (n : Nat) (accepted : List Salt) : List Salt :=
  accepted.dedup.drop (accepted.dedup.length - n)

/-- The accepted salts, oldest first, as the guard holds them: those it forgot,
those of the history and those of the active bank. -/
structure History (capacity : Nat) (g : ReplayGuard) (accepted : List Salt) : Prop where
  capacity_eq : g.capacity = capacity
  split : ∃ gone kept fresh, accepted = gone ++ (kept ++ fresh) ∧
    g.banks g.active = fresh.toFinset ∧ g.banks g.other = kept.toFinset ∧
    (kept ++ fresh).Nodup ∧ fresh.length = g.count ∧ (gone = [] ∨ capacity ≤ kept.length)

variable {capacity : Nat} {g : ReplayGuard} {accepted : List Salt} {salt : Salt}

lemma ReplayGuard.other_ne_active (g : ReplayGuard) : g.other ≠ g.active := by
  rw [other]
  generalize g.active = a
  revert a
  decide

lemma ReplayGuard.one_sub_other (g : ReplayGuard) : 1 - g.other = g.active := sub_sub_cancel _ _

lemma ReplayGuard.seenBefore_fst (g : ReplayGuard) (salt : Salt) :
    (g.seenBefore salt).1 = true ↔ salt ∈ g.banks g.active ∨ salt ∈ g.banks g.other := by
  rw [seenBefore]
  split_ifs <;> simp_all

lemma history_empty (capacity : Nat) : History capacity (emptyGuard capacity) [] :=
  ⟨rfl, [], [], [], by simp [emptyGuard]⟩

lemma toFinset_concat (l : List Salt) (x : Salt) : (l ++ [x]).toFinset = insert x l.toFinset := by
  ext y
  simp

lemma History.record (h : History capacity g accepted)
    (hnew : ¬ (salt ∈ g.banks g.active ∨ salt ∈ g.banks g.other)) :
    History capacity (g.record salt) (accepted ++ [salt]) := by
  obtain ⟨hcap, gone, kept, fresh, rfl, hactive, hother, hnodup, hlen, hgone⟩ := h
  rw [hactive, hother, List.mem_toFinset, List.mem_toFinset] at hnew
  refine ⟨hcap, gone, kept, fresh ++ [salt], by simp, ?_, ?_, ?_, ?_, hgone⟩
  · rw [toFinset_concat, ← hactive]
    exact Function.update_self ..
  · rw [← hother]
    exact Function.update_of_ne g.other_ne_active ..
  · rw [← List.append_assoc]
    refine hnodup.append (List.nodup_singleton _) (List.disjoint_singleton.mpr fun hmem => ?_)
    exact hnew (List.mem_append.mp hmem).symm
  · rw [List.length_append, List.length_singleton, hlen]
    rfl

lemma History.flip (h : History capacity g accepted) (hfull : capacity ≤ g.count) :
    History capacity g.flip accepted := by
  obtain ⟨hcap, gone, kept, fresh, rfl, hactive, hother, hnodup, hlen, hgone⟩ := h
  refine ⟨hcap, gone ++ kept, fresh, [], by simp, Function.update_self .., ?_, ?_, rfl, .inr ?_⟩
  · change Function.update _ g.other ∅ (1 - g.other) = _
    rw [g.one_sub_other, Function.update_of_ne g.other_ne_active.symm, hactive]
  · rw [List.append_nil]
    exact hnodup.of_append_right
  · omega

/-- **One call keeps the history**, and leaves room in the active bank. -/
lemma history_present (hcap : 0 < capacity) (h : History capacity g accepted)
    (hroom : g.count < capacity) (salt : Salt) :
    History capacity (present (g, accepted) salt).1 (present (g, accepted) salt).2 ∧
      (present (g, accepted) salt).1.count < capacity := by
  by_cases hold : salt ∈ g.banks g.active ∨ salt ∈ g.banks g.other
  · have hseen : g.seenBefore salt = (true, g) := by
      rw [ReplayGuard.seenBefore]
      rcases hold with hin | hin
      · rw [if_pos hin]
      · rw [if_pos hin, ite_self]
    rw [present, hseen]
    exact ⟨h, hroom⟩
  · have hrec := h.record hold
    obtain ⟨hactive, hother⟩ := not_or.mp hold
    rw [present, ReplayGuard.seenBefore, if_neg hactive, if_neg hother, h.capacity_eq]
    split_ifs with hfull
    · exact ⟨hrec.flip hfull, hcap⟩
    · exact ⟨hrec, not_le.mp hfull⟩

/-- **Every sequence of calls keeps the history.** -/
lemma history_afterSalts (hcap : 0 < capacity) (salts : List Salt) :
    History capacity (afterSalts capacity salts).1 (afterSalts capacity salts).2 ∧
      (afterSalts capacity salts).1.count < capacity := by
  induction salts using List.reverseRecOn with
  | nil => exact ⟨history_empty capacity, hcap⟩
  | append_singleton salts salt ih =>
    rw [afterSalts, List.foldl_append]
    exact history_present hcap ih.1 ih.2 salt

lemma mem_of_accepted (salts : List Salt) : ∀ x ∈ (afterSalts capacity salts).2, x ∈ salts := by
  induction salts using List.reverseRecOn with
  | nil => simp [afterSalts]
  | append_singleton salts salt ih =>
    rw [afterSalts, List.foldl_append]
    intro x hx
    change x ∈ (present (afterSalts capacity salts) salt).2 at hx
    rw [present] at hx
    rw [List.mem_append, List.mem_singleton]
    split at hx
    · exact .inl (ih x hx)
    · rcases List.mem_append.mp hx with hx | hx
      · exact .inl (ih x hx)
      · exact .inr (List.mem_singleton.mp hx)

lemma suffix_dedup (gone : List Salt) {recent : List Salt} (hnodup : recent.Nodup) :
    recent <:+ (gone ++ recent).dedup := by
  rw [List.dedup_append, hnodup.dedup]
  exact List.suffix_union_right _ _

lemma History.mem_banks (h : History capacity g accepted)
    (hmem : salt ∈ lastDistinct capacity accepted) :
    salt ∈ g.banks g.active ∨ salt ∈ g.banks g.other := by
  obtain ⟨-, gone, kept, fresh, rfl, hactive, hother, hnodup, -, hgone⟩ := h
  obtain ⟨old, hold⟩ := suffix_dedup gone hnodup
  have hkept : salt ∈ kept ++ fresh := by
    rw [lastDistinct, ← hold] at hmem
    rcases hgone with rfl | hfull
    · have hmem' := List.mem_of_mem_drop hmem
      rw [hold, List.nil_append, hnodup.dedup] at hmem'
      exact hmem'
    · rw [List.drop_append, List.drop_eq_nil_of_le, List.nil_append] at hmem
      · exact List.mem_of_mem_drop hmem
      · simp only [List.length_append]
        omega
  rw [hactive, hother, List.mem_toFinset, List.mem_toFinset]
  exact (List.mem_append.mp hkept).symm

lemma History.accepted_of_mem (h : History capacity g accepted)
    (hmem : salt ∈ g.banks g.active ∨ salt ∈ g.banks g.other) : salt ∈ accepted := by
  obtain ⟨-, gone, kept, fresh, rfl, hactive, hother, -, -, -⟩ := h
  rw [hactive, hother, List.mem_toFinset, List.mem_toFinset] at hmem
  exact List.mem_append_right _ (List.mem_append.mpr hmem.symm)

lemma History.disjoint (h : History capacity g accepted) :
    Disjoint (g.banks g.active) (g.banks g.other) := by
  obtain ⟨-, gone, kept, fresh, rfl, hactive, hother, hnodup, -, -⟩ := h
  rw [hactive, hother, List.disjoint_toFinset_iff_disjoint]
  exact (List.disjoint_of_nodup_append hnodup).symm

lemma History.card_active (h : History capacity g accepted) :
    (g.banks g.active).card = g.count := by
  obtain ⟨-, gone, kept, fresh, rfl, hactive, -, hnodup, hlen, -⟩ := h
  rw [hactive, List.toFinset_card_of_nodup hnodup.of_append_right, hlen]

/-- **The replay guard.** After any sequence of salts, a salt that was never
presented is new, one among the last `capacity` distinct accepted ones is a replay;
the banks are disjoint, and the active one has as many salts as its counter says,
fewer than the capacity. -/
theorem seenBefore_history (capacity : Nat) (hcap : 0 < capacity) (salts : List Salt) :
    (∀ salt, salt ∉ salts → ((afterSalts capacity salts).1.seenBefore salt).1 = false) ∧
    (∀ salt, salt ∈ lastDistinct capacity (afterSalts capacity salts).2 →
      ((afterSalts capacity salts).1.seenBefore salt).1 = true) ∧
    Disjoint ((afterSalts capacity salts).1.banks 0) ((afterSalts capacity salts).1.banks 1) ∧
    ((afterSalts capacity salts).1.banks (afterSalts capacity salts).1.active).card =
      (afterSalts capacity salts).1.count ∧
    (afterSalts capacity salts).1.count < capacity := by
  obtain ⟨h, hroom⟩ := history_afterSalts hcap salts
  refine ⟨fun salt hnew => ?_, fun salt hmem => ?_, ?_, h.card_active, hroom⟩
  · rw [Bool.eq_false_iff, ne_eq, ReplayGuard.seenBefore_fst]
    exact fun hmem => hnew (mem_of_accepted salts salt (h.accepted_of_mem hmem))
  · exact (ReplayGuard.seenBefore_fst _ _).mpr (h.mem_banks hmem)
  · have hdisj := h.disjoint
    rw [ReplayGuard.other] at hdisj
    generalize (afterSalts capacity salts).1.active = a at hdisj
    obtain rfl | rfl : a = 0 ∨ a = 1 := by omega
    · exact hdisj
    · exact hdisj.symm

/-- The salt of `n` in its first byte. -/
def saltOf (n : UInt8) : Salt := Vector.ofFn fun i => if i = 0 then n else 0

/-- Three salts through a guard of two: the second and third are remembered. -/
theorem seenBefore_history_two :
    lastDistinct 2 (afterSalts 2 [saltOf 1, saltOf 2, saltOf 3]).2 = [saltOf 2, saltOf 3] ∧
    ((afterSalts 2 [saltOf 1, saltOf 2, saltOf 3]).1.seenBefore (saltOf 2)).1 = true ∧
    ((afterSalts 2 [saltOf 1, saltOf 2, saltOf 3]).1.seenBefore (saltOf 4)).1 = false := by
  have hlast : lastDistinct 2 (afterSalts 2 [saltOf 1, saltOf 2, saltOf 3]).2 =
      [saltOf 2, saltOf 3] := by decide +kernel
  obtain ⟨hnew, hold, -⟩ := seenBefore_history 2 (by decide) [saltOf 1, saltOf 2, saltOf 3]
  exact ⟨hlast, hold _ (by rw [hlast]; exact List.mem_cons_self), hnew _ (by decide +kernel)⟩

end Ntr.Snell
