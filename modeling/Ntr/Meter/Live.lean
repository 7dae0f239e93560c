/-
The open connections of a registry.

* `Registry.live`: the connections that are entered for a credential;
* `openConn_cases`: an admission enters one connection under the next number,
  and a refusal enters none;
* `live_done`, `live_disable`, `live_killConn`, `live_killIP`: what the
  release and the switches take out. What a switch takes out it closes.
-/
import Ntr.Meter.Limits

namespace Ntr.Meter

open Go Registry List

/-- The open connections of `id`. -/
def Registry.live (r : Registry) (id : CredID) : List (ConnID × ConnHandle) := (r.cell id).live

/-- The same connections are open in both, under the same numbers. -/
structure SameLive (r r' : Registry) : Prop where
  live : ∀ id, r'.live id = r.live id
  idx : r'.idx = r.idx

lemma SameLive.refl (r : Registry) : SameLive r r := ⟨fun _ => rfl, rfl⟩

lemma SameLive.trans {r₁ r₂ r₃ : Registry} (h : SameLive r₁ r₂) (h' : SameLive r₂ r₃) :
    SameLive r₁ r₃ :=
  ⟨fun id => (h'.live id).trans (h.live id), h'.idx.trans h.idx⟩

namespace Registry

lemma live_modifyCell (r : Registry) (id id' : CredID) (f : Cell → Cell) :
    (r.modifyCell id f).live id' = if id' = id then (f (r.cell id)).live else r.live id' := by
  by_cases h : id' = id
  · subst h
    simp [live]
  · simp [live, h, cell_modifyCell_of_ne r h f]

lemma ite_live {r : Registry} {id id' : CredID} {l : List (ConnID × ConnHandle)}
    (hl : l = r.live id) : (if id' = id then l else r.live id') = r.live id' := by
  split
  · next h => rw [hl, h]
  · rfl

lemma sameLive_acquireIP (r : Registry) (id : CredID) (src : Addr) :
    SameLive r (r.acquireIP id src).1 ∧ (r.acquireIP id src).1.connSeq = r.connSeq := by
  unfold acquireIP
  cases (r.cell id).ipg with
  | none => exact ⟨.refl r, rfl⟩
  | some g =>
    dsimp only
    cases r.gates[g]? with
    | none => exact ⟨.refl r, rfl⟩
    | some gate => exact ⟨⟨fun _ => rfl, rfl⟩, rfl⟩

lemma sameLive_releaseIP (r : Registry) (id : CredID) (src : Addr) :
    SameLive r (r.releaseIP id src) := by
  unfold releaseIP
  cases (r.cell id).ipg with
  | none => exact .refl r
  | some g => exact ⟨fun _ => rfl, rfl⟩

lemma sameLive_tryAcquireConn (r : Registry) (id : CredID) :
    SameLive r (r.tryAcquireConn id).1 ∧ (r.tryAcquireConn id).1.connSeq = r.connSeq := by
  unfold tryAcquireConn
  dsimp only
  cases r.boundingShare (r.cell id) with
  | none =>
    dsimp only
    split <;> refine ⟨⟨fun id' => ?_, rfl⟩, rfl⟩ <;> simp only [live_modifyCell] <;>
      exact ite_live rfl
  | some x =>
    dsimp only
    split <;> refine ⟨⟨fun id' => ?_, rfl⟩, rfl⟩ <;> simp only [live_modifyCell] <;>
      exact ite_live (r := r) rfl

lemma sameLive_releaseConn (r : Registry) (id : CredID) : SameLive r (r.releaseConn id) := by
  unfold releaseConn
  cases r.boundingShare (r.cell id) <;> refine ⟨fun id' => ?_, rfl⟩ <;>
    simp only [live_modifyCell] <;> exact ite_live (r := r) rfl

structure Enters (r r' : Registry) (id : CredID) (connID : ConnID) (h : ConnHandle) : Prop where
  live : ∀ id', r'.live id' =
    if id' = id then (connID, h) :: (r.live id).filter (fun x => x.1 ≠ connID) else r.live id'
  idx : r'.idx = Function.update r.idx connID (some id)

/-- `Open` either refuses and enters nothing, or enters the connection under
the next number. -/
lemma openConn_cases (r : Registry) (id : CredID) (src : Addr) (kill : List Closer) (now : Int) :
    ((r.openConn id src kill now).2 = none ∧ SameLive r (r.openConn id src kill now).1) ∨
      ((r.openConn id src kill now).2 = some (r.connSeq + 1) ∧
        Enters r (r.openConn id src kill now).1 id (r.connSeq + 1) ⟨kill, src, now⟩) := by
  obtain ⟨hip, hseq⟩ := sameLive_acquireIP r id src
  obtain ⟨hconn, hseq'⟩ := sameLive_tryAcquireConn (r.acquireIP id src).1 id
  unfold openConn
  generalize r.acquireIP id src = x at *
  obtain ⟨r₁, ok₁⟩ := x
  cases ok₁ with
  | false => exact .inl ⟨rfl, hip⟩
  | true =>
    dsimp only at *
    generalize r₁.tryAcquireConn id = y at *
    obtain ⟨r₂, ok₂⟩ := y
    have hsame : SameLive r r₂ := hip.trans hconn
    have hnum : r₂.connSeq = r.connSeq := hseq'.trans hseq
    cases ok₂ with
    | false => exact .inl ⟨rfl, hsame.trans (sameLive_releaseIP _ _ _)⟩
    | true =>
      simp only [Bool.not_true, Bool.false_eq_true, if_false]
      -- the last test is under the lock of the cell: a switched-off one enters nothing
      have hcell : cell { r₂ with connSeq := r₂.connSeq + 1 } id = r₂.cell id := rfl
      rw [hcell, Cell.addGuarded]
      by_cases hdis : (r₂.cell id).disabled = true
      · simp only [hdis, if_true, Bool.not_false]
        have hseq : SameLive r { r₂ with connSeq := r₂.connSeq + 1 } := ⟨hsame.live, hsame.idx⟩
        exact .inl ⟨trivial, hseq.trans
          ((sameLive_releaseConn _ _).trans (sameLive_releaseIP _ _ _))⟩
      · simp only [hdis, if_false, Bool.not_true, Bool.false_eq_true, hnum]
        refine .inr ⟨trivial, ?_, ?_⟩
        · intro id'
          change live (modifyCell _ id fun _ => _) id' = _
          rw [live_modifyCell, ← hsame.live id, ← hsame.live id']
          rfl
        · change Function.update r₂.idx _ _ = _
          rw [hsame.idx]

lemma live_done (r : Registry) (id : CredID) (src : Addr) (connID : ConnID) (id' : CredID) :
    (r.done id src connID).live id' =
      if id' = id then (r.live id).filter (fun x => x.1 ≠ connID) else r.live id' := by
  have hsame := (sameLive_releaseConn r id).trans (sameLive_releaseIP (r.releaseConn id) id src)
  change live (modifyCell _ id fun c => c.removeLive connID) id' = _
  rw [live_modifyCell, ← hsame.live id, ← hsame.live id']
  rfl

lemma idx_done (r : Registry) (id : CredID) (src : Addr) (connID : ConnID) :
    (r.done id src connID).idx = Function.update r.idx connID none := by
  have hsame := (sameLive_releaseConn r id).trans (sameLive_releaseIP (r.releaseConn id) id src)
  change Function.update (idx (releaseIP _ id src)) connID none = _
  rw [hsame.idx]

lemma sameLive_enable (r : Registry) (id : CredID) : SameLive r (r.enable id).1 := by
  unfold enable
  cases r.cells id with
  | none => exact .refl r
  | some c =>
    refine ⟨fun id' => ?_, rfl⟩
    simp only [live_modifyCell]
    exact ite_live rfl

lemma sameLive_newRate (r : Registry) (rate : F64) : SameLive r (r.newRate rate).2 := by
  unfold newRate
  split <;> exact ⟨fun _ => rfl, rfl⟩

lemma sameLive_newGate (r : Registry) (cap : Int) : SameLive r (r.newGate cap).2 := by
  unfold newGate
  split <;> exact ⟨fun _ => rfl, rfl⟩

lemma sameLive_setLimits (r : Registry) (id : CredID) (l : Limits) :
    SameLive r (r.setLimits id l) := by
  have hnew := (sameLive_newRate r l.rate).trans (sameLive_newGate (r.newRate l.rate).2 l.maxIPs)
  refine ⟨fun id' => ?_, hnew.idx⟩
  simp only [setLimits, live_modifyCell]
  exact (ite_live rfl).trans (hnew.live id')

lemma sameLive_foldl {g : Cell → Cell} (hg : ∀ c, (g c).live = c.live) : ∀ (ids : List CredID)
    {r r' : Registry}, SameLive r r' → SameLive r (ids.foldl (fun r id => r.modifyCell id g) r')
  | [], _, _, h => h
  | id :: ids, r, r', h => by
    have hone : SameLive r' (r'.modifyCell id g) := by
      refine ⟨fun id' => ?_, rfl⟩
      rw [live_modifyCell, hg]
      exact ite_live rfl
    exact sameLive_foldl hg ids (h.trans hone)

lemma sameLive_setLimitsShared (r : Registry) (ids : List CredID) (l : Limits) :
    SameLive r (r.setLimitsShared ids l) := by
  have hnew := (sameLive_newRate r l.rate).trans (sameLive_newGate (r.newRate l.rate).2 l.maxIPs)
  unfold setLimitsShared
  refine sameLive_foldl ?_ ids ⟨hnew.live, hnew.idx⟩
  exact fun _ => rfl

/-! ### Switches -/

inductive Kill where
  | cred (id : CredID)
  | conn (connID : ConnID)
  | ip (id : CredID) (ip : Addr)
  deriving DecidableEq, Repr

/-- `Disable`, `KillConn` and `KillIP`: the registry after it and the closers
that it starts. -/
def cut (r : Registry) : Kill → Registry × List Closer
  | .cred id => let (r, closers) := r.disable id; (r, closers.getD [])
  | .conn connID => r.killConn connID
  | .ip id ip => r.killIP id ip

/-- The connections that a switch is aimed at, by credential, number and
source. -/
def Kill.Aims (k : Kill) (id : CredID) (connID : ConnID) (src : Addr) : Prop :=
  match k with
  | .cred id' => id' = id
  | .conn connID' => connID' = connID
  | .ip id' addr => id' = id ∧ addr = src

lemma idx_cut (r : Registry) (k : Kill) : (r.cut k).1.idx = r.idx := by
  cases k with
  | cred id =>
    simp only [cut, disable]
    cases r.cells id <;> rfl
  | conn connID =>
    simp only [cut, killConn]
    cases r.idx connID <;> rfl
  | ip id ip =>
    simp only [cut, killIP]
    cases r.cells id <;> rfl

lemma live_of_cells {r : Registry} {id : CredID} {c : Cell} (h : r.cells id = some c) :
    r.live id = c.live := by
  simp [live, cell, h]

/-- **What a switch takes out it closes**: a connection that was open is still
open, or all its closers have been started. -/
lemma live_cut (r : Registry) (k : Kill) {id : CredID} {x : ConnID × ConnHandle}
    (hx : x ∈ r.live id) : x ∈ (r.cut k).1.live id ∨ ∀ c ∈ x.2.kill, c ∈ (r.cut k).2 := by
  cases k with
  | cred id' =>
    simp only [cut, disable]
    cases hc : r.cells id' with
    | none => exact .inl hx
    | some c =>
      simp only [live_modifyCell, Option.getD_some]
      by_cases hid : id = id'
      · subst hid
        rw [live_of_cells hc] at hx
        exact .inr fun a ha => mem_flatMap.mpr ⟨x, hx, ha⟩
      · rw [if_neg hid]
        exact .inl hx
  | conn connID =>
    simp only [cut, killConn]
    cases r.idx connID with
    | none => exact .inl hx
    | some id' =>
      simp only [live_modifyCell, Cell.removeLive]
      by_cases hid : id = id'
      · subst hid
        rw [if_pos rfl]
        by_cases hnum : x.1 = connID
        · exact .inr fun a ha => mem_flatMap.mpr ⟨x, mem_filter.mpr ⟨hx, by simpa⟩, ha⟩
        · exact .inl (mem_filter.mpr ⟨hx, by simpa⟩)
      · rw [if_neg hid]
        exact .inl hx
  | ip id' addr =>
    simp only [cut, killIP]
    cases hc : r.cells id' with
    | none => exact .inl hx
    | some c =>
      simp only [live_modifyCell]
      by_cases hid : id = id'
      · subst hid
        rw [if_pos rfl]
        by_cases hsrc : x.2.src = addr
        · rw [live_of_cells hc] at hx
          exact .inr fun a ha => mem_flatMap.mpr ⟨x, mem_filter.mpr ⟨hx, by simpa⟩, ha⟩
        · exact .inl (mem_filter.mpr ⟨hx, by simpa⟩)
      · rw [if_neg hid]
        exact .inl hx

/-- **A switch reaches what it is aimed at**: it starts all its closers. -/
lemma closers_cut (r : Registry) (k : Kill) {id : CredID} {connID : ConnID} {h : ConnHandle}
    (hx : (connID, h) ∈ r.live id) (hidx : r.idx connID = some id) (hk : k.Aims id connID h.src) :
    ∀ c ∈ h.kill, c ∈ (r.cut k).2 := by
  have hcell : ∃ c, r.cells id = some c := by
    cases hc : r.cells id with
    | some c => exact ⟨c, rfl⟩
    | none =>
      rw [live, cell, hc] at hx
      cases hx
  obtain ⟨cell, hc⟩ := hcell
  have hlive := live_of_cells hc
  intro a ha
  cases k with
  | cred id' =>
    obtain rfl : id' = id := hk
    simp only [cut, disable, hc, Option.getD_some]
    exact mem_flatMap.mpr ⟨_, hlive ▸ hx, ha⟩
  | conn connID' =>
    obtain rfl : connID' = connID := hk
    simp only [cut, killConn, hidx]
    exact mem_flatMap.mpr ⟨_, mem_filter.mpr ⟨hx, by simp⟩, ha⟩
  | ip id' addr =>
    obtain ⟨rfl, rfl⟩ : id' = id ∧ addr = h.src := hk
    simp only [cut, killIP, hc]
    exact mem_flatMap.mpr ⟨_, mem_filter.mpr ⟨hlive ▸ hx, by simp⟩, ha⟩

end Registry

end Ntr.Meter
