/-
The ids of the sub-streams of a client of Mux.cool.

* `Evolves`, `effect_step`: what a step may do. It gives out one id, or it leaves the
  ids alone and opens nothing;
* `nextFree_ne_none`: `allocID` returns while one id is not in the table;
* `distinct_of_sparing`: as long as every id is given out within the first 65535
  or while all open sub-streams are in the table, no two open sub-streams share
  one; `control_id_reused`: the control sub-stream never is in the table.
-/
import Ntr.Lib.Runs
import Ntr.Mux.Client

namespace Ntr.Mux

open Go Lib Function Substream List

/-- The sub-stream has an id, and was neither finished nor given up. -/
def Substream.isOpen (x : Substream) : Bool :=
  x.stage != .failed && !(x.opener == .control && x.stage == .failing) &&
    (x.finish == .fresh || x.finish == .called)

namespace Client

/-! ### What a step may do -/

/-- A sub-stream goes on: it keeps its id and does not open again. -/
structure Evolves (x y : Substream) : Prop where
  id : y.id = x.id
  opener : y.opener = x.opener
  isOpen : y.isOpen = true → x.isOpen = true
  fresh : y.stage = .allocated → x.stage = .allocated ∧ y.finish = x.finish

/-- The invariant of the table: its entries are listed sub-streams under their ids,
and ids are given out in turn until all were. -/
structure Kept (s : Client) : Prop where
  entry : ∀ id r, s.sessions.lookup id = some r →
    r < s.born ∧ (s.obj r).id = id ∧ (s.obj r).listed = true
  fresh : ∀ r, (s.obj r).stage = .allocated → (s.obj r).finish = .fresh
  first : s.born ≤ 65535 → s.nextID.toNat = s.born ∧ ∀ r < s.born, (s.obj r).id.toNat = r + 1

def Allocates (s s' : Client) : Prop :=
  ∃ (id : UInt16) (x : Substream), nextFree s.sessions (2 ^ 16) s.nextID = some id ∧
    x.stage = .allocated ∧ x.finish = .fresh ∧ s' = { s with
      nextID := id
      budget := s.budget.alloc
      obj := update s.obj s.born { x with id }
      born := s.born + 1 }

structure Quiet (s s' : Client) : Prop where
  nextID : s'.nextID = s.nextID
  born : s'.born = s.born
  evolves : ∀ r, Evolves (s.obj r) (s'.obj r)
  entry : ∀ id r, s'.sessions.lookup id = some r →
    r < s.born ∧ (s.obj r).id = id ∧ (s'.obj r).listed = true

section
variable {s s' : Client} {r : Nat} {f : Substream → Substream}

lemma Evolves.refl (x : Substream) : Evolves x x := ⟨rfl, rfl, fun h => h, fun h => ⟨h, rfl⟩⟩

lemma quiet_of_eq (h : Kept s) (hn : s'.nextID = s.nextID) (hb : s'.born = s.born)
    (ho : s'.obj = s.obj) (ht : s'.sessions = s.sessions) : Quiet s s' where
  nextID := hn
  born := hb
  evolves r := by rw [ho]; exact .refl _
  entry id r hr := by
    rw [ht] at hr
    rw [ho]
    exact h.entry id r hr

lemma evolves_modify (hf : Evolves (s.obj r) (f (s.obj r))) (q : Nat) :
    Evolves (s.obj q) ((s.modify r f).obj q) :=
  obj_modify_ind (P := fun _ x y => Evolves x y) hf fun _ => .refl _

lemma Quiet.modify (h : Quiet s s') (hf : Evolves (s'.obj r) (f (s'.obj r)))
    (hlist : (s'.obj r).listed = true → (f (s'.obj r)).listed = true) :
    Quiet s (s'.modify r f) where
  nextID := h.nextID
  born := h.born
  evolves q := by
    have hq := evolves_modify (s := s') hf q
    exact
      { id := hq.id.trans (h.evolves q).id
        opener := hq.opener.trans (h.evolves q).opener
        isOpen := fun ho => (h.evolves q).isOpen (hq.isOpen ho)
        fresh := fun hs => ⟨((h.evolves q).fresh (hq.fresh hs).1).1,
          (hq.fresh hs).2.trans ((h.evolves q).fresh (hq.fresh hs).1).2⟩ }
  entry id q hq := by
    obtain ⟨hlt, hid, hl⟩ := h.entry id q hq
    refine ⟨hlt, hid, ?_⟩
    by_cases hqr : q = r
    · subst hqr
      rw [obj_modify_self]
      exact hlist hl
    · rw [obj_modify_of_ne hqr]
      exact hl

lemma quiet_remove (h : Kept s) (hf : Evolves (s.obj r) (f (s.obj r))) :
    Quiet s ((s.removeSession (s.obj r).id).modify r f) where
  nextID := rfl
  born := rfl
  evolves q := evolves_modify (s := s.removeSession _) hf q
  entry id q hq := by
    change (s.sessions.erase (s.obj r).id).lookup id = some q at hq
    have hne : id ≠ (s.obj r).id := by
      rintro rfl
      rw [AList.lookup_erase] at hq
      cases hq
    rw [AList.lookup_erase_ne hne] at hq
    obtain ⟨hlt, hid, hl⟩ := h.entry id q hq
    refine ⟨hlt, hid, ?_⟩
    rw [obj_modify_of_ne (by rintro rfl; exact hne hid.symm)]
    exact hl

lemma evolves_called {x y : Substream} (hx : x.finish = .fresh) (hs : x.stage ≠ .allocated)
    (hid : y.id = x.id) (ho : y.opener = x.opener) (hst : y.stage = x.stage) : Evolves x y := by
  refine ⟨hid, ho, fun h => ?_, fun h => absurd (hst ▸ h) hs⟩
  rw [isOpen, ho, hst, Bool.and_eq_true] at h
  rw [isOpen, hx, h.1]
  rfl

lemma listed_called {x : Substream} (hx : x.listed = true) (y : Substream)
    (ho : y.opener = x.opener) (hst : y.stage = x.stage) (hy : y.finish = .called) :
    y.listed = true := by
  rw [listed, Bool.and_eq_true] at hx
  rw [listed, ho, hst, hx.1, hy]
  rfl

lemma Acts.quiet {e : Event} (h : Acts s r e s') (hk : Kept s) (hr : r < s.born) : Quiet s s' := by
  have hsame : ∀ {t : Client}, t.nextID = s.nextID → t.born = s.born → t.obj = s.obj →
      t.sessions = s.sessions → Quiet s t := quiet_of_eq hk
  -- a New frame is due only for a sub-stream that is open
  have hready : ∀ {a : Stage}, (s.obj r).ready = true → a ≠ .allocated → a ≠ .failed →
      Evolves (s.obj r) { s.obj r with stage := a } ∧
        ((s.obj r).listed = true → { s.obj r with stage := a : Substream }.listed = true) := by
    intro a hready ha ha'
    have hstage : (s.obj r).stage = .registered ∨
        (s.obj r).opener = .control ∧ (s.obj r).stage = .allocated := by
      by_cases hc : (s.obj r).opener = .control
      · exact .inr ⟨hc, by simpa [ready, hc] using hready⟩
      · exact .inl (by simpa [ready, hc] using hready)
    refine ⟨⟨rfl, rfl, ?_, fun h => absurd h ha⟩, fun hl => ?_⟩
    · rcases hstage with hs | ⟨hc, hs⟩ <;> simp +contextual [isOpen, hs]
    · simp only [listed, Bool.and_eq_true] at hl ⊢
      exact ⟨⟨hl.1.1, by simp [ha, ha']⟩, hl.2⟩
  cases h with
  | rest | send => exact hsame rfl rfl rfl rfl
  | register hs hc =>
    have hfresh := hk.fresh r hs
    have hf : Evolves (s.obj r) { s.obj r with stage := .registered, since := s.frames.length } :=
      ⟨rfl, rfl, fun _ => by simp [isOpen, hs, hfresh], by simp⟩
    refine
      { nextID := rfl
        born := rfl
        evolves := fun q => evolves_modify (s := { s with sessions := _ })
          (f := fun x => { x with stage := .registered, since := s.frames.length }) hf q
        entry := fun id q hq => ?_ }
    change (s.sessions.insert (s.obj r).id r).lookup id = some q at hq
    by_cases hid : id = (s.obj r).id
    · rw [hid, AList.lookup_insert, Option.some.injEq] at hq
      subst hq
      refine ⟨hr, hid.symm, ?_⟩
      rw [obj_modify_self]
      simp [listed, hc, hfresh]
    · rw [AList.lookup_insert_ne hid] at hq
      obtain ⟨hlt, hqid, hl⟩ := hk.entry id q hq
      refine ⟨hlt, hqid, ?_⟩
      rw [obj_modify_of_ne (by rintro rfl; exact hid hqid.symm)]
      exact hl
  | @announce link hr' =>
    have hlink : Quiet s { s with link := link } := hsame rfl rfl rfl rfl
    obtain ⟨hf, hl⟩ := hready (a := .opened) hr' (by simp) (by simp)
    exact hlink.modify hf hl
  | refused hr' =>
    obtain ⟨hf, hl⟩ := hready (a := if (s.obj r).opener = .packet then .opened else .failing) hr'
      (by split_ifs <;> simp) (by split_ifs <;> simp)
    exact (hsame rfl rfl rfl rfl).modify hf hl
  | abandon => exact quiet_remove hk ⟨rfl, rfl, by simp [isOpen], by simp⟩
  | close =>
    have hend : Quiet s { s with link := s.link.push (.stop (s.obj r).id false) } :=
      hsame rfl rfl rfl rfl
    exact hend.modify ⟨rfl, rfl, fun ho => ho, fun hs => ⟨hs, rfl⟩⟩ fun hl => hl
  | stop hf hs =>
    exact (hsame rfl rfl rfl rfl).modify (evolves_called hf hs rfl rfl rfl)
      fun hl => listed_called hl _ rfl rfl rfl
  | remove hf =>
    refine quiet_remove hk ⟨rfl, rfl, by simp [isOpen], fun hs => ?_⟩
    cases (hk.fresh r hs).symm.trans hf
  | shut hf =>
    refine (hsame rfl rfl rfl rfl).modify ⟨rfl, rfl, by simp [isOpen], fun hs => ?_⟩
      fun hl => ?_
    · cases (hk.fresh r hs).symm.trans hf
    · simp [listed, hf] at hl
  | readEOF | read =>
    exact (hsame rfl rfl rfl rfl).modify ⟨rfl, rfl, fun ho => ho, fun hs => ⟨hs, rfl⟩⟩ fun hl => hl

lemma quiet_recv (h : Kept s) (m : FrameMetadata) (data : Str) : Quiet s (s.recv m data) := by
  rw [recv]
  split_ifs
  · exact quiet_of_eq h rfl rfl rfl rfl
  · rw [recvKeep]
    split
    · exact quiet_of_eq h rfl rfl rfl rfl
    · split_ifs <;> exact quiet_of_eq h rfl rfl rfl rfl
  · rw [recvEnd]
    split
    · exact quiet_of_eq h rfl rfl rfl rfl
    case _ r hr =>
      have hl := (h.entry m.sessionID r hr).2.2
      have hcome : Quiet s { s with frames := s.frames ++ [(m, data)] } :=
        quiet_of_eq h rfl rfl rfl rfl
      have hhear : Evolves (s.obj r) (s.obj r).hear ∧ (s.obj r).hear.listed = true := by
        rw [hear]
        split_ifs with hfin
        · exact ⟨evolves_called hfin (stage_of_listed hl) rfl rfl rfl,
            listed_called hl _ rfl rfl rfl⟩
        · exact ⟨.refl _, hl⟩
      have hmod := hcome.modify (r := r) (f := hear) hhear.1 fun _ => hhear.2
      exact ⟨hmod.nextID, hmod.born, hmod.evolves, hmod.entry⟩
  · exact quiet_of_eq h rfl rfl rfl rfl

lemma quiet_loopStep (h : Kept s) : Quiet s s.loopStep := by
  rw [loopStep]
  split
  · exact quiet_of_eq h rfl rfl rfl rfl
  · exact quiet_of_eq h rfl rfl rfl rfl
  case _ r rest _ =>
    have hmod := (quiet_of_eq h (rfl : s.nextID = s.nextID) rfl rfl rfl).modify (r := r)
      (f := fun x => { x with inW := ((s.obj r).inW.write rest).1 })
      ⟨rfl, rfl, fun ho => ho, fun hs => ⟨hs, rfl⟩⟩ fun hl => hl
    exact ⟨hmod.nextID, hmod.born, hmod.evolves, hmod.entry⟩
  · split_ifs <;> exact quiet_of_eq h rfl rfl rfl rfl

lemma allocID_cases (h : Kept s) {x : Substream} (hx : x.stage = .allocated)
    (hf : x.finish = .fresh) : Allocates s (s.allocID x) ∨ Quiet s (s.allocID x) := by
  rw [allocID]
  split
  · exact .inr (quiet_of_eq h rfl rfl rfl rfl)
  case _ id hid => exact .inl ⟨id, x, hid, hx, hf, rfl⟩

/-- The events that call `allocID`. -/
def Event.allocates : Event → Bool
  | .openStream _ _ _ | .writeTo _ _ | .startControl => true
  | _ => false

/-- **What a step may do**: only a call of `allocID` gives out an id. -/
lemma effect_step (h : Kept s) (e : Event) :
    e.allocates = true ∧ Allocates s (s.step e) ∨ Quiet s (s.step e) := by
  have hsame : Quiet s s := quiet_of_eq h rfl rfl rfl rfl
  rw [step]
  split_ifs with hr
  · cases he : e.substream with
    | some r => exact .inr ((acts_act he).quiet h (hr r he))
    | none =>
      cases e with
      | openStream n a p =>
        rw [act]
        split_ifs
        · exact (allocID_cases h rfl rfl).imp_left fun ha => ⟨rfl, ha⟩
        · exact .inr hsame
      | writeTo a p =>
        rw [act]
        split_ifs
        · exact (allocID_cases h rfl rfl).imp_left fun ha => ⟨rfl, ha⟩
        · exact .inr hsame
      | startControl => exact (allocID_cases h rfl rfl).imp_left fun ha => ⟨rfl, ha⟩
      | recv m data => exact .inr (quiet_recv h m data)
      | loop => exact .inr (quiet_loopStep h)
      | shutdown => exact .inr (quiet_of_eq h rfl rfl rfl rfl)
      | linkDown => exact .inr (quiet_of_eq h rfl rfl rfl rfl)
      | _ => cases he
  · exact .inr hsame

end

/-! ### The loop of `allocID` -/

section
variable {used : Table UInt16}

lemma nextFree_unused {rounds : Nat} {n id : UInt16} (h : nextFree used rounds n = some id) :
    id ≠ 0 ∧ used.lookup id = none := by
  induction rounds generalizing n with
  | zero => cases h
  | succ rounds ih =>
    rw [nextFree] at h
    split_ifs at h with hused
    · exact ih h
    · rw [Option.some.injEq] at h
      subst h
      obtain ⟨h0, hfree⟩ := not_or.mp hused
      exact ⟨h0, not_not.mp hfree⟩

lemma used_of_nextFree {rounds : Nat} {n : UInt16} (h : nextFree used rounds n = none) (k : Nat)
    (hk : k < rounds) :
    n + UInt16.ofNat (k + 1) = 0 ∨ used.lookup (n + UInt16.ofNat (k + 1)) ≠ none := by
  induction rounds generalizing n k with
  | zero => omega
  | succ rounds ih =>
    rw [nextFree] at h
    split_ifs at h with hused
    cases k with
    | zero => exact hused
    | succ k =>
      have hnext := ih h k (by omega)
      rwa [show n + 1 + UInt16.ofNat (k + 1) = n + UInt16.ofNat (k + 1 + 1) by
        rw [UInt16.ofNat_add (k + 1) 1, UInt16.add_assoc, UInt16.add_comm 1]; rfl] at hnext

/-- **`allocID` returns** while an id is free. -/
lemma nextFree_ne_none {id : UInt16} (h0 : id ≠ 0) (hfree : used.lookup id = none) (n : UInt16) :
    nextFree used (2 ^ 16) n ≠ none := by
  intro h
  have hk : n + UInt16.ofNat ((id - n - 1).toNat + 1) = id := by
    rw [UInt16.ofNat_add, UInt16.ofNat_toNat]
    change n + (id - n - 1 + 1) = id
    rw [UInt16.sub_add_cancel, UInt16.add_comm, UInt16.sub_add_cancel]
  have hused := used_of_nextFree h (id - n - 1).toNat (id - n - 1).toNat_lt
  rw [hk] at hused
  exact hused.elim h0 fun hne => hne hfree

lemma exists_free (h : used.keys.length < 65535) :
    ∃ id : UInt16, id ≠ 0 ∧ used.lookup id = none := by
  by_contra hnone
  have hall : ∀ id : UInt16, id ≠ 0 → id ∈ used.keys := by
    intro id h0
    by_contra hmem
    exact hnone ⟨id, h0, AList.lookup_eq_none.mpr hmem⟩
  have hnodup : ((List.range 65535).map fun k => UInt16.ofNat (k + 1)).Nodup := by
    refine List.Nodup.map_on ?_ nodup_range
    intro a ha b hb hab
    rw [mem_range] at ha hb
    have hnat := congrArg UInt16.toNat hab
    rw [UInt16.toNat_ofNat', UInt16.toNat_ofNat'] at hnat
    omega
  have hsub : ((List.range 65535).map fun k => UInt16.ofNat (k + 1)) ⊆ used.keys := by
    intro id hid
    obtain ⟨k, hk, rfl⟩ := mem_map.mp hid
    rw [mem_range] at hk
    refine hall _ fun h0 => ?_
    have hnat := congrArg UInt16.toNat h0
    rw [UInt16.toNat_ofNat', UInt16.toNat_zero] at hnat
    omega
  have hle := (hnodup.subperm hsub).length_le
  rw [length_map, length_range] at hle
  omega

end

/-! ### The ids of open sub-streams -/

def openIds (s : Client) : List UInt16 :=
  ((List.range s.born).filter fun r => (s.obj r).isOpen).map fun r => (s.obj r).id

def Distinct (s : Client) : Prop :=
  ∀ r q, r < s.born → q < s.born → r ≠ q → (s.obj r).isOpen = true → (s.obj q).isOpen = true →
    (s.obj r).id ≠ (s.obj q).id

def Registered (s : Client) : Prop :=
  ∀ r < s.born, (s.obj r).isOpen = true → s.sessions.lookup (s.obj r).id = some r

/-- An id is given out within the first 65535, or while every open sub-stream is in
the table. -/
def Sparing (s : Client) (e : Event) : Prop :=
  e.allocates = true → s.born < 65535 ∨ Registered s

section
variable {s s' : Client} {e : Event}

lemma isOpen_of_listed {x : Substream} (h : x.listed = true) : x.isOpen = true := by
  simp only [listed, Bool.and_eq_true, bne_iff_ne, ne_eq] at h
  simp [isOpen, h.1.1, h.1.2.2, h.2]

lemma Kept.length_keys_le (h : Kept s) : s.sessions.keys.length ≤ s.openIds.dedup.length := by
  refine (s.sessions.keys_nodup.subperm fun id hid => mem_dedup.mpr ?_).length_le
  obtain ⟨r, hr⟩ := Option.isSome_iff_exists.mp (AList.lookup_isSome.mpr hid)
  obtain ⟨hlt, rfl, hl⟩ := h.entry id r hr
  exact mem_map.mpr ⟨r, mem_filter.mpr ⟨mem_range.mpr hlt, isOpen_of_listed hl⟩, rfl⟩

lemma Kept.nextFree_eq (h : Kept s) (hb : s.born < 65535) :
    nextFree s.sessions (2 ^ 16) s.nextID = some (s.nextID + 1) ∧
      (s.nextID + 1).toNat = s.born + 1 := by
  obtain ⟨hnext, hids⟩ := h.first hb.le
  have hsucc : (s.nextID + 1).toNat = s.born + 1 := by
    rw [UInt16.toNat_add, hnext, UInt16.toNat_one]
    omega
  refine ⟨nextFree_succ (fun h0 => ?_) ?_ 65535, hsucc⟩
  · rw [h0, UInt16.toNat_zero] at hsucc
    omega
  · by_contra hused
    obtain ⟨r, hr⟩ := Option.ne_none_iff_exists'.mp hused
    obtain ⟨hlt, hid, -⟩ := h.entry _ r hr
    have := hids r hlt
    rw [hid] at this
    omega

lemma kept_init : Kept {} where
  entry id r hr := by cases hr
  fresh r _ := rfl
  first _ := ⟨rfl, fun r hr => absurd hr (Nat.not_lt_zero r)⟩

lemma Kept.quiet (h : Kept s) (hq : Quiet s s') : Kept s' where
  entry id r hr := by
    obtain ⟨hlt, hid, hl⟩ := hq.entry id r hr
    exact ⟨hq.born ▸ hlt, (hq.evolves r).id.trans hid, hl⟩
  fresh r hr := by
    obtain ⟨hs, hf⟩ := (hq.evolves r).fresh hr
    exact hf.trans (h.fresh r hs)
  first hb := by
    rw [hq.born] at hb
    obtain ⟨hnext, hids⟩ := h.first hb
    rw [hq.nextID, hq.born]
    exact ⟨hnext, fun r hr => (congrArg UInt16.toNat (hq.evolves r).id).trans (hids r hr)⟩

lemma Kept.alloc (h : Kept s) (ha : Allocates s s') : Kept s' := by
  obtain ⟨id, x, hfree, hx, hf, rfl⟩ := ha
  have hold : ∀ q, q ≠ s.born → update s.obj s.born { x with id } q = s.obj q :=
    fun q hq => update_of_ne hq _ s.obj
  have hnew : update s.obj s.born { x with id } s.born = { x with id } :=
    update_self s.born _ s.obj
  refine ⟨fun k r hr => ?_, fun r hr => ?_, fun hb => ?_⟩
  · obtain ⟨hlt, hid, hl⟩ := h.entry k r hr
    rw [show (_ : Client).obj r = s.obj r from hold r hlt.ne]
    exact ⟨Nat.lt_succ_of_lt hlt, hid, hl⟩
  · by_cases hrb : r = s.born
    · subst hrb
      exact (congrArg finish hnew).trans hf
    · change (update s.obj s.born _ r).stage = _ at hr
      rw [hold r hrb] at hr
      exact (congrArg finish (hold r hrb)).trans (h.fresh r hr)
  · have hb' : s.born < 65535 := hb
    obtain ⟨hnext, hsucc⟩ := h.nextFree_eq hb'
    rw [hfree, Option.some.injEq] at hnext
    subst hnext
    refine ⟨hsucc, fun r hr => ?_⟩
    by_cases hrb : r = s.born
    · subst hrb
      exact (congrArg (fun y => y.id.toNat) hnew).trans hsucc
    · have hlt : r < s.born := by
        have : r < s.born + 1 := hr
        omega
      exact (congrArg (fun y => y.id.toNat) (hold r hrb)).trans ((h.first hb'.le).2 r hlt)

lemma kept_step (h : Kept s) (e : Event) : Kept (s.step e) := by
  rcases effect_step h e with ⟨-, ha⟩ | hq
  · exact h.alloc ha
  · exact h.quiet hq

lemma Distinct.quiet (h : Distinct s) (hq : Quiet s s') : Distinct s' := by
  intro r q hr hq' hne ho ho'
  rw [hq.born] at hr hq'
  rw [(hq.evolves r).id, (hq.evolves q).id]
  exact h r q hr hq' hne ((hq.evolves r).isOpen ho) ((hq.evolves q).isOpen ho')

lemma id_ne_of_sparing (hk : Kept s) (hs : s.born < 65535 ∨ Registered s) {id : UInt16}
    (hfree : nextFree s.sessions (2 ^ 16) s.nextID = some id) {q : Nat} (hq : q < s.born)
    (ho : (s.obj q).isOpen = true) : id ≠ (s.obj q).id := by
  rintro rfl
  rcases hs with hb | hreg
  · obtain ⟨hnext, hsucc⟩ := hk.nextFree_eq hb
    rw [hfree, Option.some.injEq] at hnext
    have := (hk.first hb.le).2 q hq
    rw [hnext] at this
    omega
  · have hnone := (nextFree_unused hfree).2
    rw [hreg q hq ho] at hnone
    cases hnone

lemma Distinct.alloc (h : Distinct s) (hk : Kept s) (hs : s.born < 65535 ∨ Registered s)
    (ha : Allocates s s') : Distinct s' := by
  obtain ⟨id, x, hfree, -, -, rfl⟩ := ha
  have hold : ∀ q, q ≠ s.born → update s.obj s.born { x with id } q = s.obj q :=
    fun q hq => update_of_ne hq _ s.obj
  have hnew : update s.obj s.born { x with id } s.born = { x with id } :=
    update_self s.born _ s.obj
  intro r q hr hq hne ho ho'
  change r < s.born + 1 at hr
  change q < s.born + 1 at hq
  change (update s.obj s.born _ r).isOpen = true at ho
  change (update s.obj s.born _ q).isOpen = true at ho'
  change (update s.obj s.born _ r).id ≠ (update s.obj s.born _ q).id
  by_cases hrb : r = s.born
  · have hqb : q ≠ s.born := fun h => hne (hrb.trans h.symm)
    rw [hold q hqb] at ho' ⊢
    rw [hrb, hnew]
    exact id_ne_of_sparing hk hs hfree (by omega) ho'
  · rw [hold r hrb] at ho ⊢
    by_cases hqb : q = s.born
    · rw [hqb, hnew]
      exact (id_ne_of_sparing hk hs hfree (by omega) ho).symm
    · rw [hold q hqb] at ho' ⊢
      exact h r q (by omega) (by omega) hne ho ho'

lemma distinct_step (hk : Kept s) (h : Distinct s) (hs : Sparing s e) : Distinct (s.step e) := by
  rcases effect_step hk e with ⟨he, ha⟩ | hq
  · exact h.alloc hk (hs he) ha
  · exact h.quiet hq

lemma kept_run (es : List Event) : Kept (es.foldl step {}) := by
  have hall : EachStep step (fun _ _ => True) {} es := eachStep_of_forall fun _ _ => trivial
  exact foldl_invariant (I := Kept) (fun s e hs _ => kept_step hs e) kept_init hall

lemma distinct_init : Distinct {} := fun _ _ hr => absurd hr (Nat.not_lt_zero _)

lemma Kept.allocID (h : Kept s) (huse : s.openIds.dedup.length < 65535) (x : Substream) :
    (s.allocID x).born = s.born + 1 := by
  obtain ⟨id, h0, hfree⟩ := exists_free (h.length_keys_le.trans_lt huse)
  rw [Client.allocID]
  split
  case _ hnone => exact absurd hnone (nextFree_ne_none h0 hfree s.nextID)
  case _ => rfl

end

/-- **No two open sub-streams have one id** in any run that gives out each id within
the first 65535 or while all open sub-streams are in the table, and `allocID` returns
in any run while fewer than 65535 ids are in use. -/
theorem distinct_of_sparing (es : List Event) :
    (EachStep step Sparing {} es → Distinct (es.foldl step {})) ∧
      ((es.foldl step {}).openIds.dedup.length < 65535 → ∀ x,
        ((es.foldl step {}).allocID x).born = (es.foldl step {}).born + 1) := by
  constructor
  · intro h
    have hrun := foldl_invariant (I := fun s => Kept s ∧ Distinct s) (C := Sparing)
      (fun s e hs he => ⟨kept_step hs.1 e, distinct_step hs.1 hs.2 he⟩)
      ⟨kept_init, distinct_init⟩ h
    exact hrun.2
  · intro huse x
    exact (kept_run es).allocID huse x

def someTarget : Address := { isDomain := true, domain := lit "a" }

/-- The control sub-stream and a datagram to a target. -/
theorem distinct_of_sparing_control :
    Distinct ([.startControl, .announce 0, .writeTo someTarget 53, .register 1].foldl step {}) :=
  (distinct_of_sparing [.startControl, .announce 0, .writeTo someTarget 53, .register 1]).1
    ⟨fun _ => .inl (by decide), (fun h => by cases h), fun _ => .inl (by decide),
      (fun h => by cases h), trivial⟩

/-! ### The control sub-stream -/

section
variable {s : Client} {n : Nat}

/-- A datagram to a target, and the end of its packet connection. -/
def onceTo (r : Nat) : List Event :=
  [.writeTo someTarget 53, .register r, .announce r, .close r, .stop r, .finish r]

/-- After the control sub-stream has got its id, `n` ids were given out, and all
other sub-streams are closed. -/
structure Alone (n : Nat) (s : Client) : Prop where
  kept : Kept s
  pos : 0 < n
  born : s.born = n
  empty : ∀ id, s.sessions.lookup id = none
  control : (s.obj 0).isOpen = true

lemma obj_step_of_ne {e : Event} {r q : Nat} (he : e.substream = some r) (hq : q ≠ r) :
    (s.step e).obj q = s.obj q := by
  rw [step]
  split_ifs
  · exact (acts_act he).obj_of_ne hq
  · rfl

/-- The packet connection has come so far with its sub-stream. -/
structure Busy (n : Nat) (i : UInt16) (st : Stage) (fin : Closing) (s : Client) : Prop where
  born : s.born = n + 1
  id : (s.obj n).id = i
  opener : (s.obj n).opener = .packet
  stage : (s.obj n).stage = st
  finish : (s.obj n).finish = fin
  table : ∀ k, k ≠ i → s.sessions.lookup k = none

namespace Busy

variable {i : UInt16}

lemma step_eq {st : Stage} {fin : Closing} (h : Busy n i st fin s) {e : Event}
    (he : e.substream = some n) : s.step e = s.act e := by
  rw [step, he, if_pos]
  intro r hr
  cases hr
  rw [h.born]
  exact Nat.lt_succ_self n

lemma modify {st : Stage} {fin : Closing} {f : Substream → Substream} (h : Busy n i st fin s)
    (hid : (f (s.obj n)).id = (s.obj n).id) (ho : (f (s.obj n)).opener = (s.obj n).opener) :
    Busy n i (f (s.obj n)).stage (f (s.obj n)).finish (s.modify n f) where
  born := h.born
  id := by rw [obj_modify_self, hid, h.id]
  opener := by rw [obj_modify_self, ho, h.opener]
  stage := by rw [obj_modify_self]
  finish := by rw [obj_modify_self]
  table := h.table

lemma register (h : Busy n i .allocated .fresh s) :
    Busy n i .registered .fresh (s.step (.register n)) := by
  rw [h.step_eq rfl, act, Client.register, if_pos ⟨h.stage, by rw [h.opener]; simp⟩]
  have hin : Busy n i .allocated .fresh
      { s with sessions := s.sessions.insert (s.obj n).id n } := by
    refine { h with table := fun k hk => ?_ }
    rw [h.id, AList.lookup_insert_ne hk]
    exact h.table k hk
  have hmod := hin.modify (f := fun x => { x with stage := .registered, since := s.frames.length })
    rfl rfl
  rwa [hin.finish] at hmod

lemma announce (h : Busy n i .registered .fresh s) :
    Busy n i .opened .fresh (s.step (.announce n)) := by
  rw [h.step_eq rfl, act, Client.announce, if_pos (by
    rw [ready, h.stage, h.opener]
    rfl)]
  split
  case _ link _ =>
    have hlink : Busy n i .registered .fresh { s with link := link } := { h with }
    have hmod := hlink.modify (f := fun x => { x with stage := .opened }) rfl rfl
    rwa [hlink.finish] at hmod
  case _ =>
    have hmod := h.modify
      (f := fun x => { x with stage := if x.opener = .packet then .opened else .failing }) rfl rfl
    rwa [h.finish, if_pos h.opener] at hmod

lemma close (h : Busy n i .opened .fresh s) : Busy n i .opened .fresh (s.step (.close n)) := by
  rw [h.step_eq rfl, act, Client.close]
  split_ifs
  · have hlink : Busy n i .opened .fresh
        { s with link := s.link.push (.stop (s.obj n).id false) } := { h with }
    have hmod := hlink.modify (f := fun x => { x with ended := true }) rfl rfl
    rwa [hlink.finish, hlink.stage] at hmod
  · exact h

lemma stop (h : Busy n i .opened .fresh s) : Busy n i .opened .called (s.step (.stop n)) := by
  rw [h.step_eq rfl, act, Client.stop, if_pos ⟨h.finish, by rw [h.stage]; simp,
    by rw [h.opener]; simp⟩]
  have hmod := h.modify (f := fun x => { x with finish := .called }) rfl rfl
  rwa [h.stage] at hmod

lemma lookup_finish (h : Busy n i .opened .called s) (k : UInt16) :
    (s.step (.finish n)).sessions.lookup k = none := by
  rw [h.step_eq rfl, act, finishStep, h.finish]
  change (s.sessions.erase (s.obj n).id).lookup k = none
  rw [h.id]
  by_cases hk : k = i
  · rw [hk, AList.lookup_erase]
  · rw [AList.lookup_erase_ne hk]
    exact h.table k hk

end Busy

def datagram (id : UInt16) : Substream :=
  { id, opener := .packet, network := networkUDP, address := someTarget, port := 53 }

lemma step_writeTo {id : UInt16} (hfree : nextFree s.sessions (2 ^ 16) s.nextID = some id) :
    s.step (.writeTo someTarget 53) = { s with
      nextID := id
      budget := s.budget.alloc
      obj := update s.obj s.born (datagram id)
      born := s.born + 1 } := by
  rw [step, if_pos (by simp [Event.substream]), act, if_pos (by decide), allocID, hfree]
  rfl

lemma obj_writeTo {id : UInt16} (hfree : nextFree s.sessions (2 ^ 16) s.nextID = some id)
    (q : Nat) : (s.step (.writeTo someTarget 53)).obj q =
      if q = s.born then datagram id else s.obj q := by
  rw [step_writeTo hfree]
  exact update_apply s.obj s.born _ q

lemma Alone.writeTo (h : Alone n s) (hn : n < 65535) :
    ∃ i, Busy n i .allocated .fresh (s.step (.writeTo someTarget 53)) ∧
      ((s.step (.writeTo someTarget 53)).obj 0).isOpen = true := by
  obtain ⟨hfree, -⟩ := h.kept.nextFree_eq (h.born ▸ hn)
  have hnew : (s.step (.writeTo someTarget 53)).obj n = datagram (s.nextID + 1) := by
    rw [obj_writeTo hfree, if_pos h.born.symm]
  have hctl : (s.step (.writeTo someTarget 53)).obj 0 = s.obj 0 := by
    rw [obj_writeTo hfree, if_neg (h.born ▸ h.pos.ne)]
  refine ⟨s.nextID + 1, ⟨?_, ?_, ?_, ?_, ?_, fun k _ => ?_⟩, hctl ▸ h.control⟩
  · rw [step_writeTo hfree, ← h.born]
  · rw [hnew, datagram]
  · rw [hnew, datagram]
  · rw [hnew, datagram]
  · rw [hnew, datagram]
  · rw [step_writeTo hfree]
    exact h.empty k

lemma Alone.once (h : Alone n s) (hn : n < 65535) : Alone (n + 1) ((onceTo n).foldl step s) := by
  have hne : 0 ≠ n := h.pos.ne
  obtain ⟨i, hbusy, hctl⟩ := h.writeTo hn
  have hstop := hbusy.register.announce.close.stop
  have hkept := kept_step (kept_step (kept_step (kept_step (kept_step h.kept
    (.writeTo someTarget 53)) (.register n)) (.announce n)) (.close n)) (.stop n)
  simp only [onceTo, foldl_cons, foldl_nil]
  refine ⟨kept_step hkept (.finish n), Nat.succ_pos n, ?_, fun k => hstop.lookup_finish k, ?_⟩
  · rw [hstop.step_eq rfl, ((acts_act rfl).quiet hkept (by rw [hstop.born]; omega)).born, hstop.born]
  · rw [obj_step_of_ne rfl hne, obj_step_of_ne rfl hne, obj_step_of_ne rfl hne,
      obj_step_of_ne rfl hne, obj_step_of_ne rfl hne]
    exact hctl

lemma alone_targets (hn : n ≤ 65534) :
    Alone (n + 1) (((List.range n).flatMap fun k => onceTo (k + 1)).foldl step
      (step {} .startControl)) := by
  induction n with
  | zero => exact ⟨kept_step kept_init _, Nat.one_pos, rfl, fun _ => rfl, rfl⟩
  | succ n ih =>
    rw [range_succ, flatMap_append, foldl_append, flatMap_singleton]
    exact (ih (by omega)).once (by omega)

/-- After the last id comes the first: nothing in the table holds it. -/
lemma Alone.nextFree_eq_one (h : Alone 65535 s) :
    nextFree s.sessions (2 ^ 16) s.nextID = some 1 := by
  have hlast : s.nextID + 1 = 0 := by
    have := (h.kept.first h.born.le).1
    rw [← UInt16.toNat_inj, UInt16.toNat_add, this, h.born]
    rfl
  change nextFree s.sessions (65534 + 1 + 1) s.nextID = some 1
  rw [nextFree, if_pos (.inl hlast), hlast]
  exact nextFree_succ (by decide) (h.empty _) 65534

/-- The sub-stream that gets it shares it with the control sub-stream. -/
lemma Alone.not_distinct (h : Alone 65535 s) : ¬ Distinct (s.step (.writeTo someTarget 53)) := by
  intro hdis
  have hfree := h.nextFree_eq_one
  have hborn : (s.step (.writeTo someTarget 53)).born = 65535 + 1 := by
    rw [step_writeTo hfree, h.born]
  have hctl : (s.step (.writeTo someTarget 53)).obj 0 = s.obj 0 := by
    rw [obj_writeTo hfree, if_neg (h.born ▸ h.pos.ne)]
  have hnew : (s.step (.writeTo someTarget 53)).obj 65535 = datagram 1 := by
    rw [obj_writeTo hfree, if_pos h.born.symm]
  have hne := hdis 0 65535 (by rw [hborn]; decide) (by rw [hborn]; decide) (by decide)
  rw [hctl, hnew] at hne
  refine hne h.control rfl ?_
  have hid := (h.kept.first h.born.le).2 0 (h.born ▸ h.pos)
  rw [← UInt16.toNat_inj, hid]
  rfl

end

/-- **The control sub-stream is not in the table**, so that its id is given out again
after 65534 others. -/
theorem control_id_reused :
    ¬ Distinct ((.startControl :: (((List.range 65534).flatMap fun k => onceTo (k + 1)) ++
      [.writeTo someTarget 53])).foldl step {}) := by
  rw [foldl_cons, foldl_append, foldl_cons, foldl_nil]
  exact (alone_targets (le_refl 65534)).not_distinct

end Client

end Ntr.Mux
