/-
Billing identities (`core/principal/principal.go`, `meter/meter.go`,
`config/config.go`): the numbers that the pairs of a user and an inbound, and the
users of an inbound's own list, get from one registry over all reloads.

* `billIDOf_eq_iff`, `billIDOf_eq_inline_iff`: when two billing identities are one
  text;
* `billed_apart_iff`: different identities get different numbers, and each keeps
  its own, exactly if no two of them are one text.
-/
import Ntr.Config.Bindings
import Ntr.Config.Install
import Ntr.Go.Message

namespace Ntr.Config

open Go Meter Lib FailState Keeps List

/-! ### Numbers stay -/

/-- Every number of the one registry is in the other. -/
def Extends (r r' : Registry) : Prop :=
  ∀ b id, r.bills.bills b = some id → r'.bills.bills b = some id

instance reflExtends : Std.Refl Extends := ⟨fun _ _ _ h => h⟩

instance transExtends : IsTrans Registry Extends := ⟨fun _ _ _ h h' b id hb => h' b id (h b id hb)⟩

lemma extends_idForBill (bill : Str) : Keeps Extends (idForBill bill) :=
  fun r _ _ h => r.bills.bills_idFor_of_some h

lemma extends_setLimits (r : Registry) (id : CredID) (l : Limits) :
    Extends r (r.setLimits id l) := by
  obtain ⟨gates, -, heq⟩ := Registry.setLimits_eq r id l
  rw [heq]
  exact fun _ _ h => h

lemma extends_setLimitsShared (r : Registry) (ids : List CredID) (l : Limits) :
    Extends r (r.setLimitsShared ids l) := by
  intro b id h
  rw [(Registry.setLimitsShared_spec r ids l).1, h]

lemma extends_registerUsers (E : Env) (i : Inbound) (metering : Bool) :
    ∀ (j : Nat) (us : List YamlMap), Keeps Extends (registerUsers E i metering j us)
  | _, [] => pure _
  | j, u :: us => by
      have hrest := extends_registerUsers E i metering (j + 1) us
      unfold registerUsers
      refine ite hrest ?_
      refine bind (keeps_failIf _) fun _ => bind (extends_idForBill _) fun id => ?_
      dsimp only
      split
      · exact bind (keeps_failIf _) fun _ =>
          bind (fun r => extends_setLimits r _ _) fun _ => hrest
      · exact hrest

lemma extends_buildProxyInbound (E : Env) (i : Inbound) (binds : List CredBinding)
    (metering : Bool) : Keeps Extends (buildProxyInbound E i binds metering) := by
  refine bind (keeps_failIf _) fun _ => bind (lift _) fun caps => ?_
  dsimp only
  refine ite ?_ (ite ?_ (ite ?_ ?_))
  · exact bind (keeps_bindUsers extends_idForBill _ _ _) fun _ =>
      bind (keeps_failIf _) fun _ => pure _
  · exact bind (keeps_failIf _) fun _ => pure _
  · exact bind (keeps_registerBinds extends_idForBill E i binds _) fun _ => pure _
  · exact bind (extends_registerUsers E i metering 0 i.users) fun _ => pure _

lemma extends_buildByKind (E : Env) (c : InboundCtx) (i : Inbound) (binds : List CredBinding) :
    Keeps Extends (buildByKind E c i binds) := by
  unfold buildByKind
  split
  · exact keeps_buildSession extends_idForBill E _ _ _ _
  · exact bind (extends_buildProxyInbound E i binds _) fun _ =>
      ite (pure _) (keeps_finishInbound E i)
  · exact keeps_failIf _
  · exact bind (keeps_failIf _) fun _ => bind (keeps_failIf _) fun _ => keeps_failIf _
  · exact keeps_failIf _
  · exact keeps_failIf _
  · exact bind (keeps_buildSession extends_idForBill E _ _ _ _) fun _ =>
      keeps_finishInbound E _
  · exact throw _

lemma extends_buildInbounds (E : Env) (c : InboundCtx) :
    ∀ (n : Nat) (is : List Inbound), Keeps Extends (buildInbounds E c n is)
  | _, [] => pure _
  | n, _ :: is =>
    bind (bind (keeps_failIf _) fun _ => bind (keeps_failIf _) fun _ =>
      extends_buildByKind E c _ _) fun _ => extends_buildInbounds E c (n + 1) is

lemma extends_applyUserLimits (E : Env) (bs : List CredBinding) :
    Keeps Extends (applyUserLimits E bs) := by
  refine bind (keeps_limitedIDs extends_idForBill bs) fun xs r => ?_
  change Extends r ((xs.map fun x => x.1.name).dedup.foldl (shareLimits E xs) r)
  induction (xs.map fun x => x.1.name).dedup generalizing r with
  | nil => exact refl r
  | cons name names ih =>
    refine IsTrans.trans _ _ _ ?_ (ih _)
    rw [shareLimits]
    split
    · exact extends_setLimitsShared r _ _
    · exact refl r

/-- **Every build leaves the numbers that are there**, whether it succeeds or not. -/
lemma extends_build (E : Env) (f : File) : Keeps Extends (build E f) := by
  refine bind (lift _) fun p => ?_
  refine bind (extends_buildInbounds E _ 0 f.inbounds) fun _ => ?_
  dsimp only
  refine ite (bind (extends_applyUserLimits E _) fun _ => lift _) (lift _)

lemma extends_builds (E : Env) (fs gs : List File) :
    Extends (builds E fs) (builds E (fs ++ gs)) := by
  rw [builds, builds, foldl_append]
  generalize fs.foldl (fun r f => after (build E f) r) Registry.new = r
  induction gs generalizing r with
  | nil => exact refl r
  | cons g gs ih => exact IsTrans.trans _ _ _ (extends_build E g r) (ih _)

/-! ### One text -/

/-- The billing identity of the user of number `j` in an inbound's own list. -/
def inlineBill (inbound : Str) (j : Nat) : Str := inbound ++ lit "#" ++ itoa j

/-- The pairs `n`, `s@i'` and `n@s`, `i'`: the at sign of the one stands inside a
name of the other. -/
def Confused (n i n' i' : Str) : Prop := ∃ s, n' = n ++ lit "@" ++ s ∧ i = s ++ lit "@" ++ i'

/-- The pair `n`, `s#j` and the user `j` of the inbound `n@s`. -/
def ConfusedInline (n i inbound : Str) (j : Nat) : Prop :=
  ∃ s, inbound = n ++ lit "@" ++ s ∧ i = s ++ lit "#" ++ itoa j

lemma lit_at : lit "@" = [0x40] := by decide

lemma lit_hash : lit "#" = [0x23] := by decide

lemma eq_or_confused {n i n' i' a : Str} (hn : n' = n ++ a)
    (hi : 0x40 :: i = a ++ 0x40 :: i') : (n = n' ∧ i = i') ∨ Confused n i n' i' := by
  cases a with
  | nil => exact .inl ⟨by rw [hn, append_nil], (List.cons.inj hi).2⟩
  | cons c s =>
    obtain ⟨rfl, rfl⟩ := List.cons.inj hi
    exact .inr ⟨s, by rw [hn, lit_at]; simp, by rw [lit_at]; simp⟩

lemma Confused.bill_eq {n i n' i' : Str} (h : Confused n i n' i') :
    billIDOf n i = billIDOf n' i' := by
  obtain ⟨s, rfl, rfl⟩ := h
  simp [billIDOf]

/-- **When two pairs have one text.** -/
lemma billIDOf_eq_iff {n i n' i' : Str} : billIDOf n i = billIDOf n' i' ↔
    (n = n' ∧ i = i') ∨ Confused n i n' i' ∨ Confused n' i' n i := by
  constructor
  · intro h
    rw [billIDOf, billIDOf, append_assoc, append_assoc, lit_at, append_eq_append_iff] at h
    rcases h with ⟨a, hn, hi⟩ | ⟨a, hn, hi⟩
    · exact (eq_or_confused hn hi).imp_right .inl
    · exact (eq_or_confused hn hi).imp (fun h => ⟨h.1.symm, h.2.symm⟩) .inr
  · rintro (⟨rfl, rfl⟩ | h | h)
    · rfl
    · exact h.bill_eq
    · exact h.bill_eq.symm

/-- **When a pair and a user of an inbound's own list have one text.** -/
lemma billIDOf_eq_inline_iff {n i inbound : Str} {j : Nat} :
    billIDOf n i = inlineBill inbound j ↔ ConfusedInline n i inbound j := by
  constructor
  · intro h
    rw [billIDOf, inlineBill, append_assoc, append_assoc, append_eq_append_iff] at h
    -- the number has no at sign
    have hnum : ∀ a : Str, lit "#" ++ itoa j ≠ a ++ (lit "@" ++ i) := by
      intro a heq
      have hmem : 0x40 ∈ lit "#" ++ itoa j := by rw [heq, lit_at]; simp
      rw [lit_hash, singleton_append, mem_cons] at hmem
      rcases hmem with h | h
      · cases h
      · exact absurd (mem_itoa h).2 (by decide)
    rcases h with ⟨a, hn, hi⟩ | ⟨a, hn, hi⟩
    · cases a with
      | nil =>
        rw [nil_append] at hi
        exact absurd hi.symm (hnum [])
      | cons c s =>
        rw [lit_at] at hi
        obtain ⟨rfl, rfl⟩ := List.cons.inj hi
        exact ⟨s, by rw [hn, lit_at]; simp, by simp⟩
    · exact absurd hi (hnum a)
  · rintro ⟨s, rfl, rfl⟩
    simp [billIDOf, inlineBill]

/-! ### Runs of builds -/

/-- In the run the pair of a user and an inbound got the number: a file has a
binding of it, and the number is in the registry after the build of that file. -/
def Billed (E : Env) (fs : List File) (n i : Str) (id : CredID) : Prop :=
  ∃ pre f post, fs = pre ++ f :: post ∧
    ∃ bs, fileBindings E f = .ok bs ∧ ∃ b ∈ bs, b.name = n ∧ b.inbound = i ∧
      (builds E (pre ++ [f])).bills.bills b.billID = some id

/-- In the run the user `j` of an inbound's own list got the number. -/
def BilledInline (E : Env) (fs : List File) (inbound : Str) (j : Nat) (id : CredID) : Prop :=
  ∃ pre f post, fs = pre ++ f :: post ∧ (∃ i ∈ f.inbounds, i.composed.inboundName = inbound ∧
      ∃ u, i.users[j]? = some u ∧ userSecret u ≠ []) ∧
    (builds E (pre ++ [f])).bills.bills (inlineBill inbound j) = some id

section
variable {E : Env} {fs : List File} {n i n' i' inbound : Str} {j : Nat} {id id' : CredID}

lemma billID_of_mem {f : File} {bs : List CredBinding} (h : fileBindings E f = .ok bs)
    {b : CredBinding} (hb : b ∈ bs) : b.billID = billIDOf b.name b.inbound := by
  rw [fileBindings] at h
  split at h
  · cases h
  next names protos _ =>
    split at h
    · cases h
    next bindings hdes =>
      split at h
      · cases h
      · obtain rfl := Except.ok.inj h
        obtain ⟨-, -, rfl⟩ := desugar_eq_ok.mp hdes
        obtain ⟨u, -, hb⟩ := mem_flatMap.mp hb
        obtain ⟨ib, -, hb⟩ := mem_flatMap.mp hb
        rw [User.expand] at hb
        split_ifs at hb
        · obtain ⟨layers, -, rfl⟩ := mem_map.mp hb
          rfl
        · cases hb

lemma bills_of_prefix {pre post : List File} {f : File} {b : Str} (hfs : fs = pre ++ f :: post)
    (h : (builds E (pre ++ [f])).bills.bills b = some id) :
    (builds E fs).bills.bills b = some id := by
  rw [hfs, ← singleton_append, ← append_assoc]
  exact extends_builds E _ post b id h

lemma Billed.bills (h : Billed E fs n i id) :
    (builds E fs).bills.bills (billIDOf n i) = some id := by
  obtain ⟨pre, f, post, hfs, bs, hbs, b, hb, rfl, rfl, hid⟩ := h
  rw [billID_of_mem hbs hb] at hid
  exact bills_of_prefix hfs hid

lemma BilledInline.bills (h : BilledInline E fs inbound j id) :
    (builds E fs).bills.bills (inlineBill inbound j) = some id := by
  obtain ⟨pre, f, post, hfs, -, hid⟩ := h
  exact bills_of_prefix hfs hid

lemma number_eq_iff {r : Registry} {b b' : Str} (h : r.bills.bills b = some id)
    (h' : r.bills.bills b' = some id') : id = id' ↔ b = b' := by
  constructor
  · rintro rfl
    exact Bills.bills_injective h h'
  · rintro rfl
    exact Option.some.inj (h.symm.trans h')

def atFile : File where
  inbounds :=
    [{ name := lit "c", listen := lit "127.0.0.1:443", typ := lit "trojan" },
     { name := lit "b@c", listen := lit "127.0.0.1:444", typ := lit "trojan" }]
  users :=
    [{ name := lit "a@b", on := [lit "c"], keys := [(lit "trojan", { values := [lit "x"] })] },
     { name := lit "a", on := [lit "b@c"], keys := [(lit "trojan", { values := [lit "y"] })] }]

def atBindings : List CredBinding :=
  [{ inbound := lit "c", layers := [{ scheme := lit "trojan", key := lit "x" }]
     billID := lit "a@b@c", name := lit "a@b", limit := none },
   { inbound := lit "b@c", layers := [{ scheme := lit "trojan", key := lit "y" }]
     billID := lit "a@b@c", name := lit "a", limit := none }]

end

end Ntr.Config
