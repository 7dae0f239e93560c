/-
Whether a configuration builds, and with which error, does not depend on the
registry that `Build` is handed.

The registry enters the errors in one place: two bindings of an inbound with
the same authentication key clash if their numbers differ. As different bills
have different numbers, the check reads the same on a table of bills.

* `steady_build`: the outcome of `build` is the same on every registry.
-/
import Ntr.Config.Build
import Ntr.Meter.Limits

namespace Ntr.Config

open Go Meter Lib FailState Steady

/-! ### Loops over bindings and users -/

lemma steady_failIf (err : Option Err) : Steady (failIf err) := by
  cases err with
  | none => exact pure _
  | some err => exact throw _

@[simp]
lemma after_failIf (err : Option Err) (r : Registry) : after (failIf err) r = r := by
  cases err <;> rfl

lemma outcome_failIf (err : Option Err) (r : Registry) :
    outcome (failIf err) r = match err with | some err => .error err | none => .ok () := by
  cases err <;> rfl

lemma steady_bindUsers (refuse : CredBinding → Option Err) :
    ∀ (bs : List CredBinding) (seen : Str → Nat), Steady (bindUsers refuse bs seen)
  | [], _ => pure _
  | b :: bs, seen => by
      refine bind (steady_failIf _) fun _ => step_bind fun _ _ => ?_
      exact bind (steady_bindUsers refuse bs _) fun _ => pure _

/-- The authentication table of an inbound by bills: the bill under a scheme
and a key. -/
abbrev BillTable := Str × Str → Option Str

/-- The table of numbers `auth` is the table of bills `t`, read through the
registry. -/
def Reads (r : Registry) (t : BillTable) (auth : AuthTable) : Prop :=
  ∀ k, match t k with
    | none => auth k = none
    | some bill => ∃ id, r.bills.bills bill = some id ∧ auth k = some id

lemma Reads.idForBill {r : Registry} {t : BillTable} {auth : AuthTable} (h : Reads r t auth)
    (bill : Str) : Reads (r.idForBill bill).2 t auth := by
  intro k
  have hk := h k
  cases ht : t k with
  | none => simpa [ht] using hk
  | some bill' =>
    simp only [ht] at hk ⊢
    obtain ⟨id, hid, hauth⟩ := hk
    exact ⟨id, Bills.bills_idFor_of_some hid, hauth⟩

lemma Reads.update {r : Registry} {t : BillTable} {auth : AuthTable} (h : Reads r t auth)
    {bill : Str} {id : CredID} (hid : r.bills.bills bill = some id) (k : Str × Str) :
    Reads r (Function.update t k (some bill)) (Function.update auth k (some id)) := by
  intro k'
  by_cases hk : k' = k
  · simp [hk, hid]
  · simpa [hk] using h k'

/-- The loop over the layers of a binding, on the table by bills. -/
def claimBill (E : Env) (i : Inbound) (billID : Str) :
    List AuthLayer → BillTable → Except Err BillTable
  | [], t => .ok t
  | l :: ls, t =>
    match E.authKey i l.key with
    | .error err => .error (inboundErr i.inboundName (lit " 凭据 " ++ billID ++ lit ":" ++ err))
    | .ok key =>
      match t (l.scheme, key) with
      | some other =>
        if other ≠ billID then
          .error (inboundErr i.inboundName (lit " 凭据 " ++ billID ++ lit " 与 " ++ other ++
            lit " 派生出同一鉴权键 (E-KEY-DUP)"))
        else claimBill E i billID ls (Function.update t (l.scheme, key) (some billID))
      | none => claimBill E i billID ls (Function.update t (l.scheme, key) (some billID))

/-- The loop over the layers finds a key taken exactly if another bill has it. -/
lemma registerLayers_spec (E : Env) (i : Inbound) {billID : Str} {id : CredID} {r : Registry}
    (hid : r.bills.bills billID = some id) :
    ∀ (ls : List AuthLayer) {t : BillTable} {auth : AuthTable}, Reads r t auth →
      after (registerLayers E i billID id ls auth) r = r ∧
      match claimBill E i billID ls t with
      | .error err => outcome (registerLayers E i billID id ls auth) r = .error err
      | .ok t' => ∃ auth', outcome (registerLayers E i billID id ls auth) r = .ok auth' ∧
          Reads r t' auth'
  | [], t, auth, h => ⟨rfl, auth, rfl, h⟩
  | l :: ls, t, auth, h => by
      unfold registerLayers claimBill
      cases hkey : E.authKey i l.key with
      | error err => simp [after_bind, outcome_bind]
      | ok key =>
        have hrec := registerLayers_spec E i hid ls (h.update hid (l.scheme, key))
        have hk := h (l.scheme, key)
        simp only [outcome_bind, after_bind, outcome_lift, after_lift]
        cases ht : t (l.scheme, key) with
        | none =>
          simp only [ht] at hk
          simpa only [hk] using hrec
        | some other =>
          simp only [ht] at hk
          obtain ⟨prev, hprev, hauth⟩ := hk
          by_cases hne : other = billID
          · have hsame : prev = id := by
              rw [hne, hid] at hprev
              exact (Option.some.inj hprev).symm
            simpa only [hauth, hne, hsame, ne_eq, not_true, if_false] using hrec
          · have hdiff : prev ≠ id := by
              rintro rfl
              exact hne (Bills.bills_injective hprev hid)
            have hlabel : r.bill prev = other := by
              simp [Registry.bill, (r.bills.bills_iff other prev).mp hprev]
            simp [hauth, hdiff, hne, outcome_bind, after_bind, hlabel]

/-- The loop over the bindings, on the table by bills. -/
def claimBills (E : Env) (i : Inbound) : List CredBinding → BillTable → Except Err Unit
  | [], _ => .ok ()
  | b :: bs, t =>
    match claimBill E i b.billID b.layers t with
    | .error err => .error err
    | .ok t => claimBills E i bs t

lemma outcome_registerBinds (E : Env) (i : Inbound) :
    ∀ (bs : List CredBinding) {r : Registry} {t : BillTable} {auth : AuthTable}, Reads r t auth →
      outcome (registerBinds E i bs auth) r = claimBills E i bs t
  | [], _, _, _, _ => rfl
  | b :: bs, r, t, auth, h => by
      obtain ⟨hafter, hout⟩ := registerLayers_spec E i (r.bills_idForBill b.billID)
        b.layers (h.idForBill b.billID)
      unfold registerBinds claimBills
      simp only [outcome_bind, idForBill, outcome_step, after_step]
      cases hclaim : claimBill E i b.billID b.layers t with
      | error err =>
        simp only [hclaim] at hout
        rw [hout]
      | ok t' =>
        simp only [hclaim] at hout
        obtain ⟨auth', hauth', hreads⟩ := hout
        rw [hauth', hafter]
        exact outcome_registerBinds E i bs hreads

lemma steady_registerBinds (E : Env) (i : Inbound) (bs : List CredBinding) :
    Steady (registerBinds E i bs fun _ => none) := by
  have hreads : ∀ r, Reads r (fun _ => none) fun _ => none := fun _ _ => rfl
  intro r r'
  rw [outcome_registerBinds E i bs (hreads r), outcome_registerBinds E i bs (hreads r')]

lemma steady_registerUsers (E : Env) (i : Inbound) (metering : Bool) :
    ∀ (j : Nat) (us : List YamlMap), Steady (registerUsers E i metering j us)
  | _, [] => pure _
  | j, u :: us => by
      have hrec := steady_registerUsers E i metering (j + 1) us
      unfold registerUsers
      split
      · exact hrec
      · refine bind (steady_failIf _) fun _ => step_bind fun id id' => ?_
        cases parseUserLimits E u with
        | none => exact hrec
        | some l =>
          intro r r'
          simp only [outcome_bind, outcome_failIf, after_failIf]
          split
          · exact hrec _ _
          · rfl

/-! ### Inbounds -/

lemma steady_buildProxyInbound (E : Env) (i : Inbound) (binds : List CredBinding)
    (metering : Bool) : Steady (buildProxyInbound E i binds metering) := by
  refine bind (steady_failIf _) fun _ => bind (lift _) fun caps => ?_
  split_ifs
  · exact bind (steady_bindUsers _ _ _) fun _ =>
      bind (steady_failIf _) fun _ => pure _
  · exact bind (steady_failIf _) fun _ => pure _
  · exact bind (steady_failIf _) fun _ => pure _
  · exact bind (steady_registerBinds E i binds) fun _ => pure _
  · exact bind (steady_registerUsers E i metering 0 _) fun _ => pure _

lemma steady_sessionPluginEnv (E : Env) (i : Inbound) (binds : List CredBinding)
    (metering : Bool) : Steady (sessionPluginEnv E i binds metering) := by
  refine bind (steady_failIf _) fun _ => bind (lift _) fun _ => ?_
  split_ifs
  · exact bind (steady_bindUsers _ _ _) fun _ =>
      bind (steady_failIf _) fun _ => pure _
  · exact bind (pure _) fun _ => bind (steady_failIf _) fun _ => pure _

lemma steady_buildSession (E : Env) (new : Inbound → List SessionUser → Option Err) (i : Inbound)
    (binds : List CredBinding) (metering : Bool) : Steady (buildSession E new i binds metering) :=
  mapErr (bind (steady_sessionPluginEnv E i binds metering) fun _ => steady_failIf _)

lemma steady_finishInbound (E : Env) (i : Inbound) : Steady (finishInbound E i) :=
  bind (lift _) fun _ => pure _

lemma steady_buildByKind (E : Env) (c : InboundCtx) (i : Inbound) (binds : List CredBinding) :
    Steady (buildByKind E c i binds) := by
  unfold buildByKind
  cases i.kind E with
  | plugin => exact steady_buildSession E _ i binds _
  | stack =>
    exact bind (steady_buildProxyInbound E i binds _) fun _ =>
      ite (pure _) (steady_finishInbound E i)
  | dns => exact steady_failIf _
  | tun =>
    exact bind (steady_failIf _) fun _ => bind (steady_failIf _) fun _ =>
      steady_failIf _
  | tunnel => exact steady_failIf _
  | transparent => exact steady_failIf _
  | handler =>
    exact bind (steady_buildSession E _ i binds _) fun _ => steady_finishInbound E i
  | unknown => exact throw _

lemma steady_buildInbound (E : Env) (c : InboundCtx) (n : Nat) (i : Inbound) :
    Steady (buildInbound E c n i) :=
  bind (steady_failIf _) fun _ => bind (steady_failIf _) fun _ =>
    steady_buildByKind E c _ _

lemma steady_buildInbounds (E : Env) (c : InboundCtx) :
    ∀ (n : Nat) (is : List Inbound), Steady (buildInbounds E c n is)
  | _, [] => pure _
  | n, i :: is =>
    bind (steady_buildInbound E c n i) fun _ => steady_buildInbounds E c (n + 1) is

/-! ### The whole -/

lemma outcome_limitedIDs : ∀ (bs : List CredBinding) (r : Registry),
    ∃ xs, outcome (limitedIDs bs) r = .ok xs ∧ xs.map (·.1) = bs.filter fun b => b.limit.isSome
  | [], _ => ⟨[], rfl, rfl⟩
  | b :: bs, r => by
      unfold limitedIDs
      cases hb : b.limit with
      | none =>
        obtain ⟨xs, hxs, hmap⟩ := outcome_limitedIDs bs r
        exact ⟨xs, by simpa using hxs, by simpa [hb] using hmap⟩
      | some l =>
        obtain ⟨xs, hxs, hmap⟩ := outcome_limitedIDs bs (r.idForBill b.billID).2
        refine ⟨(b, (r.idForBill b.billID).1) :: xs, ?_, by simpa [hb] using hmap⟩
        simp only [Option.isNone_some, Bool.false_eq_true, if_false, outcome_bind, idForBill,
          outcome_step, after_step, hxs, outcome_pure]

lemma outcome_applyUserLimits (E : Env) (bs : List CredBinding) (r : Registry) :
    outcome (applyUserLimits E bs) r = .ok () := by
  obtain ⟨xs, hxs, -⟩ := outcome_limitedIDs bs r
  simp [applyUserLimits, outcome_bind, hxs]

lemma steady_applyUserLimits (E : Env) (bs : List CredBinding) : Steady (applyUserLimits E bs) :=
  fun r r' => by rw [outcome_applyUserLimits, outcome_applyUserLimits]

lemma steady_build (E : Env) (f : File) : Steady (build E f) := by
  refine bind (lift _) fun p => bind (steady_buildInbounds E _ 0 _) fun _ => ?_
  split_ifs
  · exact bind (steady_applyUserLimits E _) fun _ => lift _
  · exact bind (pure _) fun _ => lift _

lemma outcome_build {E : Env} {f : File} {p : Prepared} (hp : prepare E f = .ok p) (r : Registry) :
    outcome (build E f) r =
      match outcome (buildInbounds E (p.ctx f) 0 f.inbounds) r with
      | .error err => .error err
      | .ok _ => lastInstances E f p := by
  rw [build, outcome_bind, outcome_lift, hp]
  simp only [after_lift, outcome_bind]
  cases outcome (buildInbounds E (p.ctx f) 0 f.inbounds) r with
  | error err => rfl
  | ok u =>
    cases f.metering with
    | false => rfl
    | true => simp only [if_true, outcome_bind, outcome_applyUserLimits, outcome_lift]

end Ntr.Config
