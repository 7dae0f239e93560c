/-
The fake-ip pool (`dns/fakeip.go`): domains get addresses of a range, from a ring.

* `FakeIPPool`, `newFakeIPPool`, `alloc`, `lookup`: the pool, its two families as one
  definition;
* `sound_iff`: addresses lead back to their domains after every run exactly when no
  range has an IPv4-mapped address, for `lookup` unmaps the address that it is asked
  for.
-/
import Ntr.Lib.Ring
import Ntr.Go.NetipRange
import Ntr.Go.Encoding

namespace Ntr.Dns

open Go RingHistory

/-! ### The pool -/

/-- The address families, IPv4 for `TypeA` and IPv6 for `TypeAAAA`. -/
inductive Family where
  | v4
  | v6
  deriving DecidableEq

def typeA : UInt16 := 1

def typeAAAA : UInt16 := 28

/-- The `switch` of `alloc`. -/
def familyOf (qtype : UInt16) : Option Family :=
  if qtype = typeA then some .v4 else if qtype = typeAAAA then some .v6 else none

def Family.qtype : Family → UInt16
  | v4 => typeA
  | v6 => typeAAAA

lemma familyOf_qtype (f : Family) : familyOf f.qtype = some f := by cases f <;> decide

/-- `FakeIPConfig`; a missing range is the zero prefix. -/
structure FakeIPConfig where
  inet4 : Prefix
  inet6 : Prefix := ⟨.zero, 0⟩
  exclude : List Str := []

namespace FakeIPConfig

def range (cfg : FakeIPConfig) : Family → Prefix
  | .v4 => cfg.inet4
  | .v6 => cfg.inet6

/-- The tests by which `newFakeIPPool` takes a range. -/
def on (cfg : FakeIPConfig) : Family → Bool
  | .v4 => cfg.inet4.isValid && cfg.inet4.ip.unmap.is4
  | .v6 => cfg.inet6.isValid && cfg.inet6.ip.is6 && !cfg.inet6.ip.is4In6

end FakeIPConfig

/-- The fields of one family: `have4`, `p4`, `cur4`, `d2v4`, or those of IPv6. -/
structure Side where
  on : Bool := false
  pfx : Prefix := ⟨.zero, 0⟩
  cur : Addr := .zero
  d2v : Str → Option Addr := fun _ => none

structure FakeIPPool where
  side : Family → Side
  ip2d : Addr → Option Str
  exclude : List Str

def dot : Str := lit "."

def newFakeIPPool (U : Unicode) (cfg : FakeIPConfig) : FakeIPPool where
  side f :=
    if cfg.on f then { on := true, pfx := (cfg.range f).masked, cur := (cfg.range f).masked.ip.next }
    else {}
  ip2d _ := none
  exclude := (cfg.exclude.map fun e => toLower U (trimSuffix (trimSpace e) dot)).filter (· ≠ [])

def wrapNext (ip : Addr) (pfx : Prefix) : Addr :=
  let n := ip.next
  if !n.isValid || !pfx.contains n then pfx.ip.next else n

namespace FakeIPPool

def excluded (p : FakeIPPool) (name : Str) : Bool :=
  let host := trimSuffix name dot
  p.exclude.any fun suf => host == suf || hasSuffix host (dot ++ suf)

def evictLocked (p : FakeIPPool) (ip : Addr) : FakeIPPool :=
  match p.ip2d ip with
  | none => p
  | some old =>
    { p with
      ip2d := Function.update p.ip2d ip none
      side := fun f =>
        -- A missing key gives the zero address in the comparison.
        if ((p.side f).d2v old).getD .zero = ip then
          { p.side f with d2v := Function.update (p.side f).d2v old none }
        else p.side f }

def setCur (p : FakeIPPool) (f : Family) (ip : Addr) : FakeIPPool :=
  { p with side := fun g => if g = f then { p.side g with cur := ip } else p.side g }

/-- A domain and an address are entered into the two maps. -/
def enter (p : FakeIPPool) (f : Family) (host : Str) (ip : Addr) : FakeIPPool :=
  { p with
    side := fun g =>
      if g = f then { p.side g with d2v := Function.update (p.side g).d2v host (some ip) }
      else p.side g
    ip2d := Function.update p.ip2d ip (some host) }

/-- A branch of `alloc`: the address of a host in one family. -/
def allocIn (p : FakeIPPool) (f : Family) (host : Str) : Option Addr × FakeIPPool :=
  if (p.side f).on then
    match (p.side f).d2v host with
    | some ip => (some ip, p)
    | none =>
      let ip := (p.side f).cur
      (some ip, ((p.setCur f (wrapNext ip (p.side f).pfx)).evictLocked ip).enter f host ip)
  else (none, p)

def alloc (p : FakeIPPool) (name : Str) (qtype : UInt16) : Option Addr × FakeIPPool :=
  match familyOf qtype with
  | some f => p.allocIn f (trimSuffix name dot)
  | none => (none, p)

def lookup (p : FakeIPPool) (ip : Addr) : Option Str := p.ip2d ip.unmap

/-! ### Runs -/

/-- A call of `alloc`: a name and a type. -/
abbrev Query := Str × UInt16

def after (p : FakeIPPool) (xs : List Query) : FakeIPPool :=
  xs.foldl (fun p x => (p.alloc x.1 x.2).2) p

/-- The domain that an allocation gives a new address in a family, if it does. -/
def taken (p : FakeIPPool) (f : Family) (x : Query) : List Str :=
  if familyOf x.2 = some f ∧ (p.side f).on = true ∧ (p.side f).d2v (trimSuffix x.1 dot) = none
  then [trimSuffix x.1 dot] else []

/-- The domains that took a new address of a family in a run, in their order. -/
def fresh (f : Family) (p : FakeIPPool) : List Query → List Str
  | [] => []
  | x :: xs => p.taken f x ++ fresh f (p.alloc x.1 x.2).2 xs

lemma after_concat (p : FakeIPPool) (xs : List Query) (x : Query) :
    p.after (xs ++ [x]) = ((p.after xs).alloc x.1 x.2).2 := by
  rw [after, List.foldl_append]
  rfl

lemma fresh_concat (f : Family) (p : FakeIPPool) (xs : List Query) (x : Query) :
    fresh f p (xs ++ [x]) = fresh f p xs ++ (p.after xs).taken f x := by
  induction xs generalizing p with
  | nil => simp [fresh, after]
  | cons y ys ih =>
    rw [List.cons_append, fresh, ih, fresh, List.append_assoc]
    rfl

end FakeIPPool

/-! ### What holds of the pool -/

namespace FakeIPConfig

/-- The addresses of a family that the ring goes through. -/
def ring (cfg : FakeIPConfig) (f : Family) (k : Nat) : Addr :=
  (cfg.range f).masked.usable (k % (cfg.range f).masked.slots)

def size (cfg : FakeIPConfig) (f : Family) : Nat := (cfg.range f).masked.slots

/-- Every range that is taken has two addresses or more. -/
def TwoOrMore (cfg : FakeIPConfig) : Prop :=
  ∀ f, cfg.on f = true → (cfg.range f).bits < (cfg.range f).ip.bitLen

end FakeIPConfig

open FakeIPPool

structure Sound (U : Unicode) (cfg : FakeIPConfig) (xs : List Query) : Prop where
  /-- An address that is handed out is in its range and not the network address. -/
  inRange : ∀ f name qtype ip, familyOf qtype = some f →
    (((newFakeIPPool U cfg).after xs).alloc name qtype).1 = some ip →
      (cfg.range f).contains ip = true ∧ ip ≠ (cfg.range f).masked.ip
  /-- The two maps of a family are inverse to each other. -/
  inverse : ∀ f d ip, cfg.on f = true →
    ((((newFakeIPPool U cfg).after xs).side f).d2v d = some ip ↔
      ((newFakeIPPool U cfg).after xs).ip2d ip = some d ∧ (cfg.range f).contains ip = true)
  /-- A live domain keeps its address, and nothing changes. -/
  stable : ∀ f name qtype ip, familyOf qtype = some f →
    (((newFakeIPPool U cfg).after xs).side f).d2v (trimSuffix name dot) = some ip →
      ((newFakeIPPool U cfg).after xs).alloc name qtype =
        (some ip, (newFakeIPPool U cfg).after xs)
  /-- The address of a live domain gives the domain back. -/
  reverse : ∀ f d ip, (((newFakeIPPool U cfg).after xs).side f).d2v d = some ip →
    ((newFakeIPPool U cfg).after xs).lookup ip = some d
  /-- A domain loses its address only to the allocation that gets this address,
  after every address of the ring was handed out since. -/
  lost : ∀ f d ip x, (((newFakeIPPool U cfg).after xs).side f).d2v d = some ip →
    (((newFakeIPPool U cfg).after (xs ++ [x])).side f).d2v d ≠ some ip →
      (((newFakeIPPool U cfg).after xs).alloc x.1 x.2).1 = some ip ∧
        ∃ k, (fresh f (newFakeIPPool U cfg) xs)[k]? = some d ∧
          k + cfg.size f = (fresh f (newFakeIPPool U cfg) xs).length

/-! ### One allocation -/

namespace FakeIPPool

variable {p : FakeIPPool} {f g : Family} {d host : Str} {ip a : Addr}

/-- The reverse map holds what the forward maps hold. -/
def Inverse (p : FakeIPPool) : Prop :=
  ∀ ip d, p.ip2d ip = some d ↔ ∃ f, (p.side f).d2v d = some ip

lemma evictLocked_d2v (h : p.Inverse) (hip : ip ≠ .zero) :
    (((p.evictLocked ip).side g).d2v d = some a ↔ (p.side g).d2v d = some a ∧ a ≠ ip) := by
  rw [evictLocked]
  cases hold : p.ip2d ip with
  | none =>
    refine ⟨fun hd => ⟨hd, ?_⟩, And.left⟩
    rintro rfl
    rw [(h a d).mpr ⟨g, hd⟩] at hold
    cases hold
  | some old =>
    have honly : (p.side g).d2v d = some ip → d = old := fun hd =>
      Option.some.inj (((h ip d).mpr ⟨g, hd⟩).symm.trans hold)
    dsimp only
    split_ifs with hg
    · -- the family of the old domain
      have hold' : (p.side g).d2v old = some ip := by
        cases hd : (p.side g).d2v old with
        | none => rw [hd] at hg; exact absurd hg.symm hip
        | some b => rw [hd] at hg; exact congrArg some hg
      dsimp only
      by_cases hdo : d = old
      · subst hdo
        rw [Function.update_self]
        constructor
        · intro hn
          cases hn
        · rintro ⟨hd, hne⟩
          exact absurd (Option.some.inj (hd.symm.trans hold')) hne
      · rw [Function.update_of_ne hdo]
        refine ⟨fun hd => ⟨hd, ?_⟩, And.left⟩
        rintro rfl
        exact hdo (honly hd)
    · refine ⟨fun hd => ⟨hd, ?_⟩, And.left⟩
      rintro rfl
      rw [honly hd] at hd
      rw [hd] at hg
      exact hg rfl

lemma evictLocked_ip2d {x : Addr} :
    ((p.evictLocked ip).ip2d x = some d ↔ p.ip2d x = some d ∧ x ≠ ip) := by
  rw [evictLocked]
  cases hold : p.ip2d ip with
  | none =>
    refine ⟨fun hd => ⟨hd, ?_⟩, And.left⟩
    rintro rfl
    rw [hd] at hold
    cases hold
  | some old =>
    by_cases hx : x = ip
    · simp [hx]
    · simp [hx]

@[simp] lemma evictLocked_on : ((p.evictLocked ip).side g).on = (p.side g).on := by
  rw [evictLocked]
  cases p.ip2d ip with
  | none => rfl
  | some old => dsimp only; split_ifs <;> rfl

@[simp] lemma evictLocked_pfx : ((p.evictLocked ip).side g).pfx = (p.side g).pfx := by
  rw [evictLocked]
  cases p.ip2d ip with
  | none => rfl
  | some old => dsimp only; split_ifs <;> rfl

@[simp] lemma evictLocked_cur : ((p.evictLocked ip).side g).cur = (p.side g).cur := by
  rw [evictLocked]
  cases p.ip2d ip with
  | none => rfl
  | some old => dsimp only; split_ifs <;> rfl

@[simp] lemma setCur_d2v : ((p.setCur f ip).side g).d2v = (p.side g).d2v := by
  rw [setCur]; dsimp only; split_ifs <;> rfl

@[simp] lemma setCur_on : ((p.setCur f ip).side g).on = (p.side g).on := by
  rw [setCur]; dsimp only; split_ifs <;> rfl

@[simp] lemma setCur_pfx : ((p.setCur f ip).side g).pfx = (p.side g).pfx := by
  rw [setCur]; dsimp only; split_ifs <;> rfl

@[simp] lemma setCur_cur : ((p.setCur f ip).side g).cur = if g = f then ip else (p.side g).cur := by
  rw [setCur]; dsimp only; split_ifs <;> rfl

@[simp] lemma setCur_ip2d : (p.setCur f ip).ip2d = p.ip2d := rfl

@[simp] lemma enter_d2v : ((p.enter f host ip).side g).d2v d =
    if g = f ∧ d = host then some ip else (p.side g).d2v d := by
  rw [enter]
  by_cases hg : g = f
  · by_cases hd : d = host
    · simp [hg, hd]
    · simp [hg, hd]
  · simp [hg]

@[simp] lemma enter_on : ((p.enter f host ip).side g).on = (p.side g).on := by
  rw [enter]; dsimp only; split_ifs <;> rfl

@[simp] lemma enter_pfx : ((p.enter f host ip).side g).pfx = (p.side g).pfx := by
  rw [enter]; dsimp only; split_ifs <;> rfl

@[simp] lemma enter_cur : ((p.enter f host ip).side g).cur = (p.side g).cur := by
  rw [enter]; dsimp only; split_ifs <;> rfl

@[simp] lemma enter_ip2d {x : Addr} :
    (p.enter f host ip).ip2d x = if x = ip then some host else p.ip2d x := by
  rw [enter]
  by_cases hx : x = ip <;> simp [hx]

lemma Inverse.setCur (h : p.Inverse) : (p.setCur f ip).Inverse := by
  intro x d
  simp only [setCur_d2v, setCur_ip2d]
  exact h x d

/-- What an allocation enters for a domain that is not live: the cursor's address
goes to the domain, whoever had it loses it, and nothing else changes. -/
lemma allocIn_d2v (h : p.Inverse) (hon : (p.side f).on = true)
    (hhost : (p.side f).d2v host = none) (hip : (p.side f).cur ≠ .zero) :
    ((p.allocIn f host).2.side g).d2v d = some a ↔
      g = f ∧ d = host ∧ a = (p.side f).cur ∨ (p.side g).d2v d = some a ∧ a ≠ (p.side f).cur := by
  rw [allocIn, if_pos hon, hhost]
  dsimp only
  rw [enter_d2v]
  split_ifs with hnew
  · obtain ⟨rfl, rfl⟩ := hnew
    simp [hhost, eq_comm]
  · rw [evictLocked_d2v h.setCur hip, setCur_d2v]
    constructor
    · exact .inr
    · rintro (⟨hg, hd, -⟩ | hold)
      · exact absurd ⟨hg, hd⟩ hnew
      · exact hold

lemma allocIn_ip2d {x : Addr} (hon : (p.side f).on = true) (hhost : (p.side f).d2v host = none) :
    (p.allocIn f host).2.ip2d x = some d ↔
      x = (p.side f).cur ∧ d = host ∨ p.ip2d x = some d ∧ x ≠ (p.side f).cur := by
  rw [allocIn, if_pos hon, hhost]
  dsimp only
  rw [enter_ip2d]
  split_ifs with hx
  · simp [hx, eq_comm]
  · rw [evictLocked_ip2d]
    simp [hx]

lemma Inverse.allocIn (h : p.Inverse) (hon : (p.side f).on = true)
    (hhost : (p.side f).d2v host = none) (hip : (p.side f).cur ≠ .zero) :
    (p.allocIn f host).2.Inverse := by
  intro x d
  rw [allocIn_ip2d hon hhost]
  simp only [allocIn_d2v h hon hhost hip]
  constructor
  · rintro (⟨hx, hd⟩ | ⟨hold, hx⟩)
    · exact ⟨f, .inl ⟨rfl, hd, hx⟩⟩
    · obtain ⟨g, hg⟩ := (h x d).mp hold
      exact ⟨g, .inr ⟨hg, hx⟩⟩
  · rintro ⟨g, ⟨-, hd, hx⟩ | ⟨hg, hx⟩⟩
    · exact .inl ⟨hx, hd⟩
    · exact .inr ⟨(h x d).mpr ⟨g, hg⟩, hx⟩

end FakeIPPool

/-! ### The pool and its histories -/

/-- The pool read off the histories of its families. -/
structure Tracks (cfg : FakeIPConfig) (p : FakeIPPool) (hist : Family → List Str) : Prop where
  on : ∀ f, (p.side f).on = cfg.on f
  pfx : ∀ f, cfg.on f = true → (p.side f).pfx = (cfg.range f).masked
  cur : ∀ f, cfg.on f = true → (p.side f).cur = cfg.ring f (hist f).length
  d2v : ∀ f d ip, (p.side f).d2v d = some ip ↔
    cfg.on f = true ∧ ∃ k, Live (cfg.size f) (hist f) k d ∧ ip = cfg.ring f k
  inverse : p.Inverse
  once : ∀ f, Once (cfg.size f) (hist f)

namespace FakeIPConfig

variable {cfg : FakeIPConfig} {f : Family} {k k' : Nat}

lemma aligned (h : cfg.TwoOrMore) (hon : cfg.on f = true) : (cfg.range f).masked.Aligned := by
  refine Prefix.aligned_masked ?_ (h f hon)
  cases f with
  | v4 => exact (Bool.and_eq_true_iff.mp hon).1
  | v6 => exact (Bool.and_eq_true_iff.mp (Bool.and_eq_true_iff.mp hon).1).1

lemma size_pos (h : cfg.TwoOrMore) (hon : cfg.on f = true) : 0 < cfg.size f :=
  Prefix.slots_pos (aligned h hon)

lemma mod_lt (h : cfg.TwoOrMore) (hon : cfg.on f = true) :
    k % (cfg.range f).masked.slots < (cfg.range f).masked.slots :=
  Nat.mod_lt _ (size_pos h hon)

lemma ring_eq_iff (h : cfg.TwoOrMore) (hon : cfg.on f = true) :
    cfg.ring f k = cfg.ring f k' ↔ k % cfg.size f = k' % cfg.size f := by
  constructor
  · intro heq
    exact Prefix.usable_injective (aligned h hon) (mod_lt h hon) (mod_lt h hon) heq
  · intro heq
    rw [ring, ring]
    exact congrArg _ heq

lemma ring_ne_zero (h : cfg.TwoOrMore) (hon : cfg.on f = true) : cfg.ring f k ≠ .zero := by
  intro hzero
  have hvalid := Prefix.isValid_usable (i := k % (cfg.range f).masked.slots) (aligned h hon)
  rw [← ring, hzero] at hvalid
  cases hvalid

lemma wrapNext_ring (h : cfg.TwoOrMore) (hon : cfg.on f = true) :
    wrapNext (cfg.ring f k) (cfg.range f).masked = cfg.ring f (k + 1) := by
  have hp := aligned h hon
  have hlt := mod_lt (k := k) h hon
  rw [wrapNext, ring, ring, Nat.add_mod_eq_add_mod_right 1 (Nat.mod_mod k _).symm]
  generalize k % (cfg.range f).masked.slots = i at hlt
  rcases Nat.eq_or_lt_of_le (Nat.add_one_le_of_lt hlt) with hlast | hmore
  · -- the last address: back to the first
    rw [hlast, Nat.mod_self, ← Prefix.next_ip hp]
    rcases Prefix.next_last hp hlast with hnext | hnext <;> simp [hnext]
  · rw [Nat.mod_eq_of_lt hmore, Prefix.next_usable hp hmore, Prefix.isValid_usable hp,
      Prefix.contains_usable hp hmore]
    rfl

lemma contains_ring (h : cfg.TwoOrMore) (hon : cfg.on f = true) :
    (cfg.range f).contains (cfg.ring f k) = true := by
  rw [← Prefix.contains_masked]
  exact Prefix.contains_usable (aligned h hon) (mod_lt h hon)

lemma ring_ne_network (h : cfg.TwoOrMore) (hon : cfg.on f = true) :
    cfg.ring f k ≠ (cfg.range f).masked.ip :=
  Prefix.usable_ne_ip (aligned h hon) (mod_lt h hon)

end FakeIPConfig

namespace Tracks

variable {cfg : FakeIPConfig} {p : FakeIPPool} {hist : Family → List Str} {f : Family}
  {host : Str}

lemma new (U : Unicode) (h : cfg.TwoOrMore) : Tracks cfg (newFakeIPPool U cfg) fun _ => [] where
  on f := by
    rw [newFakeIPPool]
    dsimp only
    split_ifs with hon
    · exact hon.symm
    · exact (Bool.eq_false_iff.mpr hon).symm
  pfx f hon := by rw [newFakeIPPool]; simp only [hon, if_true]
  cur f hon := by
    rw [newFakeIPPool]
    simp only [hon, if_true]
    rw [Prefix.next_ip (FakeIPConfig.aligned h hon), FakeIPConfig.ring, List.length_nil,
      Nat.zero_mod]
  d2v f d ip := by
    have hnone : ((newFakeIPPool U cfg).side f).d2v d = none := by
      rw [newFakeIPPool]
      dsimp only
      split_ifs <;> rfl
    rw [hnone]
    constructor
    · intro hip
      cases hip
    · rintro ⟨-, k, hk, -⟩
      exact absurd hk not_live_nil
  inverse ip d := by
    constructor
    · intro hip
      cases hip
    · rintro ⟨f, hf⟩
      rw [newFakeIPPool] at hf
      dsimp only at hf
      split_ifs at hf
  once _ := Once.nil

/-- **Step lemma**: a domain that is not live takes the next slot of its family's
ring, if no domain of the other family has the address. -/
lemma allocIn (h2 : cfg.TwoOrMore) (h : Tracks cfg p hist) (hon : cfg.on f = true)
    (hhost : (p.side f).d2v host = none)
    (hother : ∀ g d, (p.side g).d2v d = some (cfg.ring f (hist f).length) → g = f) :
    Tracks cfg (p.allocIn f host).2 (Function.update hist f (hist f ++ [host])) := by
  have hpon : (p.side f).on = true := (h.on f).trans hon
  have hcur := h.cur f hon
  have hip : (p.side f).cur ≠ .zero := hcur ▸ FakeIPConfig.ring_ne_zero h2 hon
  have hN := FakeIPConfig.size_pos h2 hon
  have hnew : ∀ k, ¬ Live (cfg.size f) (hist f) k host := by
    intro k hk
    rw [(h.d2v f host _).mpr ⟨hon, k, hk, rfl⟩] at hhost
    cases hhost
  refine ⟨?_, ?_, ?_, ?_, h.inverse.allocIn hpon hhost hip, ?_⟩
  · intro g
    rw [FakeIPPool.allocIn, if_pos hpon, hhost]
    simp [h.on g]
  · intro g hg
    rw [FakeIPPool.allocIn, if_pos hpon, hhost]
    simp [h.pfx g hg]
  · intro g hg
    rw [FakeIPPool.allocIn, if_pos hpon, hhost]
    by_cases hgf : g = f
    · subst hgf
      simp only [enter_cur, evictLocked_cur, setCur_cur, if_true, Function.update_self,
        List.length_append, List.length_singleton]
      rw [hcur, h.pfx g hg, FakeIPConfig.wrapNext_ring h2 hg]
    · simp [hgf, h.cur g hg]
  · intro g d a
    rw [allocIn_d2v h.inverse hpon hhost hip, hcur]
    by_cases hgf : g = f
    · subst hgf
      rw [Function.update_self]
      constructor
      · rintro (⟨-, rfl, rfl⟩ | ⟨hd, hne⟩)
        · exact ⟨hon, _, (live_concat hN).mpr (.inl ⟨rfl, rfl⟩), rfl⟩
        · obtain ⟨-, k, hk, rfl⟩ := (h.d2v g d a).mp hd
          refine ⟨hon, k, (live_concat hN).mpr (.inr ⟨hk, fun hlen => hne ?_⟩), rfl⟩
          exact (FakeIPConfig.ring_eq_iff h2 hon).mpr ((mod_eq_length_iff hk).mpr hlen)
      · rintro ⟨-, k, hk, rfl⟩
        rcases (live_concat hN).mp hk with ⟨rfl, rfl⟩ | ⟨hk, hlen⟩
        · exact .inl ⟨rfl, rfl, rfl⟩
        · refine .inr ⟨(h.d2v g d _).mpr ⟨hon, k, hk, rfl⟩, fun heq => hlen ?_⟩
          exact (mod_eq_length_iff hk).mp ((FakeIPConfig.ring_eq_iff h2 hon).mp heq)
    · rw [Function.update_of_ne hgf, ← h.d2v]
      constructor
      · rintro (⟨hg, -⟩ | ⟨hd, -⟩)
        · exact absurd hg hgf
        · exact hd
      · intro hd
        refine .inr ⟨hd, ?_⟩
        rintro rfl
        exact hgf (hother g d hd)
  · intro g
    by_cases hgf : g = f
    · subst hgf
      rw [Function.update_self]
      exact (h.once g).concat hN hnew
    · rw [Function.update_of_ne hgf]
      exact h.once g

end Tracks

/-! ### Whole runs -/

namespace FakeIPPool

/-- What an allocation is: it leaves the pool and takes no new address, or it
gives a new address in one family. -/
lemma alloc_cases (p : FakeIPPool) (x : Query) : ((p.alloc x.1 x.2).2 = p ∧ ∀ f, p.taken f x = []) ∨
    ∃ f, (p.side f).on = true ∧ (p.side f).d2v (trimSuffix x.1 dot) = none ∧
      p.alloc x.1 x.2 = p.allocIn f (trimSuffix x.1 dot) ∧
      ∀ g, p.taken g x = if g = f then [trimSuffix x.1 dot] else [] := by
  rw [alloc]
  cases hf : familyOf x.2 with
  | none => exact .inl ⟨rfl, fun f => by rw [taken, if_neg (by simp [hf])]⟩
  | some f =>
    dsimp only
    by_cases hon : (p.side f).on = true
    · cases hhost : (p.side f).d2v (trimSuffix x.1 dot) with
      | some ip =>
        refine .inl ⟨by rw [allocIn, if_pos hon, hhost], fun g => if_neg ?_⟩
        rintro ⟨hg, -, hnone⟩
        rw [hf] at hg
        obtain rfl := Option.some.inj hg
        rw [hhost] at hnone
        cases hnone
      | none =>
        refine .inr ⟨f, hon, hhost, rfl, fun g => ?_⟩
        by_cases hg : g = f
        · subst hg
          rw [taken, if_pos ⟨hf, hon, hhost⟩, if_pos rfl]
        · rw [taken, if_neg (by simp [hf, Ne.symm hg]), if_neg hg]
    · refine .inl ⟨by rw [allocIn, if_neg hon], fun g => if_neg ?_⟩
      rintro ⟨hg, hgon, -⟩
      rw [hf] at hg
      obtain rfl := Option.some.inj hg
      exact hon hgon

end FakeIPPool

namespace FakeIPConfig

/-- No range that is taken has an IPv4-mapped address. -/
def NoMapped (cfg : FakeIPConfig) : Prop :=
  ∀ f ip, cfg.on f = true → (cfg.range f).contains ip = true → ip.is4In6 = false

variable {cfg : FakeIPConfig} {f g : Family} {k k' : Nat}

lemma is4_range (h : cfg.NoMapped) (hon : cfg.on f = true) :
    (cfg.range f).ip.is4 = decide (f = .v4) := by
  have hmap := h f
  cases f with
  | v4 =>
    obtain ⟨hvalid, h4⟩ := Bool.and_eq_true_iff.mp hon
    change cfg.inet4.ip.is4 = true
    cases hip : cfg.inet4.ip with
    | zero => rw [hip] at h4; cases h4
    | v4 a => rfl
    | v6 a zone =>
      -- an IPv4-mapped range has its own address
      have hmapped : (Addr.v6 a []).is4In6 = true := by
        rw [hip, Addr.unmap] at h4
        rw [Addr.is4In6]
        by_contra hne
        rw [if_neg hne] at h4
        cases h4
      have hin : cfg.inet4.contains (.v6 a []) = true := by
        simp [Prefix.contains, hvalid, hip]
      rw [hmap _ hon hin] at hmapped
      cases hmapped
  | v6 =>
    obtain ⟨hvalid, -⟩ := Bool.and_eq_true_iff.mp hon
    obtain ⟨-, h6⟩ := Bool.and_eq_true_iff.mp hvalid
    change cfg.inet6.ip.is4 = false
    cases hip : cfg.inet6.ip with
    | zero => rfl
    | v4 a => rw [hip] at h6; cases h6
    | v6 a zone => rfl

lemma is4_of_contains {p : Prefix} {ip : Addr} (h : p.contains ip = true) : ip.is4 = p.ip.is4 := by
  obtain ⟨a, n⟩ := p
  cases a <;> cases ip <;> first | rfl | simp [Prefix.contains] at h

lemma family_eq_of_contains (h2 : cfg.TwoOrMore) (h : cfg.NoMapped) (hon : cfg.on f = true)
    (hgon : cfg.on g = true) (hin : (cfg.range f).contains (cfg.ring g k) = true) : g = f := by
  have h4 := (is4_of_contains hin).symm.trans (is4_of_contains (contains_ring (k := k) h2 hgon))
  rw [is4_range h hon, is4_range h hgon] at h4
  revert h4
  cases f <;> cases g <;> decide

lemma unmap_ring (h2 : cfg.TwoOrMore) (h : cfg.NoMapped) (hon : cfg.on f = true) :
    (cfg.ring f k).unmap = cfg.ring f k := by
  have hnot := h f _ hon (contains_ring (k := k) h2 hon)
  generalize cfg.ring f k = a at hnot
  cases a with
  | zero => rfl
  | v4 a => rfl
  | v6 a zone =>
    rw [Addr.is4In6] at hnot
    rw [Addr.unmap, hnot]
    rfl

end FakeIPConfig

namespace Tracks

variable {U : Unicode} {cfg : FakeIPConfig} {p : FakeIPPool} {hist : Family → List Str}
  {f : Family}

lemma alloc (h2 : cfg.TwoOrMore) (hmap : cfg.NoMapped) (h : Tracks cfg p hist) (x : Query) :
    Tracks cfg (p.alloc x.1 x.2).2 fun g => hist g ++ p.taken g x := by
  rcases p.alloc_cases x with ⟨hsame, htaken⟩ | ⟨f, hon, hhost, heq, htaken⟩
  · rw [hsame]
    simpa only [htaken, List.append_nil] using h
  · have hcon : cfg.on f = true := (h.on f).symm.trans hon
    have hhist : (fun g => hist g ++ p.taken g x) =
        Function.update hist f (hist f ++ [trimSuffix x.1 dot]) := by
      funext g
      rw [htaken]
      by_cases hg : g = f
      · subst hg
        rw [Function.update_self, if_pos rfl]
      · rw [Function.update_of_ne hg, if_neg hg, List.append_nil]
    rw [heq, hhist]
    refine h.allocIn h2 hcon hhost fun g d hd => ?_
    obtain ⟨hgon, k, -, hring⟩ := (h.d2v g d _).mp hd
    exact FakeIPConfig.family_eq_of_contains h2 hmap hcon hgon
      (hring ▸ FakeIPConfig.contains_ring h2 hcon)

/-- **Run lemma**. -/
lemma after (h2 : cfg.TwoOrMore) (hmap : cfg.NoMapped) (xs : List Query) :
    Tracks cfg ((newFakeIPPool U cfg).after xs) fun f => fresh f (newFakeIPPool U cfg) xs := by
  induction xs using List.reverseRecOn with
  | nil => exact Tracks.new U h2
  | append_singleton xs x ih =>
    rw [after_concat]
    simp only [fresh_concat]
    exact ih.alloc h2 hmap x

lemma ring_of_alloc (h : Tracks cfg p hist) {name : Str} {qtype : UInt16} {ip : Addr}
    (hf : familyOf qtype = some f) (hip : (p.alloc name qtype).1 = some ip) :
    cfg.on f = true ∧ ∃ k, ip = cfg.ring f k := by
  rw [FakeIPPool.alloc, hf] at hip
  dsimp only at hip
  rw [FakeIPPool.allocIn] at hip
  split_ifs at hip with hon
  have hcon : cfg.on f = true := (h.on f).symm.trans hon
  refine ⟨hcon, ?_⟩
  cases hhost : (p.side f).d2v (trimSuffix name dot) with
  | some a =>
    rw [hhost] at hip
    obtain rfl := Option.some.inj hip
    obtain ⟨-, k, -, hring⟩ := (h.d2v f _ _).mp hhost
    exact ⟨k, hring⟩
  | none =>
    rw [hhost] at hip
    obtain rfl := Option.some.inj hip
    exact ⟨_, h.cur f hcon⟩

lemma sound (h2 : cfg.TwoOrMore) (hmap : cfg.NoMapped) (xs : List Query) : Sound U cfg xs where
  inRange f name qtype ip hf hip := by
    obtain ⟨hon, k, rfl⟩ := (after h2 hmap xs).ring_of_alloc hf hip
    exact ⟨FakeIPConfig.contains_ring h2 hon, FakeIPConfig.ring_ne_network h2 hon⟩
  inverse f d ip hon := by
    have h := after (U := U) h2 hmap xs
    constructor
    · intro hd
      obtain ⟨-, k, -, rfl⟩ := (h.d2v f d ip).mp hd
      exact ⟨(h.inverse _ d).mpr ⟨f, hd⟩, FakeIPConfig.contains_ring h2 hon⟩
    · rintro ⟨hip, hin⟩
      obtain ⟨g, hg⟩ := (h.inverse ip d).mp hip
      obtain ⟨hgon, k, -, rfl⟩ := (h.d2v g d ip).mp hg
      obtain rfl := FakeIPConfig.family_eq_of_contains h2 hmap hon hgon hin
      exact hg
  stable f name qtype ip hf hd := by
    have hon : (((newFakeIPPool U cfg).after xs).side f).on = true := by
      rw [(after h2 hmap xs).on f]
      exact (((after h2 hmap xs).d2v f _ ip).mp hd).1
    rw [FakeIPPool.alloc, hf]
    dsimp only
    rw [FakeIPPool.allocIn, if_pos hon, hd]
  reverse f d ip hd := by
    obtain ⟨hon, k, -, rfl⟩ := ((after h2 hmap xs).d2v f d ip).mp hd
    rw [lookup, FakeIPConfig.unmap_ring h2 hmap hon]
    exact ((after h2 hmap xs).inverse _ d).mpr ⟨f, hd⟩
  lost f d ip x hd hlost := by
    have h := after (U := U) h2 hmap xs
    obtain ⟨hon, k, hk, rfl⟩ := (h.d2v f d ip).mp hd
    have hgone := mt ((after (U := U) h2 hmap (xs ++ [x])).d2v f d _).mpr hlost
    rw [fresh_concat] at hgone
    rcases ((newFakeIPPool U cfg).after xs).alloc_cases x with
      ⟨-, htaken⟩ | ⟨g, hgon, hhost, heq, htaken⟩
    · rw [htaken, List.append_nil] at hgone
      exact absurd ⟨hon, k, hk, rfl⟩ hgone
    · rw [htaken] at hgone
      split_ifs at hgone with hfg
      · subst hfg
        have hlen : k + cfg.size f = (fresh f (newFakeIPPool U cfg) xs).length := by
          by_contra hne
          exact hgone ⟨hon, k, (live_concat (FakeIPConfig.size_pos h2 hon)).mpr (.inr ⟨hk, hne⟩),
            rfl⟩
        refine ⟨?_, k, hk.1, hlen⟩
        have hcur := h.cur f hon
        rw [heq, FakeIPPool.allocIn, if_pos hgon, hhost]
        dsimp only
        rw [hcur]
        exact congrArg some ((FakeIPConfig.ring_eq_iff h2 hon).mpr
          ((mod_eq_length_iff hk).mpr hlen).symm)
      · rw [List.append_nil] at hgone
        exact absurd ⟨hon, k, hk, rfl⟩ hgone

end Tracks

/-! ### A range with IPv4-mapped addresses -/

section
variable {U : Unicode} {cfg : FakeIPConfig} {f : Family}

lemma exists_ring_is4In6 (h2 : cfg.TwoOrMore) (hon : cfg.on f = true) {ip : Addr}
    (hin : (cfg.range f).contains ip = true) (hip : ip.is4In6 = true) :
    ∃ i < cfg.size f, (cfg.ring f i).is4In6 = true := by
  have hp := FakeIPConfig.aligned h2 hon
  have hring : ∀ i < cfg.size f, cfg.ring f i = (cfg.range f).masked.usable i := fun i hi =>
    congrArg _ (Nat.mod_eq_of_lt hi)
  rw [← Prefix.contains_masked] at hin
  rcases (Prefix.contains_iff_usable hp ip).mp hin with rfl | ⟨i, hi, rfl⟩
  · -- the network address is even, so the next one is mapped too
    refine ⟨0, Prefix.slots_pos hp, ?_⟩
    rw [hring 0 (Prefix.slots_pos hp)]
    generalize (cfg.range f).masked = p at hp hip
    obtain ⟨a, n⟩ := p
    cases a with
    | zero => exact hp.elim
    | v4 a => cases hip
    | v6 a zone =>
      obtain ⟨hn, ha, -⟩ := hp
      have hn : n < 128 := hn
      have heven : 2 ∣ a.toNat := Nat.dvd_trans (dvd_pow_self 2 (by omega)) ha
      have hlt : 1 < 2 ^ (128 - n) := Nat.one_lt_two_pow (by omega)
      have hone := toNat_add_ofNat (Nat.sub_le 128 n) ha hlt
      rw [Addr.is4In6, beq_iff_eq] at hip
      have hnat := congrArg BitVec.toNat hip
      rw [BitVec.toNat_ushiftRight, Nat.shiftRight_eq_div_pow] at hnat
      rw [Prefix.usable, Addr.is4In6, beq_iff_eq]
      refine BitVec.eq_of_toNat_eq ?_
      rw [BitVec.toNat_ushiftRight, Nat.shiftRight_eq_div_pow, Nat.zero_add, hone, ← hnat]
      omega
  · exact ⟨i, hi, (hring i hi).symm ▸ hip⟩

def nameOf (k : Nat) : Str := List.replicate (k + 1) 0x61

lemma trimSuffix_nameOf (k : Nat) : trimSuffix (nameOf k) dot = nameOf k := by
  refine if_neg fun hsuf => ?_
  have hmem : (0x2E : UInt8) ∈ nameOf k := hsuf.subset (by decide)
  exact absurd (List.eq_of_mem_replicate hmem) (by decide)

lemma nameOf_injective {k k' : Nat} (h : nameOf k = nameOf k') : k = k' := by
  have hlen := congrArg List.length h
  simpa [nameOf] using hlen

def firstNames (m : Nat) : List Str := (List.range m).map nameOf

lemma getElem?_firstNames {m k : Nat} {d : Str} (h : (firstNames m)[k]? = some d) :
    k < m ∧ d = nameOf k := by
  rw [firstNames, List.getElem?_map, Option.map_eq_some_iff] at h
  obtain ⟨j, hj, rfl⟩ := h
  obtain ⟨hlt, rfl⟩ := List.getElem?_eq_some_iff.mp hj
  rw [List.length_range] at hlt
  rw [List.getElem_range]
  exact ⟨hlt, rfl⟩

lemma firstNames_succ (m : Nat) : firstNames (m + 1) = firstNames m ++ [nameOf m] := by
  rw [firstNames, List.range_succ, List.map_append]
  rfl

lemma Tracks.d2v_nameOf {p : FakeIPPool} {m : Nat}
    (h : Tracks cfg p (Function.update (fun _ => []) f (firstNames m))) :
    (p.side f).d2v (nameOf m) = none := by
  cases hd : (p.side f).d2v (nameOf m) with
  | none => rfl
  | some ip =>
    obtain ⟨-, k, ⟨hk, -⟩, -⟩ := (h.d2v f _ ip).mp hd
    rw [Function.update_self] at hk
    obtain ⟨hlt, hname⟩ := getElem?_firstNames hk
    exact absurd (nameOf_injective hname) (Nat.ne_of_gt hlt)

lemma tracks_firstNames (h2 : cfg.TwoOrMore) (hon : cfg.on f = true) (m : Nat) :
    Tracks cfg ((newFakeIPPool U cfg).after ((firstNames m).map fun d => (d, f.qtype)))
      (Function.update (fun _ => []) f (firstNames m)) := by
  induction m with
  | zero =>
    have hnil : Function.update (fun _ : Family => ([] : List Str)) f (firstNames 0) =
        fun _ => [] := Function.update_eq_self f _
    rw [hnil]
    exact Tracks.new U h2
  | succ m ih =>
    rw [firstNames_succ, List.map_append, List.map_singleton, after_concat]
    set p := (newFakeIPPool U cfg).after ((firstNames m).map fun d => (d, f.qtype))
    have hhost : (p.side f).d2v (nameOf m) = none := ih.d2v_nameOf
    have halloc : p.alloc (nameOf m) f.qtype = p.allocIn f (nameOf m) := by
      rw [FakeIPPool.alloc, familyOf_qtype, trimSuffix_nameOf]
    have hstep := ih.allocIn h2 hon hhost (by
      intro g d hd
      by_contra hg
      obtain ⟨-, k, hk, -⟩ := (ih.d2v g d _).mp hd
      rw [Function.update_of_ne hg] at hk
      exact not_live_nil hk)
    rw [Function.update_self, Function.update_idem] at hstep
    rw [halloc]
    exact hstep

/-- No domain of such a run is found by an IPv4-mapped address: the unmapped address is of the
other kind. -/
lemma lookup_mapped_ne (h2 : cfg.TwoOrMore) (hon : cfg.on f = true) (m : Nat) {i : Nat}
    (hmapped : (cfg.ring f i).is4In6 = true) (d : Str) :
    ((newFakeIPPool U cfg).after ((firstNames m).map fun d => (d, f.qtype))).lookup
      (cfg.ring f i) ≠ some d := by
  intro hlook
  have h := tracks_firstNames (U := U) h2 hon m
  rw [lookup] at hlook
  obtain ⟨g, hg⟩ := (h.inverse _ _).mp hlook
  obtain ⟨hgon, k, hk, hring⟩ := (h.d2v g _ _).mp hg
  have hgf : g = f := by
    by_contra hne
    rw [Function.update_of_ne hne] at hk
    exact not_live_nil hk
  subst hgf
  have hsame := (FakeIPConfig.is4_of_contains (FakeIPConfig.contains_ring (k := k) h2 hon)).trans
    (FakeIPConfig.is4_of_contains (FakeIPConfig.contains_ring (k := i) h2 hon)).symm
  rw [← hring] at hsame
  generalize cfg.ring g i = a at hmapped hsame
  cases a with
  | zero => cases hmapped
  | v4 a => cases hmapped
  | v6 a zone =>
    rw [Addr.is4In6] at hmapped
    rw [Addr.unmap, if_pos hmapped] at hsame
    cases hsame

lemma not_sound_of_mapped (h2 : cfg.TwoOrMore) (hon : cfg.on f = true) {ip : Addr}
    (hin : (cfg.range f).contains ip = true) (hip : ip.is4In6 = true) : ∃ xs, ¬ Sound U cfg xs := by
  obtain ⟨i, hi, hmapped⟩ := exists_ring_is4In6 h2 hon hin hip
  refine ⟨(firstNames (i + 1)).map fun d => (d, f.qtype), fun hsound => ?_⟩
  have h := tracks_firstNames (U := U) h2 hon (i + 1)
  have hd := (h.d2v f (nameOf i) (cfg.ring f i)).mpr ⟨hon, i, by
    rw [Function.update_self]
    constructor
    · simp [firstNames]
    · simp only [firstNames, List.length_map, List.length_range]
      omega, rfl⟩
  exact lookup_mapped_ne h2 hon (i + 1) hmapped _ (hsound.reverse f _ _ hd)

end

/-- **The fake-ip pool is sound** after every run of allocations if and only if
no range has an IPv4-mapped address, whatever the ranges of two addresses or
more and the domains. -/
theorem sound_iff (U : Unicode) (cfg : FakeIPConfig) (h2 : cfg.TwoOrMore) :
    (∀ xs, Sound U cfg xs) ↔ cfg.NoMapped := by
  constructor
  · intro h f ip hon hin
    by_contra hip
    obtain ⟨xs, hxs⟩ := not_sound_of_mapped (U := U) h2 hon hin (Bool.not_eq_false _ ▸ hip)
    exact hxs (h xs)
  · intro h xs
    exact Tracks.sound h2 h xs

def asciiNames : Unicode := ⟨fun s => s, fun s => s⟩

/-- The ranges of the documentation: `198.18.0.0/15` and `fc00::/18`. -/
def defaultRanges : FakeIPConfig where
  inet4 := ⟨.v4 0xC6120000, 15⟩
  inet6 := ⟨.v6 0xFC000000000000000000000000000000 [], 18⟩

lemma defaultRanges_noMapped : defaultRanges.NoMapped := by
  intro f ip hon hin
  cases ip with
  | zero => rfl
  | v4 a => rfl
  | v6 b zone =>
    cases f with
    | v4 => cases hin
    | v6 =>
      rw [Addr.is4In6, beq_eq_false_iff_ne]
      intro hb
      have hnat := congrArg BitVec.toNat hb
      rw [BitVec.toNat_ushiftRight, Nat.shiftRight_eq_div_pow] at hnat
      have hblock : ((0xFC000000000000000000000000000000 : BitVec 128) ^^^ b) >>> 110 = 0 := by
        simp only [FakeIPConfig.range, defaultRanges, Prefix.contains, Bool.and_eq_true,
          beq_iff_eq] at hin
        exact hin.2.2
      have hlow := ((shift_xor_eq_zero_iff (by decide +kernel)).mp hblock).1
      simp only [BitVec.reduceToNat] at hlow hnat
      omega

/-- `sound_iff` for the ranges of the documentation. -/
theorem sound_iff_defaultRanges :
    defaultRanges.TwoOrMore ∧ ∀ xs, Sound asciiNames defaultRanges xs := by
  have h2 : defaultRanges.TwoOrMore := by
    intro f _
    cases f <;> decide
  exact ⟨h2, (sound_iff asciiNames defaultRanges h2).mpr defaultRanges_noMapped⟩

/-- `inet4-range: ::ffff:198.18.0.0/111`. -/
def mappedRange : FakeIPConfig where
  inet4 := ⟨.v6 0xFFFFC6120000 [], 111⟩

/-- The range is taken, its first address goes to a domain, and the domain is not
found by this address. -/
theorem mappedRange_not_found : mappedRange.on .v4 = true ∧ mappedRange.TwoOrMore ∧
    ((newFakeIPPool asciiNames mappedRange).alloc (lit "example.com.") typeA).1 =
      some (.v6 0xFFFFC6120001 []) ∧
    ((newFakeIPPool asciiNames mappedRange).alloc (lit "example.com.") typeA).2.lookup
      (.v6 0xFFFFC6120001 []) = none ∧
    ¬ Sound asciiNames mappedRange [(lit "example.com.", typeA)] := by
  have h2 : mappedRange.TwoOrMore := by
    intro f hon
    cases f with
    | v4 => decide
    | v6 => cases hon
  have hnone : ((newFakeIPPool asciiNames mappedRange).alloc (lit "example.com.") typeA).2.lookup
      (.v6 0xFFFFC6120001 []) = none := by decide +kernel
  refine ⟨by decide +kernel, h2, by decide +kernel, hnone, fun h => ?_⟩
  have hlook := h.reverse .v4 (lit "example.com") (.v6 0xFFFFC6120001 []) (by decide +kernel)
  exact absurd (hlook.symm.trans hnone) (by decide)

end Ntr.Dns
