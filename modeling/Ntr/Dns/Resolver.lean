/-
The resolver (`dns/resolver.go`, `cache.go`, `hosts.go`, `policy.go`, `codec.go`):
static hosts, fake addresses, the cache and the upstreams.

* `log`: a run of `Exchange`, `LookupReal` and `LookupCached` calls with their
  results; `served`: the calls of it that the fake pool did not answer;
* `unfaked_eq`: the resolver with fake addresses and the one without them have
  the same cache along these calls, and the same results;
* `real_eq`: when the upstreams answer by the question, `LookupReal` has the same
  results along all calls;
* `lookupReal_after`: it then has those of a new resolver.
-/
import Ntr.Dns.FakeIP

namespace Ntr.Dns

open Go List

/-! ### Messages -/

structure Answer where
  type : UInt16
  ttl : UInt32
  /-- `AResource`, `none` for an error. -/
  a : Option (BitVec 32) := none
  /-- `AAAAResource`. -/
  aaaa : Option (BitVec 128) := none
  /-- Whether `SkipAnswer` goes through. -/
  skip : Bool := true

def setTxID (raw : Str) (id : UInt16) : Str :=
  if 2 ≤ raw.length then putBE 2 id.toNat ++ raw.drop 2 else raw

/-- `golang.org/x/net/dns/dnsmessage`. -/
structure Dnsmessage where
  /-- The name and the type of the first question: `Start` and `Question`. -/
  question : Str → Option (Str × UInt16)
  /-- `Start`, `SkipAllQuestions`, and the answers until `AnswerHeader` fails. -/
  answers : Str → Option (List Answer)
  /-- Whether `NewName` takes the name. -/
  newName : Str → Bool
  /-- `Pack` of a query. -/
  packQuery : Str → UInt16 → Option Str
  /-- `Pack` of an authoritative reply: its ID, its question, its addresses. -/
  packReply : UInt16 → Str → UInt16 → List Addr → Option Str
  /-- The answers do not depend on the ID. -/
  answers_setTxID : ∀ raw id, answers (setTxID raw id) = answers raw

/-- `qkey`. -/
structure Key where
  name : Str
  qtype : UInt16
  deriving DecidableEq

section
variable (lib : Dnsmessage) (U : Unicode)

def parseQuery (raw : Str) : Option (Key × UInt16) :=
  if raw.length < 12 then none
  else (lib.question raw).map fun q => (⟨toLower U q.1, q.2⟩, uint16 (raw.take 2))

/-- The loop of `minTTL`. -/
def minTTLFrom (min : Option UInt32) : List Answer → Option UInt32
  | [] => min
  | h :: hs =>
    let min := match min with
      | none => h.ttl
      | some m => if h.ttl < m then h.ttl else m
    if h.skip then minTTLFrom (some min) hs else some min

def minTTL (raw : Str) : Option UInt32 := (lib.answers raw).bind (minTTLFrom none)

/-- The loop of `parseAddrs`: a resource that cannot be read ends it. -/
def addrsFrom : List Answer → List Addr
  | [] => []
  | h :: hs =>
    if h.type = typeA then
      match h.a with
      | some a => .v4 a :: addrsFrom hs
      | none => []
    else if h.type = typeAAAA then
      match h.aaaa with
      | some a => .v6 a [] :: addrsFrom hs
      | none => []
    else if h.skip then addrsFrom hs
    else []

/-- `parseAddrs` and `toNetip`: the addresses of a response, none when it cannot
be read. -/
def parseAddrs (raw : Str) : List Addr := ((lib.answers raw).map addrsFrom).getD []

def dnsName (host : Str) : Str :=
  (if dot <:+ host then host else host ++ dot).map lowerByte

def buildHostsResponse (id : UInt16) (name : Str) (qtype : UInt16) (addrs : List Addr) :
    Option Str :=
  if lib.newName name then
    lib.packReply id name qtype (addrs.filter fun a =>
      qtype = typeA && a.is4 || qtype = typeAAAA && a.is6)
  else none

end

/-! ### The plan -/

/-- `domainMatcher`, with the names bare and in lower case. -/
structure DomainMatcher where
  exact : List Str
  suffix : List Str
  keyword : List Str

def bareLower (U : Unicode) (s : Str) : Str := ((toLower U s).reverse.dropWhile (· = 0x2E)).reverse

/-- `match`. -/
def DomainMatcher.matches (U : Unicode) (m : DomainMatcher) (name : Str) : Bool :=
  let n := bareLower U name
  m.exact.contains n || m.suffix.any (fun s => n == s || hasSuffix n (dot ++ s)) ||
    m.keyword.any (Go.contains n)

inductive Strat where
  | race
  | sequential

/-- `plan`, over the upstreams. -/
structure Plan (υ : Type) where
  nameservers : List υ
  policies : List (DomainMatcher × List υ)
  strategy : Strat
  hosts : Str → Option (List Addr)

/-- What the errors of the resolver carry. -/
inductive Err (ε : Type) where
  | badName (host : Str)
  | pack
  | allUpstreamsFailed (last : Option ε)
  | noRecords (host : Str)
  deriving DecidableEq

/-- What one exchange meets outside: the times of `get` and `put`, the answers of
the upstreams, and the order in which they come in a race. -/
structure Moment (υ ε : Type) where
  get : Nat
  put : Nat
  ask : υ → Str → Except ε Str
  order : List υ → List υ

namespace Plan

variable {υ ε : Type} (p : Plan υ) (U : Unicode)

def upstreamsFor (name : Str) : List υ :=
  if name = [] then p.nameservers
  else ((p.policies.find? fun r => r.1.matches U name).map Prod.snd).getD p.nameservers

/-- The first answer that is no error, with the last error before. -/
def firstOk (m : Moment υ ε) (raw : Str) : Option ε → List υ → Except (Err ε) Str
  | last, [] => .error (.allUpstreamsFailed last)
  | _, u :: us =>
    match m.ask u raw with
    | .ok resp => .ok resp
    | .error e => firstOk m raw (some e) us

def exchange (m : Moment υ ε) (raw name : Str) : Except (Err ε) Str :=
  match p.strategy with
  | .sequential => firstOk m raw none (p.upstreamsFor U name)
  | .race => firstOk m raw none (m.order (p.upstreamsFor U name))

/-- `hostsMap.lookup`. -/
def lookupHosts (name : Str) (qtype : UInt16) : Option (List Addr) :=
  (p.hosts name).map fun addrs => addrs.filter fun a =>
    qtype = typeA && a.is4 || qtype = typeAAAA && (a.is6 && !a.is4In6)

/-- The reply to a question that the static hosts know. -/
def hostsReply (lib : Dnsmessage) (key : Key) (id : UInt16) : Option Str :=
  (p.lookupHosts key.name key.qtype).bind (buildHostsResponse lib id key.name key.qtype)

end Plan

/-! ### The cache -/

structure Entry where
  raw : Str
  expireAt : Nat

abbrev Cache := Key → Option Entry

namespace Cache

/-- `get`: an entry that has expired is deleted. -/
def get (c : Cache) (now : Nat) (k : Key) : Option Str × Cache :=
  match c k with
  | none => (none, c)
  | some e => if now > e.expireAt then (none, Function.update c k none) else (some e.raw, c)

/-- `put`: nothing is kept for no time. -/
def put (c : Cache) (now : Nat) (k : Key) (raw : Str) (ttl : UInt32) : Cache :=
  if ttl = 0 then c else Function.update c k (some ⟨raw, now + ttl.toNat * 1000000000⟩)

end Cache

/-! ### The resolver -/

structure Resolver (υ : Type) where
  plan : Plan υ
  cache : Cache
  fake : Option FakeIPPool

inductive Strategy where
  | both
  | preferV4
  | preferV6
  | v4Only
  | v6Only
  deriving DecidableEq

def queryTypes : Strategy → List UInt16
  | .v4Only => [typeA]
  | .v6Only => [typeAAAA]
  | .preferV6 => [typeAAAA, typeA]
  | .both | .preferV4 => [typeA, typeAAAA]

/-- The fake branch of `exchange1`: the reply to a question for an address, and
the pool after it. -/
def FakeIPPool.reply (lib : Dnsmessage) (p : FakeIPPool) (key : Key) (id : UInt16) :
    Option Str × FakeIPPool :=
  if (key.qtype = typeA ∨ key.qtype = typeAAAA) ∧ p.excluded key.name = false then
    match p.alloc key.name key.qtype with
    | (some fip, p) => (buildHostsResponse lib id key.name key.qtype [fip], p)
    | (none, p) =>
      -- No range for `AAAA`: an empty answer, so that the client takes the fake `A`.
      if key.qtype = typeAAAA then (buildHostsResponse lib id key.name key.qtype [], p)
      else (none, p)
  else (none, p)

namespace Resolver

variable {υ ε : Type} (lib : Dnsmessage) (U : Unicode) (r : Resolver υ)

def new (plan : Plan υ) (fake : Option FakeIPConfig) : Resolver υ :=
  ⟨plan, fun _ => none, fake.map (newFakeIPPool U)⟩

def unfaked : Resolver υ := { r with fake := none }

/-- The end of `exchange1`: the cache, then the upstreams. -/
def exchangeReal (m : Moment υ ε) (q : Str) : Except (Err ε) Str × Resolver υ :=
  match parseQuery lib U q with
  | none => (r.plan.exchange U m q [], r)
  | some (key, id) =>
    match r.cache.get m.get key with
    | (some raw, c) => (.ok (setTxID raw id), { r with cache := c })
    | (none, c) =>
      match r.plan.exchange U m q key.name with
      | .error e => (.error e, { r with cache := c })
      | .ok resp =>
        (.ok resp,
          { r with cache := match minTTL lib resp with
              | some ttl => c.put m.put key resp ttl
              | none => c })

/-- The reply of the static hosts, if they have one. -/
def hostsReply (q : Str) : Option Str :=
  (parseQuery lib U q).bind fun k => r.plan.hostsReply lib k.1 k.2

/-- The reply of the fake pool, if there is one, and the pool after it. -/
def fakeReply (q : Str) : Option Str × Option FakeIPPool :=
  match parseQuery lib U q, r.fake with
  | some (key, id), some p => ((p.reply lib key id).1, some (p.reply lib key id).2)
  | _, fake => (none, fake)

def exchange1 (m : Moment υ ε) (q : Str) (skipFake : Bool) : Except (Err ε) Str × Resolver υ :=
  match r.hostsReply lib U q with
  | some raw => (.ok raw, r)
  | none =>
    if skipFake then r.exchangeReal lib U m q
    else
      match r.fakeReply lib U q with
      | (some raw, fake) => (.ok raw, { r with fake := fake })
      | (none, fake) => { r with fake := fake }.exchangeReal lib U m q

/-- The loop of `LookupReal`. -/
def lookupTypes (m : UInt16 → Moment υ ε) (host : Str) :
    Resolver υ → List Addr → List UInt16 → Except (Err ε) (List Addr) × Resolver υ
  | r, addrs, [] => (if addrs = [] then .error (.noRecords host) else .ok addrs, r)
  | r, addrs, qt :: qts =>
    if lib.newName (dnsName host) then
      match lib.packQuery (dnsName host) qt with
      | none => (.error .pack, r)
      | some raw =>
        match r.exchange1 lib U (m qt) raw true with
        | (.error e, r) => (.error e, r)
        | (.ok resp, r) => lookupTypes m host r (addrs ++ parseAddrs lib resp) qts
    else (.error (.badName host), r)

def lookupReal (m : UInt16 → Moment υ ε) (host : Str) (s : Strategy) :
    Except (Err ε) (List Addr) × Resolver υ :=
  lookupTypes lib U m host r [] (queryTypes s)

/-- The loop of `LookupCached`. -/
def cachedTypes (now : UInt16 → Nat) (host : Str) :
    Cache → List Addr → List UInt16 → List Addr × Cache
  | c, addrs, [] => (addrs, c)
  | c, addrs, qt :: qts =>
    match c.get (now qt) ⟨dnsName host, qt⟩ with
    | (some raw, c) => cachedTypes now host c (addrs ++ parseAddrs lib raw) qts
    | (none, c) => cachedTypes now host c addrs qts

def lookupCached (now : UInt16 → Nat) (host : Str) (s : Strategy) :
    (List Addr × Bool) × Resolver υ :=
  let (addrs, c) := cachedTypes lib now host r.cache [] (queryTypes s)
  ((addrs, !addrs.isEmpty), { r with cache := c })

end Resolver

/-! ### Runs -/

/-- A call, with what it meets outside; a lookup makes one exchange for each
type. -/
inductive Call (υ ε : Type) where
  | exchange (m : Moment υ ε) (q : Str)
  | lookupReal (m : UInt16 → Moment υ ε) (host : Str) (s : Strategy)
  | lookupCached (now : UInt16 → Nat) (host : Str) (s : Strategy)

inductive Result (ε : Type) where
  | message (raw : Except (Err ε) Str)
  | real (addrs : Except (Err ε) (List Addr))
  | cached (addrs : List Addr) (ok : Bool)

namespace Call

variable {υ ε : Type}

def isExchange : Call υ ε → Bool
  | exchange _ _ => true
  | _ => false

def isReal : Call υ ε → Bool
  | lookupReal _ _ _ => true
  | _ => false

/-- The exchanges that a call may make with the upstreams. -/
def Meets : Call υ ε → Moment υ ε → Prop
  | exchange m _, m' => m' = m
  | lookupReal m _ _, m' => ∃ qt, m' = m qt
  | lookupCached _ _ _, _ => False

end Call

namespace Resolver

variable {υ ε : Type} (lib : Dnsmessage) (U : Unicode) (r : Resolver υ)

def step : Call υ ε → Result ε × Resolver υ
  | .exchange m q => ((.message (r.exchange1 lib U m q false).1), (r.exchange1 lib U m q false).2)
  | .lookupReal m host s => (.real (r.lookupReal lib U m host s).1, (r.lookupReal lib U m host s).2)
  | .lookupCached now host s =>
    (.cached (r.lookupCached lib now host s).1.1 (r.lookupCached lib now host s).1.2,
      (r.lookupCached lib now host s).2)

def log (r : Resolver υ) : List (Call υ ε) → List (Call υ ε × Result ε)
  | [] => []
  | c :: cs => (c, (r.step lib U c).1) :: log (r.step lib U c).2 cs

def after (cs : List (Call υ ε)) : Resolver υ := cs.foldl (fun r c => (r.step lib U c).2) r

def faked : Call υ ε → Bool
  | .exchange _ q => (r.hostsReply lib U q).isNone && (r.fakeReply lib U q).1.isSome
  | _ => false

/-- The calls of a run that the fake pool does not answer. -/
def served (r : Resolver υ) : List (Call υ ε) → List (Call υ ε × Result ε)
  | [] => []
  | c :: cs =>
    if r.faked lib U c then served (r.step lib U c).2 cs
    else (c, (r.step lib U c).1) :: served (r.step lib U c).2 cs

end Resolver

/-! ### The resolver without its fake pool -/

namespace Resolver

variable {υ ε : Type} {lib : Dnsmessage} {U : Unicode} {r : Resolver υ}

def withFake (r : Resolver υ) (f : Option FakeIPPool) : Resolver υ := { r with fake := f }

lemma exchangeReal_withFake (f : Option FakeIPPool) (m : Moment υ ε) (q : Str) :
    (r.withFake f).exchangeReal lib U m q =
      ((r.exchangeReal lib U m q).1, (r.exchangeReal lib U m q).2.withFake f) := by
  rw [exchangeReal, exchangeReal, withFake]
  cases parseQuery lib U q with
  | none => rfl
  | some k =>
    obtain ⟨key, id⟩ := k
    dsimp only
    cases r.cache.get m.get key with
    | mk raw c =>
      cases raw with
      | some raw => rfl
      | none =>
        dsimp only
        cases r.plan.exchange U m q key.name <;> rfl

lemma exchange1_true_withFake (f : Option FakeIPPool) (m : Moment υ ε) (q : Str) :
    (r.withFake f).exchange1 lib U m q true =
      ((r.exchange1 lib U m q true).1, (r.exchange1 lib U m q true).2.withFake f) := by
  have hhosts : (r.withFake f).hostsReply lib U q = r.hostsReply lib U q := rfl
  rw [exchange1, exchange1, hhosts]
  cases r.hostsReply lib U q with
  | some raw => rfl
  | none => exact exchangeReal_withFake f m q

lemma lookupTypes_withFake (f : Option FakeIPPool) (m : UInt16 → Moment υ ε) (host : Str)
    (qts : List UInt16) (addrs : List Addr) (r : Resolver υ) :
    lookupTypes lib U m host (r.withFake f) addrs qts = ((lookupTypes lib U m host r addrs qts).1,
        (lookupTypes lib U m host r addrs qts).2.withFake f) := by
  induction qts generalizing r addrs with
  | nil => rfl
  | cons qt qts ih =>
    rw [lookupTypes, lookupTypes]
    split_ifs with hname
    · cases lib.packQuery (dnsName host) qt with
      | none => rfl
      | some raw =>
        dsimp only
        rw [exchange1_true_withFake]
        cases r.exchange1 lib U (m qt) raw true with
        | mk resp r' =>
          cases resp with
          | error e => rfl
          | ok resp => exact ih _ r'
    · rfl

/-- A call that the fake pool does not answer is the same without the pool. -/
lemma step_unfaked {c : Call υ ε} (h : r.faked lib U c = false) :
    r.unfaked.step lib U c = ((r.step lib U c).1, (r.step lib U c).2.unfaked) := by
  cases c with
  | lookupReal m host s =>
    rw [step, step, lookupReal, lookupReal]
    have hrun : lookupTypes lib U m host (r.withFake none) [] (queryTypes s) = _ :=
      lookupTypes_withFake none m host (queryTypes s) [] r
    rw [show r.unfaked = r.withFake none from rfl, hrun]
    rfl
  | lookupCached now host s => rfl
  | exchange m q =>
    have hrun : r.unfaked.exchange1 lib U m q false =
        ((r.exchange1 lib U m q false).1, (r.exchange1 lib U m q false).2.unfaked) := by
      have hhosts : r.unfaked.hostsReply lib U q = r.hostsReply lib U q := rfl
      have hnone : r.unfaked.fakeReply lib U q = (none, none) := by
        rw [fakeReply]
        cases parseQuery lib U q <;> rfl
      rw [exchange1, exchange1, hhosts, hnone]
      rw [faked] at h
      cases hh : r.hostsReply lib U q with
      | some raw => rfl
      | none =>
        rw [hh] at h
        cases hf : r.fakeReply lib U q with
        | mk raw fake =>
          cases raw with
          | some raw => rw [hf] at h; cases h
          | none =>
            simp only [Bool.false_eq_true, if_false]
            have hnone' : (r.withFake none).exchangeReal lib U m q = _ :=
              exchangeReal_withFake none m q
            have hfake : (r.withFake fake).exchangeReal lib U m q = _ :=
              exchangeReal_withFake fake m q
            rw [withFake] at hnone' hfake
            rw [hfake]
            exact hnone'
    rw [step, step, hrun]

lemma step_faked {c : Call υ ε} (h : r.faked lib U c = true) :
    (r.step lib U c).2.unfaked = r.unfaked := by
  cases c with
  | lookupReal m host s => cases h
  | lookupCached now host s => cases h
  | exchange m q =>
    rw [faked, Bool.and_eq_true] at h
    obtain ⟨hh, hf⟩ := h
    rw [step, exchange1, Option.isNone_iff_eq_none.mp hh]
    cases hfr : r.fakeReply lib U q with
    | mk raw fake =>
      rw [hfr] at hf
      cases raw with
      | some raw => rfl
      | none => cases hf

/-- **Run lemma**: without its pool the resolver has the same results along the
calls that the pool does not answer. -/
lemma unfaked_eq (r : Resolver υ) (cs : List (Call υ ε)) :
    r.unfaked.log lib U ((r.served lib U cs).map Prod.fst) = r.served lib U cs := by
  induction cs generalizing r with
  | nil => rfl
  | cons c cs ih =>
    rw [served]
    split_ifs with hf
    · rw [← step_faked hf]
      exact ih _
    · rw [map_cons, log, step_unfaked (Bool.eq_false_iff.mpr hf)]
      exact congrArg _ (ih _)

lemma filter_served (r : Resolver υ) (cs : List (Call υ ε)) :
    (r.served lib U cs).filter (fun e => !e.1.isExchange) =
      (r.log lib U cs).filter fun e => !e.1.isExchange := by
  induction cs generalizing r with
  | nil => rfl
  | cons c cs ih =>
    rw [served, log]
    split_ifs with hf
    · have hex : c.isExchange = true := by
        cases c with
        | exchange m q => rfl
        | lookupReal m host s => cases hf
        | lookupCached now host s => cases hf
      rw [ih, filter_cons_of_neg (by simp [hex])]
    · rw [filter_cons, filter_cons, ih]

/-! ### What is in the cache -/

/-- An upstream gave the response to a query for the key. -/
def Given (lib : Dnsmessage) (U : Unicode) (m : Moment υ ε) (key : Key) (raw : Str) : Prop :=
  ∃ u q id, m.ask u q = .ok raw ∧ parseQuery lib U q = some (key, id)

variable {raw q : Str} {c : Cache} {e : Entry} {k key : Key} {now : Nat} {id : UInt16}

lemma exists_of_firstOk {m : Moment υ ε} {resp : Str} {us : List υ} {last : Option ε}
    (h : Plan.firstOk m raw last us = .ok resp) : ∃ u, m.ask u raw = .ok resp := by
  induction us generalizing last with
  | nil => cases h
  | cons u us ih =>
    rw [Plan.firstOk] at h
    cases hu : m.ask u raw with
    | ok resp' =>
      rw [hu] at h
      obtain rfl := Except.ok.inj h
      exact ⟨u, hu⟩
    | error e =>
      rw [hu] at h
      exact ih h

lemma exists_of_exchange {p : Plan υ} {m : Moment υ ε} {name resp : Str}
    (h : p.exchange U m raw name = .ok resp) : ∃ u, m.ask u raw = .ok resp := by
  rw [Plan.exchange] at h
  cases hs : p.strategy with
  | race => rw [hs] at h; exact exists_of_firstOk h
  | sequential => rw [hs] at h; exact exists_of_firstOk h

lemma get_cache (h : (c.get now k).2 key = some e) : c key = some e := by
  rw [Cache.get] at h
  cases hk : c k with
  | none => rw [hk] at h; exact h
  | some e' =>
    rw [hk] at h
    dsimp only at h
    split_ifs at h with hexp
    · dsimp only at h
      by_cases hkey : key = k
      · rw [hkey, Function.update_self] at h
        cases h
      · rwa [Function.update_of_ne hkey] at h
    · exact h

lemma put_cache {ttl : UInt32}
    (h : c.put now k raw ttl key = some e) : c key = some e ∨ key = k ∧ e.raw = raw := by
  rw [Cache.put] at h
  split_ifs at h
  · exact .inl h
  · by_cases hkey : key = k
    · rw [hkey, Function.update_self] at h
      exact .inr ⟨hkey, congrArg Entry.raw (Option.some.inj h).symm⟩
    · rw [Function.update_of_ne hkey] at h
      exact .inl h

lemma exchangeReal_stored {m : Moment υ ε} (h : (r.exchangeReal lib U m q).2.cache key = some e) :
    r.cache key = some e ∨ ∃ id, parseQuery lib U q = some (key, id) ∧
      (r.cache.get m.get key).1 = none ∧ r.plan.exchange U m q key.name = .ok e.raw := by
  rw [exchangeReal] at h
  cases hp : parseQuery lib U q with
  | none => rw [hp] at h; exact .inl h
  | some k =>
    obtain ⟨k, id⟩ := k
    rw [hp] at h
    dsimp only at h
    have hget : ∀ c, (r.cache.get m.get k).2 = c → c key = some e → r.cache key = some e := by
      rintro c rfl hc
      exact get_cache hc
    cases hg : r.cache.get m.get k with
    | mk raw c =>
      rw [hg] at h hget
      cases raw with
      | some raw => exact .inl (hget c rfl h)
      | none =>
        dsimp only at h
        cases hx : r.plan.exchange U m q k.name with
        | error err => rw [hx] at h; exact .inl (hget c rfl h)
        | ok resp =>
          rw [hx] at h
          dsimp only at h
          cases ht : minTTL lib resp with
          | none => rw [ht] at h; exact .inl (hget c rfl h)
          | some ttl =>
            rw [ht] at h
            rcases put_cache h with h | ⟨rfl, hraw⟩
            · exact .inl (hget c rfl h)
            · exact .inr ⟨id, rfl, congrArg Prod.fst hg, hraw ▸ hx⟩

lemma given_of_exchange {p : Plan υ} {m : Moment υ ε}
    (hp : parseQuery lib U q = some (key, id)) (hx : p.exchange U m q key.name = .ok raw) :
    Given lib U m key raw := by
  obtain ⟨u, hu⟩ := exists_of_exchange hx
  exact ⟨u, q, id, hu, hp⟩

/-- What an exchange does: the hosts reply, or the fake pool does, or what is behind
them. -/
lemma exchange1_cases (lib : Dnsmessage) (U : Unicode) (r : Resolver υ) (m : Moment υ ε) (q : Str) (skipFake : Bool) :
    (∃ raw, r.hostsReply lib U q = some raw ∧ r.exchange1 lib U m q skipFake = (.ok raw, r)) ∨
      (∃ raw f, skipFake = false ∧ r.fakeReply lib U q = (some raw, f) ∧
        r.exchange1 lib U m q skipFake = (.ok raw, r.withFake f)) ∨
      ∃ f, r.hostsReply lib U q = none ∧ (skipFake = false → (r.fakeReply lib U q).1 = none) ∧
        r.exchange1 lib U m q skipFake = (r.withFake f).exchangeReal lib U m q := by
  rw [exchange1]
  cases hh : r.hostsReply lib U q with
  | some raw => exact .inl ⟨raw, rfl, rfl⟩
  | none =>
    dsimp only
    split_ifs with hskip
    · exact .inr (.inr ⟨r.fake, rfl, fun h => absurd hskip (Bool.eq_false_iff.mp h), rfl⟩)
    · cases hf : r.fakeReply lib U q with
      | mk raw f =>
        cases raw with
        | some raw => exact .inr (.inl ⟨raw, f, Bool.eq_false_iff.mpr hskip, rfl, rfl⟩)
        | none => exact .inr (.inr ⟨f, rfl, fun _ => rfl, rfl⟩)

lemma exchange1_stored {m : Moment υ ε} {skipFake : Bool}
    (h : (r.exchange1 lib U m q skipFake).2.cache key = some e) :
    r.cache key = some e ∨ ∃ id, parseQuery lib U q = some (key, id) ∧
      (r.cache.get m.get key).1 = none ∧ r.plan.exchange U m q key.name = .ok e.raw := by
  rcases exchange1_cases lib U r m q skipFake with ⟨raw, -, heq⟩ | ⟨raw, f, -, -, heq⟩ |
    ⟨f, -, -, heq⟩
  · rw [heq] at h
    exact .inl h
  · rw [heq] at h
    exact .inl h
  · rw [heq] at h
    exact exchangeReal_stored (r := r.withFake f) h

lemma exchange1_cache {m : Moment υ ε} {skipFake : Bool}
    (h : (r.exchange1 lib U m q skipFake).2.cache key = some e) :
    r.cache key = some e ∨ Given lib U m key e.raw := by
  rcases exchange1_stored h with h | ⟨id, hp, -, hx⟩
  · exact .inl h
  · exact .inr (given_of_exchange hp hx)

lemma lookupTypes_cache {m : UInt16 → Moment υ ε} {host : Str}
    {qts : List UInt16} {addrs : List Addr} {r : Resolver υ}
    (h : (lookupTypes lib U m host r addrs qts).2.cache key = some e) :
    r.cache key = some e ∨ ∃ qt, Given lib U (m qt) key e.raw := by
  induction qts generalizing r addrs with
  | nil => exact .inl h
  | cons qt qts ih =>
    rw [lookupTypes] at h
    split_ifs at h
    · cases hraw : lib.packQuery (dnsName host) qt with
      | none => rw [hraw] at h; exact .inl h
      | some raw =>
        rw [hraw] at h
        dsimp only at h
        have hstep : ∀ r', (r.exchange1 lib U (m qt) raw true).2 = r' → r'.cache key = some e →
            r.cache key = some e ∨ ∃ qt, Given lib U (m qt) key e.raw := by
          rintro r' rfl hr
          exact (exchange1_cache hr).imp_right fun hg => ⟨qt, hg⟩
        cases hx : r.exchange1 lib U (m qt) raw true with
        | mk resp r' =>
          rw [hx] at h hstep
          cases resp with
          | error err => exact hstep r' rfl h
          | ok resp =>
            rcases ih h with h | h
            · exact hstep r' rfl h
            · exact .inr h
    · exact .inl h

lemma cachedTypes_cache {now : UInt16 → Nat} {host : Str} {qts : List UInt16} {addrs : List Addr}
    (h : (cachedTypes lib now host c addrs qts).2 key = some e) : c key = some e := by
  induction qts generalizing c addrs with
  | nil => exact h
  | cons qt qts ih =>
    rw [cachedTypes] at h
    have hget : ∀ c', (c.get (now qt) ⟨dnsName host, qt⟩).2 = c' → c' key = some e →
        c key = some e := by
      rintro c' rfl hc
      exact get_cache hc
    cases hg : c.get (now qt) ⟨dnsName host, qt⟩ with
    | mk raw c' =>
      rw [hg] at h hget
      cases raw with
      | some raw => exact hget c' rfl (ih h)
      | none => exact hget c' rfl (ih h)

/-- **Step lemma**: what a call leaves in the cache was there, or an upstream gave
it in this call. -/
lemma step_cache {c : Call υ ε} (h : (r.step lib U c).2.cache key = some e) :
    r.cache key = some e ∨ ∃ m, c.Meets m ∧ Given lib U m key e.raw := by
  cases c with
  | exchange m q => exact (exchange1_cache h).imp_right fun hg => ⟨m, rfl, hg⟩
  | lookupReal m host s =>
    rcases lookupTypes_cache h with h | ⟨qt, hg⟩
    · exact .inl h
    · exact .inr ⟨m qt, ⟨qt, rfl⟩, hg⟩
  | lookupCached now host s => exact .inl (cachedTypes_cache h)

/-- **Run lemma**. -/
lemma after_cache {cs : List (Call υ ε)} {r : Resolver υ}
    (h : (r.after lib U cs).cache key = some e) :
    r.cache key = some e ∨ ∃ c ∈ cs, ∃ m, c.Meets m ∧ Given lib U m key e.raw := by
  induction cs generalizing r with
  | nil => exact .inl h
  | cons c cs ih =>
    rcases ih h with hc | ⟨c', hmem, hc'⟩
    · exact (step_cache hc).imp_right fun hm => ⟨c, mem_cons_self, hm⟩
    · exact .inr ⟨c', mem_cons_of_mem _ hmem, hc'⟩

/-! ### Upstreams that answer by the question -/

/-- The upstreams are fixed: in every call the addresses of their answer, or
their error, are those of the question. -/
def ByQuestion (lib : Dnsmessage) (U : Unicode) (p : Plan υ) (cs : List (Call υ ε))
    (g : Key → Except (Err ε) (List Addr)) : Prop :=
  ∀ c ∈ cs, ∀ m, c.Meets m → ∀ q key id, parseQuery lib U q = some (key, id) →
    (p.exchange U m q key.name).map (parseAddrs lib) = g key

def AnswersBy (lib : Dnsmessage) (U : Unicode) (p : Plan υ)
    (g : Key → Except (Err ε) (List Addr)) (m : Moment υ ε) : Prop :=
  ∀ q key id, parseQuery lib U q = some (key, id) →
    (p.exchange U m q key.name).map (parseAddrs lib) = g key

def Cached (lib : Dnsmessage) (g : Key → Except (Err ε) (List Addr)) (c : Cache) : Prop :=
  ∀ key e, c key = some e → g key = .ok (parseAddrs lib e.raw)

variable {g : Key → Except (Err ε) (List Addr)}

lemma parseAddrs_setTxID (raw : Str) (id : UInt16) :
    parseAddrs lib (setTxID raw id) = parseAddrs lib raw := by
  rw [parseAddrs, parseAddrs, lib.answers_setTxID]

@[simp] lemma exchangeReal_plan (m : Moment υ ε) (q : Str) :
    (r.exchangeReal lib U m q).2.plan = r.plan := by
  rw [exchangeReal]
  cases parseQuery lib U q with
  | none => rfl
  | some k =>
    dsimp only
    cases r.cache.get m.get k.1 with
    | mk raw c =>
      cases raw with
      | some raw => rfl
      | none =>
        dsimp only
        cases r.plan.exchange U m q k.1.name <;> rfl

@[simp] lemma exchange1_plan (m : Moment υ ε) (q : Str) (skipFake : Bool) :
    (r.exchange1 lib U m q skipFake).2.plan = r.plan := by
  rcases exchange1_cases lib U r m q skipFake with ⟨raw, -, heq⟩ | ⟨raw, f, -, -, heq⟩ |
    ⟨f, -, -, heq⟩
  · rw [heq]
  · rw [heq]
    rfl
  · rw [heq]
    exact exchangeReal_plan (r := r.withFake f) m q

lemma exchangeReal_fst {m : Moment υ ε} (hp : parseQuery lib U q = some (key, id)) :
    (r.exchangeReal lib U m q).1 = match (r.cache.get m.get key).1 with
      | some raw => .ok (setTxID raw id)
      | none => r.plan.exchange U m q key.name := by
  rw [exchangeReal, hp]
  dsimp only
  generalize r.cache.get m.get key = x
  obtain ⟨_ | raw, c⟩ := x
  · dsimp only
    cases r.plan.exchange U m q key.name <;> rfl
  · rfl

lemma get_hit (h : (c.get now k).1 = some raw) : ∃ e, c k = some e ∧ e.raw = raw := by
  rw [Cache.get] at h
  cases hk : c k with
  | none => rw [hk] at h; cases h
  | some e =>
    rw [hk] at h
    dsimp only at h
    split_ifs at h
    exact ⟨e, rfl, Option.some.inj h⟩

/-- The addresses of a real exchange are the answer to its question, whatever the
cache holds. -/
lemma map_exchangeReal {m : Moment υ ε} (hm : AnswersBy lib U r.plan g m)
    (hc : Cached lib g r.cache) (hp : parseQuery lib U q = some (key, id)) :
    (r.exchangeReal lib U m q).1.map (parseAddrs lib) = g key := by
  rw [exchangeReal_fst hp]
  cases hg : (r.cache.get m.get key).1 with
  | some raw =>
    obtain ⟨e, he, rfl⟩ := get_hit hg
    rw [hc key e he, ← parseAddrs_setTxID e.raw id]
    rfl
  | none => exact hm q key id hp

section
variable {r' : Resolver υ} {m : Moment υ ε}

lemma map_exchange1_eq (r r' : Resolver υ) (hplan : r'.plan = r.plan) (hm : AnswersBy lib U r.plan g m)
    (hc : Cached lib g r.cache) (hc' : Cached lib g r'.cache) (q : Str) :
    (r.exchange1 lib U m q true).1.map (parseAddrs lib) =
      (r'.exchange1 lib U m q true).1.map (parseAddrs lib) := by
  have hhosts : r'.hostsReply lib U q = r.hostsReply lib U q := by
    rw [hostsReply, hostsReply, hplan]
  rw [exchange1, exchange1, hhosts]
  cases r.hostsReply lib U q with
  | some raw => rfl
  | none =>
    simp only [if_true]
    cases hp : parseQuery lib U q with
    | none =>
      -- nothing is cached for a query that cannot be read
      rw [exchangeReal, exchangeReal, hp]
      dsimp only
      rw [hplan]
    | some k =>
      rw [map_exchangeReal hm hc hp, map_exchangeReal (hplan ▸ hm) hc' hp]

lemma cached_exchange1 (hm : AnswersBy lib U r.plan g m) (hc : Cached lib g r.cache)
    (q : Str) (skipFake : Bool) : Cached lib g (r.exchange1 lib U m q skipFake).2.cache := by
  intro key e he
  rcases exchange1_stored he with he | ⟨id, hp, -, hx⟩
  · exact hc key e he
  · rw [← hm q key id hp, hx]
    rfl

/-- The answer that `LookupReal` has to a type when nothing is cached. -/
def answer (lib : Dnsmessage) (U : Unicode) (p : Plan υ) (m : UInt16 → Moment υ ε) (host : Str)
    (qt : UInt16) : Except (Err ε) (List Addr) :=
  if lib.newName (dnsName host) then
    match lib.packQuery (dnsName host) qt with
    | none => .error .pack
    | some raw => ((new U p none).exchange1 lib U (m qt) raw true).1.map (parseAddrs lib)
  else .error (.badName host)

/-- The loop of `LookupReal`, over the answers. -/
def gather (host : Str) (ans : UInt16 → Except (Err ε) (List Addr)) :
    List Addr → List UInt16 → Except (Err ε) (List Addr)
  | addrs, [] => if addrs = [] then .error (.noRecords host) else .ok addrs
  | addrs, qt :: qts =>
    match ans qt with
    | .error e => .error e
    | .ok as => gather host ans (addrs ++ as) qts

lemma cached_new (p : Plan υ) (fake : Option FakeIPConfig) : Cached lib g (new U p fake).cache := by
  intro key e he
  cases he

variable {addrs : List Addr} {host : Str} {qts : List UInt16}

/-- A resolver that holds answers to its questions gives what it would without
them. -/
lemma lookupTypes_fst {m : UInt16 → Moment υ ε}
    {r : Resolver υ} (hm : ∀ qt, AnswersBy lib U r.plan g (m qt)) (hc : Cached lib g r.cache) :
    (lookupTypes lib U m host r addrs qts).1 =
      gather host (answer lib U r.plan m host) addrs qts := by
  induction qts generalizing r addrs with
  | nil => rfl
  | cons qt qts ih =>
    rw [lookupTypes, gather, answer]
    split_ifs
    · cases lib.packQuery (dnsName host) qt with
      | none => rfl
      | some raw =>
        dsimp only
        have hp : (r.exchange1 lib U (m qt) raw true).2.plan = r.plan := exchange1_plan _ _ _
        have hk := cached_exchange1 (hm qt) hc raw true
        have heq := map_exchange1_eq (new U r.plan none) r rfl (hm qt) (cached_new _ _) hc raw
        rw [heq]
        generalize r.exchange1 lib U (m qt) raw true = x at hp hk
        obtain ⟨x, s⟩ := x
        cases x with
        | error e => rfl
        | ok resp =>
          have hrest : (lookupTypes lib U m host s (addrs ++ parseAddrs lib resp) qts).1 = _ :=
            ih (fun qt => by rw [hp]; exact hm qt) hk
          rw [hp] at hrest
          exact hrest
    · rfl

lemma lookupTypes_eq {m : UInt16 → Moment υ ε} {r r' : Resolver υ} (hplan : r'.plan = r.plan)
    (hm : ∀ qt, AnswersBy lib U r.plan g (m qt)) (hc : Cached lib g r.cache)
    (hc' : Cached lib g r'.cache) :
    (lookupTypes lib U m host r addrs qts).1 = (lookupTypes lib U m host r' addrs qts).1 := by
  rw [lookupTypes_fst hm hc, lookupTypes_fst (hplan ▸ hm) hc', hplan]

lemma lookupTypes_keeps {m : UInt16 → Moment υ ε}
    {r : Resolver υ} (hm : ∀ qt, AnswersBy lib U r.plan g (m qt)) (hc : Cached lib g r.cache) :
    (lookupTypes lib U m host r addrs qts).2.plan = r.plan ∧
      Cached lib g (lookupTypes lib U m host r addrs qts).2.cache := by
  induction qts generalizing r addrs with
  | nil => exact ⟨rfl, hc⟩
  | cons qt qts ih =>
    rw [lookupTypes]
    split_ifs
    · cases lib.packQuery (dnsName host) qt with
      | none => exact ⟨rfl, hc⟩
      | some raw =>
        dsimp only
        have hp : (r.exchange1 lib U (m qt) raw true).2.plan = r.plan := exchange1_plan _ _ _
        have hk := cached_exchange1 (hm qt) hc raw true
        generalize r.exchange1 lib U (m qt) raw true = x at hp hk
        obtain ⟨x, s⟩ := x
        cases x with
        | error e => exact ⟨hp, hk⟩
        | ok resp =>
          have hrest : (lookupTypes lib U m host s (addrs ++ parseAddrs lib resp) qts).2.plan =
              s.plan ∧ _ := ih (fun qt => by rw [hp]; exact hm qt) hk
          exact ⟨hrest.1.trans hp, hrest.2⟩
    · exact ⟨rfl, hc⟩

/-- **Step lemma**: a call keeps the plan, and answers to the questions in the
cache. -/
lemma step_keeps {c : Call υ ε} (hm : ∀ m, c.Meets m → AnswersBy lib U r.plan g m)
    (hc : Cached lib g r.cache) :
    (r.step lib U c).2.plan = r.plan ∧ Cached lib g (r.step lib U c).2.cache := by
  cases c with
  | exchange m q => exact ⟨exchange1_plan m q false, cached_exchange1 (hm m rfl) hc q false⟩
  | lookupReal m host s => exact lookupTypes_keeps (fun qt => hm _ ⟨qt, rfl⟩) hc
  | lookupCached now host s => exact ⟨rfl, fun key e he => hc key e (cachedTypes_cache he)⟩

/-- **Run lemma**: with fixed upstreams two resolvers that hold answers to their
questions have the same results of `LookupReal`. -/
lemma real_eq {cs : List (Call υ ε)} {r r' : Resolver υ} (hplan : r'.plan = r.plan)
    (hcs : ByQuestion lib U r.plan cs g) (hc : Cached lib g r.cache) (hc' : Cached lib g r'.cache) :
    (r.log lib U cs).filter (fun e => e.1.isReal) =
      (r'.log lib U cs).filter fun e => e.1.isReal := by
  induction cs generalizing r r' with
  | nil => rfl
  | cons c cs ih =>
    have hm : ∀ m, c.Meets m → AnswersBy lib U r.plan g m := hcs c mem_cons_self
    obtain ⟨hp, hk⟩ := step_keeps hm hc
    obtain ⟨hp', hk'⟩ := step_keeps (r := r') (c := c) (hplan ▸ hm) hc'
    have hrest : ((r.step lib U c).2.log lib U cs).filter _ =
        ((r'.step lib U c).2.log lib U cs).filter _ := ih
      (hp'.trans (hplan.trans hp.symm))
      (fun c' hc' => hp.symm ▸ hcs c' (mem_cons_of_mem _ hc')) hk hk'
    rw [log, log, filter_cons, filter_cons, hrest]
    cases c with
    | exchange m q => rfl
    | lookupCached now host s => rfl
    | lookupReal m host s =>
      have heq : (lookupTypes lib U m host r [] (queryTypes s)).1 =
          (lookupTypes lib U m host r' [] (queryTypes s)).1 :=
        lookupTypes_eq hplan (fun qt => hm _ ⟨qt, rfl⟩) hc hc'
      rw [step, step, lookupReal, lookupReal, heq]

/-- **Run lemma**: with fixed upstreams the cache holds answers to its questions. -/
lemma after_keeps {cs : List (Call υ ε)} {r : Resolver υ} (hcs : ByQuestion lib U r.plan cs g)
    (hc : Cached lib g r.cache) :
    (r.after lib U cs).plan = r.plan ∧ Cached lib g (r.after lib U cs).cache := by
  induction cs generalizing r with
  | nil => exact ⟨rfl, hc⟩
  | cons c cs ih =>
    obtain ⟨hp, hk⟩ := step_keeps (hcs c mem_cons_self) hc
    have hrest := ih (hp.symm ▸ fun c' hc' => hcs c' (mem_cons_of_mem c hc')) hk
    exact ⟨hrest.1.trans hp, hrest.2⟩

end

end Resolver

open Resolver

/-- **Fake addresses stay out of real resolution**, in every run of calls.

* Whatever is in the cache, an upstream gave it.
* `LookupReal` and `LookupCached` have the results of the resolver without fake
  addresses along the calls that the fake pool does not answer.
* With fixed upstreams, `LookupReal` has the results of the resolver without fake
  addresses along the same calls. -/
theorem fake_stays_out {υ ε : Type} (lib : Dnsmessage) (U : Unicode) (plan : Plan υ)
    (fake : FakeIPConfig) (cs : List (Call υ ε)) :
    (∀ key e, ((new U plan (some fake)).after lib U cs).cache key = some e →
        ∃ c ∈ cs, ∃ m, c.Meets m ∧ Given lib U m key e.raw) ∧
      (((new U plan none).log lib U
            (((new U plan (some fake)).served lib U cs).map Prod.fst)).filter
          (fun e => !e.1.isExchange) =
        ((new U plan (some fake)).log lib U cs).filter fun e => !e.1.isExchange) ∧
      ∀ g, ByQuestion lib U plan cs g →
        ((new U plan (some fake)).log lib U cs).filter (fun e => e.1.isReal) =
          ((new U plan none).log lib U cs).filter fun e => e.1.isReal := by
  refine ⟨?_, ?_, ?_⟩
  · intro key e he
    rcases after_cache he with hnone | hgiven
    · cases hnone
    · exact hgiven
  · have hsame : (new U plan (some fake)).unfaked.log lib U
        (((new U plan (some fake)).served lib U cs).map Prod.fst) = _ :=
      unfaked_eq (new U plan (some fake)) cs
    rw [← filter_served (new U plan (some fake)) cs]
    exact congrArg (List.filter fun e => !e.1.isExchange) hsame
  · intro g hg
    exact real_eq rfl hg (cached_new _ _) (cached_new _ _)

/-- **The cache cannot be seen**: with fixed upstreams `LookupReal` has after every run of
calls the result that it has in a resolver that is new. -/
theorem lookupReal_after {υ ε : Type} (lib : Dnsmessage) (U : Unicode) (plan : Plan υ)
    (fake : Option FakeIPConfig) (cs : List (Call υ ε)) (m : UInt16 → Moment υ ε) (host : Str)
    (s : Strategy) {g : Key → Except (Err ε) (List Addr)} (hcs : ByQuestion lib U plan cs g)
    (hm : ∀ qt, AnswersBy lib U plan g (m qt)) :
    (((new U plan fake).after lib U cs).lookupReal lib U m host s).1 =
      ((new U plan none).lookupReal lib U m host s).1 := by
  obtain ⟨hplan, hc⟩ := after_keeps (r := new U plan fake) hcs (cached_new plan fake)
  exact lookupTypes_eq hplan.symm (hplan.symm ▸ hm) hc (cached_new plan none)

/-! ### A small wire format -/

/-- The answers of six bytes each: a type, a time to live and an IPv4 address. -/
def tinyAnswers : Str → List Answer
  | t :: ttl :: a :: b :: c :: d :: rest =>
    ⟨t.toUInt16, ttl.toUInt32, some (BitVec.ofNat 32 (beNat [a, b, c, d])), none, true⟩ ::
      tinyAnswers rest
  | _ => []

lemma drop_setTxID (raw : Str) (id : UInt16) : (setTxID raw id).drop 12 = raw.drop 12 := by
  rw [setTxID]
  split_ifs
  · have hlen : (putBE 2 id.toNat).length = 2 := rfl
    rw [drop_append, hlen, drop_eq_nil_of_le (by rw [hlen]; omega), drop_drop]
    rfl
  · rfl

/-- Messages of one question: a header of twelve bytes, the type, the length of
the name and the name, then the answers. -/
def tinyMessage : Dnsmessage where
  question raw := match raw.drop 12 with
    | t :: n :: rest => some (rest.take n.toNat, t.toUInt16)
    | _ => none
  answers raw := match raw.drop 12 with
    | _ :: n :: rest => some (tinyAnswers (rest.drop n.toNat))
    | _ => none
  newName name := decide (name.length ≤ 255)
  packQuery name qt :=
    some (List.replicate 12 0 ++ [qt.toUInt8, UInt8.ofNat name.length] ++ name)
  packReply id name qt addrs :=
    some (putBE 2 id.toNat ++ List.replicate 10 0 ++ [qt.toUInt8, UInt8.ofNat name.length] ++
      name ++ addrs.flatMap fun a => [1, 60] ++ ipBytes a)
  answers_setTxID raw id := by rw [drop_setTxID]

/-- One upstream, which has `93.184.216.34` for every name. -/
def onePlan : Plan Unit := ⟨[()], [], .sequential, fun _ => none⟩

def oneMoment : Moment Unit Unit where
  get := 0
  put := 0
  ask _ raw := .ok (raw ++ [1, 60, 93, 184, 216, 34])
  order us := us

def fixedMoment : Moment Unit Unit :=
  { oneMoment with ask := fun _ _ => .ok (List.replicate 14 0 ++ [1, 60, 93, 184, 216, 34]) }

/-- Lookups between and after questions of a client. -/
def fixedCalls : List (Call Unit Unit) :=
  [.exchange fixedMoment ((tinyMessage.packQuery (lit "example.com.") typeA).getD []),
    .lookupReal (fun _ => fixedMoment) (lit "example.com") .both,
    .exchange fixedMoment ((tinyMessage.packQuery (lit "example.org.") typeA).getD []),
    .lookupReal (fun _ => fixedMoment) (lit "example.org") .v4Only]

lemma answersBy_fixedMoment :
    AnswersBy tinyMessage asciiNames onePlan (fun _ => .ok [.v4 0x5DB8D822]) fixedMoment := by
  intro q key id hp
  have hname : onePlan.upstreamsFor asciiNames key.name = [()] := by
    rw [Plan.upstreamsFor]
    split_ifs <;> rfl
  have hask : Plan.firstOk fixedMoment q none [()] =
      .ok (List.replicate 14 0 ++ [1, 60, 93, 184, 216, 34]) := rfl
  rw [Plan.exchange]
  simp only [onePlan] at hname ⊢
  rw [hname, hask]
  decide +kernel

/-- `fake_stays_out` with fixed upstreams. -/
theorem fake_stays_out_fixedCalls :
    ((new asciiNames onePlan (some defaultRanges)).log tinyMessage asciiNames
        fixedCalls).filter (fun e => e.1.isReal) =
      ((new asciiNames onePlan none).log tinyMessage asciiNames
        fixedCalls).filter fun e => e.1.isReal := by
  refine (fake_stays_out tinyMessage asciiNames onePlan defaultRanges fixedCalls).2.2
    (fun _ => .ok [.v4 0x5DB8D822]) fun c hc m hm q key id hp => ?_
  have hfixed : m = fixedMoment := by
    simp only [fixedCalls, mem_cons, not_mem_nil, or_false] at hc
    rcases hc with rfl | rfl | rfl | rfl
    · exact hm
    · exact hm.choose_spec
    · exact hm
    · exact hm.choose_spec
  subst hfixed
  exact answersBy_fixedMoment q key id hp

/-- The second question is answered from the cache. -/
theorem lookupReal_after_exchange :
    (((new asciiNames onePlan none).after tinyMessage asciiNames [.exchange fixedMoment
        ((tinyMessage.packQuery (lit "example.com.") typeA).getD [])]).lookupReal tinyMessage
        asciiNames (fun _ => fixedMoment) (lit "example.com") .v4Only).1 =
      ((new asciiNames onePlan none).lookupReal tinyMessage asciiNames (fun _ => fixedMoment)
        (lit "example.com") .v4Only).1 := by
  refine lookupReal_after _ _ _ _ _ _ _ _ (fun c hc m hm => ?_) fun _ => answersBy_fixedMoment
  obtain rfl := mem_singleton.mp hc
  exact (show m = fixedMoment from hm) ▸ answersBy_fixedMoment

/-- A client asks for a name, and then the router looks into the cache. -/
def askThenCached : List (Call Unit Unit) :=
  [.exchange oneMoment ((tinyMessage.packQuery (lit "example.com.") typeA).getD []),
    .lookupCached (fun _ => 0) (lit "example.com") .v4Only]

def Result.cached? {ε : Type} : Result ε → Option (List Addr × Bool)
  | cached addrs ok => some (addrs, ok)
  | _ => none

/-- With fake addresses the cache has nothing for the name, without them it has
what the upstream gave to the client. -/
theorem lookupCached_differs :
    ((new asciiNames onePlan (some defaultRanges)).log tinyMessage asciiNames
        askThenCached).map (fun e => e.2.cached?) = [none, some ([], false)] ∧
      ((new asciiNames onePlan none).log tinyMessage asciiNames
        askThenCached).map (fun e => e.2.cached?) = [none, some ([.v4 0x5DB8D822], true)] := by
  decide +kernel

end Ntr.Dns
