/-
The routes of the datagrams of one UDP association (`service/udpnat.go`), over
any resolver.

* `log`: the datagrams of an association in their order, each with the socket
  that it is written to;
* `Routed`: where a datagram goes, told from the log alone: the full-cone socket,
  the socket of an earlier datagram to the same target, a drop when the targets
  are too many, and only then the outbound that the resolver selects for it;
* `each_routed`: every datagram of every run goes there.
-/
import Ntr.Service.UdpNat

namespace Ntr.Service.Udp

open Go Proto List Assoc

/-! ### The protocol of a datagram -/

def isSTUN (b : Str) : Bool :=
  decide (20 ≤ b.length) && (beNat ((b.drop 4).take 4) == 0x2112A442) &&
    decide (20 + beNat ((b.drop 2).take 2) ≤ b.length)

def isDTLS (b : Str) : Bool :=
  decide (13 ≤ b.length) && [20, 21, 22, 23, 25].contains (b.headD 0) &&
    ((b.drop 1).headD 0 == 0xFE) && ((b.drop 2).headD 0 == 0xFF || (b.drop 2).headD 0 == 0xFD)

/-- `isQUIC`: a long header with a known version. -/
def isQUIC (b : Str) : Bool :=
  decide (5 ≤ b.length) && decide (0x80 ≤ b.headD 0) &&
    let v := beNat ((b.drop 1).take 4)
    v == 0x00000001 || v == 0x6B3343CF || decide (0xFF000000 ≤ v)

/-- `sniffPacket`, with the name of the protocol that it finds. -/
def sniffPacket (datagram : Str) : Str :=
  if isSTUN datagram then lit "stun"
  else if isDTLS datagram then lit "dtls"
  else if isQUIC datagram then lit "quic"
  else []

/-! ### The NAT over any resolver -/

/-- An `OutboundResolver` with the outbounds that it gives, at one moment. -/
structure Resolver (ο : Type) where
  /-- The outbound for a destination and a sniffed protocol. -/
  resolve : Socksaddr → Str → Except Str (Outbound ο)
  /-- Whether a `DialPacket` goes through; a blocking outbound refuses it. -/
  dialPacket : ο → Socksaddr → Option (Socket ο)

variable {ο : Type}

/-- The resolver is asked for a destination, and what it selects is dialled. -/
def Resolver.dial (R : Resolver ο) (dst : Socksaddr) (proto : Str) : Option (Socket ο) :=
  match R.resolve dst proto with
  | .error _ => none
  | .ok out => R.dialPacket out.table (out.dialled dst)

def Resolver.ofRules (r : RuleRouter ο) (w : World ο) : Resolver ο :=
  ⟨fun dst proto => Landing.datagram.resolve r w dst proto, w.dialPacket⟩

namespace Assoc

/-- `conn` with any resolver. -/
def connBy (n : Assoc ο) (R : Resolver ο) (dst : Socksaddr) (proto : Str) :
    Option (Socket ο) × Assoc ο :=
  match n.shared with
  | some c => (some c, n)
  | none =>
    match n.find dst with
    | some c => (some c, n)
    | none =>
      if n.conns.length ≥ maxUDPTargets then (none, n)
      else
        match R.dial dst proto with
        | none => (none, n)
        | some c => (some c, n.keep dst c)

lemma connBy_ofRules (n : Assoc ο) (r : RuleRouter ο) (w : World ο) (dst : Socksaddr)
    (proto : Str) : n.connBy (.ofRules r w) dst proto =
      ((n.conn r w dst proto).1, (n.conn r w dst proto).2.1) := by
  rw [connBy, conn, Resolver.dial, Resolver.ofRules]
  cases n.shared with
  | some c => rfl
  | none =>
    cases n.find dst with
    | some c => rfl
    | none =>
      dsimp only
      split_ifs with hfull
      · rfl
      · cases Landing.datagram.resolve r w dst proto with
        | error e => rfl
        | ok out =>
          dsimp only
          cases w.dialPacket out.table (out.dialled dst) <;> rfl

end Assoc

/-- A datagram of the client, with the resolver as it answers when the datagram
comes. -/
structure Datagram (ο : Type) where
  dst : Socksaddr
  payload : Str
  now : Resolver ο

/-- What the resolver selects for a datagram, dialled for its own destination. -/
def Datagram.selected (d : Datagram ο) : Option (Socket ο) :=
  d.now.dial d.dst (sniffPacket d.payload)

/-- One round of the loop of `udpNAT`: the socket that the datagram is written
to, `none` when it is dropped. -/
def Assoc.next (n : Assoc ο) (d : Datagram ο) : Option (Socket ο) × Assoc ο :=
  n.connBy d.now d.dst (if n.known d.dst then [] else sniffPacket d.payload)

/-- Datagrams with the sockets that they were written to. -/
abbrev Log (ο : Type) := List (Datagram ο × Option (Socket ο))

def log (n : Assoc ο) : List (Datagram ο) → Log ο
  | [] => []
  | d :: ds => (d, (n.next d).1) :: log (n.next d).2 ds

/-! ### Where a datagram goes -/

def Coned (past : Log ο) : Prop := ∃ e c, (e, some c) ∈ past ∧ c.fullCone = true

/-- A datagram to the target was written to a socket. -/
def Served (past : Log ο) (text : Str) : Prop :=
  ∃ e c, (e, some c) ∈ past ∧ e.dst.string = text

def targets (past : Log ο) : List Str :=
  ((past.filter fun e => e.2.isSome).map fun e => e.1.dst.string).dedup

structure Routed (past : Log ο) (d : Datagram ο) (x : Option (Socket ο)) : Prop where
  /-- The first full-cone socket serves every later datagram. -/
  cone : ∀ e c, (e, some c) ∈ past → c.fullCone = true → x = some c
  /-- A target keeps its first socket. -/
  known : ¬ Coned past → ∀ e c, (e, some c) ∈ past → e.dst.string = d.dst.string → x = some c
  /-- A new target beyond the limit is dropped. -/
  full : ¬ Coned past → ¬ Served past d.dst.string →
    maxUDPTargets ≤ (targets past).length → x = none
  /-- Any other new target is routed for its own destination. -/
  fresh : ¬ Coned past → ¬ Served past d.dst.string →
    (targets past).length < maxUDPTargets → x = d.selected

/-- Every entry of a log goes where the entries before it say. -/
def EachRouted (past : Log ο) : Log ο → Prop
  | [] => True
  | (d, x) :: rest => Routed past d x ∧ EachRouted (past ++ [(d, x)]) rest

/-! ### The association and its log -/

structure Agrees (n : Assoc ο) (past : Log ο) : Prop where
  cone : ∀ e c, (e, some c) ∈ past → c.fullCone = true → n.shared = some c
  coned : ∀ c, n.shared = some c → Coned past
  find : n.shared = none → ∀ e c, (e, some c) ∈ past → n.conns.lookup e.dst.string = some c
  served : n.shared = none → ∀ k ∈ n.conns.map Prod.fst, Served past k
  nodup : (n.conns.map Prod.fst).Nodup

lemma mem_targets {past : Log ο} {text : Str} : text ∈ targets past ↔ Served past text := by
  rw [targets, mem_dedup]
  constructor
  · intro h
    obtain ⟨⟨e, x⟩, hmem, htext⟩ := mem_map.mp h
    obtain ⟨hin, hsome⟩ := mem_filter.mp hmem
    obtain ⟨c, rfl⟩ := Option.isSome_iff_exists.mp hsome
    exact ⟨e, c, hin, htext⟩
  · rintro ⟨e, c, hmem, htext⟩
    exact mem_map.mpr ⟨(e, some c), mem_filter.mpr ⟨hmem, rfl⟩, htext⟩

lemma mem_keys_of_lookup {k : Str} {c : Socket ο} {l : List (Str × Socket ο)}
    (h : l.lookup k = some c) : k ∈ l.map Prod.fst := by
  obtain ⟨l₁, l₂, rfl, -⟩ := lookup_eq_some_iff.mp h
  simp

namespace Agrees

variable {n : Assoc ο} {past : Log ο} {d : Datagram ο}

lemma empty : Agrees ({} : Assoc ο) [] where
  cone e c h := absurd h not_mem_nil
  coned c h := by cases h
  find _ e c h := absurd h not_mem_nil
  served _ k h := absurd h not_mem_nil
  nodup := nodup_nil

lemma shared_eq_none (h : Agrees n past) (hcone : ¬ Coned past) : n.shared = none := by
  cases hs : n.shared with
  | none => rfl
  | some c => exact absurd (h.coned c hs) hcone

lemma length_conns (h : Agrees n past) (hs : n.shared = none) :
    n.conns.length = (targets past).length := by
  have hperm : (n.conns.map Prod.fst).Perm (targets past) := by
    refine (perm_ext_iff_of_nodup h.nodup (nodup_dedup _)).mpr fun k => ?_
    rw [← targets, mem_targets]
    constructor
    · exact h.served hs k
    · rintro ⟨e, c, hmem, rfl⟩
      exact mem_keys_of_lookup (h.find hs e c hmem)
  rw [← hperm.length_eq, length_map]

lemma find_eq_none (h : Agrees n past) (hs : n.shared = none)
    (hnew : ¬ Served past d.dst.string) : n.find d.dst = none := by
  cases hfind : n.find d.dst with
  | none => rfl
  | some c => exact absurd (h.served hs _ (mem_keys_of_lookup hfind)) hnew

lemma routed (h : Agrees n past) : Routed past d (n.next d).1 where
  cone e c hmem hc := by rw [Assoc.next, Assoc.connBy, h.cone e c hmem hc]
  known hcone e c hmem htext := by
    have hs := h.shared_eq_none hcone
    have hfind : n.find d.dst = some c := by
      rw [Assoc.find, ← htext]
      exact h.find hs e c hmem
    rw [Assoc.next, Assoc.connBy, hs, hfind]
  full hcone hnew hmany := by
    have hs := h.shared_eq_none hcone
    have hfull : n.conns.length ≥ maxUDPTargets := (h.length_conns hs).symm ▸ hmany
    rw [Assoc.next, Assoc.connBy, hs, h.find_eq_none hs hnew]
    simp only [if_pos hfull]
  fresh hcone hnew hroom := by
    have hs := h.shared_eq_none hcone
    have hfind := h.find_eq_none hs hnew
    have hfull : ¬ n.conns.length ≥ maxUDPTargets := by
      rw [h.length_conns hs]
      exact not_le.mpr hroom
    have hknown : n.known d.dst = false := by rw [Assoc.known, hs, hfind]; rfl
    rw [Assoc.next, Assoc.connBy, hs, hfind, hknown, Datagram.selected]
    simp only [if_neg hfull, Bool.false_eq_true, if_false]
    cases d.now.dial d.dst (sniffPacket d.payload) <;> rfl

/-- What a round does to the association: nothing, and then the datagram is
dropped or was served by a socket that is there, or it keeps a new socket. -/
lemma next_cases (n : Assoc ο) (d : Datagram ο) : (n.next d = (none, n)) ∨
    (∃ c, n.next d = (some c, n) ∧
      (n.shared = some c ∨ n.shared = none ∧ n.find d.dst = some c)) ∨
    ∃ c, n.next d = (some c, n.keep d.dst c) ∧ n.shared = none ∧ n.find d.dst = none := by
  rw [Assoc.next, Assoc.connBy]
  cases hs : n.shared with
  | some c => exact .inr (.inl ⟨c, rfl, .inl rfl⟩)
  | none =>
    cases hfind : n.find d.dst with
    | some c => exact .inr (.inl ⟨c, rfl, .inr ⟨rfl, rfl⟩⟩)
    | none =>
      dsimp only
      split_ifs
      · exact .inl rfl
      all_goals
        generalize d.now.dial d.dst _ = x
        cases x with
        | none => exact .inl rfl
        | some c => exact .inr (.inr ⟨c, rfl, rfl, rfl⟩)

/-- **Step lemma**: a round keeps the association and the log together. -/
lemma next (h : Agrees n past) : Agrees (n.next d).2 (past ++ [(d, (n.next d).1)]) := by
  have hmem : ∀ {e c x}, (e, some c) ∈ past ++ [(d, x)] ↔
      (e, some c) ∈ past ∨ e = d ∧ some c = x := by
    intro e c x
    rw [mem_append, mem_singleton, Prod.mk.injEq]
  have hserved : ∀ {k x}, Served past k → Served (past ++ [(d, x)]) k := by
    rintro k x ⟨e, c, hin, htext⟩
    exact ⟨e, c, mem_append_left _ hin, htext⟩
  have hconed : ∀ {x}, Coned past → Coned (past ++ [(d, x)]) := by
    rintro x ⟨e, c, hin, hc⟩
    exact ⟨e, c, mem_append_left _ hin, hc⟩
  obtain hnext | ⟨c, hnext, hc⟩ | ⟨c, hnext, hs, hfind⟩ := next_cases n d <;> rw [hnext]
  · -- dropped: the log has no new socket
    refine ⟨?_, fun c hs => hconed (h.coned c hs), ?_, fun hs k hk => hserved (h.served hs k hk),
      h.nodup⟩
    · intro e c hin hfc
      obtain hin | ⟨-, hx⟩ := hmem.mp hin
      · exact h.cone e c hin hfc
      · cases hx
    · intro hs e c hin
      obtain hin | ⟨-, hx⟩ := hmem.mp hin
      · exact h.find hs e c hin
      · cases hx
  · -- served by a socket that is there: the shared one, or the one of its target
    refine ⟨?_, fun c hs => hconed (h.coned c hs), ?_, fun hs k hk => hserved (h.served hs k hk),
      h.nodup⟩
    · intro e c' hin hfc
      obtain hin | ⟨-, hx⟩ := hmem.mp hin
      · exact h.cone e c' hin hfc
      · obtain rfl := Option.some.inj hx
        obtain hs | ⟨hs, hfind⟩ := hc
        · exact hs
        · obtain ⟨e₀, c₀, hin₀, htext⟩ := h.served hs _ (mem_keys_of_lookup hfind)
          have hsame : some c₀ = some c' := by
            rw [← h.find hs e₀ c₀ hin₀, htext]
            exact hfind
          exact h.cone e₀ c' (hsame ▸ hin₀) hfc
    · intro hs e c' hin
      obtain hin | ⟨rfl, hx⟩ := hmem.mp hin
      · exact h.find hs e c' hin
      · obtain rfl := Option.some.inj hx
        obtain hs' | ⟨-, hfind⟩ := hc
        · rw [hs] at hs'
          cases hs'
        · exact hfind
  · -- a new socket
    have hnew : ∀ e c', (e, some c') ∈ past → e.dst.string ≠ d.dst.string := by
      intro e c' hin htext
      have hlookup := h.find hs e c' hin
      rw [htext] at hlookup
      rw [Assoc.find, hlookup] at hfind
      cases hfind
    have hnocone : ∀ e c', (e, some c') ∈ past → ¬ c'.fullCone = true := by
      intro e c' hin hfc
      rw [h.cone e c' hin hfc] at hs
      cases hs
    rw [keep]
    split_ifs with hfc
    · refine ⟨?_, ?_, fun hs => (by cases hs), fun hs => (by cases hs), h.nodup⟩
      · intro e c' hin hfc'
        obtain hin | ⟨-, hx⟩ := hmem.mp hin
        · exact absurd hfc' (hnocone e c' hin)
        · exact hx.symm
      · intro c' _
        exact ⟨d, c, hmem.mpr (.inr ⟨rfl, rfl⟩), hfc⟩
    · refine ⟨?_, fun c' hs' => ?_, ?_, ?_, ?_⟩
      · intro e c' hin hfc'
        obtain hin | ⟨-, hx⟩ := hmem.mp hin
        · exact absurd hfc' (hnocone e c' hin)
        · obtain rfl := Option.some.inj hx
          exact absurd hfc' hfc
      · rw [hs] at hs'
        cases hs'
      · intro _ e c' hin
        obtain hin | ⟨rfl, hx⟩ := hmem.mp hin
        · have hne : (e.dst.string == d.dst.string) = false :=
            beq_eq_false_iff_ne.mpr (hnew e c' hin)
          rw [lookup_cons, hne]
          exact h.find hs e c' hin
        · rw [lookup_cons, BEq.rfl, hx]
      · intro _ k hk
        rw [map_cons, mem_cons] at hk
        obtain rfl | hk := hk
        · exact ⟨d, c, hmem.mpr (.inr ⟨rfl, rfl⟩), rfl⟩
        · exact hserved (h.served hs k hk)
      · rw [map_cons, nodup_cons]
        refine ⟨fun hk => ?_, h.nodup⟩
        obtain ⟨e, c', hin, htext⟩ := h.served hs _ hk
        exact hnew e c' hin htext

/-- **Run lemma**. -/
lemma eachRouted (h : Agrees n past) (ds : List (Datagram ο)) : EachRouted past (log n ds) := by
  induction ds generalizing n past with
  | nil => trivial
  | cons d ds ih => exact ⟨h.routed, ih h.next⟩

end Agrees

/-- **The routes of an association**: whatever the datagrams and the answers of
the resolver, each datagram of a run goes where `Routed` says. -/
theorem each_routed (ds : List (Datagram ο)) : EachRouted [] (log {} ds) :=
  Agrees.empty.eachRouted ds

/-- Port 53 goes to `direct`, which gives full-cone sockets, all else to `block`,
which refuses to dial. -/
def dnsOnly : Resolver Str where
  resolve dst _ := .ok (.plain (if dst.port = 53 then lit "direct" else lit "block"))
  dialPacket out dst := if out = lit "block" then none else some ⟨out, dst, true⟩

/-- A datagram to `1.1.1.1` at a port. -/
def toPort (port : UInt16) : Datagram Str := ⟨⟨.v4 0x01010101, [], port⟩, [], dnsOnly⟩

/-- A datagram whose target is blocked is dropped on a new association, and goes
out through the other target's outbound after a datagram there. -/
theorem blocked_target_sent : (toPort 3478).selected = none ∧
    (log {} [toPort 3478]).map Prod.snd = [none] ∧
    (log {} [toPort 53, toPort 3478]).map Prod.snd = [some ⟨lit "direct", (toPort 53).dst, true⟩,
        some ⟨lit "direct", (toPort 53).dst, true⟩] := by
  decide +kernel

end Ntr.Service.Udp
