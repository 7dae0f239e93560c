/-
The UDP NAT (`service/udpnat.go`) and fake addresses.

* `act`: streams and client datagrams in any order, over any number of associations, and
  the calls by which they reach outbounds;
* `hidden_iff`: calls carry the domain in exactly the runs in which no datagram to a
  live fake address gets a socket: dials carry the domain, but the datagram itself is
  written with the address that the client gave it.
-/
import Ntr.Service.Router

namespace Ntr.Service.Udp

open Go Proto

/-! ### One association -/

/-- `udpNat`: the open sockets by the text of their target, and the full-cone
socket that all targets share. -/
structure Assoc (ο : Type) where
  conns : List (Str × Socket ο) := []
  shared : Option (Socket ο) := none

def maxUDPTargets : Nat := 512

/-- A call that reaches an outbound, with the address that it carries. -/
inductive Call (ο : Type) where
  | dialStream (out : ο) (dst : Socksaddr)
  | dialPacket (out : ο) (dst : Socksaddr)
  | writePacket (socket : Socket ο) (dst : Socksaddr)
  deriving DecidableEq

def Call.dst {ο : Type} : Call ο → Socksaddr
  | dialStream _ dst | dialPacket _ dst | writePacket _ dst => dst

namespace Assoc

variable {ο : Type} (r : RuleRouter ο) (w : World ο) (n : Assoc ο)

def find (dst : Socksaddr) : Option (Socket ο) := n.conns.lookup dst.string

def known (dst : Socksaddr) : Bool := n.shared.isSome || (n.find dst).isSome

/-- A new socket is kept for its target, a full-cone socket for all. -/
def keep (dst : Socksaddr) (c : Socket ο) : Assoc ο :=
  if c.fullCone then { n with shared := some c } else { n with conns := (dst.string, c) :: n.conns }

/-- `conn`: the socket for a datagram, if there is one, and the calls that it
takes to open it. -/
def conn (dst : Socksaddr) (proto : Str) : Option (Socket ο) × Assoc ο × List (Call ο) :=
  match n.shared with
  | some c => (some c, n, [])
  | none =>
    match n.find dst with
    | some c => (some c, n, [])
    | none =>
      if n.conns.length ≥ maxUDPTargets then (none, n, [])
      else
        match Landing.datagram.resolve r w dst proto with
        | .error _ => (none, n, [])
        | .ok out =>
          let dial := [Call.dialPacket out.table (out.dialled dst)]
          match w.dialPacket out.table (out.dialled dst) with
          | none => (none, n, dial)
          | some c => (some c, n.keep dst c, dial)

/-- One round of the loop of `udpNAT`: a datagram to `dst`, in which `proto` is
sniffed when the target is new. -/
def forward (dst : Socksaddr) (proto : Str) : Assoc ο × List (Call ο) :=
  let proto := if n.known dst then [] else proto
  match n.conn r w dst proto with
  | (none, n, calls) => (n, calls)
  | (some c, n, calls) => (n, calls ++ [.writePacket c dst])

end Assoc

/-! ### Runs -/

/-- A step: a flow that is routed and dialled on one of the landing paths, a
client datagram on an association, the end of an association. The world may be
another one at each step. -/
inductive Action (ο : Type) where
  | dial (w : World ο) (path : Landing) (dst : Socksaddr) (proto : Str)
  | datagram (w : World ο) (assoc : Nat) (dst : Socksaddr) (proto : Str)
  | close (assoc : Nat)

abbrev Assocs (ο : Type) := Nat → Assoc ο

section
variable {ο : Type} (r : RuleRouter ο)

def act (s : Assocs ο) : Action ο → Assocs ο × List (Call ο)
  | .dial w path dst proto =>
    match path.resolve r w dst proto with
    | .error _ => (s, [])
    | .ok out =>
      match path.network with
      | .tcp => (s, [.dialStream out.table (out.dialled dst)])
      | .udp => (s, [.dialPacket out.table (out.dialled dst)])
  | .datagram w a dst proto =>
    (Function.update s a ((s a).forward r w dst proto).1, ((s a).forward r w dst proto).2)
  | .close a => (Function.update s a {}, [])

/-- The traffic of the step is addressed to a live fake address. -/
def Action.Live : Action ο → Socksaddr → Str → Prop
  | dial w _ dst _, d, domain => d = dst ∧ r.Live w dst domain
  | datagram w _ dst _, d, domain => d = dst ∧ r.Live w dst domain
  | close _, _, _ => False

/-- Each call of the step that is for a live fake address carries its domain. -/
def HiddenIn (s : Assocs ο) (x : Action ο) : Prop :=
  ∀ dst domain, x.Live r dst domain →
    ∀ c ∈ (act r s x).2, c.dst = Socksaddr.fromFqdn domain dst.port

/-- Every step of a run keeps fake addresses on the host. -/
def Hidden (s : Assocs ο) : List (Action ο) → Prop
  | [] => True
  | x :: xs => HiddenIn r s x ∧ Hidden (act r s x).1 xs

/-- A datagram to `dst` gets a socket: there is a shared one or one of its
target, or there is room for one more, the target is routed and the dial goes
through. -/
def Assoc.GetsSocket (w : World ο) (n : Assoc ο) (dst : Socksaddr) (proto : Str) : Prop :=
  n.shared.isSome ∨ (n.find dst).isSome ∨ n.conns.length < maxUDPTargets ∧
      ∃ out, Landing.datagram.resolve r w dst proto = .ok out ∧
        (w.dialPacket out.table (out.dialled dst)).isSome

/-- The step is a datagram to a live fake address that gets a socket. -/
def Exposes (s : Assocs ο) : Action ο → Prop
  | .datagram w a dst proto => (∃ domain, r.Live w dst domain) ∧ (s a).GetsSocket r w dst proto
  | _ => False

def NoneExposed (s : Assocs ο) : List (Action ο) → Prop
  | [] => True
  | x :: xs => ¬ Exposes r s x ∧ NoneExposed (act r s x).1 xs

end

/-! ### What the calls carry -/

section
variable {ο : Type} {r : RuleRouter ο} {w : World ο} {n : Assoc ο} {dst : Socksaddr} {proto : Str}

lemma dialled_of_resolve {p : Landing} {domain : Str} {out : Outbound ο}
    (h : r.Live w dst domain) (hr : p.resolve r w dst proto = .ok out) :
    out.dialled dst = Socksaddr.fromFqdn domain dst.port := by
  cases p <;> exact RuleRouter.dialled_of_route h hr

lemma dst_of_mem_conn {domain : Str} (h : r.Live w dst domain) {c : Call ο}
    (hc : c ∈ (n.conn r w dst proto).2.2) : c.dst = Socksaddr.fromFqdn domain dst.port := by
  rw [Assoc.conn] at hc
  split at hc
  · cases hc
  · split at hc
    · cases hc
    · split_ifs at hc
      · cases hc
      · split at hc
        · cases hc
        next out hout =>
          -- The only call is the dial, whether it goes through or not.
          have hcall : c = .dialPacket out.table (out.dialled dst) := by
            dsimp only at hc
            split at hc <;> exact List.mem_singleton.mp hc
          rw [hcall]
          exact dialled_of_resolve h hout

lemma conn_isSome_iff : (n.conn r w dst proto).1.isSome ↔ n.GetsSocket r w dst proto := by
  rw [Assoc.conn, Assoc.GetsSocket]
  cases hshared : n.shared with
  | some c => simp
  | none =>
    cases hfind : n.find dst with
    | some c => simp
    | none =>
      by_cases hfull : n.conns.length ≥ maxUDPTargets
      · simp [hfull]
      · cases hout : Landing.datagram.resolve r w dst proto with
        | error e => simp [hfull]
        | ok out =>
          have hroom : n.conns.length < maxUDPTargets := not_le.mp hfull
          cases hdial : w.dialPacket out.table (out.dialled dst) <;> simp [hfull, hroom, hdial]

lemma getsSocket_sniffed :
    n.GetsSocket r w dst (if n.known dst then [] else proto) ↔ n.GetsSocket r w dst proto := by
  by_cases hk : n.known dst = true
  · have hsock : ∀ p, n.GetsSocket r w dst p := by
      intro p
      rw [Assoc.known, Bool.or_eq_true] at hk
      exact hk.elim .inl fun hfind => .inr (.inl hfind)
    exact iff_of_true (hsock _) (hsock _)
  · rw [if_neg hk]

/-- The datagram is written with the address that the client gave it. -/
lemma exists_writePacket (h : n.GetsSocket r w dst proto) :
    ∃ c, .writePacket c dst ∈ (n.forward r w dst proto).2 := by
  have hsome := conn_isSome_iff.mpr (getsSocket_sniffed.mpr h)
  rw [Assoc.forward]
  generalize n.conn r w dst (if n.known dst then [] else proto) = x at hsome ⊢
  obtain ⟨_ | c, n', calls⟩ := x
  · cases hsome
  · exact ⟨c, by simp⟩

lemma mem_conn_of_mem_forward (h : ¬ n.GetsSocket r w dst proto) {c : Call ο}
    (hc : c ∈ (n.forward r w dst proto).2) :
    c ∈ (n.conn r w dst (if n.known dst then [] else proto)).2.2 := by
  have hnone := mt conn_isSome_iff.mp (mt getsSocket_sniffed.mp h)
  rw [Assoc.forward] at hc
  generalize n.conn r w dst (if n.known dst then [] else proto) = x at hnone hc ⊢
  obtain ⟨_ | c', n', calls⟩ := x
  · exact hc
  · exact absurd rfl hnone

/-- **Step lemma**: a step keeps fake addresses on the host if and only if it is
not a datagram to one that gets a socket. -/
lemma hiddenIn_iff (s : Assocs ο) (x : Action ο) : HiddenIn r s x ↔ ¬ Exposes r s x := by
  cases x with
  | dial w path dst proto =>
    refine iff_of_true ?_ not_false
    rintro d domain ⟨hd, hlive⟩ c hc
    rw [act] at hc
    split at hc
    · cases hc
    next out hout =>
      have hdst : c.dst = out.dialled dst := by
        split at hc <;> rw [List.mem_singleton.mp hc] <;> rfl
      rw [hdst, hd]
      exact dialled_of_resolve hlive hout
  | datagram w a dst proto =>
    constructor
    · rintro h ⟨⟨domain, hlive⟩, hsock⟩
      obtain ⟨c, hc⟩ := exists_writePacket hsock
      exact RuleRouter.fromFqdn_ne_of_isIP hlive.2.1 domain dst.port
        (h dst domain ⟨rfl, hlive⟩ _ hc).symm
    · rintro h _ domain ⟨rfl, hlive⟩ c hc
      exact dst_of_mem_conn hlive (mem_conn_of_mem_forward (fun hs => h ⟨⟨domain, hlive⟩, hs⟩) hc)
  | close a => exact iff_of_true (fun _ _ h => h.elim) not_false

end

/-- **Fake addresses stay on the host** in exactly the runs in which no datagram
to a live fake address gets a socket, whatever the rule table, the mapping at
each moment, the outbounds and the order of the steps. -/
theorem hidden_iff {ο : Type} (r : RuleRouter ο) (s : Assocs ο) (xs : List (Action ο)) :
    Hidden r s xs ↔ NoneExposed r s xs := by
  induction xs generalizing s with
  | nil => exact Iff.rfl
  | cons x xs ih => exact and_congr (hiddenIn_iff s x) (ih (act r s x).1)

/-- Everything goes to `direct`. -/
def directRouter : RuleRouter Str :=
  ⟨Routing.asciiText, { dflt := lit "direct" }, some, true, none, false⟩

/-- `198.18.0.1` stands for `example.com`; `direct` gives sockets of one kind. -/
def fakeWorld (fullCone : Bool) : World Str where
  fake a := if a = .v4 0xC6120001 then some (lit "example.com") else none
  lookupCached _ := none
  lookupReal _ := none
  dialPacket out dst := some ⟨out, dst, fullCone⟩

def fakeDst : Socksaddr := ⟨.v4 0xC6120001, [], 53⟩

/-- A datagram to a fake address: the dial carries the domain and the datagram
the fake address. After a datagram to a real address on a full-cone socket, it
is not even routed, and the socket sends it to the fake address. -/
theorem datagram_exposes_fake :
    (act directRouter (fun _ => {}) (.datagram (fakeWorld false) 0 fakeDst [])).2 =
        [.dialPacket (lit "direct") (.fromFqdn (lit "example.com") 53),
          .writePacket ⟨lit "direct", .fromFqdn (lit "example.com") 53, false⟩ fakeDst] ∧
      ¬ Hidden directRouter (fun _ => {}) [.datagram (fakeWorld false) 0 fakeDst []] ∧
      ¬ Hidden directRouter (fun _ => {}) [.datagram (fakeWorld true) 0 ⟨.v4 0x01010101, [], 53⟩ [],
        .datagram (fakeWorld true) 0 fakeDst []] := by
  have hdom : Socksaddr.fromFqdn (lit "example.com") fakeDst.port ≠ fakeDst := by decide +kernel
  refine ⟨by decide +kernel, ?_, ?_⟩
  · intro h
    have hcall := h.1 fakeDst (lit "example.com") ⟨rfl, by decide +kernel, by decide +kernel, rfl⟩
      (.writePacket ⟨lit "direct", .fromFqdn (lit "example.com") 53, false⟩ fakeDst)
      (by decide +kernel)
    exact hdom hcall.symm
  · intro h
    have hcall := h.2.1 fakeDst (lit "example.com") ⟨rfl, by decide +kernel, by decide +kernel, rfl⟩
      (.writePacket ⟨lit "direct", ⟨.v4 0x01010101, [], 53⟩, true⟩ fakeDst) (by decide +kernel)
    exact hdom hcall.symm

end Ntr.Service.Udp
