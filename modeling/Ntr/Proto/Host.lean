/-
Hosts on the wire, as VLESS and Trojan write them: a type byte, and then the four
or sixteen bytes of an address, or a length byte and a domain.

* `wireHost`, `spill`: what the reader makes of what the writer wrote, and what it
  leaves of it: the length byte holds the length of the domain modulo `256`, and
  an address has no zone on the wire (`runs_readHost`);
* `wireHost_eq_iff`: the reader has the host, and nothing is left of it, exactly
  for the hosts that `FitsWire` names.
-/
import Ntr.Go.Reader
import Ntr.Go.Varint
import Ntr.Socksaddr

namespace Ntr.Proto

open Go Lib Lib.FailState Reader

/-- The type bytes of addresses. -/
structure Atyps where
  ipv4 : UInt8
  domain : UInt8
  ipv6 : UInt8
  /-- The error for any other type. -/
  errAtyp : Error
  ipv4_ne_domain : ipv4 ≠ domain
  ipv4_ne_ipv6 : ipv4 ≠ ipv6
  domain_ne_ipv6 : domain ≠ ipv6

/-- `As16`; the zero address has sixteen zero bytes. -/
def as16 : Addr → Str
  | .v6 a _ => putBE 16 a.toNat
  | .v4 a => List.replicate 10 0 ++ [0xFF, 0xFF] ++ putBE 4 a.toNat
  | .zero => List.replicate 16 0

section
variable (t : Atyps)

def atyp (d : Socksaddr) : UInt8 :=
  if d.isFqdn then t.domain else if d.addr.is4 then t.ipv4 else t.ipv6

def hostParts (d : Socksaddr) : List Str :=
  if d.isFqdn then [[UInt8.ofNat d.fqdn.length], d.fqdn]
  else
    match d.addr with
    | .v4 a => [putBE 4 a.toNat]
    | a => [as16 a]

def readHost {σ : Type} [Reader σ] (atyp : UInt8) : FailState Error σ (Addr × Str) := do
  if atyp = t.ipv4 then do
    let a ← readFull 4
    pure (addrFrom4 a, [])
  else if atyp = t.domain then do
    let l ← readFull 1
    let name ← readFull (l.headD 0).toNat
    pure (.zero, name)
  else if atyp = t.ipv6 then do
    let a ← readFull 16
    pure (addrFrom16 a, [])
  else throw t.errAtyp

lemma simulates_readHost {σ : Type} [LawfulReader σ] (atyp : UInt8) :
    Simulates source (readHost t atyp : FailState Error σ (Addr × Str)) (readHost t atyp) := by
  unfold readHost
  refine .ite ((Reader.simulates_readFull _).bind fun _ => .pure _) (.ite ?_ (.ite ?_ (.throw _)))
  · exact (Reader.simulates_readFull _).bind fun _ =>
      (Reader.simulates_readFull _).bind fun _ => .pure _
  · exact (Reader.simulates_readFull _).bind fun _ => .pure _

lemma keeps_readHost {σ : Type} [Reader σ] {R : σ → σ → Prop} [Std.Refl R] [IsTrans σ R]
    (hR : ∀ n, Keeps R (readFull n : FailState Error σ Str)) (atyp : UInt8) :
    Keeps R (readHost t atyp) := by
  unfold readHost
  refine .ite ((hR _).bind fun _ => .pure _) (.ite ?_ (.ite ?_ (.throw _)))
  · exact (hR _).bind fun _ => (hR _).bind fun _ => .pure _
  · exact (hR _).bind fun _ => .pure _

lemma framed_readHost (atyp : UInt8) : Reader.Framed (readHost t atyp) := by
  unfold readHost
  refine .ite ((framed_readFull _).bind fun _ => .pure _) (.ite ?_ (.ite ?_ (.throw _)))
  · exact (framed_readFull _).bind fun _ =>
      (framed_readFull _).bind fun _ => .pure _
  · exact (framed_readFull _).bind fun _ => .pure _

lemma agrees_readHost (atyp : UInt8) : Reader.Agrees (readHost t atyp) (readHost t atyp) := by
  unfold readHost
  refine .ite ((agrees_readFull _).bind fun _ => .pure _) (.ite ?_ (.ite ?_ ?_))
  · exact (agrees_readFull _).bind fun _ =>
      (agrees_readFull _).bind fun _ => .pure _
  · exact (agrees_readFull _).bind fun _ => .pure _
  · exact .of_fails (fun _ _ => not_succeeds_throw) fun _ _ => not_succeeds_throw

end

/-! ### What is read of what was written -/

/-- The address as it is on the wire. -/
def wireAddr : Addr → Addr
  | .v4 a => .v4 a
  | .v6 a _ => .v6 a []
  | .zero => .v6 0 []

def wireHost (d : Socksaddr) : Addr × Str :=
  if d.isFqdn then (.zero, d.fqdn.take (d.fqdn.length % 256)) else (wireAddr d.addr, [])

/-- What the reader leaves of the host. -/
def spill (d : Socksaddr) : Str := d.fqdn.drop (d.fqdn.length % 256)

/-- A destination: a domain or an address. -/
def Proper (d : Socksaddr) : Prop :=
  d.fqdn ≠ [] ∧ d.addr = .zero ∨ d.fqdn = [] ∧ d.addr.isValid = true

/-- The host fits its form on the wire: a domain of at most `255` bytes, an
address without a zone. -/
def FitsWire (d : Socksaddr) : Prop :=
  d.fqdn.length ≤ 255 ∧ ∀ a zone, d.addr = .v6 a zone → zone = []

section
variable {t : Atyps} {d : Socksaddr} {s : Source} {rest : Str}

lemma addrFrom4_putBE (a : BitVec 32) : addrFrom4 (putBE 4 a.toNat) = .v4 a := by
  rw [addrFrom4, beNat_putBE, Nat.mod_eq_of_lt (show a.toNat < 256 ^ 4 from a.isLt),
    BitVec.ofNat_toNat, BitVec.setWidth_eq]

lemma addrFrom16_putBE (a : BitVec 128) : addrFrom16 (putBE 16 a.toNat) = .v6 a [] := by
  rw [addrFrom16, beNat_putBE, Nat.mod_eq_of_lt (show a.toNat < 256 ^ 16 from a.isLt),
    BitVec.ofNat_toNat, BitVec.setWidth_eq]

lemma runs_readHost_ipv4 (a : BitVec 32) (h : s.bytes = putBE 4 a.toNat ++ rest) :
    Runs (readHost t t.ipv4) s (.ok (.v4 a, [])) { s with bytes := rest } := by
  have hread := runs_readFull h
  rw [length_putBE] at hread
  rw [readHost, if_pos rfl, ← addrFrom4_putBE]
  exact hread.bind runs_pure

lemma runs_readHost_ipv6 (a : Str) (ha : a.length = 16) (h : s.bytes = a ++ rest) :
    Runs (readHost t t.ipv6) s (.ok (addrFrom16 a, [])) { s with bytes := rest } := by
  have hread := runs_readFull h
  rw [ha] at hread
  rw [readHost, if_neg t.ipv4_ne_ipv6.symm, if_neg t.domain_ne_ipv6.symm, if_pos rfl]
  exact hread.bind runs_pure

/-- The reader takes as many bytes of a domain as its length byte tells. -/
lemma runs_readHost_domain (name : Str) (h : s.bytes = UInt8.ofNat name.length :: (name ++ rest)) :
    Runs (readHost t t.domain) s (.ok (.zero, name.take (name.length % 256)))
      { s with bytes := name.drop (name.length % 256) ++ rest } := by
  have hlen : Runs (Reader.readFull 1) s (.ok [UInt8.ofNat name.length])
      { s with bytes := name ++ rest } := Reader.runs_readFull (a := [_]) h
  have hsplit : name ++ rest =
      name.take (name.length % 256) ++ (name.drop (name.length % 256) ++ rest) := by
    rw [← List.append_assoc, List.take_append_drop]
  have hname := runs_readFull (s := { s with bytes := name ++ rest }) hsplit
  rw [List.length_take_of_le (Nat.mod_le _ _)] at hname
  rw [readHost, if_neg t.ipv4_ne_domain.symm, if_pos rfl]
  refine hlen.bind (Runs.bind ?_ runs_pure)
  simpa only [List.headD_cons, UInt8.toNat_ofNat'] using hname

/-- **What the reader makes of a host.** -/
lemma runs_readHost (h : s.bytes = (hostParts d).flatten ++ rest) :
    Runs (readHost t (atyp t d)) s (.ok (wireHost d)) { s with bytes := spill d ++ rest } := by
  rw [atyp, wireHost]
  rw [hostParts] at h
  split_ifs at h ⊢ with hf h4
  · refine runs_readHost_domain d.fqdn ?_
    simpa using h
  · have hnil : d.fqdn = [] := by simpa [Socksaddr.isFqdn] using hf
    have hspill : spill d = [] := by rw [spill, hnil, List.drop_nil]
    rw [hspill]
    cases ha : d.addr with
    | v4 a =>
      rw [ha] at h
      exact runs_readHost_ipv4 a (by simpa using h)
    | v6 a zone => rw [ha] at h4; cases h4
    | zero => rw [ha] at h4; cases h4
  · have hnil : d.fqdn = [] := by simpa [Socksaddr.isFqdn] using hf
    have hspill : spill d = [] := by rw [spill, hnil, List.drop_nil]
    rw [hspill]
    cases ha : d.addr with
    | v4 a => rw [ha] at h4; exact absurd rfl h4
    | v6 a zone =>
      rw [ha] at h
      rw [wireAddr, ← addrFrom16_putBE]
      exact runs_readHost_ipv6 _ (length_putBE _ _) (by simpa [as16] using h)
    | zero =>
      rw [ha] at h
      have hzero : wireAddr .zero = addrFrom16 (List.replicate 16 0) := by decide
      rw [hzero]
      exact runs_readHost_ipv6 _ (by simp) (by simpa [as16] using h)

lemma wireHost_eq_iff (hd : Proper d) : wireHost d = (d.addr, d.fqdn) ↔ FitsWire d := by
  rw [wireHost, FitsWire]
  rcases hd with ⟨hf, ha⟩ | ⟨hf, ha⟩
  · have hdom : d.isFqdn = true := by simpa [Socksaddr.isFqdn] using hf
    rw [if_pos hdom, ha, Prod.mk.injEq]
    constructor
    · rintro ⟨-, hname⟩
      refine ⟨?_, fun a zone h => (by cases h)⟩
      have hlen := congrArg List.length hname
      rw [List.length_take] at hlen
      omega
    · rintro ⟨hlen, -⟩
      refine ⟨rfl, ?_⟩
      rw [Nat.mod_eq_of_lt (by omega), List.take_length]
  · have hdom : ¬ d.isFqdn = true := by simp [Socksaddr.isFqdn, hf]
    rw [if_neg hdom, hf, Prod.mk.injEq]
    cases haddr : d.addr with
    | zero => rw [haddr] at ha; cases ha
    | v4 a => simp [wireAddr]
    | v6 a zone => simp [wireAddr, eq_comm]

lemma spill_eq_nil (h : FitsWire d) : spill d = [] := by
  rw [spill, Nat.mod_eq_of_lt (by have := h.1; omega), List.drop_length]

end

end Ntr.Proto
