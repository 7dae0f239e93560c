/-
The UDP frames of a Snell client (`snellv6/udp_adapter.go`, `snellv6/udp_server.go`,
`snellv45/udp_adapter.go`): the target and the payload of a datagram.

* `parseUDPFrame_build_iff`: the targets and payloads that the server has.
-/
import Ntr.Go.Varint

namespace Ntr.Snell

open Go List

/-- Functions of `net` and `strconv`. -/
structure NetLib where
  /-- `strconv.Atoi`. -/
  atoi : Str → Option Int
  /-- `net.ParseIP`. -/
  parseIP : Str → Option Str
  /-- `net.IP.String`. -/
  ipString : Str → Str
  parseIP_length : ∀ {s ip}, parseIP s = some ip → ip.length = 16

inductive Adapter where
  | v6
  | v45
  deriving DecidableEq

inductive UdpError where
  /-- Of `net.SplitHostPort`. -/
  | addr (e : AddrError)
  /-- Of `strconv.Atoi`. -/
  | atoi (s : Str)
  | own (e : Error)
  deriving DecidableEq

def errUDPFrame : Adapter → UdpError
  | .v6 => .own (.text (lit "snellv6: malformed UDP frame"))
  | .v45 => .own (.text (lit "snellv45: malformed UDP frame"))

def errUDPBadCommand : Adapter → UdpError
  | .v6 => .own (.text (lit "snellv6: unsupported UDP command byte"))
  | .v45 => .own (.text (lit "snellv45: unsupported UDP command"))

section
variable (net : NetLib) (a : Adapter)

def addressBytes (host : Str) : Except UdpError Str :=
  match net.parseIP host with
  | some ip =>
    match to4 ip with
    | some ip4 => .ok ([1, 0, 4] ++ ip4)
    | none => .ok ([1, 0, 6] ++ to16 ip)
  | none =>
    if 255 < host.length then .error (errUDPFrame a)
    else .ok ([1, UInt8.ofNat host.length] ++ host)

/-- `buildUDPRequest`. The port is cut down to sixteen bits. -/
def buildUDPRequest (target data : Str) : Except UdpError Str :=
  match splitHostPort target with
  | .error e => .error (.addr e)
  | .ok (host, portStr) =>
    match net.atoi portStr with
    | none => .error (.atoi portStr)
    | some port =>
      match addressBytes net a host with
      | .error e => .error e
      | .ok out => .ok (out ++ putBE 2 (port % 65536).toNat ++ data)

/-- A host of `k` bytes with its port and the payload, in a frame that has `need` bytes from
there on. -/
def hostFrom (text : Str → Str) (k need : Nat) (t : Str) : Except UdpError (Str × Str) :=
  if t.length < need then .error (errUDPFrame a)
  else .ok (joinHostPort (text (t.take k)) (itoa (uint16 ((t.drop k).take 2)).toNat),
    t.drop (k + 2))

/-- An address of the type in front of it, with its port and the payload. -/
def ipFrom : Str → Except UdpError (Str × Str)
  | [] => .error (errUDPFrame a)
  | t :: u =>
    if t = 4 then hostFrom a net.ipString 4 6 u
    else if t = 6 then hostFrom a net.ipString 16 18 u
    else .error (errUDPFrame a)

/-- `parseUDPFrame`. A domain has at least one byte of payload behind it. -/
def parseUDPFrame : Str → Except UdpError (Str × Str)
  | [] => .error (errUDPBadCommand a)
  | [c] => .error (if c = 1 then errUDPFrame a else errUDPBadCommand a)
  | c :: addrLen :: t =>
    if c ≠ 1 then .error (errUDPBadCommand a)
    else if addrLen ≠ 0 then hostFrom a (fun h => h) addrLen.toNat (addrLen.toNat + 3) t
    else ipFrom net a t

/-- The text of a host: an address has its own, and IPv4 inside IPv6 is IPv4. -/
def normalHost (host : Str) : Str :=
  match net.parseIP host with
  | some ip => net.ipString ((to4 ip).getD ip)
  | none => host

variable {net a} {host data : Str} {port : UInt16}

lemma hostFrom_append {text : Str → Str} {h : Str} {k need : Nat} (hk : h.length = k)
    (hneed : need ≤ k + 2 + data.length) :
    hostFrom a text k need (h ++ putBE 2 port.toNat ++ data) =
      .ok (joinHostPort (text h) (itoa port.toNat), data) := by
  have hlen : (h ++ putBE 2 port.toNat ++ data).length = k + 2 + data.length := by
    rw [length_append, length_append, length_putBE, hk]
  have hfront : (h ++ putBE 2 port.toNat).length = k + 2 := by
    rw [length_append, length_putBE, hk]
  rw [hostFrom, if_neg (by omega), drop_left' hfront, append_assoc,
    take_left' hk, drop_left' hk, take_left' (length_putBE _ _), uint16_putBE]

lemma parseUDPFrame_ip {t : UInt8} {ip : Str} (h : t = 4 ∧ ip.length = 4 ∨ t = 6 ∧ ip.length = 16) :
    parseUDPFrame net a ([1, 0, t] ++ ip ++ putBE 2 port.toNat ++ data) =
      .ok (joinHostPort (net.ipString ip) (itoa port.toNat), data) := by
  simp only [cons_append, nil_append]
  rw [parseUDPFrame, if_neg (fun h => h rfl), if_neg (fun h => h rfl), ipFrom]
  rcases h with ⟨rfl, hlen⟩ | ⟨rfl, hlen⟩
  · rw [if_pos rfl]
    exact hostFrom_append hlen (Nat.le_add_right _ _)
  · rw [if_neg (by decide), if_pos rfl]
    exact hostFrom_append hlen (Nat.le_add_right _ _)

/-- A domain needs some payload. -/
lemma parseUDPFrame_domain (hne : host ≠ []) (hlen : host.length ≤ 255) :
    parseUDPFrame net a ([1, UInt8.ofNat host.length] ++ host ++ putBE 2 port.toNat ++ data) =
      if data = [] then .error (errUDPFrame a)
      else .ok (joinHostPort host (itoa port.toNat), data) := by
  have hpos : 0 < host.length := length_pos_iff.mpr hne
  have hbyte : (UInt8.ofNat host.length).toNat = host.length := by
    rw [UInt8.toNat_ofNat', Nat.mod_eq_of_lt (by omega)]
  have hzero : UInt8.ofNat host.length ≠ 0 := by
    intro h
    rw [h] at hbyte
    exact absurd hbyte (by rw [UInt8.toNat_zero]; omega)
  simp only [cons_append, nil_append]
  rw [parseUDPFrame, if_neg (fun h => h rfl), if_pos hzero, hbyte]
  split_ifs with hdata
  · rw [hostFrom, if_pos (by simp [hdata, length_putBE])]
  · have hsome : 0 < data.length := length_pos_iff.mpr hdata
    exact hostFrom_append rfl (by omega)

/-- Without a host the port stands where the type of an address should. -/
lemma parseUDPFrame_no_host {x : Str} :
    parseUDPFrame net a ([1, 0] ++ putBE 2 port.toNat ++ data) ≠ .ok (x, data) := by
  have hport : putBE 2 port.toNat = [UInt8.ofNat (port.toNat / 256), UInt8.ofNat port.toNat] := rfl
  have hshort (text : Str → Str) {k need : Nat} (hk : k + 2 ≤ need) (hpos : 1 < need) (c : UInt8) :
      hostFrom a text k need (c :: data) ≠ .ok (x, data) := by
    rw [hostFrom]
    split_ifs with hlen
    · exact fun h => (by cases h)
    · intro h
      have hdata := congrArg List.length (Prod.mk.inj (Except.ok.inj h)).2
      rw [length_drop, length_cons] at hdata
      rw [length_cons] at hlen
      omega
  rw [hport]
  simp only [cons_append, nil_append]
  rw [parseUDPFrame, if_neg (fun h => h rfl), if_neg (fun h => h rfl), ipFrom]
  split_ifs
  · exact hshort _ (by decide) (by decide) _
  · exact hshort _ (by decide) (by decide) _
  · exact fun h => (by cases h)

/-- **The server has the target and the payload** of a frame exactly when the port is one, and
the host is an address, or a domain with some payload behind it. -/
theorem parseUDPFrame_build_iff {target portStr frame : Str} {n : Int}
    (hsplit : splitHostPort target = .ok (host, portStr)) (hport : net.atoi portStr = some n)
    (hbuild : buildUDPRequest net a target data = .ok frame) : (∃ port : UInt16, n = port.toNat ∧
        parseUDPFrame net a frame =
          .ok (joinHostPort (normalHost net host) (itoa port.toNat), data)) ↔
      (0 ≤ n ∧ n < 65536) ∧ ((net.parseIP host).isSome ∨ host ≠ [] ∧ data ≠ []) := by
  rw [buildUDPRequest, hsplit] at hbuild
  dsimp only at hbuild
  rw [hport] at hbuild
  dsimp only at hbuild
  have hrange : (0 ≤ n ∧ n < 65536) ↔ ∃ port : UInt16, n = port.toNat := by
    constructor
    · rintro ⟨h0, hlt⟩
      refine ⟨UInt16.ofNat n.toNat, ?_⟩
      rw [UInt16.toNat_ofNat', Nat.mod_eq_of_lt (by omega)]
      omega
    · rintro ⟨port, rfl⟩
      have := port.toNat_lt
      omega
  rw [hrange]
  have hparse (port : UInt16) (hn : n = port.toNat) :
      parseUDPFrame net a frame = .ok (joinHostPort (normalHost net host) (itoa port.toNat), data) ↔
        (net.parseIP host).isSome ∨ host ≠ [] ∧ data ≠ [] := by
    have hcut : (n % 65536).toNat = port.toNat := by
      have := port.toNat_lt
      omega
    rw [hcut, addressBytes] at hbuild
    cases hip : net.parseIP host with
    | some ip =>
      have hlen : ip.length = 16 := net.parseIP_length hip
      rw [hip] at hbuild
      dsimp only at hbuild
      refine iff_of_true ?_ (.inl rfl)
      rw [normalHost, hip]
      dsimp only
      cases h4 : to4 ip with
      | some ip4 =>
        have h4len : ip4.length = 4 := by
          rw [to4, if_neg (by omega)] at h4
          split_ifs at h4
          rw [← Option.some.inj h4, length_drop, hlen]
        rw [h4] at hbuild
        obtain rfl := Except.ok.inj hbuild
        exact parseUDPFrame_ip (.inl ⟨rfl, h4len⟩)
      | none =>
        have h16 : to16 ip = ip := by rw [to16, if_neg (by omega), if_pos hlen]
        rw [h4, h16] at hbuild
        obtain rfl := Except.ok.inj hbuild
        exact parseUDPFrame_ip (.inr ⟨rfl, hlen⟩)
    | none =>
      rw [hip] at hbuild
      dsimp only at hbuild
      split_ifs at hbuild with hlong
      obtain rfl := Except.ok.inj hbuild
      by_cases hne : host = []
      · subst hne
        exact iff_of_false parseUDPFrame_no_host (by simp)
      · rw [normalHost, hip, parseUDPFrame_domain hne (Nat.not_lt.mp hlong)]
        by_cases hdata : data = [] <;> simp [hne, hdata]
  constructor
  · rintro ⟨port, hn, h⟩
    exact ⟨⟨port, hn⟩, (hparse port hn).mp h⟩
  · rintro ⟨⟨port, hn⟩, h⟩
    exact ⟨port, hn, (hparse port hn).mpr h⟩

end

/-! ### A domain without payload -/

/-- Domains only, and the port `53`. -/
def domainsOnly : NetLib := ⟨fun _ => some 53, fun _ => none, fun b => b, fun h => (by cases h)⟩

theorem parseUDPFrame_build_some : ∃ port : UInt16, (53 : Int) = port.toNat ∧
    parseUDPFrame domainsOnly .v6 ([1, 11] ++ lit "example.com" ++ [0, 53] ++ [7]) =
      .ok (joinHostPort (normalHost domainsOnly (lit "example.com")) (itoa port.toNat), [7]) :=
  (parseUDPFrame_build_iff (show splitHostPort (lit "example.com:53") = .ok (_, lit "53") from rfl)
    (show domainsOnly.atoi (lit "53") = _ from rfl) rfl).mpr
    ⟨by decide, .inr ⟨by decide, by decide⟩⟩

/-- **An empty datagram to a domain** is built, and the server refuses it. -/
theorem empty_to_domain_refused : buildUDPRequest domainsOnly .v6 (lit "example.com:53") [] =
      .ok ([1, 11] ++ lit "example.com" ++ [0, 53]) ∧
    parseUDPFrame domainsOnly .v6 ([1, 11] ++ lit "example.com" ++ [0, 53]) =
      .error (errUDPFrame .v6) := by
  decide +kernel

end Ntr.Snell
