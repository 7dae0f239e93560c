/-
`addr.Socksaddr`: a proxy destination, a domain or an IP address with a port.
The two forms exclude each other (`isFqdn_eq_false_of_isIP`): a value with a
non-empty domain is a domain, whatever its address field holds.
-/
import Ntr.Go.Netip

namespace Ntr

open Go

structure Socksaddr where
  addr : Addr := .zero
  fqdn : Str := []
  port : UInt16 := 0
  deriving DecidableEq, Repr

namespace Socksaddr

def fromIPPort (ap : AddrPort) : Socksaddr := ⟨ap.addr, [], ap.port⟩

def fromFqdn (fqdn : Str) (port : UInt16) : Socksaddr := ⟨.zero, fqdn, port⟩

def isFqdn (s : Socksaddr) : Bool := !s.fqdn.isEmpty

def isIP (s : Socksaddr) : Bool := s.fqdn.isEmpty && s.addr.isValid

def isValid (s : Socksaddr) : Bool := s.isFqdn || s.isIP

/-- `Host`: the domain, or the text of the address. -/
def host (s : Socksaddr) : Str := if s.isFqdn then s.fqdn else s.addr.string

/-- `String`: host and port, the key of a UDP target and the argument of a
dial. -/
def string (s : Socksaddr) : Str :=
  if s.isFqdn then joinHostPort s.fqdn (itoa s.port.toNat)
  else AddrPort.string ⟨s.addr, s.port⟩

@[simp] lemma fromFqdn_fqdn (d : Str) (p : UInt16) : (fromFqdn d p).fqdn = d := rfl

@[simp] lemma fromFqdn_port (d : Str) (p : UInt16) : (fromFqdn d p).port = p := rfl

lemma isFqdn_eq_false_of_isIP {s : Socksaddr} (h : s.isIP = true) : s.isFqdn = false := by
  simp only [isIP, Bool.and_eq_true] at h
  simp [isFqdn, h.1]

end Socksaddr

end Ntr
