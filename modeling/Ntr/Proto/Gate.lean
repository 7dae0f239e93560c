/-
Ports that require authentication.

* `authenticated_iff`: whoever is served has authenticated, but for two kinds of
  clients, those that ask in SOCKS4 and those that log in and ask for a UDP association.
-/
import Ntr.Proto.HttpProxy

namespace Ntr.Proto

open Go Meter Lib Lib.FailState Socks List

/-! ### The bytes on the wire -/

/-- A SOCKS5 greeting that offers user and password, the two of them, and what
follows. -/
def Login (bs user pass rest : Str) : Prop :=
  ∃ (nm ul pl : UInt8) (methods : Str),
    bs = version :: nm :: (methods ++ authVersion :: ul :: (user ++ pl :: (pass ++ rest))) ∧
    methods.length = nm.toNat ∧ user.length = ul.toNat ∧ pass.length = pl.toNat ∧
    methodUserPass ∈ methods

def AddrForm (atyp : UInt8) (a : Str) : Prop :=
  (atyp = atypIPv4 ∧ a.length = 4 + 2) ∨ (atyp = atypIPv6 ∧ a.length = 16 + 2) ∨
    (atyp = atypDomain ∧ ∃ (l : UInt8) (name port : Str), a = l :: (name ++ port) ∧
      name.length = l.toNat ∧ port.length = 2)

def Command (cmd : UInt8) (bs : Str) : Prop :=
  ∃ (rsv atyp : UInt8) (a more : Str),
    bs = version :: cmd :: rsv :: atyp :: (a ++ more) ∧ AddrForm atyp a

def Field (f : Str) : Prop := 0 ∉ f ∧ f.length < maxSocks4Field

/-- A SOCKS4 or SOCKS4a request to connect: the command, port and address, a
user id, and a domain where the address asks for one. -/
def Socks4Connect (bs : Str) : Prop :=
  ∃ h user rest : Str, bs = version4 :: (h ++ (user ++ 0 :: rest)) ∧ h.length = 7 ∧
    h[0]! = cmd4Connect ∧ Field user ∧
    (isSocks4aMarker (h.drop 3) = true →
      ∃ host more : Str, rest = host ++ 0 :: more ∧ Field host ∧ host ≠ [])

lemma Login.unique {bs user pass rest user' pass' rest' : Str} (h : Login bs user pass rest)
    (h' : Login bs user' pass' rest') : user = user' ∧ pass = pass' ∧ rest = rest' := by
  obtain ⟨nm, ul, pl, methods, rfl, hm, hu, hp, -⟩ := h
  obtain ⟨nm', ul', pl', methods', hbs, hm', hu', hp', -⟩ := h'
  simp only [List.cons.injEq, true_and] at hbs
  obtain ⟨rfl, hmethods⟩ := hbs
  obtain ⟨rfl, hbehind⟩ := append_inj hmethods (hm.trans hm'.symm)
  simp only [List.cons.injEq, true_and] at hbehind
  obtain ⟨rfl, huser⟩ := hbehind
  obtain ⟨rfl, hbehind⟩ := append_inj huser (hu.trans hu'.symm)
  simp only [List.cons.injEq] at hbehind
  obtain ⟨rfl, hpass⟩ := hbehind
  obtain ⟨rfl, rfl⟩ := append_inj hpass (hp.trans hp'.symm)
  exact ⟨rfl, rfl, rfl⟩

/-! ### Success of the parts -/

section
variable {t : Tape} {P : Str → Tape → Prop} {p : Socks.Proxy} {Q : CredID → Prop}

lemma succeeds_readFull_succ {n : Nat} :
    Succeeds (readFull (n + 1)) t P ↔ ∃ b rest, t.bytes = b :: rest ∧
      Succeeds (readFull n) { t with bytes := rest } fun a => P (b :: a) := by
  simp only [succeeds_readFull]
  constructor
  · rintro ⟨a, rest, hbs, hlen, hP⟩
    obtain ⟨b, a, rfl⟩ := exists_cons_of_length_eq_add_one hlen
    exact ⟨b, a ++ rest, hbs, a, rest, rfl, by simpa using hlen, hP⟩
  · rintro ⟨b, more, hbs, a, rest, rfl, hlen, hP⟩
    exact ⟨b :: a, rest, hbs, by simp [hlen], hP⟩

lemma succeeds_readFull_zero : Succeeds (readFull 0) t P ↔ P [] t := by
  simp only [succeeds_readFull, length_eq_zero_iff]
  constructor
  · rintro ⟨a, rest, hbs, rfl, hP⟩
    obtain rfl : t.bytes = rest := hbs
    exact hP
  · intro hP
    exact ⟨[], t.bytes, rfl, rfl, hP⟩

lemma succeeds_serverUserPass {auth : Authenticator} {P : CredID → Tape → Prop} :
    Succeeds (serverUserPass auth) t P ↔ ∃ (ul pl : UInt8) (user pass rest : Str) (r : CredID),
        t.bytes = authVersion :: ul :: (user ++ pl :: (pass ++ rest)) ∧
        user.length = ul.toNat ∧ pass.length = pl.toNat ∧
        auth (lit "socks") (userPassKey user pass) = some r ∧ t.writeErr 0 = none ∧
        P r ({ t with bytes := rest }.wrote [authVersion, 0x00]) := by
  simp only [serverUserPass, succeeds_bind, succeeds_readFull_succ, succeeds_readFull_zero,
    succeeds_guard not_succeeds_throw]
  simp only [succeeds_readFull]
  constructor
  · rintro ⟨v, more, hbs, ul, more', rfl, hv, user, more, rfl, hu, pl, more', rfl, pass, rest, rfl,
      hp, hanswer⟩
    obtain rfl : v = authVersion := by simpa using hv
    cases hauth : auth (lit "socks") (userPassKey user pass) with
    | none =>
      rw [hauth] at hanswer
      exact absurd hanswer (not_succeeds_bind fun _ _ => not_succeeds_throw)
    | some r =>
      rw [hauth] at hanswer
      simp only [succeeds_bind, succeeds_write, succeeds_pure] at hanswer
      exact ⟨ul, pl, user, pass, rest, r, hbs, hu, hp, hauth, hanswer⟩
  · rintro ⟨ul, pl, user, pass, rest, r, hbs, hu, hp, hauth, hw, hP⟩
    refine ⟨_, _, hbs, ul, _, rfl, by simp, user, _, rfl, hu, pl, _, rfl, pass, rest, rfl, hp, ?_⟩
    rw [hauth]
    simp only [succeeds_bind, succeeds_write, succeeds_pure]
    exact ⟨hw, hP⟩

/-- With users on the port the negotiation succeeds for user and password
only. -/
lemma succeeds_negotiate {auth : Authenticator} {methods : Str} {P : CredID → Tape → Prop} :
    Succeeds (negotiate (p.setAuthRequired true) auth methods) t P ↔
      methodUserPass ∈ methods ∧ t.writeErr 0 = none ∧
        Succeeds (serverUserPass auth) (t.wrote [version, methodUserPass]) P := by
  simp only [negotiate, Proxy.setAuthRequired, if_true]
  rw [succeeds_guard (not_succeeds_bind fun _ _ => not_succeeds_throw), not_not, succeeds_bind,
    succeeds_write]

lemma succeeds_readFull_add {m n : Nat} {Q : Tape → Prop} :
    (Succeeds (readFull m) t fun _ s => Succeeds (readFull n) s fun _ => Q) ↔
      ∃ a more, t.bytes = a ++ more ∧ a.length = m + n ∧ Q { t with bytes := more } := by
  simp only [succeeds_readFull]
  constructor
  · rintro ⟨a, rest, hbs, ha, b, more, rfl, hb, hQ⟩
    exact ⟨a ++ b, more, by rw [hbs, append_assoc], by simp [ha, hb], hQ⟩
  · rintro ⟨a, more, hbs, ha, hQ⟩
    refine ⟨a.take m, a.drop m ++ more, ?_, by simp [ha], a.drop m, more, rfl, by simp [ha], hQ⟩
    rw [hbs, ← append_assoc, take_append_drop]

lemma succeeds_readAddr {atyp : UInt8} {Q : Tape → Prop} : Succeeds (readAddr atyp) t (fun _ => Q) ↔
    ∃ a more, t.bytes = a ++ more ∧ AddrForm atyp a ∧ Q { t with bytes := more } := by
  simp only [readAddr, succeeds_ite, not_succeeds_throw, succeeds_bind, succeeds_pure,
    succeeds_readFull_add]
  by_cases h4 : atyp = atypIPv4
  · simp [AddrForm, h4, atypIPv4, atypIPv6, atypDomain]
  by_cases h6 : atyp = atypIPv6
  · simp [AddrForm, h6, atypIPv4, atypIPv6, atypDomain]
  by_cases hd : atyp = atypDomain
  · subst hd
    simp only [h4, h6, AddrForm, false_and, false_or, true_and, not_false_eq_true, not_true,
      or_false, succeeds_readFull_succ, succeeds_readFull_zero]
    constructor
    · rintro ⟨l, rest, hbs, a, more, rfl, ha, hQ⟩
      refine ⟨l :: a, more, hbs, ⟨l, a.take l.toNat, a.drop l.toNat, ?_, ?_, ?_⟩, hQ⟩
      · rw [take_append_drop]
      · simp [ha]
      · simp [ha]
    · rintro ⟨_, more, hbs, ⟨l, name, port, rfl, hname, hport⟩, hQ⟩
      exact ⟨l, name ++ port ++ more, hbs, name ++ port, more, rfl, by simp [hname, hport], hQ⟩
  · simp [AddrForm, h4, h6, hd]

lemma succeeds_handleUDPAssoc {h : Host} : Succeeds (handleUDPAssoc h) t (fun x _ => Q x.2.cred) ↔
    (∃ port, h.listenUDP h.localIP = .ok port) ∧ t.writeErr 0 = none ∧ Q ambient := by
  unfold handleUDPAssoc
  cases h.listenUDP h.localIP with
  | error e => simp [not_succeeds_bind fun _ _ => not_succeeds_throw]
  | ok port => simp only [succeeds_bind, succeeds_write, succeeds_pure, Except.ok.injEq,
      exists_eq', true_and]

/-- The request after the login: an association is served on behalf of nobody,
a connection on behalf of `ref`. -/
lemma succeeds_serveRequest {h : Host} {ref : CredID} :
    Succeeds (serveRequest h ref) t (fun x _ => Q x.2.cred) ↔ t.writeErr 0 = none ∧
        ((Command cmdUDPAssoc t.bytes ∧ (∃ port, h.listenUDP h.localIP = .ok port) ∧ Q ambient) ∨
          (Command cmdConnect t.bytes ∧ Q ref)) := by
  simp only [serveRequest, succeeds_bind, succeeds_readFull_succ, succeeds_readFull_zero,
    succeeds_guard not_succeeds_throw, succeeds_ite, succeeds_handleUDPAssoc, succeeds_write,
    succeeds_pure, not_succeeds_bind fun _ _ => not_succeeds_throw, succeeds_readAddr]
  constructor
  · rintro ⟨v, more, hbs, cmd, more', rfl, rsv, more, rfl, atyp, more', rfl, hv, a, rest, rfl,
      hform, hserve⟩
    obtain rfl : v = version := by simpa using hv
    have hcmd : Command cmd t.bytes := ⟨rsv, atyp, a, rest, hbs, hform⟩
    rcases hserve with ⟨hudp, hlisten, hw, hQ⟩ | ⟨-, ⟨-, hfalse⟩ | ⟨htcp, hw, hQ⟩⟩
    · obtain rfl : cmd = cmdUDPAssoc := hudp
      exact ⟨hw, .inl ⟨hcmd, hlisten, hQ⟩⟩
    · exact hfalse.elim
    · obtain rfl : cmd = cmdConnect := not_not.mp htcp
      exact ⟨hw, .inr ⟨hcmd, hQ⟩⟩
  · rintro ⟨hw, ⟨⟨rsv, atyp, a, rest, hbs, hform⟩, hlisten, hQ⟩ |
      ⟨⟨rsv, atyp, a, rest, hbs, hform⟩, hQ⟩⟩
    · exact ⟨_, _, hbs, _, _, rfl, rsv, _, rfl, atyp, _, rfl, by simp, a, rest, rfl, hform,
        .inl ⟨rfl, hlisten, hw, hQ⟩⟩
    · exact ⟨_, _, hbs, _, _, rfl, rsv, _, rfl, atyp, _, rfl, by simp, a, rest, rfl, hform,
        .inr ⟨(by decide : cmdConnect ≠ cmdUDPAssoc), .inr ⟨not_not.mpr rfl, hw, hQ⟩⟩⟩

lemma succeeds_serverHandshake5 {h : Host} {auth : Authenticator} :
    Succeeds (serverHandshake5 (p.setAuthRequired true) h auth) t (fun x _ => Q x.2.cred) ↔
      ∃ user pass rest r, Login (version :: t.bytes) user pass rest ∧
        auth (lit "socks") (userPassKey user pass) = some r ∧ (∀ i < 3, t.writeErr i = none) ∧
        ((Command cmdUDPAssoc rest ∧ (∃ port, h.listenUDP h.localIP = .ok port) ∧ Q ambient) ∨
          (Command cmdConnect rest ∧ Q r)) := by
  simp only [serverHandshake5, succeeds_bind, succeeds_readFull_succ, succeeds_readFull_zero,
    succeeds_negotiate, succeeds_serveRequest, succeeds_serverUserPass]
  simp only [succeeds_readFull, Tape.wrote_bytes, Tape.wrote_writeErr]
  constructor
  · rintro ⟨nm, more, hbs, methods, more', rfl, hm, hmem, hw₀, ul, pl, user, pass, rest, r, rfl,
      hu, hp, hauth, hw₁, hw₂, hserve⟩
    refine ⟨user, pass, rest, r, ?_, hauth, ?_, hserve⟩
    · exact ⟨nm, ul, pl, methods, by rw [hbs], hm, hu, hp, hmem⟩
    · intro i hi
      interval_cases i
      exacts [hw₀, hw₁, hw₂]
  · rintro ⟨user, pass, rest, r, ⟨nm, ul, pl, methods, hbs, hm, hu, hp, hmem⟩, hauth, hw, hserve⟩
    exact ⟨nm, _, (List.cons.inj hbs).2, methods, _, rfl, hm, hmem, hw 0 (by decide), ul, pl, user,
      pass, rest, r, rfl, hu, hp, hauth, hw 1 (by decide), hw 2 (by decide), hserve⟩

lemma succeeds_readCStringLoop : ∀ {n : Nat} {out : Str} {t : Tape},
    Succeeds (readCStringLoop n out) t P ↔
      ∃ f rest, t.bytes = f ++ 0 :: rest ∧ 0 ∉ f ∧ f.length < n ∧
        P (out ++ f) { t with bytes := rest } := by
  intro n
  induction n with
  | zero =>
    intro out t
    simp [readCStringLoop, not_succeeds_throw]
  | succ n ih =>
    intro out t
    simp only [readCStringLoop, succeeds_bind, succeeds_readByte, succeeds_ite, succeeds_pure, ih]
    constructor
    · rintro ⟨b, rest, hbs, ⟨rfl, hP⟩ | ⟨hb, f, rest', rfl, hf, hlen, hP⟩⟩
      · exact ⟨[], rest, hbs, by simp, by simp, by simpa using hP⟩
      · refine ⟨b :: f, rest', hbs, ?_, by simpa using hlen, by simpa using hP⟩
        simpa using ⟨Ne.symm hb, hf⟩
    · rintro ⟨f, rest, hbs, hf, hlen, hP⟩
      cases f with
      | nil => exact ⟨0, rest, hbs, .inl ⟨rfl, by simpa using hP⟩⟩
      | cons b f =>
        simp only [mem_cons, not_or] at hf
        refine ⟨b, f ++ 0 :: rest, hbs, .inr ⟨Ne.symm hf.1, f, rest, rfl, hf.2, ?_, ?_⟩⟩
        · simpa using hlen
        · simpa using hP

/-- The SOCKS4 handshake, from its version byte on: no credential is asked
for. -/
lemma succeeds_serverHandshake4 {auth : Authenticator} :
    Succeeds (serverHandshake4 auth) t (fun x _ => Q x.2.cred) ↔
      Socks4Connect (version4 :: t.bytes) ∧ t.writeErr 0 = none ∧
        Q ((auth (lit "socks") []).getD ambient) := by
  simp only [serverHandshake4, succeeds_bind, succeeds_readFull, succeeds_newReader, readCString,
    succeeds_readCStringLoop, readDst4, succeeds_ite, succeeds_pure, succeeds_write,
    not_succeeds_bind fun _ _ => not_succeeds_throw, and_false, false_or, nil_append, ne_eq,
    not_not]
  constructor
  · rintro ⟨h, rest, hbs, hlen, user, rest', rfl, hu, hul, hdst⟩
    rcases hdst with ⟨hmark, host, more, rfl, hh, hhl, hne, hcmd, hw, hQ⟩ | ⟨hmark, hcmd, hw, hQ⟩
    · exact ⟨⟨h, user, _, by rw [hbs], hlen, hcmd, ⟨hu, hul⟩, fun _ =>
        ⟨host, more, rfl, ⟨hh, hhl⟩, hne⟩⟩, hw, hQ⟩
    · exact ⟨⟨h, user, _, by rw [hbs], hlen, hcmd, ⟨hu, hul⟩, fun hm => absurd hm hmark⟩, hw, hQ⟩
  · rintro ⟨⟨h, user, rest, hbs, hlen, hcmd, hu, hhost⟩, hw, hQ⟩
    refine ⟨h, _, (List.cons.inj hbs).2, hlen, user, rest, rfl, hu.1, hu.2, ?_⟩
    by_cases hmark : isSocks4aMarker (h.drop 3) = true
    · obtain ⟨host, more, rfl, hh, hne⟩ := hhost hmark
      exact .inl ⟨hmark, host, more, rfl, hh.1, hh.2, hne, hcmd, hw, hQ⟩
    · exact .inr ⟨hmark, hcmd, hw, hQ⟩

lemma succeeds_socks {h : Host} {auth : Authenticator} :
    Succeeds (Socks.serverHandshake (p.setAuthRequired true) h auth) t (fun x _ => Q x.2.cred) ↔
      (Socks4Connect t.bytes ∧ t.writeErr 0 = none ∧ Q ((auth (lit "socks") []).getD ambient)) ∨
        ∃ user pass rest r, Login t.bytes user pass rest ∧
          auth (lit "socks") (userPassKey user pass) = some r ∧ (∀ i < 3, t.writeErr i = none) ∧
          ((Command cmdUDPAssoc rest ∧ (∃ port, h.listenUDP h.localIP = .ok port) ∧ Q ambient) ∨
            (Command cmdConnect rest ∧ Q r)) := by
  simp only [Socks.serverHandshake, succeeds_bind, succeeds_readFull_succ, succeeds_readFull_zero,
    succeeds_ite, not_succeeds_throw, and_false, or_false, succeeds_serverHandshake5,
    succeeds_serverHandshake4]
  constructor
  · rintro ⟨v, rest, hbs, ⟨hv, h5⟩ | ⟨-, hv, h4⟩⟩
    · obtain rfl : v = version := hv
      rw [hbs]
      exact .inr h5
    · obtain rfl : v = version4 := hv
      rw [hbs]
      exact .inl h4
  · rintro (⟨⟨h, user, more, hbs, hconn⟩, hw, hQ⟩ | ⟨user, pass, rest, r, hlogin, hauth⟩)
    · exact ⟨_, _, hbs, .inr ⟨(by decide : version4 ≠ version), rfl, ⟨h, user, more, rfl, hconn⟩,
        hw, hQ⟩⟩
    · obtain ⟨nm, ul, pl, methods, hbs, hlen⟩ := hlogin
      exact ⟨_, _, hbs, .inl ⟨rfl, user, pass, rest, r, ⟨nm, ul, pl, methods, rfl, hlen⟩, hauth⟩⟩

/-- A port that requires credentials knows the one who presents them. -/
lemma succeeds_authenticate_required {p : HttpProxy.Proxy} {auth : Authenticator} {hdr : Str}
    {P : CredID → Tape → Prop} :
    Succeeds (HttpProxy.authenticate (p.setAuthRequired true) auth hdr) t P ↔
      ∃ key r, HttpProxy.basicKey hdr = some key ∧ auth (lit "http") key = some r ∧ P r t := by
  have hreq : (p.setAuthRequired true).authRequired = true := rfl
  simp only [succeeds_authenticate, hreq, Bool.true_eq_false, false_and, and_false, or_false,
    Option.bind_eq_some_iff]
  constructor
  · rintro ⟨r, ⟨key, hkey, hauth⟩, hP⟩
    exact ⟨key, r, hkey, hauth, hP⟩
  · rintro ⟨key, r, hkey, hauth, hP⟩
    exact ⟨r, ⟨key, hkey, hauth⟩, hP⟩

lemma cred_of_serve {L : HttpLib} {ref : CredID} {req : HttpRequest}
    (h : Succeeds (HttpProxy.serve L ref req) t fun x _ => Q x.2.cred) : Q ref := by
  unfold HttpProxy.serve at h
  split at h
  · simp only [succeeds_bind, succeeds_lift, succeeds_write, succeeds_pure] at h
    obtain ⟨-, -, -, hQ⟩ := h
    exact hQ
  · dsimp only at h
    split at h
    · exact absurd h not_succeeds_throw
    · simp only [succeeds_bind, succeeds_lift, succeeds_pure] at h
      obtain ⟨-, -, hQ⟩ := h
      exact hQ

end

lemma HttpRequest.get_del {r : HttpRequest} {key key' : Str} (h : key ≠ key') :
    (r.del key').get key = r.get key := by
  simp only [HttpRequest.get, HttpRequest.del, find?_filter]
  congr 3
  funext x
  by_cases hx : x.1 = key <;> simp [hx, h]

/-! ### Authentication -/

def SocksPresents (bs key : Str) : Prop :=
  ∃ user pass rest, Login bs user pass rest ∧ key = userPassKey user pass

/-- The bytes are a request whose header has this key. -/
def HttpPresents (L : HttpLib) (bs : Str) (e : Error) (key : Str) : Prop :=
  ∃ req n, L.readRequest bs e = .ok (req, n) ∧
    HttpProxy.basicKey (req.get HttpProxy.proxyAuthorization) = some key

/-- The first byte is the version of a SOCKS client. -/
def SocksFirst (bs : Str) : Prop := bs.head? = some version4 ∨ bs.head? = some version

/-- The client presents this key on the port: `user:pass` in a SOCKS5 login, or
the decoded credentials of an HTTP request. -/
def Port.Presents (port : Port) (L : HttpLib) (s : Stream) (key : Str) : Prop :=
  match port with
  | socks _ => SocksPresents s.bytes key
  | http _ => HttpPresents L s.bytes s.readErr key
  | mixed _ => (SocksFirst s.bytes ∧ SocksPresents s.bytes key) ∨
      (¬ SocksFirst s.bytes ∧ HttpPresents L s.bytes s.readErr key)

/-- On the marked port a handshake succeeds only for a client that presents a
key which the authenticator knows, and its request carries the credential of
that key. -/
def Authenticated (port : Port) (h : Host) (L : HttpLib) (auth : Authenticator) (s : Stream) :
    Prop :=
  ∀ c req, outcome ((port.setAuthRequired true).serverHandshake h L auth) s = .ok (c, req) →
    ∃ key, port.Presents L s key ∧ auth port.scheme key = some req.cred

def Port.TakesSocks : Port → Prop
  | http _ => False
  | _ => True

/-- The clients that pass unseen: a SOCKS4 request to connect, and a login of a
user other than the ambient one with a request for a UDP association, where
the host can open the relay socket; in both the answers reach the client. -/
def Escapes (port : Port) (h : Host) (auth : Authenticator) (s : Stream) : Prop :=
  port.TakesSocks ∧ ((Socks4Connect s.bytes ∧ s.writeErr 0 = none) ∨
      ∃ user pass rest, Login s.bytes user pass rest ∧ Command cmdUDPAssoc rest ∧
        (∃ r, auth port.scheme (userPassKey user pass) = some r ∧ r ≠ ambient) ∧
        (∃ udp, h.listenUDP h.localIP = .ok udp) ∧ ∀ i < 3, s.writeErr i = none)

section
variable {t : Tape} {auth : Authenticator} {h : Host}

lemma not_socksPresents_of_socks4 {bs key : Str} (h4 : Socks4Connect bs) :
    ¬ SocksPresents bs key := by
  rintro ⟨user, pass, rest, ⟨nm, ul, pl, methods, hbs, -⟩, -⟩
  obtain ⟨hd, user', rest', hbs', -⟩ := h4
  have hv := (List.cons.inj (hbs.symm.trans hbs')).1
  exact absurd hv (by decide)

/-- The SOCKS handshakes of a marked port that succeed on behalf of somebody
the client has not authenticated as. -/
lemma socks_unauthenticated_iff {p : Socks.Proxy} :
    Succeeds (Socks.serverHandshake (p.setAuthRequired true) h auth) t
        (fun x _ => ¬ ∃ key, SocksPresents t.bytes key ∧ auth (lit "socks") key = some x.2.cred) ↔
      (Socks4Connect t.bytes ∧ t.writeErr 0 = none) ∨
        ∃ user pass rest, Login t.bytes user pass rest ∧ Command cmdUDPAssoc rest ∧
          (∃ r, auth (lit "socks") (userPassKey user pass) = some r ∧ r ≠ ambient) ∧
          (∃ udp, h.listenUDP h.localIP = .ok udp) ∧ ∀ i < 3, t.writeErr i = none := by
  rw [succeeds_socks
    (Q := fun c => ¬ ∃ key, SocksPresents t.bytes key ∧ auth (lit "socks") key = some c)]
  constructor
  · rintro (⟨h4, hw, -⟩ | ⟨user, pass, rest, r, hlogin, hauth, hw, hserve⟩)
    · exact .inl ⟨h4, hw⟩
    · have hkey : SocksPresents t.bytes (userPassKey user pass) := ⟨user, pass, rest, hlogin, rfl⟩
      rcases hserve with ⟨hudp, hlisten, hunknown⟩ | ⟨-, hunknown⟩
      · refine .inr ⟨user, pass, rest, hlogin, hudp, ⟨r, hauth, ?_⟩, hlisten, hw⟩
        rintro rfl
        exact hunknown ⟨_, hkey, hauth⟩
      · exact absurd ⟨_, hkey, hauth⟩ hunknown
  · rintro (⟨h4, hw⟩ | ⟨user, pass, rest, hlogin, hudp, ⟨r, hauth, hr⟩, hlisten, hw⟩)
    · refine .inl ⟨h4, hw, ?_⟩
      rintro ⟨key, hkey, -⟩
      exact not_socksPresents_of_socks4 h4 hkey
    · refine .inr ⟨user, pass, rest, r, hlogin, hauth, hw, .inl ⟨hudp, hlisten, ?_⟩⟩
      -- the bytes have one login only, and its user is `r`
      rintro ⟨_, ⟨user', pass', rest', hlogin', rfl⟩, hambient⟩
      obtain ⟨rfl, rfl, -⟩ := hlogin.unique hlogin'
      exact hr (Option.some.inj (hauth.symm.trans hambient))

/-- The HTTP handshake of a marked port succeeds only on behalf of the one the
client has authenticated as. -/
lemma not_http_unauthenticated {p : HttpProxy.Proxy} {L : HttpLib} :
    ¬ Succeeds (HttpProxy.serverHandshake (p.setAuthRequired true) L auth) t (fun x _ =>
      ¬ ∃ key, HttpPresents L t.bytes t.readErr key ∧ auth (lit "http") key = some x.2.cred) := by
  simp only [HttpProxy.serverHandshake, succeeds_bind, succeeds_newReader, succeeds_parse,
    succeeds_authenticate_required]
  rintro ⟨req, n, hreq, key, r, hkey, hauth, hserve⟩
  rw [HttpRequest.get_del (by decide)] at hkey
  refine cred_of_serve (Q := fun c => ¬ ∃ key, HttpPresents L t.bytes t.readErr key ∧
    auth (lit "http") key = some c) hserve ⟨key, ⟨req, n, hreq, hkey⟩, hauth⟩

lemma succeeds_onto {κ : Type} {f : κ → Carrier} {m : FailState Error Tape (κ × Request)}
    {Q : CredID → Prop} :
    Succeeds (onto f m) t (fun x _ => Q x.2.cred) ↔ Succeeds m t fun x _ => Q x.2.cred := by
  simp only [onto, succeeds_bind, succeeds_pure]

lemma succeeds_mixed {p : Mixed.Proxy} {L : HttpLib} {Q : CredID → Prop} :
    Succeeds (Mixed.serverHandshake p h L auth) t (fun x _ => Q x.2.cred) ↔
      (SocksFirst t.bytes ∧ Succeeds (Socks.serverHandshake p.socks h (Mixed.aliasAuth auth)) t
          fun x _ => Q x.2.cred) ∨
        (¬ SocksFirst t.bytes ∧ t.bytes ≠ [] ∧
          Succeeds (HttpProxy.serverHandshake p.http L (Mixed.aliasAuth auth)) t
            fun x _ => Q x.2.cred) := by
  simp only [Mixed.serverHandshake, succeeds_bind, succeeds_mapErr, succeeds_newReaderPeek,
    succeeds_ite, succeeds_onto, SocksFirst]
  cases t.bytes with
  | nil => simp
  | cons b rest => simp

end

/-- Authentication on the marked port, on the bytes of the connection. -/
lemma authenticated_iff_not_succeeds (port : Port) (h : Host) (L : HttpLib)
    (auth : Authenticator) (s : Stream) : Authenticated port h L auth s ↔
      ¬ Succeeds ((port.setAuthRequired true).serverHandshake h L auth) s.tape (fun x _ =>
        ¬ ∃ key, port.Presents L s key ∧ auth port.scheme key = some x.2.cred) := by
  rw [← ((port.setAuthRequired true).simulates_serverHandshake h L auth).succeeds_iff]
  constructor
  · rintro hall ⟨⟨c, req⟩, hok, hunknown⟩
    exact hunknown (hall c req hok)
  · intro hnone c req hok
    by_contra hunknown
    exact hnone ⟨(c, req), hok, hunknown⟩

/-- **Authentication on a marked port.** The handshake of a port that requires
authentication succeeds only on behalf of a user whose key the client
presented, except for SOCKS4 requests to connect and for UDP associations of
users that logged in. -/
theorem authenticated_iff (port : Port) (h : Host) (L : HttpLib) (auth : Authenticator)
    (s : Stream) : Authenticated port h L auth s ↔ ¬ Escapes port h auth s := by
  rw [authenticated_iff_not_succeeds, not_iff_not]
  cases port with
  | socks p =>
    exact (succeeds_onto (Q := fun c => ¬ ∃ key, SocksPresents s.bytes key ∧
      auth (lit "socks") key = some c)).trans (socks_unauthenticated_iff.trans (iff_of_eq (true_and _)).symm)
  | http p =>
    refine iff_of_false ?_ fun hesc => hesc.1
    exact fun hs => not_http_unauthenticated ((succeeds_onto (Q := fun c =>
      ¬ ∃ key, HttpPresents L s.bytes s.readErr key ∧ auth (lit "http") key = some c)).mp hs)
  | mixed p =>
    refine (succeeds_mixed (p := p.setAuthRequired true) (Q := fun c =>
      ¬ ∃ key, (Port.mixed p).Presents L s key ∧ auth (lit "mixed") key = some c)).trans ?_
    by_cases hfirst : SocksFirst s.bytes
    · have hpres : ∀ key, (Port.mixed p).Presents L s key ↔ SocksPresents s.bytes key := by
        intro key
        simp [Port.Presents, hfirst]
      have hsocks := @socks_unauthenticated_iff s.tape (Mixed.aliasAuth auth) h p.socks
      simp only [hpres]
      constructor
      · rintro (⟨-, hs⟩ | ⟨hno, -⟩)
        · exact ⟨trivial, hsocks.mp hs⟩
        · exact absurd hfirst hno
      · rintro ⟨-, hesc⟩
        exact .inl ⟨hfirst, hsocks.mpr hesc⟩
    · have hpres : ∀ key, (Port.mixed p).Presents L s key ↔
          HttpPresents L s.bytes s.readErr key := by
        intro key
        simp [Port.Presents, hfirst]
      simp only [hpres]
      refine iff_of_false ?_ ?_
      · rintro (⟨hyes, -⟩ | ⟨-, -, hs⟩)
        · exact hfirst hyes
        · exact not_http_unauthenticated (p := p.http) hs
      · rintro ⟨-, ⟨⟨hd, user, rest, hbs, -⟩, -⟩ |
          ⟨user, pass, rest, ⟨nm, ul, pl, methods, hbs, -⟩, -⟩⟩
        · exact hfirst (.inl (by rw [hbs]; rfl))
        · exact hfirst (.inr (by rw [hbs]; rfl))

/-! ### The two kinds -/

def anyHost : Host := ⟨none, fun _ => .ok 40000⟩

/-- An HTTP library for connections that do not speak it. -/
def noHttp : HttpLib := ⟨fun _ _ => .error .unexpectedEOF, fun _ => none, id⟩

/-- One user, `u` with the password `p`. -/
def oneUser : Authenticator := fun _ key => if key = lit "u:p" then some (userBase + 1) else none

/-- A SOCKS4 request to connect to `1.2.3.4:80`, in one segment. -/
def socks4Client : Stream := { segments := [[4, 1, 0, 80, 1, 2, 3, 4, 0]] }

/-- A login of `u` in two segments, with a request for a UDP association. -/
def assocClient : Stream :=
  { segments := [[5, 1, 2], [1, 1, 0x75, 1, 0x70, 5, 3, 0, 1, 0, 0, 0, 0, 0, 0]] }

lemma oneUser_ne_ambient (scheme key : Str) : oneUser scheme key ≠ some ambient := by
  unfold oneUser
  split <;> decide

/-- On a port with one user a SOCKS4 client connects without a password, and
the association of the user is charged to nobody. -/
theorem socks4_and_association_escape :
    ¬ Authenticated (.socks {}) anyHost noHttp oneUser socks4Client ∧
      ¬ Authenticated (.socks {}) anyHost noHttp oneUser assocClient := by
  constructor
  · intro hall
    obtain ⟨key, -, hkey⟩ := hall (.inl .buffered)
      { dst := { addr := .v4 0x01020304, port := 80 }, cred := ambient, network := .tcp, command := 1 }
      rfl
    exact oneUser_ne_ambient _ _ hkey
  · intro hall
    obtain ⟨key, -, hkey⟩ := hall (.inl (.udpAssoc 40000))
      { dst := {}, cred := ambient, network := .udp, command := cmdUDPAssoc } rfl
    exact oneUser_ne_ambient _ _ hkey

end Ntr.Proto
