/-
The HTTP inbound (`proto/httpproxy`) and the inbound that takes SOCKS and HTTP
on one port (`proto/mixed`).

* `Port.simulates_serverHandshake`: what a port answers does not depend on the
  segments that the client's bytes come in.
-/
import Ntr.Proto.Socks

namespace Ntr.Proto

open Go Meter Lib Lib.FailState

/-- `url.URL`, as far as the inbound looks at it. -/
structure Url where
  scheme : Str
  host : Str
  deriving DecidableEq, Repr

/-- `http.Request` without its body; the header has canonical names. -/
structure HttpRequest where
  method : Str
  host : Str
  url : Option Url
  requestURI : Str
  header : List (Str × Str)
  deriving DecidableEq, Repr

namespace HttpRequest

/-- `Header.Get`: the first value of a field. -/
def get (r : HttpRequest) (key : Str) : Str := ((r.header.find? (·.1 = key)).map (·.2)).getD []

def del (r : HttpRequest) (key : Str) : HttpRequest :=
  { r with header := r.header.filter (·.1 ≠ key) }

end HttpRequest

/-- The library functions the HTTP inbound calls: `http.ReadRequest` on the
bytes of a connection and the error behind them, `netip.ParseAddr` and the
quotation of `%q`. -/
structure HttpLib where
  readRequest : Str → Error → Except Error (HttpRequest × Nat)
  parseAddr : Str → Option Addr
  quote : Str → Str

namespace HttpProxy

variable {σ : Type} [Channel σ]

def errProxyAuth : Error := .text (lit "httpproxy: Proxy-Authorization 缺失或未匹配(407)")
def errNotProxy : Error := .text (lit "httpproxy: 非代理请求(缺 absolute-form URL)")

/-- The header field with the credentials for the proxy. -/
def proxyAuthorization : Str := lit "Proxy-Authorization"

def authResponse : Str := lit ("HTTP/1.1 407 Proxy Authentication Required\r\n" ++
  "Proxy-Authenticate: Basic realm=\"ntr\"\r\nContent-Length: 0\r\nConnection: close\r\n\r\n")

/-- The stream that a handshake hands on: the tunnel of a CONNECT, or the
connection behind a rebuilt request. -/
inductive Carrier where
  | tunnel
  | forward (req : HttpRequest)
  deriving DecidableEq, Repr

structure Proxy where
  authRequired : Bool := false

def Proxy.setAuthRequired (p : Proxy) (required : Bool) : Proxy := { p with authRequired := required }

/-- The credentials in a header value `Basic base64(user:pass)`. -/
def basicKey (hdr : Str) : Option Str :=
  match cut 0x20 hdr with
  | none => none
  | some (scheme, b64) =>
    if equalFold scheme (lit "Basic") then decodeString (trimSpace b64) else none

/-- `authenticate`, on the value of the header field, which the caller has
taken out of the request. -/
def authenticate (p : Proxy) (auth : Authenticator) (hdr : Str) : FailState Error σ CredID :=
  match (basicKey hdr).bind (auth (lit "http")) with
  | some r => pure r
  | none =>
    if p.authRequired = true then do
      ignore (write authResponse)
      throw errProxyAuth
    else pure ambient

/-- `strconv.ParseUint(s, 10, 16)`. -/
def parseUint16 (s : Str) : Option UInt16 :=
  let n := s.foldl (fun n c => n * 10 + (c.toNat - 0x30)) 0
  if s ≠ [] ∧ s.all (fun c => 0x30 ≤ c ∧ c ≤ 0x39) ∧ n < 65536 then some (UInt16.ofNat n) else none

/-- `parseHostPort`: a host and a port, the given one where none stands. -/
def parseHostPort (L : HttpLib) (s : Str) (defPort : UInt16) : Except Error Socksaddr :=
  let hp := match splitHostPort s with
    | .ok hp => hp
    | .error _ => (s, [])
  let port := if hp.2 = [] then some defPort else parseUint16 hp.2
  match port with
  | none => .error (.text (lit "httpproxy: 端口无效 " ++ L.quote hp.2))
  | some port =>
    match L.parseAddr hp.1 with
    | some ip => .ok { addr := ip, port }
    | none => .ok { fqdn := hp.1, port }

/-- The request in origin form: only the path of its target remains. -/
def originForm (req : HttpRequest) (host : Str) : HttpRequest :=
  { req with
    host := if req.host = [] then host else req.host
    url := some ⟨[], []⟩
    requestURI := [] }

/-- The answer of `ServerHandshake` to an authenticated request. -/
def serve (L : HttpLib) (ref : CredID) (req : HttpRequest) :
    FailState Error σ (Carrier × Request) :=
  if req.method = lit "CONNECT" then do
    let dst ← lift (parseHostPort L req.host 443)
    write (lit "HTTP/1.1 200 Connection Established\r\n\r\n")
    pure (.tunnel, { dst, cred := ref, network := .tcp })
  else
    let host := (req.url.map (·.host)).getD []
    if host = [] then throw errNotProxy
    else do
      let dst ← lift (parseHostPort L host 80)
      pure (.forward (originForm req host), { dst, cred := ref, network := .tcp })

def serverHandshake (p : Proxy) (L : HttpLib) (auth : Authenticator) :
    FailState Error σ (Carrier × Request) := do
  newReader
  let req ← Channel.parse L.readRequest
  let req := req.del (lit "Proxy-Connection")
  let ref ← authenticate p auth (req.get proxyAuthorization)
  serve L ref (req.del proxyAuthorization)

/-! ### The handshake on the bytes -/

lemma simulates_authenticate (p : Proxy) (auth : Authenticator) (hdr : Str) :
    Simulates Stream.tape (authenticate p auth hdr) (authenticate p auth hdr) := by
  unfold authenticate
  cases (basicKey hdr).bind (auth (lit "http")) with
  | some r => exact .pure r
  | none => exact .ite ((simulates_write _).ignore.bind fun _ => .throw _) (.pure _)

lemma simulates_serve (L : HttpLib) (ref : CredID) (req : HttpRequest) :
    Simulates Stream.tape (serve L ref req) (serve L ref req) := by
  refine .ite ?_ (.ite (.throw _) ?_)
  · exact (Simulates.lift _).bind fun _ => (simulates_write _).bind fun _ => .pure _
  · exact (Simulates.lift _).bind fun _ => .pure _

/-- **The segments of the connection do not matter.** -/
theorem simulates_serverHandshake (p : Proxy) (L : HttpLib) (auth : Authenticator) :
    Simulates Stream.tape (serverHandshake p L auth) (serverHandshake p L auth) :=
  simulates_newReader.bind fun _ => (simulates_parse _).bind fun _ =>
    (simulates_authenticate p auth _).bind fun _ => simulates_serve L _ _

end HttpProxy

/-! ### Both on one port -/

abbrev Carrier := Socks.Carrier ⊕ HttpProxy.Carrier

section
variable {σ : Type} [Channel σ]

/-- A handshake with its stream among the streams of both. -/
def onto {κ : Type} (f : κ → Carrier) (m : FailState Error σ (κ × Request)) :
    FailState Error σ (Carrier × Request) := do
  let x ← m
  pure (f x.1, x.2)

namespace Mixed

def errEmptyStream : Error := .text (lit "mixed: 首字节读取失败,无法判定 socks/http")

/-- `Proxy`: an instance of each of the two. -/
structure Proxy where
  socks : Socks.Proxy := {}
  http : HttpProxy.Proxy := {}

/-- `SetAuthRequired`: passed on to both. -/
def Proxy.setAuthRequired (p : Proxy) (required : Bool) : Proxy :=
  ⟨p.socks.setAuthRequired required, p.http.setAuthRequired required⟩

/-- `aliasAuth`: the credentials of the port stand under the scheme `mixed`. -/
def aliasAuth (auth : Authenticator) : Authenticator := fun _ key => auth (lit "mixed") key

/-- `ServerHandshake`: the first byte selects the handshake. -/
def serverHandshake (p : Proxy) (h : Host) (L : HttpLib) (auth : Authenticator) :
    FailState Error σ (Carrier × Request) := do
  let head ← mapErr (fun e => if e = .eof then errEmptyStream else e) newReaderPeek
  if head = Socks.version4 ∨ head = Socks.version then
    onto .inl (Socks.serverHandshake p.socks h (aliasAuth auth))
  else onto .inr (HttpProxy.serverHandshake p.http L (aliasAuth auth))

end Mixed

/-- An inbound that runs with and without credentials. -/
inductive Port where
  | socks (p : Socks.Proxy)
  | http (p : HttpProxy.Proxy)
  | mixed (p : Mixed.Proxy)

namespace Port

def setAuthRequired : Port → Bool → Port
  | socks p, required => socks (p.setAuthRequired required)
  | http p, required => http (p.setAuthRequired required)
  | mixed p, required => mixed (p.setAuthRequired required)

/-- The scheme under which the credentials of the port are registered. -/
def scheme : Port → Str
  | socks _ => lit "socks"
  | http _ => lit "http"
  | mixed _ => lit "mixed"

def serverHandshake (port : Port) (h : Host) (L : HttpLib) (auth : Authenticator) :
    FailState Error σ (Carrier × Request) :=
  match port with
  | socks p => onto .inl (Socks.serverHandshake p h auth)
  | http p => onto .inr (HttpProxy.serverHandshake p L auth)
  | mixed p => Mixed.serverHandshake p h L auth

end Port

end

lemma simulates_onto {κ : Type} {f : κ → Carrier} {m : FailState Error Stream (κ × Request)}
    {m' : FailState Error Tape (κ × Request)} (h : Simulates Stream.tape m m') :
    Simulates Stream.tape (onto f m) (onto f m') :=
  h.bind fun _ => .pure _

/-- **What a port answers depends on the bytes of the connection**, not on the
segments they come in. -/
theorem Port.simulates_serverHandshake (port : Port) (h : Host) (L : HttpLib)
    (auth : Authenticator) :
    Simulates Stream.tape (port.serverHandshake h L auth) (port.serverHandshake h L auth) := by
  cases port with
  | socks p => exact simulates_onto (Socks.simulates_serverHandshake p h auth)
  | http p => exact simulates_onto (HttpProxy.simulates_serverHandshake p L auth)
  | mixed p =>
    refine simulates_newReaderPeek.mapErr.bind fun head => .ite ?_ ?_
    · exact simulates_onto (Socks.simulates_serverHandshake p.socks h _)
    · exact simulates_onto (HttpProxy.simulates_serverHandshake p.http L _)

/-! ### What is handed on -/

/-- `authenticate` gives the user that the credentials name, or the ambient one
on a port that requires none. -/
lemma succeeds_authenticate {p : HttpProxy.Proxy} {auth : Authenticator} {hdr : Str} {t : Tape}
    {Q : CredID → Tape → Prop} : Succeeds (HttpProxy.authenticate p auth hdr) t Q ↔
      (∃ c, (HttpProxy.basicKey hdr).bind (auth (lit "http")) = some c ∧ Q c t) ∨
        ((HttpProxy.basicKey hdr).bind (auth (lit "http")) = none ∧ p.authRequired = false ∧
          Q ambient t) := by
  rw [HttpProxy.authenticate]
  cases (HttpProxy.basicKey hdr).bind (auth (lit "http")) with
  | some c => simp [succeeds_pure]
  | none =>
    have hfail : ¬ Succeeds (do
        ignore (write HttpProxy.authResponse); throw HttpProxy.errProxyAuth) t Q :=
      not_succeeds_bind fun _ _ => not_succeeds_throw
    simp [succeeds_guard hfail, succeeds_pure]

lemma find?_del (r : HttpRequest) (key : Str) : (r.del key).header.find? (·.1 = key) = none := by
  simp [HttpRequest.del, List.find?_eq_none]

end Ntr.Proto
