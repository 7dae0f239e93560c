/-
The contract of a proxy inbound (`core/proxy/proxy.go`) and its SOCKS side
(`proto/socks`): SOCKS5 with its method negotiation, SOCKS4 and SOCKS4a, and
UDP ASSOCIATE.

* `simulates_serverHandshake`: the handshake does the same on the segments of
  a connection and on its bytes.
-/
import Ntr.Go.Encoding
import Ntr.Go.Io
import Ntr.Meter.Registry
import Ntr.Socksaddr

namespace Ntr.Proto

open Go Meter Lib Lib.FailState Stream

inductive Network where
  | tcp
  | udp
  deriving DecidableEq, Repr

def Network.toStr : Network → Str
  | tcp => lit "tcp"
  | udp => lit "udp"

structure Request where
  dst : Socksaddr
  cred : CredID
  network : Network
  command : UInt8 := 0
  deriving DecidableEq, Repr

/-- `proxy.Authenticator`: the credential of a key under a scheme. -/
abbrev Authenticator := Str → Str → Option CredID

/-- What a handshake needs of its host: the address of the connection's own
end, if it is a TCP address, and the port of a new UDP socket there. -/
structure Host where
  localIP : Option Addr
  listenUDP : Option Addr → Except Error UInt16

variable {σ : Type} [Channel σ]

namespace Socks

/-! ### Errors and constants -/

def errVersion : Error := .text (lit "socks: 非 SOCKS5")
def errNoAuth : Error := .text (lit "socks: 客户端未提供可接受的认证方法")
def errAuthVersion : Error := .text (lit "socks: RFC1929 子协商版本非 1")
def errAuthFailed : Error := .text (lit "socks: user/pass 未匹配任何凭据")
def errAtyp : Error := .text (lit "socks: 未知地址类型")
def errCommand : Error := .text (lit "socks: 仅支持 CONNECT")
def errSocks4Command : Error := .text (lit "socks4: 仅支持 CONNECT")
def errSocks4Field : Error := .text (lit "socks4: 字段超长或缺 NUL 结尾")

def version : UInt8 := 0x05
def version4 : UInt8 := 0x04
def cmdConnect : UInt8 := 0x01
def cmdUDPAssoc : UInt8 := 0x03
def atypIPv4 : UInt8 := 0x01
def atypDomain : UInt8 := 0x03
def atypIPv6 : UInt8 := 0x04
def methodNoAuth : UInt8 := 0x00
def methodUserPass : UInt8 := 0x02
def methodNone : UInt8 := 0xFF
def authVersion : UInt8 := 0x01
def cmd4Connect : UInt8 := 0x01
def rep4Granted : UInt8 := 0x5A
def rep4Rejected : UInt8 := 0x5B

/-- The bound on a user id or a domain of SOCKS4, with its terminator. -/
def maxSocks4Field : Nat := 256

/-- The stream that a handshake hands on: the connection itself, the
connection behind the handshake's buffer, or the control connection of a UDP
association with the port of its relay socket. -/
inductive Carrier where
  | below
  | buffered
  | udpAssoc (port : UInt16)
  deriving DecidableEq, Repr

structure Proxy where
  authRequired : Bool := false

def Proxy.setAuthRequired (p : Proxy) (required : Bool) : Proxy := { p with authRequired := required }

/-! ### SOCKS5 -/

/-- `reply`: an answer with the address `0.0.0.0:0`. -/
def reply (rep : UInt8) : Str := [version, rep, 0x00, atypIPv4, 0, 0, 0, 0, 0, 0]

/-- `replyAddr`: an answer with an address. -/
def replyAddr (rep : UInt8) (ip : Addr) (port : UInt16) : Str :=
  [version, rep, 0x00, if ip.unmap.is4 then atypIPv4 else atypIPv6] ++ ipBytes ip ++
    putBE 2 port.toNat

/-- The key of a user and a password: `user:pass`. -/
def userPassKey (user pass : Str) : Str := user ++ 0x3A :: pass

def serverUserPass (auth : Authenticator) : FailState Error σ CredID := do
  let hdr ← readFull 2
  if hdr[0]! ≠ authVersion then throw errAuthVersion
  else do
    let user ← readFull hdr[1]!.toNat
    let pl ← readFull 1
    let pass ← readFull pl[0]!.toNat
    match auth (lit "socks") (userPassKey user pass) with
    | none => do
      ignore (write [authVersion, 0x01])
      throw errAuthFailed
    | some r => do
      write [authVersion, 0x00]
      pure r

/-- `readAddr`: the address of the given type and the port behind it. -/
def readAddr (atyp : UInt8) : FailState Error σ Socksaddr := do
  if atyp = atypIPv4 then do
    let a ← readFull 4
    let pb ← readFull 2
    pure { addr := addrFrom4 a, port := uint16 pb }
  else if atyp = atypIPv6 then do
    let a ← readFull 16
    let pb ← readFull 2
    pure { addr := addrFrom16 a, port := uint16 pb }
  else if atyp = atypDomain then do
    let l ← readFull 1
    let name ← readFull l[0]!.toNat
    let pb ← readFull 2
    pure { fqdn := name, port := uint16 pb }
  else throw errAtyp

/-- The address that the answer to an association names: `0.0.0.0` where the
connection's own end is unknown or unspecified. -/
def relayIP (bindIP : Option Addr) : Addr :=
  match bindIP with
  | none => .v4 0
  | some (.v6 a zone) => if a = 0 ∨ (Addr.v6 a zone).unmap = .v4 0 then .v4 0 else .v6 a zone
  | some ip => ip

/-- `handleUDPAssoc`: the request of an association is built here, with the
ambient credential. -/
def handleUDPAssoc (h : Host) : FailState Error σ (Carrier × Request) :=
  match h.listenUDP h.localIP with
  | .error e => do
    ignore (write (reply 0x01))
    throw e
  | .ok port => do
    write (replyAddr 0x00 (relayIP h.localIP) port)
    pure (.udpAssoc port, { dst := {}, cred := ambient, network := .udp, command := cmdUDPAssoc })

/-- The method negotiation of `serverHandshake5`: with users on the port only
user and password are accepted, without them only their absence. -/
def negotiate (p : Proxy) (auth : Authenticator) (methods : Str) : FailState Error σ CredID := do
  if p.authRequired = true then
    if methodUserPass ∉ methods then do
      ignore (write [version, methodNone])
      throw errNoAuth
    else do
      write [version, methodUserPass]
      serverUserPass auth
  else if methodNoAuth ∈ methods then do
    write [version, methodNoAuth]
    pure ambient
  else do
    ignore (write [version, methodNone])
    throw errNoAuth

/-- The request of `serverHandshake5`, on behalf of `ref`. -/
def serveRequest (h : Host) (ref : CredID) : FailState Error σ (Carrier × Request) := do
  let hd ← readFull 4
  if hd[0]! ≠ version then throw errVersion
  else do
    let dst ← readAddr hd[3]!
    if hd[1]! = cmdUDPAssoc then handleUDPAssoc h
    else if hd[1]! ≠ cmdConnect then do
      ignore (write (reply 0x07))
      throw errCommand
    else do
      write (reply 0x00)
      pure (.below, { dst, cred := ref, network := .tcp, command := hd[1]! })

/-- `serverHandshake5`: the version byte has been read. -/
def serverHandshake5 (p : Proxy) (h : Host) (auth : Authenticator) :
    FailState Error σ (Carrier × Request) := do
  let nm ← readFull 1
  let methods ← readFull nm[0]!.toNat
  let ref ← negotiate p auth methods
  serveRequest h ref

/-! ### SOCKS4 -/

/-- `isSocks4aMarker`: an address `0.0.0.x` with `x ≠ 0`. -/
def isSocks4aMarker (ip : Str) : Bool := ip[0]! == 0 && ip[1]! == 0 && ip[2]! == 0 && ip[3]! != 0

/-- The loop of `readCString`, with the bytes read so far. -/
def readCStringLoop : Nat → Str → FailState Error σ Str
  | 0, _ => throw errSocks4Field
  | n + 1, out => do
    let b ← readByte
    if b = 0 then pure out else readCStringLoop n (out ++ [b])

/-- `readCString`: a field up to its NUL. -/
def readCString : FailState Error σ Str := readCStringLoop maxSocks4Field []

def reply4 (rep : UInt8) (port ip : Str) : Str := [0x00, rep] ++ port ++ ip

/-- The destination of a SOCKS4 request, with the domain of SOCKS4a behind the
user id. -/
def readDst4 (port ip : Str) : FailState Error σ Socksaddr := do
  if isSocks4aMarker ip then do
    let host ← readCString
    if host = [] then do
      ignore (write (reply4 rep4Rejected port ip))
      throw errSocks4Field
    else pure (.fromFqdn host (uint16 port))
  else pure (.fromIPPort ⟨addrFrom4 ip, uint16 port⟩)

/-- `serverHandshake4`: the version byte has been read. The user id is read
and dropped, and `authRequired` is not looked at. -/
def serverHandshake4 (auth : Authenticator) : FailState Error σ (Carrier × Request) := do
  let h ← readFull 7
  let cmd := h[0]!
  let port := (h.drop 1).take 2
  let ip := h.drop 3
  newReader
  let _ ← readCString
  let dst ← readDst4 port ip
  if cmd ≠ cmd4Connect then do
    ignore (write (reply4 rep4Rejected port ip))
    throw errSocks4Command
  else do
    write (reply4 rep4Granted port ip)
    pure (.buffered, {
      dst
      cred := (auth (lit "socks") []).getD ambient
      network := .tcp
      command := cmd })

def serverHandshake (p : Proxy) (h : Host) (auth : Authenticator) :
    FailState Error σ (Carrier × Request) := do
  let v ← readFull 1
  if v[0]! = version then serverHandshake5 p h auth
  else if v[0]! = version4 then serverHandshake4 auth
  else throw errVersion

/-! ### The handshake on the bytes -/

lemma simulates_serverUserPass (auth : Authenticator) :
    Simulates tape (serverUserPass auth) (serverUserPass auth) := by
  refine (simulates_readFull 2).bind fun hdr => .ite (.throw _) ?_
  refine (simulates_readFull _).bind fun user => (simulates_readFull 1).bind fun pl => ?_
  refine (simulates_readFull _).bind fun pass => ?_
  cases auth (lit "socks") (userPassKey user pass) with
  | none => exact (simulates_write _).ignore.bind fun _ => .throw _
  | some r => exact (simulates_write _).bind fun _ => .pure _

lemma simulates_readAddr (atyp : UInt8) : Simulates tape (readAddr atyp) (readAddr atyp) := by
  refine .ite ?_ (.ite ?_ (.ite ?_ (.throw _)))
  · exact (simulates_readFull 4).bind fun _ => (simulates_readFull 2).bind fun _ => .pure _
  · exact (simulates_readFull 16).bind fun _ => (simulates_readFull 2).bind fun _ => .pure _
  · exact (simulates_readFull 1).bind fun _ => (simulates_readFull _).bind fun _ =>
      (simulates_readFull 2).bind fun _ => .pure _

lemma simulates_handleUDPAssoc (h : Host) :
    Simulates tape (handleUDPAssoc h) (handleUDPAssoc h) := by
  unfold handleUDPAssoc
  cases h.listenUDP h.localIP with
  | error e => exact (simulates_write _).ignore.bind fun _ => .throw _
  | ok port => exact (simulates_write _).bind fun _ => .pure _

lemma simulates_negotiate (p : Proxy) (auth : Authenticator) (methods : Str) :
    Simulates tape (negotiate p auth methods) (negotiate p auth methods) := by
  have hrefuse := (simulates_write [version, methodNone]).ignore.bind
    (β := CredID) fun _ => .throw errNoAuth
  refine .ite (.ite hrefuse ?_) (.ite ?_ hrefuse)
  · exact (simulates_write _).bind fun _ => simulates_serverUserPass auth
  · exact (simulates_write _).bind fun _ => .pure _

lemma simulates_serveRequest (h : Host) (ref : CredID) :
    Simulates tape (serveRequest h ref) (serveRequest h ref) := by
  refine (simulates_readFull 4).bind fun hd => .ite (.throw _) ?_
  refine (simulates_readAddr _).bind fun dst => .ite (simulates_handleUDPAssoc h) (.ite ?_ ?_)
  · exact (simulates_write _).ignore.bind fun _ => .throw _
  · exact (simulates_write _).bind fun _ => .pure _

lemma simulates_serverHandshake5 (p : Proxy) (h : Host) (auth : Authenticator) :
    Simulates tape (serverHandshake5 p h auth) (serverHandshake5 p h auth) :=
  (simulates_readFull 1).bind fun _ => (simulates_readFull _).bind fun _ =>
    (simulates_negotiate p auth _).bind fun _ => simulates_serveRequest h _

lemma simulates_readCStringLoop : ∀ (n : Nat) (out : Str),
    Simulates tape (readCStringLoop n out) (readCStringLoop n out)
  | 0, _ => .throw _
  | n + 1, _ => simulates_readByte.bind fun _ =>
    .ite (.pure _) (simulates_readCStringLoop n _)

lemma simulates_readDst4 (port ip : Str) :
    Simulates tape (readDst4 port ip) (readDst4 port ip) := by
  refine .ite ((simulates_readCStringLoop _ _).bind fun host => .ite ?_ (.pure _)) (.pure _)
  exact (simulates_write _).ignore.bind fun _ => .throw _

lemma simulates_serverHandshake4 (auth : Authenticator) :
    Simulates tape (serverHandshake4 auth) (serverHandshake4 auth) := by
  refine (simulates_readFull 7).bind fun h => simulates_newReader.bind fun _ => ?_
  refine (simulates_readCStringLoop _ _).bind fun _ => (simulates_readDst4 _ _).bind fun dst => ?_
  refine .ite ?_ ?_
  · exact (simulates_write _).ignore.bind fun _ => .throw _
  · exact (simulates_write _).bind fun _ => .pure _

/-- **The segments of the connection do not matter.** -/
theorem simulates_serverHandshake (p : Proxy) (h : Host) (auth : Authenticator) :
    Simulates tape (serverHandshake p h auth) (serverHandshake p h auth) :=
  (simulates_readFull 1).bind fun _ => .ite (simulates_serverHandshake5 p h auth)
    (.ite (simulates_serverHandshake4 auth) (.throw _))

end Socks

end Ntr.Proto
