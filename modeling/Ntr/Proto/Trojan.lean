/-
Trojan (`proto/trojan`): the header in front of the payload, which is the hash of
the password, the command and the destination between two line ends.

* `succeeds_readHeader_iff`: what the server has of a header that a client wrote.
-/
import Ntr.Proto.Host
import Ntr.Proto.Socks

namespace Ntr.Proto.Trojan

open Go Meter Lib Lib.FailState Reader

/-- `crypto/sha256`'s `Sum224`: a digest of `28` bytes. -/
structure Sha224 where
  sum224 : Str → Str
  length_sum224 : ∀ p, (sum224 p).length = 28

def hashLen : Nat := 56

def cmdConnect : UInt8 := 0x01
def cmdUDP : UInt8 := 0x03

def errBadHeader : Error := .text (lit "trojan: 头部格式错(CRLF 缺失)")
def errAtyp : Error := .text (lit "trojan: 未知地址类型")
def errAuth : Error := .text (lit "trojan: 鉴权失败(未知 password hash)")

lemma ipv4_ne_domain : (0x01 : UInt8) ≠ 0x03 := by decide

lemma ipv4_ne_ipv6 : (0x01 : UInt8) ≠ 0x04 := by decide

lemma domain_ne_ipv6 : (0x03 : UInt8) ≠ 0x04 := by decide

def atyps : Atyps := ⟨0x01, 0x03, 0x04, errAtyp, ipv4_ne_domain, ipv4_ne_ipv6, domain_ne_ipv6⟩

def crlf : Str := [0x0D, 0x0A]

/-! ### The client -/

def key (H : Sha224) (password : Str) : Str := hexEncode (H.sum224 password)

def writeRequest (cmd : UInt8) (d : Socksaddr) : Str :=
  [cmd, atyp atyps d] ++ (hostParts d).flatten ++ putBE 2 d.port.toNat

/-- `ClientHandshake`: what it writes. The buffer grows with it. -/
def clientHeader (H : Sha224) (password : Str) (dst : Socksaddr) : Str :=
  key H password ++ crlf ++ writeRequest cmdConnect dst ++ crlf

lemma length_key (H : Sha224) (password : Str) : (key H password).length = hashLen := by
  rw [key, length_hexEncode, H.length_sum224, hashLen]

/-! ### The server -/

section
variable {σ : Type} [Reader σ]

def expectCRLF : FailState Error σ Unit := do
  let c ← readFull 2
  if c ≠ crlf then throw errBadHeader else pure ()

def readRequest : FailState Error σ (UInt8 × Socksaddr) := do
  let head ← readFull 2
  let (a, name) ← readHost atyps ((head.drop 1).headD 0)
  let pb ← readFull 2
  pure (head.headD 0, ⟨a, name, uint16 pb⟩)

/-- What `ServerHandshake` reads: the hash, the command and the destination. -/
def readHeader : FailState Error σ (Str × UInt8 × Socksaddr) := do
  let h ← readFull hashLen
  expectCRLF
  let (cmd, dst) ← readRequest
  expectCRLF
  pure (h, cmd, dst)

/-- `ServerHandshake`. The stream below is what it hands on. -/
def serverHandshake (auth : Authenticator) : FailState Error σ Request := do
  let (h, cmd, dst) ← readHeader
  match auth (lit "trojan") h with
  | none => throw errAuth
  | some cred => pure ⟨dst, cred, if cmd = cmdUDP then .udp else .tcp, cmd⟩

end

section
variable {σ : Type} [LawfulReader σ]

lemma simulates_expectCRLF :
    Simulates Reader.source (expectCRLF : FailState Error σ Unit) expectCRLF := by
  unfold expectCRLF
  exact (Reader.simulates_readFull _).bind fun _ => .ite (.throw _) (.pure _)

lemma simulates_readHeader :
    Simulates source (readHeader : FailState Error σ (Str × UInt8 × Socksaddr))
      readHeader := by
  unfold readHeader readRequest
  refine (Reader.simulates_readFull _).bind fun _ => simulates_expectCRLF.bind fun _ => ?_
  refine Simulates.bind ?_ fun _ => simulates_expectCRLF.bind fun _ => .pure _
  refine (Reader.simulates_readFull _).bind fun _ => (simulates_readHost atyps _).bind fun _ => ?_
  exact (Reader.simulates_readFull _).bind fun _ => .pure _

lemma simulates_serverHandshake (auth : Authenticator) :
    Simulates source (serverHandshake auth : FailState Error σ Request) (serverHandshake auth) := by
  unfold serverHandshake
  refine simulates_readHeader.bind fun x => ?_
  rcases x with ⟨h, cmd, dst⟩
  dsimp only
  cases auth (lit "trojan") h with
  | none => exact .throw _
  | some cred => exact .pure _

end

section
variable {σ : Type} [Reader σ] {R : σ → σ → Prop} [Std.Refl R] [IsTrans σ R]

lemma keeps_serverHandshake (hR : ∀ n, Keeps R (readFull n : FailState Error σ Str))
    (auth : Authenticator) : Keeps R (serverHandshake auth) := by
  have hcrlf : Keeps R (expectCRLF : FailState Error σ Unit) :=
    (hR _).bind fun _ => .ite (.throw _) (.pure _)
  unfold serverHandshake readHeader readRequest
  refine Keeps.bind ?_ fun x => ?_
  · refine (hR _).bind fun _ => hcrlf.bind fun _ => ?_
    refine Keeps.bind ?_ fun _ => hcrlf.bind fun _ => .pure _
    exact (hR _).bind fun _ => (keeps_readHost _ hR _).bind fun _ => (hR _).bind fun _ => .pure _
  · rcases x with ⟨h, cmd, dst⟩
    dsimp only
    cases auth (lit "trojan") h with
    | none => exact .throw _
    | some cred => exact .pure _

lemma framed_serverHandshake (auth : Authenticator) : Reader.Framed (serverHandshake auth) := by
  have hcrlf : Reader.Framed expectCRLF :=
    (framed_readFull _).bind fun _ => .ite (.throw _) (.pure _)
  unfold serverHandshake readHeader readRequest
  refine Reader.Framed.bind ?_ fun x => ?_
  · refine (framed_readFull _).bind fun _ => hcrlf.bind fun _ => ?_
    refine Reader.Framed.bind ?_ fun _ => hcrlf.bind fun _ => .pure _
    exact (framed_readFull _).bind fun _ => (framed_readHost _ _).bind fun _ =>
      (framed_readFull _).bind fun _ => .pure _
  · rcases x with ⟨h, cmd, dst⟩
    dsimp only
    cases auth (lit "trojan") h with
    | none => exact .throw _
    | some cred => exact .pure _

end

/-! ### What the server reads of a client's header -/

section
variable {H : Sha224} {password payload : Str} {d : Socksaddr} {s : Source}

lemma runs_expectCRLF {rest : Str} (h : s.bytes = crlf ++ rest) :
    Runs expectCRLF s (.ok ()) { s with bytes := rest } := by
  rw [expectCRLF]
  refine Runs.bind (runs_readFull h) ?_
  rw [if_neg (fun hne => hne rfl)]
  exact runs_pure

/-- **What the server has of a header** in front of a payload: the destination and
the payload exactly when the host fits its form on the wire. -/
lemma succeeds_readHeader_iff (hd : Proper d)
    (hs : s.bytes = clientHeader H password d ++ payload) :
    Succeeds readHeader s (fun r s' => r.2.2 = d ∧ s'.bytes = payload) ↔ FitsWire d := by
  -- up to the host the header does not depend on it
  have hsplit : s.bytes = key H password ++ (crlf ++ ([cmdConnect, atyp atyps d] ++
      ((hostParts d).flatten ++ (putBE 2 d.port.toNat ++ (crlf ++ payload))))) := by
    rw [hs, clientHeader, writeRequest]
    simp
  have hhash := Reader.runs_readFull hsplit
  rw [length_key] at hhash
  have hhead (b : Str) : Runs (Reader.readFull 2)
      { s with bytes := [cmdConnect, atyp atyps d] ++ b } (.ok [cmdConnect, atyp atyps d])
      { s with bytes := b } := Reader.runs_readFull (a := [cmdConnect, atyp atyps d]) rfl
  have hhost (b : Str) : Runs (readHost atyps (([cmdConnect, atyp atyps d].drop 1).headD 0))
      { s with bytes := (hostParts d).flatten ++ b } (.ok (wireHost d))
      { s with bytes := spill d ++ b } := runs_readHost rfl
  rw [readHeader, hhash.succeeds_bind_iff, (runs_expectCRLF rfl).succeeds_bind_iff, readRequest,
    succeeds_bind, (hhead _).succeeds_bind_iff, (hhost _).succeeds_bind_iff]
  constructor
  · intro hsucc
    rw [succeeds_bind, Reader.succeeds_readFull] at hsucc
    obtain ⟨pb, rest, -, -, hsucc⟩ := hsucc
    rw [succeeds_pure, succeeds_bind] at hsucc
    obtain ⟨-, -, hsucc⟩ := hsucc
    obtain ⟨hdst, -⟩ := succeeds_pure.mp hsucc
    rw [← wireHost_eq_iff hd]
    exact Prod.ext (congrArg Socksaddr.addr hdst) (congrArg Socksaddr.fqdn hdst)
  · intro hfit
    have hport : Runs (Reader.readFull 2)
        { s with bytes := spill d ++ (putBE 2 d.port.toNat ++ (crlf ++ payload)) }
        (.ok (putBE 2 d.port.toNat)) { s with bytes := crlf ++ payload } := by
      rw [spill_eq_nil hfit]
      have hread := Reader.runs_readFull
        (s := { s with bytes := putBE 2 d.port.toNat ++ (crlf ++ payload) }) rfl
      rwa [length_putBE] at hread
    rw [hport.succeeds_bind_iff, succeeds_pure, (runs_expectCRLF rfl).succeeds_bind_iff,
      succeeds_pure, (wireHost_eq_iff hd).mpr hfit, uint16_putBE]
    exact ⟨rfl, rfl⟩

end

end Ntr.Proto.Trojan
