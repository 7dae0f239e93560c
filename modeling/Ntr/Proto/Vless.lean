/-
VLESS (`proto/vless`): the request header and the two handshakes.

* `runs_readRequestHeader`: what the server reads of a header that a client
  wrote, and what it leaves;
* `decode_iff_readRequestHeader`: the decoder of buffers reads as the one of streams.
-/
import Ntr.Proto.Host
import Ntr.Proto.Socks

namespace Ntr.Proto.Vless

open Go Meter Lib Lib.FailState List Reader

/-! ### Buffers -/

def errShortBuffer : Error := .text (lit "buf: short buffer")

/-- The room of a pooled buffer behind its headroom: `DefaultSize` less
`DefaultHeadroom`. -/
def room : Nat := 32 * 1024 - 512

/-- `Buffer.Write`. What is written in part is dropped with the buffer. -/
def bufWrite (b p : Str) : Except Error Str :=
  if b.length + p.length ≤ room then .ok (b ++ p) else .error errShortBuffer

/-- Writes one after the other, until one of them fails. -/
def bufWrites (b : Str) (ps : List Str) : Except Error Str := ps.foldlM bufWrite b

lemma bufWrites_eq {b : Str} (ps : List Str) (hb : b.length ≤ room) : bufWrites b ps =
    if b.length + ps.flatten.length ≤ room then .ok (b ++ ps.flatten)
    else .error errShortBuffer := by
  induction ps generalizing b with
  | nil => simp [bufWrites, hb, pure, Except.pure]
  | cons p ps ih =>
    rw [bufWrites, foldlM_cons, bufWrite, flatten_cons, length_append]
    by_cases hp : b.length + p.length ≤ room
    · rw [if_pos hp]
      change bufWrites (b ++ p) ps = _
      rw [ih (by rw [length_append]; exact hp), length_append, append_assoc, Nat.add_assoc]
    · rw [if_neg hp, if_neg (by omega)]
      rfl

/-! ### The request header -/

def version : UInt8 := 0x00
def cmdTCP : UInt8 := 0x01
def cmdUDP : UInt8 := 0x02
def cmdMux : UInt8 := 0x03

def errVersion : Error := .text (lit "vless: bad version")
def errAtyp : Error := .text (lit "vless: bad address type")
def errShort : Error := .text (lit "vless: short header")

lemma ipv4_ne_domain : (0x01 : UInt8) ≠ 0x02 := by decide

lemma ipv4_ne_ipv6 : (0x01 : UInt8) ≠ 0x03 := by decide

lemma domain_ne_ipv6 : (0x02 : UInt8) ≠ 0x03 := by decide

def atyps : Atyps := ⟨0x01, 0x02, 0x03, errAtyp, ipv4_ne_domain, ipv4_ne_ipv6, domain_ne_ipv6⟩

structure RequestHeader where
  uuid : Str
  addons : Str := []
  command : UInt8
  dst : Socksaddr := {}
  deriving DecidableEq

def hasAddr (command : UInt8) : Bool := command == cmdTCP || command == cmdUDP

/-- The writes of `writeAddrPort`. -/
def addrPortParts (d : Socksaddr) : List Str :=
  [putBE 2 d.port.toNat, [atyp atyps d]] ++ hostParts d

/-- The writes of `Encode`. -/
def headerParts (h : RequestHeader) : List Str :=
  [[version], h.uuid, [UInt8.ofNat h.addons.length]] ++
    (if h.addons = [] then [] else [h.addons]) ++ [[h.command]] ++
    (if hasAddr h.command then addrPortParts h.dst else [])

def encode (b : Str) (h : RequestHeader) : Except Error Str := bufWrites b (headerParts h)

def encodeResponseHeader (b : Str) : Except Error Str := bufWrites b [[version], [0]]

section
variable {σ : Type} [Reader σ]

def readAddrPortStream : FailState Error σ Socksaddr := do
  let pa ← readFull 3
  let (a, name) ← readHost atyps ((pa.drop 2).headD 0)
  pure ⟨a, name, uint16 (pa.take 2)⟩

def readAddons (alen : UInt8) : FailState Error σ Str :=
  if 0 < alen.toNat then readFull alen.toNat else pure []

def readDst (addrPort : FailState Error σ Socksaddr) (command : UInt8) :
    FailState Error σ Socksaddr :=
  if hasAddr command then addrPort else pure {}

def readRequestHeader : FailState Error σ RequestHeader := do
  let fixed ← readFull 18
  if fixed.headD 0 ≠ version then throw errVersion
  else do
    let addons ← readAddons ((fixed.drop 17).headD 0)
    let cmd ← readFull 1
    let dst ← readDst readAddrPortStream (cmd.headD 0)
    pure ⟨(fixed.drop 1).take 16, addons, cmd.headD 0, dst⟩

end

/-- `readAddrPort`, of the codec: the port and the type one after the other. -/
def readAddrPort : FailState Error Source Socksaddr := do
  let port ← readFull 2
  let t ← readFull 1
  let (a, name) ← readHost atyps (t.headD 0)
  pure ⟨a, name, uint16 port⟩

/-- The fields that `Decode` reads with its cursor. -/
def decodeFields : FailState Error Source RequestHeader := do
  let v ← readFull 1
  if v.headD 0 ≠ version then throw errVersion
  else do
    let uuid ← readFull 16
    let alen ← readFull 1
    let addons ← readAddons (alen.headD 0)
    let cmd ← readFull 1
    let dst ← readDst readAddrPort (cmd.headD 0)
    pure ⟨uuid, addons, cmd.headD 0, dst⟩

/-- `RequestCodec.Decode`: the header and what the buffer holds behind it. A field
beyond the end of the buffer is `ErrShort`. -/
def decode (b : Str) : Except Error (RequestHeader × Str) :=
  match decodeFields.outcome ⟨b, errShort⟩ with
  | .ok h => .ok (h, (decodeFields.after ⟨b, errShort⟩).bytes)
  | .error e => .error e

lemma simulates_readAddrPortStream {σ : Type} [LawfulReader σ] :
    Simulates source (readAddrPortStream : FailState Error σ Socksaddr)
      readAddrPortStream := by
  unfold readAddrPortStream
  exact (Reader.simulates_readFull _).bind fun _ =>
    (simulates_readHost atyps _).bind fun _ => .pure _

lemma simulates_readRequestHeader {σ : Type} [LawfulReader σ] :
    Simulates source (readRequestHeader : FailState Error σ RequestHeader)
      readRequestHeader := by
  unfold readRequestHeader
  refine (Reader.simulates_readFull _).bind fun _ => .ite (.throw _) ?_
  refine Simulates.bind (.ite (Reader.simulates_readFull _) (.pure _)) fun _ => ?_
  refine (Reader.simulates_readFull _).bind fun _ => ?_
  exact Simulates.bind (.ite simulates_readAddrPortStream (.pure _)) fun _ => .pure _

/-! ### The handshakes -/

/-- `muxcool.CarrierFqdn` and `CarrierPort`. -/
def carrier : Socksaddr := .fromFqdn (lit "v1.mux.cool") 9527

def flowVision : Str := lit "xtls-rprx-vision"

def encodeFlowAddon (flow : Str) : Str := [0x0A, UInt8.ofNat flow.length] ++ flow

def parseFlowAddon : Str → Str
  | 0x0A :: l :: rest => if l.toNat ≤ rest.length then rest.take l.toNat else []
  | _ => []

def isCarrier (d : Socksaddr) : Bool :=
  d.isFqdn && d.fqdn == carrier.fqdn && d.port == carrier.port

/-- `ClientHandshake` without a flow: what it writes. -/
def clientRequest (key : Str) (dst : Socksaddr) : Except Error Str :=
  if key.length ≠ 16 then
    .error (.text (lit "vless: uuid key must be 16 bytes, got " ++ itoa key.length))
  else encode [] ⟨key, [], if isCarrier dst then cmdMux else cmdTCP, dst⟩

/-- The destination that the server has of a header: a carrier has its own. -/
def RequestHeader.target (h : RequestHeader) : Socksaddr :=
  if h.command = cmdMux then carrier else h.dst

inductive Above where
  | serverStream
  | vision
  deriving DecidableEq

def errUnknownUser (uuid : Str) : Error :=
  .text (lit "vless: unknown user id " ++ hexEncode uuid)

def errVisionUDP : Error := .text (lit "vless: xtls-rprx-vision flow 不支持 UDP")

def errVisionBelow : Error :=
  .text (lit "vless vision: 紧邻下层非 TLS(Vision 必须直接叠在 tls/reality 上,中间不能有 ws/grpc 等)")

/-- `ServerHandshake`. Vision asks whether the stream below is one of TLS. -/
def serverHandshake {σ : Type} [Reader σ] (auth : Authenticator) (tls : Bool) :
    FailState Error σ (Above × Request) := do
  let h ← readRequestHeader
  match auth (lit "vless") h.uuid with
  | none => throw (errUnknownUser h.uuid)
  | some cred =>
    let req : Request := ⟨h.target, cred, if h.command = cmdUDP then .udp else .tcp, h.command⟩
    if parseFlowAddon h.addons = flowVision then
      if h.command = cmdUDP then throw errVisionUDP
      else if tls then pure (.vision, req)
      else throw errVisionBelow
    else pure (.serverStream, req)

section
variable {σ : Type}

lemma simulates_serverHandshake [LawfulReader σ] (auth : Authenticator) (tls : Bool) :
    Simulates source (serverHandshake auth tls : FailState Error σ (Above × Request))
      (serverHandshake auth tls) := by
  unfold serverHandshake
  refine simulates_readRequestHeader.bind fun h => ?_
  cases auth (lit "vless") h.uuid with
  | none => exact .throw _
  | some cred => exact .ite (.ite (.throw _) (.ite (.pure _) (.throw _))) (.pure _)

variable {R : σ → σ → Prop} [Std.Refl R]

lemma keeps_readAddons [Reader σ]
    (hR : ∀ n, Keeps R (readFull n : FailState Error σ Str)) (alen : UInt8) :
    Keeps R (readAddons alen) := by
  unfold readAddons
  exact .ite (hR _) (.pure _)

variable [IsTrans σ R]

lemma keeps_readRequestHeader [Reader σ] (hR : ∀ n, Keeps R (readFull n : FailState Error σ Str)) :
    Keeps R readRequestHeader := by
  unfold readRequestHeader
  refine (hR _).bind fun _ => .ite (.throw _) ?_
  refine (keeps_readAddons hR _).bind fun _ => (hR _).bind fun _ => ?_
  refine Keeps.bind (.ite ?_ (.pure _)) fun _ => .pure _
  exact (hR _).bind fun _ => (keeps_readHost _ hR _).bind fun _ => .pure _

lemma keeps_serverHandshake [Reader σ]
    (hR : ∀ n, Keeps R (readFull n : FailState Error σ Str)) (auth : Authenticator)
    (tls : Bool) : Keeps R (serverHandshake auth tls) := by
  unfold serverHandshake
  refine (keeps_readRequestHeader hR).bind fun h => ?_
  cases auth (lit "vless") h.uuid with
  | none => exact .throw _
  | some cred => exact .ite (.ite (.throw _) (.ite (.pure _) (.throw _))) (.pure _)

lemma framed_serverHandshake (auth : Authenticator) (tls : Bool) :
    Reader.Framed (serverHandshake auth tls) := by
  unfold serverHandshake readRequestHeader
  refine Reader.Framed.bind ?_ fun h => ?_
  · refine (framed_readFull _).bind fun _ => .ite (.throw _) ?_
    refine Reader.Framed.bind (.ite (framed_readFull _) (.pure _)) fun _ => ?_
    refine (framed_readFull _).bind fun _ => ?_
    refine Reader.Framed.bind (.ite ?_ (.pure _)) fun _ => .pure _
    exact (framed_readFull _).bind fun _ =>
      (framed_readHost _ _).bind fun _ => .pure _
  · cases auth (lit "vless") h.uuid with
    | none => exact .throw _
    | some cred => exact .ite (.ite (.throw _) (.ite (.pure _) (.throw _))) (.pure _)

end

/-! ### What the server reads of a client's header -/

section
variable {h : RequestHeader} {d : Socksaddr} {s : Source} {rest : Str}

def wireDst (d : Socksaddr) : Socksaddr := ⟨(wireHost d).1, (wireHost d).2, d.port⟩

def addrBytes (h : RequestHeader) : Str :=
  if hasAddr h.command then (addrPortParts h.dst).flatten else []

lemma flatten_addrPortParts (d : Socksaddr) : (addrPortParts d).flatten =
    putBE 2 d.port.toNat ++ ([atyp atyps d] ++ (hostParts d).flatten) := by
  simp [addrPortParts]

lemma flatten_headerParts (h : RequestHeader) :
    (headerParts h).flatten = [version] ++ (h.uuid ++ ([UInt8.ofNat h.addons.length] ++
      (h.addons ++ ([h.command] ++ addrBytes h)))) := by
  rw [headerParts, addrBytes]
  by_cases ha : h.addons = [] <;> by_cases hc : hasAddr h.command = true <;> simp [ha, hc]

lemma runs_readAddons {addons : Str} (hlen : addons.length ≤ 255) (hs : s.bytes = addons ++ rest) :
    Runs (readAddons (UInt8.ofNat addons.length)) s (.ok addons) { s with bytes := rest } := by
  rw [readAddons, UInt8.toNat_ofNat', Nat.mod_eq_of_lt (by omega)]
  split_ifs with hpos
  · exact runs_readFull hs
  · have hnil : addons = [] := length_eq_zero_iff.mp (Nat.eq_zero_of_not_pos hpos)
    rw [hnil, nil_append] at hs
    rw [hnil, ← hs]
    exact runs_pure

lemma runs_readByte {c : UInt8} (hs : s.bytes = [c] ++ rest) :
    Runs (Reader.readFull 1) s (.ok [c]) { s with bytes := rest } :=
  Reader.runs_readFull hs

lemma runs_readAddrPort (hs : s.bytes = (addrPortParts d).flatten ++ rest) :
    Runs readAddrPort s (.ok (wireDst d)) { s with bytes := spill d ++ rest } := by
  rw [flatten_addrPortParts, append_assoc, append_assoc] at hs
  have hport := runs_readFull hs
  rw [length_putBE] at hport
  have hhost : Runs (readHost atyps (atyp atyps d))
      { s with bytes := (hostParts d).flatten ++ rest } (.ok (wireHost d))
      { s with bytes := spill d ++ rest } := runs_readHost rfl
  rw [readAddrPort]
  refine hport.bind ?_
  refine (runs_readByte rfl).bind ?_
  rw [uint16_putBE]
  exact hhost.bind runs_pure

lemma runs_readAddrPortStream (hs : s.bytes = (addrPortParts d).flatten ++ rest) :
    Runs readAddrPortStream s (.ok (wireDst d)) { s with bytes := spill d ++ rest } := by
  rw [flatten_addrPortParts, ← append_assoc, append_assoc] at hs
  have hhead := runs_readFull hs
  rw [length_append, length_putBE] at hhead
  have htake : (putBE 2 d.port.toNat ++ [atyp atyps d]).take 2 = putBE 2 d.port.toNat := by
    rw [take_append_of_le_length (by rw [length_putBE]), take_of_length_le (by rw [length_putBE])]
  have hdrop : ((putBE 2 d.port.toNat ++ [atyp atyps d]).drop 2).headD 0 = atyp atyps d := by
    rw [drop_append_of_le_length (by rw [length_putBE]), drop_of_length_le (by rw [length_putBE])]
    rfl
  have hhost : Runs (readHost atyps (atyp atyps d))
      { s with bytes := (hostParts d).flatten ++ rest } (.ok (wireHost d))
      { s with bytes := spill d ++ rest } := runs_readHost rfl
  rw [readAddrPortStream]
  refine hhead.bind ?_
  rw [hdrop, htake, uint16_putBE]
  exact hhost.bind runs_pure

/-- What a reader of addresses makes of the address of a header, if there is one. -/
lemma runs_readDst {addrPort : FailState Error Source Socksaddr}
    (haddr : ∀ {s : Source}, s.bytes = (addrPortParts h.dst).flatten ++ rest →
      Runs addrPort s (.ok (wireDst h.dst)) { s with bytes := spill h.dst ++ rest })
    (hs : s.bytes = addrBytes h ++ rest) :
    Runs (readDst addrPort h.command) s (.ok (if hasAddr h.command then wireDst h.dst else {}))
      { s with bytes := (if hasAddr h.command then spill h.dst else []) ++ rest } := by
  rw [addrBytes] at hs
  rw [readDst]
  split_ifs at hs ⊢ with hc
  · exact haddr hs
  · rw [nil_append] at hs
    rw [← hs]
    exact runs_pure

def wireHeader (h : RequestHeader) : RequestHeader :=
  { h with dst := if hasAddr h.command then wireDst h.dst else {} }

def headerSpill (h : RequestHeader) : Str := if hasAddr h.command then spill h.dst else []

/-- **What the server reads of a header.** -/
lemma runs_readRequestHeader (huuid : h.uuid.length = 16) (hadd : h.addons.length ≤ 255)
    (hs : s.bytes = (headerParts h).flatten ++ rest) :
    Runs readRequestHeader s (.ok (wireHeader h)) { s with bytes := headerSpill h ++ rest } := by
  let fixed : Str := version :: (h.uuid ++ [UInt8.ofNat h.addons.length])
  have hsplit : s.bytes = fixed ++ (h.addons ++ ([h.command] ++ (addrBytes h ++ rest))) := by
    rw [hs, flatten_headerParts]
    simp [fixed]
  have hfixed : Runs (Reader.readFull 18) s (.ok fixed)
      { s with bytes := h.addons ++ ([h.command] ++ (addrBytes h ++ rest)) } := by
    have hread := Reader.runs_readFull hsplit
    have hlen : fixed.length = 18 := by simp [fixed, huuid]
    rwa [hlen] at hread
  have huuid' : (fixed.drop 1).take 16 = h.uuid := by
    simp [fixed, ← huuid]
  have halen : (fixed.drop 17).headD 0 = UInt8.ofNat h.addons.length := by
    simp only [fixed, drop_succ_cons]
    rw [drop_append_of_le_length (by rw [huuid]), drop_of_length_le (by rw [huuid]),
      nil_append, headD_cons]
  have hver : ¬ fixed.headD 0 ≠ version := fun hne => hne rfl
  rw [readRequestHeader]
  refine hfixed.bind ?_
  rw [if_neg hver, halen, huuid']
  refine (runs_readAddons hadd rfl).bind ?_
  refine (runs_readByte rfl).bind ?_
  exact (runs_readDst runs_readAddrPortStream rfl).bind runs_pure

lemma decode_eq (huuid : h.uuid.length = 16) (hadd : h.addons.length ≤ 255) :
    decode ((headerParts h).flatten ++ rest) = .ok (wireHeader h, headerSpill h ++ rest) := by
  have hrun : Runs decodeFields ⟨(headerParts h).flatten ++ rest, errShort⟩ (.ok (wireHeader h))
      ⟨headerSpill h ++ rest, errShort⟩ := by
    rw [flatten_headerParts]
    simp only [List.append_assoc]
    have hid (b : Str) : Runs (Reader.readFull 16) (⟨h.uuid ++ b, errShort⟩ : Source)
        (.ok h.uuid) ⟨b, errShort⟩ := by
      have hread := Reader.runs_readFull (s := ⟨h.uuid ++ b, errShort⟩) rfl
      rwa [huuid] at hread
    rw [decodeFields]
    refine (runs_readByte rfl).bind ?_
    rw [if_neg (fun hne => hne rfl)]
    refine (hid _).bind ?_
    refine (runs_readByte rfl).bind ?_
    refine (runs_readAddons hadd rfl).bind ?_
    refine (runs_readByte rfl).bind ?_
    exact (runs_readDst runs_readAddrPort rfl).bind runs_pure
  rw [decode, hrun.1, hrun.2]

end

/-! ### The two decoders -/

lemma agrees_readAddrPort : Reader.Agrees readAddrPort readAddrPortStream := by
  intro b e e' P
  rw [readAddrPortStream, show 3 = 2 + 1 from rfl, Reader.succeeds_readFull_add]
  refine Reader.Agrees.readFull_bind (fun port hport => ?_) b e e' P
  refine (agrees_readFull 1).bind fun t => ?_
  rw [drop_left' hport, take_left' hport]
  exact (agrees_readHost atyps _).bind fun _ => .pure _

lemma agrees_readAddons (alen : UInt8) : Reader.Agrees (readAddons alen) (readAddons alen) :=
  .ite (agrees_readFull _) (.pure _)

lemma agrees_decodeFields : Reader.Agrees decodeFields readRequestHeader := by
  intro b e e' P
  rw [readRequestHeader, show 18 = 1 + (16 + 1) from rfl, Reader.succeeds_readFull_add]
  refine Reader.Agrees.readFull_bind (fun v hv => ?_) b e e' P
  obtain ⟨c, rfl⟩ := length_eq_one_iff.mp hv
  intro b e e' P
  rw [Reader.succeeds_readFull_add]
  by_cases hc : c = version
  · simp only [cons_append, nil_append, headD_cons, hc, ne_eq, not_true_eq_false, if_false]
    refine Reader.Agrees.readFull_bind (fun uuid huuid => ?_) b e e' P
    refine Reader.Agrees.readFull_bind fun alen _ => ?_
    have hid : ((version :: (uuid ++ alen)).drop 1).take 16 = uuid := take_left' huuid
    have hlen : (version :: (uuid ++ alen)).drop 17 = alen := drop_left' huuid
    rw [hid, hlen]
    refine (agrees_readAddons _).bind fun _ => (agrees_readFull 1).bind fun _ => ?_
    exact Reader.Agrees.bind (.ite agrees_readAddrPort (.pure _)) fun _ => .pure _
  · have hfails : Reader.Agrees (throw errVersion : FailState Error Source RequestHeader)
        (readFull 16 >>= fun _ => readFull 1 >>= fun _ => throw errVersion) :=
      .of_fails (fun _ _ => not_succeeds_throw) fun _ _ =>
        not_succeeds_bind fun _ _ => not_succeeds_bind fun _ _ => not_succeeds_throw
    simpa [hc] using hfails b e e' P

lemma decode_eq_ok_iff {b rest : Str} {h : RequestHeader} : decode b = .ok (h, rest) ↔
    Succeeds decodeFields ⟨b, errShort⟩ fun a s => a = h ∧ s.bytes = rest := by
  rw [decode, Succeeds]
  cases outcome decodeFields ⟨b, errShort⟩ <;> simp

/-- **The two decoders agree**: on the bytes of any stream `Decode` gives a header
and takes `k` bytes exactly when `readRequestHeader` does. -/
theorem decode_iff_readRequestHeader {σ : Type} [LawfulReader σ] (s : σ) (h : RequestHeader)
    (k : Nat) : decode (source s).bytes = .ok (h, (source s).bytes.drop k) ↔
      outcome readRequestHeader s = .ok h ∧
        (source (after readRequestHeader s)).bytes = (source s).bytes.drop k := by
  obtain ⟨hout, hafter⟩ := simulates_readRequestHeader s
  rw [decode_eq_ok_iff, agrees_decodeFields _ _ (source s).err fun a rest => a = h ∧ rest = _,
    hout, hafter, Succeeds]
  cases outcome readRequestHeader (source s) <;> simp

end Ntr.Proto.Vless
