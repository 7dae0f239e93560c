/-
The frames of Mux.cool: how they are written and read.

* `FrameMetadata`, `encodeHeader`, `unmarshalMeta`: the metadata of a frame and
  its bytes; `Address.bytes`, `FrameMetadata.body` and `wire` are the wire
  format, said without the code;
* `runs_readFrame`, `runs_write`: one frame in, one call out;
* `readFrames_writes`: **round trip** of any sequence of calls.
-/
import Ntr.Go.Varint

namespace Ntr.Mux

open Go Lib Lib.FailState List

/-! ### Metadata -/

def statusNew : UInt8 := 0x01
def statusKeep : UInt8 := 0x02
def statusEnd : UInt8 := 0x03
def statusKeepAlive : UInt8 := 0x04

def optionData : UInt8 := 0x01
def optionError : UInt8 := 0x02

def has (o f : UInt8) : Bool := o &&& f != 0

def networkTCP : UInt8 := 0x01
def networkUDP : UInt8 := 0x02

def atypIPv4 : UInt8 := 0x01
def atypDomain : UInt8 := 0x02
def atypIPv6 : UInt8 := 0x03

def maxMetaLen : Nat := 512

def streamChunkSize : Nat := 8 * 1024

def errMetaTooLong : Error := .text (lit "muxcool: metaLen exceeds 512")
def errMetaTooShort : Error := .text (lit "muxcool: metaLen < 4")
def errDataTooLong : Error := .text (lit "muxcool: data chunk exceeds 8192")
def errDomainTooLong (n : Nat) : Error := .text (lit "muxcool: domain too long: " ++ itoa n)
def errAddressType (atyp : UInt8) : Error :=
  .text (lit "muxcool: bad address type 0x" ++
    (if atyp < 16 then lit "0" else []) ++ Addr.hexText atyp.toNat)

/-- `Address`: a domain, or the bytes of a `net.IP`. -/
structure Address where
  isDomain : Bool := false
  domain : Str := []
  ip : Str := []
  deriving DecidableEq

/-- `FrameMetadata`. The target (network, address and port) stands only in some
frames. -/
structure FrameMetadata where
  sessionID : UInt16
  status : UInt8
  option : UInt8 := 0
  network : UInt8 := 0
  address : Address := {}
  port : UInt16 := 0
  deriving DecidableEq

/-- The frame carries a target: all New frames, and the Keep frames of UDP. -/
def FrameMetadata.hasAddr (m : FrameMetadata) : Bool :=
  m.status == statusNew || (m.status == statusKeep && m.network == networkUDP)

/-- `writeAddrPort`: the port, the type of the address and the address behind
the bytes `b`. -/
def writeAddrPort (b : Str) (port : UInt16) (addr : Address) : Except Error Str :=
  let b := b ++ putBE 2 port.toNat
  if addr.isDomain then
    if addr.domain.length > 255 then .error (errDomainTooLong addr.domain.length)
    else .ok (b ++ [atypDomain, UInt8.ofNat addr.domain.length] ++ addr.domain)
  else
    match to4 addr.ip with
    | some ip => .ok (b ++ [atypIPv4] ++ ip)
    | none => .ok (b ++ [atypIPv6] ++ to16 addr.ip)

/-- `readAddrPort`: the address and the port from `off` on, and the offset
behind them. -/
def readAddrPort (buf : Str) (off : Nat) : Except Error (Address × UInt16 × Nat) :=
  if off + 3 > buf.length then .error .unexpectedEOF
  else
    let port := uint16 ((buf.drop off).take 2)
    let atyp := buf.getD (off + 2) 0
    let off := off + 3
    if atyp = atypIPv4 then
      if off + 4 > buf.length then .error .unexpectedEOF
      else .ok ({ ip := (buf.drop off).take 4 }, port, off + 4)
    else if atyp = atypIPv6 then
      if off + 16 > buf.length then .error .unexpectedEOF
      else .ok ({ ip := (buf.drop off).take 16 }, port, off + 16)
    else if atyp = atypDomain then
      if off + 1 > buf.length then .error .unexpectedEOF
      else
        let dlen := (buf.getD off 0).toNat
        let off := off + 1
        if off + dlen > buf.length then .error .unexpectedEOF
        else .ok ({ isDomain := true, domain := (buf.drop off).take dlen }, port, off + dlen)
    else .error (errAddressType atyp)

/-- `encodeHeader`: the length of the metadata, the metadata, and the length of
the data if the frame has any. -/
def encodeHeader (m : FrameMetadata) (dataLen : Nat) : Except Error Str := do
  let dst := putBE 2 m.sessionID.toNat ++ [m.status, m.option]
  let dst ← (if m.hasAddr then writeAddrPort (dst ++ [m.network]) m.port m.address else .ok dst)
  if dst.length > maxMetaLen then .error errMetaTooLong
  else .ok (putBE 2 dst.length ++ dst ++ if has m.option optionData then putBE 2 dataLen else [])

/-- `unmarshalMeta`: bytes behind the target are not looked at. -/
def unmarshalMeta (buf : Str) : Except Error FrameMetadata :=
  if buf.length < 4 then .error errMetaTooShort
  else
    let m : FrameMetadata :=
      { sessionID := uint16 (buf.take 2), status := buf.getD 2 0, option := buf.getD 3 0 }
    if m.status = statusNew ∨
        (m.status = statusKeep ∧ 4 < buf.length ∧ buf.getD 4 0 = networkUDP) then
      if 4 ≥ buf.length then .error .unexpectedEOF
      else do
        let (addr, port, _) ← readAddrPort buf 5
        .ok { m with network := buf.getD 4 0, address := addr, port := port }
    else .ok m

/-! ### Frames on a connection -/

/-- What `WriteFrame` makes of the metadata: with data the option is set. -/
def FrameMetadata.carrying (m : FrameMetadata) (data : Str) : FrameMetadata :=
  if data.length > 0 then { m with option := m.option ||| optionData } else m

section
variable {σ : Type} [Channel σ]

/-- `WriteFrame`: the header in one `Write`, the data in another. -/
def writeFrame (m : FrameMetadata) (data : Str) : FailState Error σ Unit :=
  if data.length > streamChunkSize then throw errDataTooLong
  else do
    let m := m.carrying data
    let hdr ← lift (encodeHeader m data.length)
    write hdr
    if has m.option optionData ∧ data.length > 0 then write data else pure ()

/-- The metadata of the frames of `WriteData`. -/
def keepFrame (sessionID : UInt16) : FrameMetadata :=
  { sessionID, status := statusKeep, option := optionData }

/-- The loop of `WriteData`: every round takes some of the data, so `rounds` of
them are enough for as many bytes. -/
def writeChunks (sessionID : UInt16) : Nat → Str → FailState Error σ Unit
  | 0, _ => pure ()
  | rounds + 1, data =>
    if data.length > 0 then do
      let n := if data.length > streamChunkSize then streamChunkSize else data.length
      writeFrame (keepFrame sessionID) (data.take n)
      writeChunks sessionID rounds (data.drop n)
    else pure ()

def writeData (sessionID : UInt16) (data : Str) : FailState Error σ Unit :=
  writeChunks sessionID data.length data

/-- The metadata of the frame of `WriteEnd`. -/
def endFrame (sessionID : UInt16) (hasError : Bool) : FrameMetadata :=
  { sessionID, status := statusEnd, option := if hasError then optionError else 0 }

def writeEnd (sessionID : UInt16) (hasError : Bool) : FailState Error σ Unit :=
  writeFrame (endFrame sessionID hasError) []

/-- `ReadFrame` behind the metadata of a frame with data. -/
def readData : FailState Error σ Str := do
  let lb ← readFull 2
  let dataLen := (uint16 lb).toNat
  if dataLen > streamChunkSize then throw errDataTooLong
  else if dataLen > 0 then readFull dataLen
  else pure []

def readFrame : FailState Error σ (FrameMetadata × Str) := do
  let lb ← readFull 2
  let metaLen := (uint16 lb).toNat
  if metaLen > maxMetaLen then throw errMetaTooLong
  else if metaLen < 4 then throw errMetaTooShort
  else do
    let metaBuf ← readFull metaLen
    let m ← lift (unmarshalMeta metaBuf)
    let data ← (if has m.option optionData then readData else pure [])
    pure (m, data)

/-- `ReadFrame`s one after the other. -/
def readFrames : Nat → FailState Error σ (List (FrameMetadata × Str))
  | 0 => pure []
  | k + 1 => do
    let f ← readFrame
    let fs ← readFrames k
    pure (f :: fs)

end

inductive Call where
  | frame (m : FrameMetadata) (data : Str)
  | keep (sessionID : UInt16) (data : Str)
  | stop (sessionID : UInt16) (hasError : Bool)

def Call.write {σ : Type} [Channel σ] : Call → FailState Error σ Unit
  | .frame m data => writeFrame m data
  | .keep sessionID data => writeData sessionID data
  | .stop sessionID hasError => writeEnd sessionID hasError

def writes {σ : Type} [Channel σ] : List Call → FailState Error σ Unit
  | [] => pure ()
  | c :: cs => do
    c.write
    writes cs

/-! ### The wire format -/

/-- The address can be written: a domain of at most 255 bytes, or an IP address
of four or sixteen bytes. -/
def Address.Valid (a : Address) : Prop :=
  if a.isDomain then a.domain.length ≤ 255 else a.ip.length = 4 ∨ a.ip.length = 16

instance (a : Address) : Decidable a.Valid :=
  inferInstanceAs (Decidable (if a.isDomain then _ else _))

/-- The address as it is read: IPv4 inside IPv6 becomes IPv4. -/
def Address.normal (a : Address) : Address :=
  if a.isDomain then { isDomain := true, domain := a.domain } else { ip := (to4 a.ip).getD a.ip }

def Address.bytes (a : Address) : Str :=
  if a.isDomain then atypDomain :: UInt8.ofNat a.domain.length :: a.domain
  else match to4 a.ip with
    | some ip => atypIPv4 :: ip
    | none => atypIPv6 :: a.ip

namespace FrameMetadata

variable (m : FrameMetadata)

/-- The metadata can be written. -/
def Valid : Prop := m.hasAddr → m.address.Valid

instance : Decidable m.Valid := inferInstanceAs (Decidable (m.hasAddr → m.address.Valid))

/-- The metadata as it is read: the target only where the frame carries one. -/
def normal : FrameMetadata :=
  if m.hasAddr then { m with address := m.address.normal }
  else { sessionID := m.sessionID, status := m.status, option := m.option }

def body : Str :=
  putBE 2 m.sessionID.toNat ++ m.status :: m.option ::
    if m.hasAddr then m.network :: (putBE 2 m.port.toNat ++ m.address.bytes) else []

/-- The bytes of the metadata with its length in front, and the length of the
data behind it. -/
def header (dataLen : Nat) : Str :=
  putBE 2 m.body.length ++ m.body ++ if has m.option optionData then putBE 2 dataLen else []

end FrameMetadata

def wire (f : FrameMetadata × Str) : Str := f.1.header f.2.length ++ f.2

/-- The frame has data exactly where its option says so, or says so without any;
its data fits, and its metadata can be written. -/
structure WellFormed (f : FrameMetadata × Str) : Prop where
  valid : f.1.Valid
  fits : f.2.length ≤ streamChunkSize
  option : f.2 ≠ [] → has f.1.option optionData

/-- The data in parts of at most `streamChunkSize` bytes. -/
def chunks : Nat → Str → List Str
  | 0, _ => []
  | rounds + 1, data =>
    if data = [] then []
    else data.take streamChunkSize :: chunks rounds (data.drop streamChunkSize)

def Call.written : Call → List (FrameMetadata × Str)
  | .frame m data => [(m.carrying data, data)]
  | .keep sessionID data => (chunks data.length data).map (keepFrame sessionID, ·)
  | .stop sessionID hasError => [(endFrame sessionID hasError, [])]

/-- The frames that a call writes, as they are read. -/
def Call.frames (c : Call) : List (FrameMetadata × Str) := c.written.map fun f => (f.1.normal, f.2)

/-- The call can be carried out: `WriteData` and `WriteEnd` always can. -/
def Call.Valid : Call → Prop
  | .frame m data => m.Valid ∧ data.length ≤ streamChunkSize
  | _ => True

instance : DecidablePred Call.Valid
  | .frame m data => inferInstanceAs (Decidable (m.Valid ∧ data.length ≤ streamChunkSize))
  | .keep _ _ => inferInstanceAs (Decidable True)
  | .stop _ _ => inferInstanceAs (Decidable True)

/-! ### Headers -/

@[simp]
lemma carrying_hasAddr (m : FrameMetadata) (data : Str) :
    (m.carrying data).hasAddr = m.hasAddr := by
  rw [FrameMetadata.carrying]
  split <;> rfl

@[simp]
lemma carrying_address (m : FrameMetadata) (data : Str) :
    (m.carrying data).address = m.address := by
  rw [FrameMetadata.carrying]
  split <;> rfl

lemma has_or (o : UInt8) {f : UInt8} (hf : f ≠ 0) : has (o ||| f) f = true := by
  have h : (o ||| f) &&& f = f := by
    rw [← UInt8.toBitVec_inj]
    ext i hi
    simp only [UInt8.toBitVec_and, UInt8.toBitVec_or, BitVec.getElem_and, BitVec.getElem_or]
    cases (f.toBitVec)[i] <;> simp
  rw [has, h, bne_iff_ne]
  exact hf

variable {b data : Str} {a : Address}

lemma length_of_to4 {ip : Str} (h : to4 ip = some b) : b.length = 4 := by
  rw [to4] at h
  split_ifs at h with h4 h16
  · rwa [← Option.some.inj h]
  · rw [← Option.some.inj h, length_drop, h16.1]

lemma length_of_to4_eq_none (ha : a.Valid) (hd : ¬ a.isDomain)
    (h : to4 a.ip = none) : a.ip.length = 16 := by
  rw [Address.Valid, if_neg hd] at ha
  refine ha.resolve_left fun h4 => ?_
  simp [to4, h4] at h

lemma writeAddrPort_eq {port : UInt16} (ha : a.Valid) :
    writeAddrPort b port a = .ok (b ++ (putBE 2 port.toNat ++ a.bytes)) := by
  rw [writeAddrPort, Address.bytes]
  by_cases hd : a.isDomain
  · rw [Address.Valid, if_pos hd] at ha
    simp [hd, Nat.not_lt.mpr ha]
  · cases h4 : to4 a.ip with
    | some ip => simp [hd]
    | none => simp [hd, to16, length_of_to4_eq_none ha hd h4]

lemma length_bytes_le (ha : a.Valid) : a.bytes.length ≤ 257 := by
  rw [Address.bytes]
  by_cases hd : a.isDomain
  · rw [Address.Valid, if_pos hd] at ha
    simp only [hd, if_true, length_cons]
    omega
  · cases h4 : to4 a.ip with
    | some ip => simp [hd, length_of_to4 h4]
    | none => simp [hd, length_of_to4_eq_none ha hd h4]

lemma length_body {m : FrameMetadata} (hm : m.Valid) :
    4 ≤ m.body.length ∧ m.body.length ≤ maxMetaLen := by
  rw [FrameMetadata.body, maxMetaLen]
  by_cases h : m.hasAddr
  · have := length_bytes_le (hm h)
    simp only [h, if_true, length_append, length_putBE, length_cons]
    omega
  · simp [h]

lemma encodeHeader_eq {m : FrameMetadata} (hm : m.Valid) (n : Nat) :
    encodeHeader m n = .ok (m.header n) := by
  have hdst : (if m.hasAddr then
      writeAddrPort (putBE 2 m.sessionID.toNat ++ [m.status, m.option] ++ [m.network]) m.port
        m.address
      else .ok (putBE 2 m.sessionID.toNat ++ [m.status, m.option])) = .ok m.body := by
    rw [FrameMetadata.body]
    by_cases h : m.hasAddr
    · simp [h, writeAddrPort_eq (hm h)]
    · simp [h]
  have hlen : ¬ m.body.length > maxMetaLen := not_lt.mpr (length_body hm).2
  rw [encodeHeader, hdst]
  change (if m.body.length > maxMetaLen then _ else _) = _
  rw [if_neg hlen, FrameMetadata.header]

/-! ### Reading metadata -/

lemma exists_putBE_two (n : Nat) : ∃ x y, putBE 2 n = [x, y] :=
  length_eq_two.mp (length_putBE 2 n)

lemma readAddrPort_bytes (ha : a.Valid) (b : Str) (port : UInt16) :
    ∃ off, readAddrPort (b ++ (putBE 2 port.toNat ++ a.bytes)) b.length =
      .ok (a.normal, port, off) := by
  have hport := uint16_putBE port
  obtain ⟨x, y, hxy⟩ := exists_putBE_two port.toNat
  rw [hxy] at hport ⊢
  rw [readAddrPort, Address.bytes, Address.normal]
  by_cases hd : a.isDomain
  · rw [Address.Valid, if_pos hd] at ha
    have hnat : (UInt8.ofNat a.domain.length).toNat = a.domain.length :=
      UInt8.toNat_ofNat_of_lt (by rw [UInt8.size]; omega)
    have hhead : ¬ a.domain.length + 4 < 3 := by omega
    have hrest : ¬ a.domain.length + 4 < 4 + a.domain.length := by omega
    simp [hd, atypDomain, atypIPv4, atypIPv6, Nat.add_assoc, hport, hnat, hhead, hrest]
  · cases h4 : to4 a.ip with
    | some ip =>
      simp [hd, atypIPv4, Nat.add_assoc, hport, length_of_to4 h4]
    | none =>
      have h16 := length_of_to4_eq_none ha hd h4
      simp [hd, atypIPv4, atypIPv6, Nat.add_assoc, hport, h16]

lemma unmarshalMeta_body {m : FrameMetadata} (hm : m.Valid) :
    unmarshalMeta m.body = .ok m.normal := by
  have hid := uint16_putBE m.sessionID
  obtain ⟨i, j, hij⟩ := exists_putBE_two m.sessionID.toNat
  rw [hij] at hid
  rw [unmarshalMeta, FrameMetadata.body, FrameMetadata.normal, hij]
  by_cases h : m.hasAddr
  · obtain ⟨off, hread⟩ := readAddrPort_bytes (hm h) [i, j, m.status, m.option, m.network] m.port
    have hkind : m.status = statusNew ∨ m.status = statusKeep ∧ m.network = networkUDP := by
      simpa [FrameMetadata.hasAddr] using h
    have hshort : ¬ (putBE 2 m.port.toNat ++ m.address.bytes).length + 5 < 4 := by omega
    have hempty : ¬ (putBE 2 m.port.toNat ++ m.address.bytes).length + 4 < 4 := by omega
    generalize putBE 2 m.port.toNat ++ m.address.bytes = block at hread hshort hempty ⊢
    simp only [cons_append, nil_append, length_cons, length_nil] at hread
    simp [h, hid, hkind, hread, hshort, hempty]
    rfl
  · have hkind : ¬ m.status = statusNew := fun hnew => h (by simp [FrameMetadata.hasAddr, hnew])
    simp [h, hid, hkind]

@[simp]
lemma normal_option (m : FrameMetadata) : m.normal.option = m.option := by
  rw [FrameMetadata.normal]
  split <;> rfl

/-! ### One frame -/

section

lemma simulates_readData : Simulates Stream.tape (readData : FailState Error Stream Str) readData :=
  (simulates_readFull 2).bind fun _ => .ite (.throw _) (.ite (simulates_readFull _) (.pure _))

lemma simulates_readFrame :
    Simulates Stream.tape (readFrame : FailState Error Stream (FrameMetadata × Str)) readFrame :=
  (simulates_readFull 2).bind fun _ => .ite (.throw _) (.ite (.throw _)
    ((simulates_readFull _).bind fun _ => (Simulates.lift _).bind fun _ =>
      (Simulates.ite simulates_readData (.pure _)).bind fun _ => .pure _))

lemma simulates_readFrames : ∀ k : Nat,
    Simulates Stream.tape (readFrames k : FailState Error Stream _) (readFrames k)
  | 0 => .pure _
  | k + 1 => simulates_readFrame.bind fun _ => (simulates_readFrames k).bind fun _ => .pure _

end

section
variable {t : Tape} {rest : Str}

lemma toNat_uint16_putBE {n : Nat} (hn : n < 2 ^ 16) : (uint16 (putBE 2 n)).toNat = n := by
  rw [uint16, UInt16.toNat_ofNat', beNat_putBE]
  omega

lemma runs_readFull_two {n : Nat} (h : t.bytes = putBE 2 n ++ rest) :
    Runs (readFull 2) t (.ok (putBE 2 n)) { t with bytes := rest } := by
  have hrun := runs_readFull h
  rwa [length_putBE] at hrun

lemma runs_readData {data : Str} (hfit : data.length ≤ streamChunkSize)
    (h : t.bytes = putBE 2 data.length ++ (data ++ rest)) :
    Runs readData t (.ok data) { t with bytes := rest } := by
  have hn : data.length < 2 ^ 16 := lt_of_le_of_lt hfit (by decide)
  refine (runs_readFull_two h).bind ?_
  rw [toNat_uint16_putBE hn]
  dsimp only
  rw [if_neg (not_lt.mpr hfit)]
  by_cases hpos : data.length > 0
  · rw [if_pos hpos]
    exact runs_readFull rfl
  · rw [if_neg hpos, length_eq_zero_iff.mp (Nat.eq_zero_of_not_pos hpos)]
    exact runs_pure

lemma runs_readFrame {f : FrameMetadata × Str} (hf : WellFormed f) (h : t.bytes = wire f ++ rest) :
    Runs readFrame t (.ok (f.1.normal, f.2)) { t with bytes := rest } := by
  obtain ⟨m, data⟩ := f
  obtain ⟨hm, hfit, hopt⟩ := hf
  have hlen := length_body hm
  rw [wire, FrameMetadata.header, append_assoc, append_assoc, append_assoc] at h
  refine (runs_readFull_two h).bind ?_
  rw [toNat_uint16_putBE (lt_of_le_of_lt hlen.2 (by decide))]
  dsimp only at hfit hopt ⊢
  rw [if_neg (not_lt.mpr hlen.2), if_neg (not_lt.mpr hlen.1)]
  refine (runs_readFull rfl).bind ?_
  rw [unmarshalMeta_body hm]
  refine runs_lift.bind ?_
  rw [normal_option]
  by_cases hd : has m.option optionData
  · rw [if_pos hd, if_pos hd]
    exact (runs_readData hfit rfl).bind runs_pure
  · have hnil : data = [] := by_contra fun h => hd (hopt h)
    rw [if_neg hd, if_neg hd, hnil]
    exact runs_pure.bind runs_pure

/-- **Frames are read as they were written**, one after the other. -/
lemma runs_readFrames : ∀ {fs : List (FrameMetadata × Str)} {t : Tape},
    (∀ f ∈ fs, WellFormed f) → t.bytes = (fs.map wire).flatten ++ rest →
    Runs (readFrames fs.length) t (.ok (fs.map fun f => (f.1.normal, f.2))) { t with bytes := rest }
  | [], t, _, h => by
    have ht : { t with bytes := rest } = t := by rw [← (show t.bytes = rest from h)]
    rw [ht]
    exact runs_pure
  | f :: fs, t, hf, h => by
    rw [map_cons, flatten_cons, append_assoc] at h
    refine (runs_readFrame (hf f (.head _)) h).bind ?_
    exact (runs_readFrames (fun g hg => hf g (.tail _ hg)) rfl).bind runs_pure

end

/-! ### Calls -/

def Open (s : Stream) : Prop := ∀ i, s.writeErr i = none

/-- The code succeeds on a connection that takes every write, and what it sends
is this. -/
def Sends (m : FailState Error Stream Unit) (out : Str) : Prop :=
  ∀ w : Stream, Open w → outcome m w = .ok () ∧ Open (after m w) ∧
    (after m w).sent.flatten = w.sent.flatten ++ out

lemma Sends.pure : Sends (Pure.pure ()) [] := fun w hw => ⟨rfl, hw, by simp⟩

lemma Sends.bind {m : FailState Error Stream Unit} {k : Unit → FailState Error Stream Unit}
    {a : Str} (hm : Sends m a) (hk : Sends (k ()) b) : Sends (m >>= k) (a ++ b) := by
  intro w hw
  obtain ⟨hok, hopen, hsent⟩ := hm w hw
  obtain ⟨hok', hopen', hsent'⟩ := hk _ hopen
  rw [outcome_bind, after_bind, hok]
  exact ⟨hok', hopen', by dsimp only; rw [hsent', hsent, append_assoc]⟩

lemma sends_write (b : Str) : Sends (Channel.write b) b := by
  intro w hw
  obtain ⟨hok, hafter⟩ := Stream.runs_write (b := b) (hw 0)
  rw [hafter]
  exact ⟨hok, fun i => hw (i + 1), by simp⟩

lemma has_carrying {m : FrameMetadata} (h : data ≠ []) :
    has (m.carrying data).option optionData = true := by
  rw [FrameMetadata.carrying, if_pos (length_pos_iff.mpr h)]
  exact has_or m.option (by decide)

lemma wellFormed_carrying {m : FrameMetadata} (hm : m.Valid)
    (hfit : data.length ≤ streamChunkSize) : WellFormed (m.carrying data, data) where
  valid := by
    rw [FrameMetadata.Valid, carrying_hasAddr, carrying_address]
    exact hm
  fits := hfit
  option := has_carrying

lemma sends_writeFrame {m : FrameMetadata} (hm : m.Valid) (hfit : data.length ≤ streamChunkSize) :
    Sends (writeFrame m data) (wire (m.carrying data, data)) := by
  rw [writeFrame, if_neg (not_lt.mpr hfit)]
  dsimp only
  rw [encodeHeader_eq (wellFormed_carrying hm hfit).valid]
  change Sends (write _ >>= fun _ => _) _
  refine (sends_write _).bind ?_
  by_cases hd : data = []
  · rw [if_neg (by simp [hd]), hd]
    exact .pure
  · rw [if_pos ⟨has_carrying hd, length_pos_iff.mpr hd⟩]
    exact sends_write data

lemma keepFrame_valid (id : UInt16) : (keepFrame id).Valid := nofun

lemma endFrame_valid (id : UInt16) (e : Bool) : (endFrame id e).Valid := nofun

lemma has_keepFrame (id : UInt16) : has (keepFrame id).option optionData = true :=
  show has optionData optionData = true by decide

lemma carrying_keepFrame (id : UInt16) (data : Str) :
    (keepFrame id).carrying data = keepFrame id := by
  simp [FrameMetadata.carrying, keepFrame]

lemma sends_writeChunks (id : UInt16) : ∀ (rounds : Nat) (data : Str),
    Sends (writeChunks id rounds data)
      ((chunks rounds data).map fun d => wire (keepFrame id, d)).flatten
  | 0, _ => .pure
  | rounds + 1, data => by
    have htake : data.take (if data.length > streamChunkSize then streamChunkSize
        else data.length) = data.take streamChunkSize ∧
        data.drop (if data.length > streamChunkSize then streamChunkSize
        else data.length) = data.drop streamChunkSize := by
      by_cases h : data.length > streamChunkSize
      · rw [if_pos h]
        exact ⟨rfl, rfl⟩
      · have hle := not_lt.mp h
        rw [if_neg h, take_length, take_of_length_le hle, drop_length, drop_of_length_le hle]
        exact ⟨rfl, rfl⟩
    rw [writeChunks, chunks]
    by_cases hd : data = []
    · rw [if_neg (by simp [hd]), if_pos hd]
      exact .pure
    · rw [if_pos (length_pos_iff.mpr hd), if_neg hd, map_cons, flatten_cons]
      dsimp only
      rw [htake.1, htake.2]
      have hhead := sends_writeFrame (keepFrame_valid id) (length_take_le streamChunkSize data)
      rw [carrying_keepFrame] at hhead
      exact hhead.bind (sends_writeChunks id rounds _)

lemma flatten_chunks : ∀ {rounds : Nat} {data : Str}, data.length ≤ rounds →
    (chunks rounds data).flatten = data
  | 0, data, h => by
    rw [length_eq_zero_iff.mp (Nat.le_zero.mp h)]
    rfl
  | rounds + 1, data, h => by
    rw [chunks]
    split
    case isTrue hd => rw [hd]; rfl
    case isFalse hd =>
      have hpos := length_pos_iff.mpr hd
      have hdrop : (data.drop streamChunkSize).length ≤ rounds := by
        rw [length_drop, streamChunkSize]
        omega
      rw [flatten_cons, flatten_chunks hdrop, take_append_drop]

lemma mem_chunks : ∀ {rounds : Nat} {data d : Str}, d ∈ chunks rounds data →
    d ≠ [] ∧ d.length ≤ streamChunkSize
  | 0, _, _, h => nomatch h
  | rounds + 1, data, d, h => by
    rw [chunks] at h
    split at h
    case isTrue => exact nomatch h
    case isFalse hd =>
      rcases mem_cons.mp h with rfl | h
      · refine ⟨?_, length_take_le _ _⟩
        rw [Ne, take_eq_nil_iff]
        exact fun h => h.elim (by decide) hd
      · exact mem_chunks h

lemma sends_call {c : Call} (hc : c.Valid) : Sends c.write (c.written.map wire).flatten := by
  match c, hc with
  | .frame m data, hc =>
    have h := sends_writeFrame hc.1 hc.2
    rwa [← append_nil (wire _)] at h
  | .keep id data, _ =>
    have h := sends_writeChunks id data.length data
    rwa [← Function.comp_def, ← map_map] at h
  | .stop id e, _ =>
    have h : Sends (writeFrame (endFrame id e) []) _ :=
      sends_writeFrame (endFrame_valid id e) (by decide)
    rwa [← append_nil (wire _)] at h

lemma wellFormed_of_mem_written {c : Call} (hc : c.Valid) {f : FrameMetadata × Str}
    (hf : f ∈ c.written) : WellFormed f := by
  match c, hc with
  | .frame m data, hc =>
    rw [mem_singleton.mp hf]
    exact wellFormed_carrying hc.1 hc.2
  | .keep id data, _ =>
    obtain ⟨d, hd, rfl⟩ := mem_map.mp hf
    exact ⟨keepFrame_valid id, (mem_chunks hd).2, fun _ => has_keepFrame id⟩
  | .stop id e, _ =>
    rw [mem_singleton.mp hf]
    have h : WellFormed ((endFrame id e).carrying [], []) :=
      wellFormed_carrying (endFrame_valid id e) (by decide)
    exact h

lemma sends_writes : ∀ {cs : List Call}, (∀ c ∈ cs, c.Valid) →
    Sends (writes cs) ((cs.flatMap Call.written).map wire).flatten
  | [], _ => .pure
  | c :: cs, hc => by
    rw [flatMap_cons, map_append, flatten_append]
    exact (sends_call (hc c (.head _))).bind (sends_writes fun d hd => hc d (.tail _ hd))

/-- **Round trip**: on a connection that takes every write, all valid calls
succeed; whoever reads what they have sent, in any segments and with any bytes
behind it, reads their frames and leaves the bytes behind them unread. The
frames of `WriteData` are of its session, carry some data each, and together
the data that it was given. -/
theorem readFrames_writes {cs : List Call} (hc : ∀ c ∈ cs, c.Valid) {w : Stream} (hw : Open w)
    (hsent : w.sent = []) : outcome (writes cs) w = .ok () ∧
      (∀ (r : Stream) (rest : Str), r.bytes = (after (writes cs) w).sent.flatten ++ rest →
        outcome (readFrames (cs.flatMap Call.frames).length) r = .ok (cs.flatMap Call.frames) ∧
          (after (readFrames (cs.flatMap Call.frames).length : FailState Error Stream _) r).bytes =
            rest) ∧
      ∀ id data, Call.keep id data ∈ cs → ((Call.keep id data).frames.map Prod.snd).flatten = data ∧
          ∀ f ∈ (Call.keep id data).frames, f.1 = keepFrame id ∧ f.2 ≠ [] ∧
            f.2.length ≤ streamChunkSize := by
  obtain ⟨hok, -, hout⟩ := sends_writes hc w hw
  have hframes : cs.flatMap Call.frames =
      (cs.flatMap Call.written).map fun f => (f.1.normal, f.2) := by
    rw [map_flatMap]
    rfl
  have hkeep : ∀ id data, (Call.keep id data).frames =
      (chunks data.length data).map (keepFrame id, ·) := by
    intro id data
    rw [Call.frames, Call.written, map_map]
    rfl
  refine ⟨hok, fun r rest hr => ?_, fun id data _ => ⟨?_, fun f hf => ?_⟩⟩
  · have hwf : ∀ f ∈ cs.flatMap Call.written, WellFormed f := by
      intro f hf
      obtain ⟨c, hmem, hf⟩ := mem_flatMap.mp hf
      exact wellFormed_of_mem_written (hc c hmem) hf
    rw [hout, hsent, flatten_nil, nil_append] at hr
    rw [hframes, length_map]
    have hrun := (simulates_readFrames _).runs (runs_readFrames (t := r.tape) hwf hr)
    exact ⟨hrun.1, congrArg Tape.bytes hrun.2⟩
  · rw [hkeep, map_map]
    exact (congrArg List.flatten (map_id _)).trans (flatten_chunks le_rfl)
  · rw [hkeep] at hf
    obtain ⟨d, hd, rfl⟩ := mem_map.mp hf
    exact ⟨rfl, mem_chunks hd⟩

/-- The calls of a session with a domain, with an IPv4 address inside IPv6, with
data that takes two frames, and with an end. -/
def someCalls : List Call :=
  [.frame { sessionID := 1, status := statusNew, network := networkTCP, port := 443
            address := { isDomain := true, domain := lit "example.com" } } [],
   .frame { sessionID := 2, status := statusNew, network := networkUDP, port := 53
            address := { ip := List.replicate 10 0 ++ [0xFF, 0xFF, 10, 0, 0, 1] } } [1, 2, 3],
   .keep 1 (List.replicate 8193 7),
   .stop 1 true]

lemma someCalls_valid : ∀ c ∈ someCalls, c.Valid := by
  intro c hc
  simp only [someCalls, mem_cons, not_mem_nil, or_false] at hc
  rcases hc with rfl | rfl | rfl | rfl
  · exact ⟨by decide, by decide⟩
  · exact ⟨by decide, by decide⟩
  · trivial
  · trivial

/-- A connection on which the calls have been written. -/
def someLink : Stream := after (writes someCalls) { segments := [] }

/-- The frames of the calls are read back, each write as a segment of its own,
and the two bytes behind them are left. -/
theorem readFrames_someCalls : outcome (readFrames (someCalls.flatMap Call.frames).length)
    { segments := someLink.sent ++ [[9, 9]] : Stream } = .ok (someCalls.flatMap Call.frames) ∧
      (after (readFrames (someCalls.flatMap Call.frames).length : FailState Error Stream _)
        { segments := someLink.sent ++ [[9, 9]] : Stream }).bytes = [9, 9] := by
  have h := readFrames_writes someCalls_valid (w := { segments := [] }) (fun _ => rfl) rfl
  exact h.2.1 _ [9, 9] (by simp [Stream.bytes, someLink])

end Ntr.Mux
