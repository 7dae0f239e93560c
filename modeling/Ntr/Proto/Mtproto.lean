/-
The inner obfuscation of MTProto (`proto/mtproto/obfuscated2.go`): a client sends a
frame of 64 random bytes, of which both ends take the keys of a cipher stream for each
direction; the server knows the frame by a mark in its encrypted tail, and takes it for
a probe if it starts like another protocol.

* `handshake_agrees_iff`: both ends agree exactly if the first bytes of the frame do
  not look like another protocol once they are encrypted. The client looks at them
  before.
-/
import Ntr.Go.Reader
import Ntr.Go.Varint

namespace Ntr.Proto.Mtproto

open Go List Reader LawfulReader
open Lib Lib.FailState

/-! ### Cipher streams -/

/-- SHA-256, and the keystream of AES-256-CTR under a key and an iv. -/
structure Crypto where
  sha256 : Str → Str
  keystream : Str → Str → Nat → UInt8

/-- `cipher.Stream`: a keystream and the place in it. -/
structure CipherStream where
  key : Str
  iv : Str
  pos : Nat := 0

/-- The bytes with those of a keystream from a place on. -/
def xorFrom (ks : Nat → UInt8) : Nat → Str → Str
  | _, [] => []
  | i, b :: p => (b ^^^ ks i) :: xorFrom ks (i + 1) p

section
variable (ks : Nat → UInt8)

@[simp]
lemma length_xorFrom : ∀ (i : Nat) (p : Str), (xorFrom ks i p).length = p.length
  | _, [] => rfl
  | i, _ :: p => congrArg (· + 1) (length_xorFrom (i + 1) p)

lemma xorFrom_append : ∀ (i : Nat) (p q : Str),
    xorFrom ks i (p ++ q) = xorFrom ks i p ++ xorFrom ks (i + p.length) q
  | _, [], _ => rfl
  | i, b :: p, q => by
    have hplace : i + (b :: p).length = i + 1 + p.length := by
      rw [length_cons]
      omega
    rw [cons_append, xorFrom, xorFrom, xorFrom_append, cons_append, hplace]

lemma xorFrom_xorFrom : ∀ (i : Nat) (p : Str), xorFrom ks i (xorFrom ks i p) = p
  | _, [] => rfl
  | i, b :: p => by
    rw [xorFrom, xorFrom, xorFrom_xorFrom, UInt8.xor_assoc, UInt8.xor_self, UInt8.xor_zero]

end

def CipherStream.xorKeyStream (cr : Crypto) (c : CipherStream) (p : Str) : Str × CipherStream :=
  (xorFrom (cr.keystream c.key c.iv) c.pos p, { c with pos := c.pos + p.length })

/-! ### The frame -/

structure HandshakeFrame where
  data : Str
  length_data : data.length = 64

def hfConnectionType : Str := [0xdd, 0xdd, 0xdd, 0xdd]

def errBadConnType : Error :=
  .text (lit "mtproto: 不支持的 connection type(secret 不符或非 MTProto 流量)")

def errProbeDetected : Error := .text (lit "mtproto: 握手帧命中禁止前缀(疑似探测流量)")

def errGenerate : Error := .text (lit "mtproto: 生成握手帧多次命中禁止前缀(不应发生)")

def frameKey (d : Str) : Str := (d.drop 8).take 32
def frameIV (d : Str) : Str := (d.drop 40).take 16
def frameConnType (d : Str) : Str := (d.drop 56).take 4

def revert (d : Str) : Str := d.take 8 ++ ((d.drop 8).take 48).reverse ++ d.drop 56

/-- `dc`. -/
def frameDC (d : Str) : Nat :=
  let idx := beNat ((d.drop 60).take 2).reverse
  if 2 ^ 15 ≤ idx then 2 ^ 16 - idx else if 0 < idx then idx else 2

def forbiddenPrefixes : List Nat :=
  [0x44414548, 0x54534f50, 0x20544547, 0x4954504f, 0x02010316, 0xdddddddd, 0xeeeeeeee]

def badPrefix (d : Str) : Bool :=
  d.headD 0 == 0xef || forbiddenPrefixes.contains (beNat (d.take 4).reverse) ||
    ((d.drop 4).take 4).foldl (· ||| ·) 0 == 0

/-- `copy` into a part of the bytes. -/
def overwrite (d : Str) (off : Nat) (b : Str) : Str := d.take off ++ b ++ d.drop (off + b.length)

/-- The connection type and the index of the data centre are put into a frame. -/
def stamp (d : Str) (dc : Int) : Str :=
  overwrite (overwrite d 56 hfConnectionType) 60 (putBE 2 (dc % 2 ^ 16).toNat).reverse

/-- The rounds of `generateHandshake` that are left, on the frames that are drawn. -/
def generateRounds (draw : Nat → HandshakeFrame) (dc : Int) : Nat → Nat → Except Error Str
  | 0, _ => .error errGenerate
  | rounds + 1, i =>
    if badPrefix (draw i).data then generateRounds draw dc rounds (i + 1)
    else .ok (stamp (draw i).data dc)

def generateHandshake (draw : Nat → HandshakeFrame) (dc : Int) : Except Error Str :=
  generateRounds draw dc 64 0

def deriveCipher (cr : Crypto) (d secret : Str) : CipherStream :=
  ⟨cr.sha256 (frameKey d ++ secret), frameIV d, 0⟩

/-! ### The handshake -/

/-- The streams of an `obfsConn`. -/
structure Streams where
  recv : CipherStream
  send : CipherStream

/-- `readObfuscatedHandshake` on the frame that it has read. -/
def acceptFrame (cr : Crypto) (secret d : Str) : Except Error (Streams × Nat) :=
  if badPrefix d then .error errProbeDetected
  else
    let x := (deriveCipher cr d secret).xorKeyStream cr (revert d)
    if frameConnType x.1 ≠ hfConnectionType then .error errBadConnType
    else .ok (⟨x.2, deriveCipher cr (revert d) secret⟩, frameDC x.1)

def readObfuscatedHandshake {σ : Type} [Reader σ] (cr : Crypto) (secret : Str) :
    FailState Error σ (Streams × Nat) := do
  let d ← readFull 64
  lift (acceptFrame cr secret d)

/-- What `sendObfuscatedHandshake` does with its frame: the bytes that it writes, and
its streams. -/
def sendFrame (cr : Crypto) (secret d : Str) : Str × Streams :=
  let x := (deriveCipher cr d secret).xorKeyStream cr (revert d)
  (overwrite (overwrite x.1 8 (frameKey d)) 40 (frameIV d),
    ⟨deriveCipher cr (revert d) secret, x.2⟩)

def sendObfuscatedHandshake (cr : Crypto) (draw : Nat → HandshakeFrame) (secret : Str) (dc : Int) :
    Except Error (Str × Streams) := do
  let d ← generateHandshake draw dc
  .ok (sendFrame cr secret d)

/-! ### The connection -/

/-- `obfsConn`, as it reads. -/
structure ObfsConn (cr : Crypto) (σ : Type) where
  rw : σ
  recv : CipherStream

/-- What a connection reads is what its carrier reads, decrypted. -/
instance instLawfulReaderObfsConn {cr : Crypto} {σ : Type} [LawfulReader σ] :
    LawfulReader (ObfsConn cr σ) where
  read c n :=
    match read c.rw n with
    | (.error e, s) => (.error e, ⟨s, c.recv⟩)
    | (.ok d, s) => (.ok (c.recv.xorKeyStream cr d).1, ⟨s, (c.recv.xorKeyStream cr d).2⟩)
  bytes c := (c.recv.xorKeyStream cr (bytes c.rw)).1
  readErr c := readErr c.rw
  read_cases c n hn := by
    rcases read_cases c.rw hn with
      ⟨hnil, hread⟩ | ⟨d, s, hread, hd, hlen, hbytes, herr⟩
    · refine .inl ⟨by rw [hnil]; rfl, ?_⟩
      rw [hread]
    · refine .inr ⟨(c.recv.xorKeyStream cr d).1, ⟨s, (c.recv.xorKeyStream cr d).2⟩, ?_, ?_, ?_, ?_,
        herr⟩
      · rw [hread]
      · rw [CipherStream.xorKeyStream, ← length_pos_iff, length_xorFrom]
        exact length_pos_iff.mpr hd
      · rw [CipherStream.xorKeyStream, length_xorFrom]
        exact hlen
      · rw [hbytes]
        exact xorFrom_append _ _ _ _

/-- The bytes that calls of `Write` put on the carrier. -/
def obfsWrites (cr : Crypto) : CipherStream → List Str → Str
  | _, [] => []
  | c, p :: ps => (c.xorKeyStream cr p).1 ++ obfsWrites cr (c.xorKeyStream cr p).2 ps

/-- What the writes of one end are for a carrier, the other end reads. -/
def Decrypts (cr : Crypto) (send recv : CipherStream) : Prop :=
  ∀ (ps : List Str) {σ : Type} [LawfulReader σ] (t : σ), bytes t = obfsWrites cr send ps →
      Reader.Gives (drain (⟨t, recv⟩ : ObfsConn cr σ)) ps.flatten

lemma obfsWrites_eq (cr : Crypto) (c : CipherStream) (ps : List Str) :
    obfsWrites cr c ps = (c.xorKeyStream cr ps.flatten).1 := by
  induction ps generalizing c with
  | nil => rfl
  | cons p ps ih =>
    rw [obfsWrites, ih, flatten_cons]
    exact (xorFrom_append _ _ _ _).symm

lemma decrypts_self (cr : Crypto) (c : CipherStream) : Decrypts cr c c := by
  intro ps σ _ t ht
  have hgives := gives_drain (⟨t, c⟩ : ObfsConn cr σ)
  have hbytes : bytes (⟨t, c⟩ : ObfsConn cr σ) = ps.flatten := by
    change (c.xorKeyStream cr (bytes t)).1 = ps.flatten
    rw [ht, obfsWrites_eq]
    exact xorFrom_xorFrom _ _ _
  rwa [hbytes] at hgives

/-! ### The parts of a frame -/

/-- The bytes of a frame: eight in front, those of the key and the iv, and the tail. -/
structure Parts (d front mid tail : Str) : Prop where
  eq : d = front ++ mid ++ tail
  front : front.length = 8
  mid : mid.length = 48
  tail : tail.length = 8

lemma exists_parts {d : Str} (hd : d.length = 64) : ∃ front mid tail, Parts d front mid tail := by
  refine ⟨d.take 8, (d.drop 8).take 48, d.drop 56, ?_, ?_, ?_, ?_⟩
  · have hrest : d.drop 56 = (d.drop 8).drop 48 := by rw [drop_drop]
    rw [hrest, append_assoc, take_append_drop, take_append_drop]
  · rw [length_take]
    omega
  · rw [length_take, length_drop]
    omega
  · rw [length_drop]
    omega

namespace Parts

variable {d front mid tail : Str}

lemma take_front (h : Parts d front mid tail) : d.take 8 = front := by
  rw [h.eq, append_assoc, take_left' h.front]

lemma drop_front (h : Parts d front mid tail) : d.drop 8 = mid ++ tail := by
  rw [h.eq, append_assoc, drop_left' h.front]

lemma drop_mid (h : Parts d front mid tail) : d.drop 56 = tail := by
  rw [h.eq, drop_left' (by rw [length_append, h.front, h.mid])]

lemma frameKey_eq (h : Parts d front mid tail) : frameKey d = mid.take 32 := by
  rw [frameKey, h.drop_front, take_append_of_le_length (by rw [h.mid]; decide)]

lemma frameIV_eq (h : Parts d front mid tail) : frameIV d = mid.drop 32 := by
  have hlen : (mid.drop 32).length = 16 := by rw [length_drop, h.mid]
  have hdrop : d.drop 40 = (d.drop 8).drop 32 := by rw [drop_drop]
  rw [frameIV, hdrop, h.drop_front, drop_append_of_le_length (by rw [h.mid]; decide),
    take_left' hlen]

lemma revert_eq (h : Parts d front mid tail) : Parts (revert d) front mid.reverse tail := by
  refine ⟨?_, h.front, by rw [length_reverse, h.mid], h.tail⟩
  rw [revert, h.take_front, h.drop_front, h.drop_mid, take_left' h.mid]

lemma deriveCipher_eq {cr : Crypto} {secret d' front' tail' : Str} (h : Parts d front mid tail)
    (h' : Parts d' front' mid tail') : deriveCipher cr d' secret = deriveCipher cr d secret := by
  rw [deriveCipher, deriveCipher, h.frameKey_eq, h.frameIV_eq, h'.frameKey_eq, h'.frameIV_eq]

lemma frameConnType_eq (h : Parts d front mid tail) : frameConnType d = tail.take 4 := by
  rw [frameConnType, h.drop_mid]

lemma drop_connType (h : Parts d front mid tail) : d.drop 60 = tail.drop 4 := by
  rw [← h.drop_mid, drop_drop]

lemma badPrefix_eq (h : Parts d front mid tail) : badPrefix d = badPrefix front := by
  have hhead : d.headD 0 = front.headD 0 := by
    cases hfront : front with
    | nil => exact absurd h.front (by rw [hfront]; decide)
    | cons b f => rw [h.eq, hfront]; rfl
  have htake : d.take 4 = front.take 4 := by
    rw [← h.take_front, take_take]
    rfl
  have hdrop : (d.drop 4).take 4 = (front.drop 4).take 4 := by
    rw [← h.take_front, drop_take, take_take]
    rfl
  rw [badPrefix, badPrefix, hhead, htake, hdrop]

lemma xorFrom_eq (h : Parts d front mid tail) (ks : Nat → UInt8) :
    Parts (xorFrom ks 0 d) (xorFrom ks 0 front) (xorFrom ks 8 mid) (xorFrom ks 56 tail) := by
  refine ⟨?_, ?_, ?_, ?_⟩
  · rw [h.eq, xorFrom_append, xorFrom_append, length_append, h.front, h.mid]
  · rw [length_xorFrom, h.front]
  · rw [length_xorFrom, h.mid]
  · rw [length_xorFrom, h.tail]

lemma overwrite_eq (h : Parts d front mid tail) {mid' : Str} (hmid : mid'.length = 48) :
    Parts (overwrite (overwrite d 8 (mid'.take 32)) 40 (mid'.drop 32)) front mid' tail := by
  have hkey : (mid'.take 32).length = 32 := by
    rw [length_take]
    omega
  have hiv : (mid'.drop 32).length = 16 := by rw [length_drop, hmid]
  have hrest : d.drop (8 + 32) = mid.drop 32 ++ tail := by
    rw [← drop_drop, h.drop_front, drop_append_of_le_length (by rw [h.mid]; decide)]
  have hfirst : overwrite d 8 (mid'.take 32) =
      (front ++ mid'.take 32) ++ (mid.drop 32 ++ tail) := by
    rw [overwrite, hkey, h.take_front, hrest]
  have hlen : (front ++ mid'.take 32).length = 40 := by rw [length_append, h.front, hkey]
  have hold : (mid.drop 32).length = 16 := by rw [length_drop, h.mid]
  refine ⟨?_, h.front, hmid, h.tail⟩
  rw [overwrite, hfirst, hiv, take_left' hlen, ← drop_drop, drop_left' hlen,
    drop_left' hold, append_assoc front, take_append_drop]

lemma stamp_eq (h : Parts d front mid tail) (dc : Int) : Parts (stamp d dc) front mid
    (hfConnectionType ++ (putBE 2 (dc % 2 ^ 16).toNat).reverse ++ tail.drop 6) := by
  have hfm : (front ++ mid).length = 56 := by rw [length_append, h.front, h.mid]
  have htype : overwrite d 56 hfConnectionType =
      front ++ mid ++ hfConnectionType ++ tail.drop 4 := by
    have hdrop : d.drop (56 + hfConnectionType.length) = tail.drop 4 := h.drop_connType
    rw [overwrite, hdrop, h.eq, take_left' hfm]
  have hfmt : (front ++ mid ++ hfConnectionType).length = 60 := by
    rw [length_append, hfm]
    rfl
  have htail : (tail.drop 4).drop 2 = tail.drop 6 := by rw [drop_drop]
  have hdc : (putBE 2 (dc % 2 ^ 16).toNat).reverse.length = 2 := by
    rw [length_reverse, length_putBE]
  refine ⟨?_, h.front, h.mid, ?_⟩
  · rw [stamp, overwrite, htype, take_left' hfmt, hdc, ← drop_drop, drop_left' hfmt, htail]
    simp only [append_assoc]
  · rw [length_append, length_append, hdc, length_drop, h.tail]
    rfl

end Parts

/-! ### Both ends -/

def sentFront (cr : Crypto) (secret d : Str) : Str :=
  xorFrom (cr.keystream (deriveCipher cr d secret).key (deriveCipher cr d secret).iv) 0 (d.take 8)

def Streams.swap (c : Streams) : Streams := ⟨c.send, c.recv⟩

section
variable (cr : Crypto) (secret : Str) {d front mid tail : Str}

/-- What is sent of a frame: only the key and the iv are not encrypted. -/
lemma parts_sendFrame (h : Parts d front mid tail) :
    ∃ ks : Nat → UInt8, sentFront cr secret d = xorFrom ks 0 front ∧
      (∀ p, ((deriveCipher cr d secret).xorKeyStream cr p).1 = xorFrom ks 0 p) ∧
      Parts (sendFrame cr secret d).1 (xorFrom ks 0 front) mid (xorFrom ks 56 tail) := by
  refine ⟨_, by rw [sentFront, h.take_front], fun _ => rfl, ?_⟩
  rw [sendFrame]
  dsimp only
  rw [h.frameKey_eq, h.frameIV_eq]
  exact (h.revert_eq.xorFrom_eq _).overwrite_eq h.mid

/-- **The frame at the server**: it is taken for a probe by the bytes that were sent,
and else the streams are those of the client. -/
lemma acceptFrame_sendFrame (h : Parts d front mid tail) (htype : tail.take 4 = hfConnectionType) :
    (badPrefix (sentFront cr secret d) = true →
      acceptFrame cr secret (sendFrame cr secret d).1 = .error errProbeDetected) ∧
    (badPrefix (sentFront cr secret d) = false → acceptFrame cr secret (sendFrame cr secret d).1 =
        .ok ((sendFrame cr secret d).2.swap, frameDC d)) := by
  obtain ⟨ks, hfront, hks, hwire⟩ := parts_sendFrame cr secret h
  rw [hfront, acceptFrame, hwire.badPrefix_eq]
  refine ⟨fun hbad => if_pos hbad, fun hgood => ?_⟩
  have hderive : deriveCipher cr (sendFrame cr secret d).1 secret = deriveCipher cr d secret :=
    h.deriveCipher_eq hwire
  have hreverse : deriveCipher cr (revert (sendFrame cr secret d).1) secret =
      deriveCipher cr (revert d) secret := h.revert_eq.deriveCipher_eq hwire.revert_eq
  -- the tail is decrypted at the place where it was encrypted
  have hplain : Parts (xorFrom ks 0 (revert (sendFrame cr secret d).1)) front
      (xorFrom ks 8 mid.reverse) tail := by
    have hparts := hwire.revert_eq.xorFrom_eq ks
    rwa [xorFrom_xorFrom, xorFrom_xorFrom] at hparts
  have hconn : frameConnType (xorFrom ks 0 (revert (sendFrame cr secret d).1)) =
      hfConnectionType := by rw [hplain.frameConnType_eq, htype]
  have hdc : frameDC (xorFrom ks 0 (revert (sendFrame cr secret d).1)) = frameDC d := by
    rw [frameDC, frameDC, hplain.drop_connType, h.drop_connType]
  have hpos : (revert (sendFrame cr secret d).1).length = (revert d).length := by
    have hlen : ∀ {d front mid tail}, Parts d front mid tail → d.length = 64 := fun h => by
      rw [h.eq, length_append, length_append, h.front, h.mid, h.tail]
    rw [hlen hwire.revert_eq, hlen h.revert_eq]
  have hserver : (⟨((deriveCipher cr d secret).xorKeyStream cr
      (revert (sendFrame cr secret d).1)).2, deriveCipher cr (revert d) secret⟩ : Streams) =
      (sendFrame cr secret d).2.swap := by
    rw [CipherStream.xorKeyStream, hpos]
    rfl
  rw [if_neg (by rw [hgood]; exact Bool.false_ne_true), hderive, hreverse]
  dsimp only
  rw [hserver, hks, hconn, if_neg (not_not.mpr rfl), hdc]

end

lemma generateRounds_ok {draw : Nat → HandshakeFrame} {dc : Int} {frame : Str} (rounds i : Nat)
    (h : generateRounds draw dc rounds i = .ok frame) : ∃ j, frame = stamp (draw j).data dc := by
  induction rounds generalizing i with
  | zero => cases h
  | succ rounds ih =>
    rw [generateRounds] at h
    split_ifs at h
    · exact ih (i + 1) h
    · exact ⟨i, (Except.ok.inj h).symm⟩

lemma frameDC_stamp {draw : HandshakeFrame} {dc : Nat} (hdc : 1 ≤ dc ∧ dc ≤ 32767) :
    frameDC (stamp draw.data dc) = dc := by
  obtain ⟨front, mid, tail, h⟩ := exists_parts draw.length_data
  have hmod : ((dc : Int) % 2 ^ 16).toNat = dc := by omega
  have hlen : hfConnectionType.length = 4 := rfl
  have hput : (putBE 2 dc).reverse.length = 2 := by rw [length_reverse, length_putBE]
  rw [frameDC, (h.stamp_eq dc).drop_connType, hmod, append_assoc, drop_left' hlen,
    take_left' hput, reverse_reverse, beNat_putBE, Nat.mod_eq_of_lt (by omega)]
  rw [if_neg (by omega), if_pos (by omega)]

/-- **The ends agree**: the frame that is sent is accepted, however the carrier brings
it, with the index of the data centre, and what one end writes from then on, the other
one reads. -/
def Agrees (cr : Crypto) (draw : Nat → HandshakeFrame) (secret : Str) (dc : Nat) : Prop :=
  ∃ wire client server, sendObfuscatedHandshake cr draw secret dc = .ok (wire, client) ∧
    (∀ {σ : Type} [LawfulReader σ] {t : σ} {rest : Str} {e : Error}, source t = ⟨wire ++ rest, e⟩ →
        ∃ t', Runs (readObfuscatedHandshake cr secret) t (.ok (server, dc)) t' ∧
          source t' = ⟨rest, e⟩) ∧
    Decrypts cr client.send server.recv ∧ Decrypts cr server.send client.recv

lemma runs_readObfuscatedHandshake (cr : Crypto) (secret : Str) {wire : Str}
    (hwire : wire.length = 64) {σ : Type} [LawfulReader σ] {t : σ} {rest : Str} {e : Error}
    (ht : source t = ⟨wire ++ rest, e⟩) :
    ∃ t', Runs (readObfuscatedHandshake cr secret) t (acceptFrame cr secret wire) t' ∧
      source t' = ⟨rest, e⟩ := by
  obtain ⟨t', hread, ht'⟩ := exists_runs_readFull ht
  rw [hwire] at hread
  exact ⟨t', hread.bind runs_lift, ht'⟩

section
variable {cr : Crypto} {draw : Nat → HandshakeFrame} {secret frame : Str} {dc : Nat}

/-- What the client sends of a frame that it has drawn, and what the server makes of
it. -/
lemma sent_and_accepted (cr : Crypto) (secret : Str)
    (hframe : generateHandshake draw dc = .ok frame) :
    sendObfuscatedHandshake cr draw secret dc = .ok (sendFrame cr secret frame) ∧
      (sendFrame cr secret frame).1.length = 64 ∧ (badPrefix (sentFront cr secret frame) = true →
        acceptFrame cr secret (sendFrame cr secret frame).1 = .error errProbeDetected) ∧
      (badPrefix (sentFront cr secret frame) = false →
        acceptFrame cr secret (sendFrame cr secret frame).1 =
          .ok ((sendFrame cr secret frame).2.swap, frameDC frame)) := by
  have hsend : sendObfuscatedHandshake cr draw secret dc = .ok (sendFrame cr secret frame) := by
    rw [sendObfuscatedHandshake, hframe]
    rfl
  obtain ⟨j, rfl⟩ := generateRounds_ok 64 0 hframe
  obtain ⟨front, mid, tail, h⟩ := exists_parts (draw j).length_data
  obtain ⟨ks, -, -, hwire⟩ := parts_sendFrame cr secret (h.stamp_eq dc)
  refine ⟨hsend, ?_, acceptFrame_sendFrame cr secret (h.stamp_eq dc) rfl⟩
  rw [hwire.eq, length_append, length_append, hwire.front, hwire.mid, hwire.tail]

lemma agrees_of_good (hdc : 1 ≤ dc ∧ dc ≤ 32767) (hframe : generateHandshake draw dc = .ok frame)
    (hgood : badPrefix (sentFront cr secret frame) = false) : Agrees cr draw secret dc := by
  obtain ⟨hsend, hlen, -, haccept⟩ := sent_and_accepted cr secret hframe
  obtain ⟨j, rfl⟩ := generateRounds_ok 64 0 hframe
  refine ⟨_, _, (sendFrame cr secret _).2.swap, hsend, fun {σ _ t rest e} ht => ?_,
    decrypts_self cr _, decrypts_self cr _⟩
  obtain ⟨t', hrun, ht'⟩ := runs_readObfuscatedHandshake cr secret hlen ht
  rw [haccept hgood, frameDC_stamp hdc] at hrun
  exact ⟨t', hrun, ht'⟩

lemma not_agrees_of_bad (hframe : generateHandshake draw dc = .ok frame)
    (hbad : badPrefix (sentFront cr secret frame) = true) : ¬ Agrees cr draw secret dc := by
  obtain ⟨hsend, hlen, hreject, -⟩ := sent_and_accepted cr secret hframe
  rintro ⟨wire, client, server, hsent, hread, -⟩
  rw [hsend] at hsent
  obtain ⟨rfl, -⟩ := Prod.mk.inj (Except.ok.inj hsent)
  have hsource : source (⟨(sendFrame cr secret frame).1 ++ [], .eof⟩ : Source) =
      ⟨(sendFrame cr secret frame).1 ++ [], .eof⟩ := rfl
  obtain ⟨t', hrun, -⟩ := hread hsource
  obtain ⟨t'', hfail, -⟩ := runs_readObfuscatedHandshake cr secret hlen hsource
  rw [hreject hbad] at hfail
  cases hrun.1.symm.trans hfail.1

end

/-- **MTProto handshakes** agree, for a frame that the client has drawn, exactly if its
first bytes do not look like another protocol once they are encrypted. -/
theorem handshake_agrees_iff (cr : Crypto) (draw : Nat → HandshakeFrame) (secret : Str) (dc : Nat)
    (frame : Str) (hdc : 1 ≤ dc ∧ dc ≤ 32767) (hframe : generateHandshake draw dc = .ok frame) :
    Agrees cr draw secret dc ↔ badPrefix (sentFront cr secret frame) = false := by
  constructor
  · intro hagrees
    by_contra hbad
    rw [Bool.not_eq_false] at hbad
    exact not_agrees_of_bad hframe hbad hagrees
  · exact agrees_of_good hdc hframe

def constCrypto (b : UInt8) : Crypto := ⟨id, fun _ _ _ => b⟩

def countFrame : HandshakeFrame := ⟨(List.range 64).map fun i => UInt8.ofNat (i + 1), by simp⟩

theorem handshake_agrees_countFrame :
    Agrees (constCrypto 0) (fun _ => countFrame) (List.replicate 16 5) 2 := by
  have hframe : generateHandshake (fun _ => countFrame) (2 : Nat) =
      .ok (stamp countFrame.data 2) := by rfl
  have hgood : badPrefix (sentFront (constCrypto 0) (List.replicate 16 5)
      (stamp countFrame.data 2)) = false := by decide +kernel
  exact (handshake_agrees_iff _ _ _ 2 _ (by decide) hframe).mpr hgood

/-- The first byte is `0x01` when it is drawn and `0xef` when it is sent. -/
theorem handshake_rejected_countFrame :
    generateHandshake (fun _ => countFrame) (2 : Nat) = .ok (stamp countFrame.data 2) ∧
      ¬ Agrees (constCrypto 0xee) (fun _ => countFrame) (List.replicate 16 5) 2 := by
  have hframe : generateHandshake (fun _ => countFrame) (2 : Nat) =
      .ok (stamp countFrame.data 2) := by rfl
  have hbad : badPrefix (sentFront (constCrypto 0xee) (List.replicate 16 5)
      (stamp countFrame.data 2)) = true := by decide +kernel
  exact ⟨hframe, not_agrees_of_bad hframe hbad⟩

end Ntr.Proto.Mtproto
