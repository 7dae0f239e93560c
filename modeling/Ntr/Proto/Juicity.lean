/-
The UDP frames of Juicity (`outbound/juicity/proto.go`): an address, a length and a payload.

* `runs_readUDPFrame`: the reader stands behind the frame, whatever the buffer holds;
* `tracks_iff`: frames that follow each other are read with their addresses exactly when no
  address has a zone.
-/
import Ntr.Proto.Host

namespace Ntr.Proto.Juicity

open Go Lib Lib.FailState Reader List

def errBadAddr : Str := lit "juicity: 无效地址"

def appendAddr (b : Str) (a : Socksaddr) : Except Error Str :=
  if a.isFqdn then
    if 255 < a.fqdn.length then
      .error (.text (errBadAddr ++ lit ": 域名过长(" ++ itoa a.fqdn.length ++ lit ")"))
    else .ok (b ++ [3, UInt8.ofNat a.fqdn.length] ++ a.fqdn ++ putBE 2 a.port.toNat)
  else
    match a.addr.unmap with
    | .v4 ip => .ok (b ++ [1] ++ putBE 4 ip.toNat ++ putBE 2 a.port.toNat)
    | .v6 ip _ => .ok (b ++ [4] ++ putBE 16 ip.toNat ++ putBE 2 a.port.toNat)
    | .zero => .error (.text errBadAddr)

def appendUDPFrame (b : Str) (a : Socksaddr) (payload : Str) : Except Error Str := do
  if 0xffff < payload.length then
    .error (.text (lit "juicity: UDP 负载过长(" ++ itoa payload.length ++ lit ")"))
  else do
    let b ← appendAddr b a
    pure (b ++ putBE 2 payload.length ++ payload)

section
variable {σ : Type} [Reader σ]

/-- The last two bytes are the port. -/
def withPort (n : Nat) (host : Str → Addr × Str) : FailState Error σ Socksaddr := do
  let b ← readFull (n + 2)
  pure ⟨(host (b.take n)).1, (host (b.take n)).2, uint16 (b.drop n)⟩

def readAddr : FailState Error σ Socksaddr := do
  let t ← readFull 1
  if t = [1] then withPort 4 fun b => (addrFrom4 b, [])
  else if t = [4] then withPort 16 fun b => (addrFrom16 b, [])
  else if t = [3] then do
    let l ← readFull 1
    let a ← withPort (l.headD 0).toNat fun b => (.zero, b)
    if l = [0] then throw (.text (errBadAddr ++ lit ": 空域名")) else pure a
  else throw (.text (errBadAddr ++ lit ": atyp=0x" ++ Addr.hexText (t.headD 0).toNat))

/-- `readUDPFrame` into a buffer of `p` bytes: the address and the bytes in the buffer.
`io.CopyN` discards the rest. -/
def readUDPFrame (p : Nat) : FailState Error σ (Socksaddr × Str) := do
  let a ← readAddr
  let l ← readFull 2
  let n := (uint16 l).toNat
  if n ≤ p then do
    let d ← readFull n
    pure (a, d)
  else do
    let d ← readFull p
    let _ ← mapErr (fun e => if e = .unexpectedEOF then .eof else e) (readFull (n - p))
    pure (a, d)

end

/-! ### Frames that follow each other -/

structure Packet where
  addr : Socksaddr
  payload : Str

def appendFrames : Str → List Packet → Except Error Str
  | b, [] => .ok b
  | b, x :: xs => do
    let b ← appendUDPFrame b x.addr x.payload
    appendFrames b xs

/-- The destination in one form: a domain alone, or an address with IPv4 as such. -/
def normal (a : Socksaddr) : Socksaddr :=
  if a.isFqdn then .fromFqdn a.fqdn a.port else ⟨a.addr.unmap, [], a.port⟩

/-- **The reader keeps to the frames**: each call returns the address of the next datagram and
what fits its buffer, and leaves the stream at the start of the frame behind it. -/
def Tracks : List Packet → List Nat → Source → Prop
  | x :: xs, p :: ps, s => ∃ frame rest, appendUDPFrame [] x.addr x.payload = .ok frame ∧
      s.bytes = frame ++ rest ∧
      Runs (readUDPFrame p) s (.ok (normal x.addr, x.payload.take p)) { s with bytes := rest } ∧
      Tracks xs ps { s with bytes := rest }
  | _, _, _ => True

/-- The address has no zone; that of an IPv4 address inside IPv6 does not count. -/
def Zoneless (a : Socksaddr) : Prop :=
  a.isFqdn = true ∨ ∀ ip zone, a.addr.unmap = .v6 ip zone → zone = []

/-- The destination as it is on the wire. -/
def onWire (a : Socksaddr) : Socksaddr :=
  if a.isFqdn then .fromFqdn a.fqdn a.port else ⟨wireAddr a.addr.unmap, [], a.port⟩

variable {a : Socksaddr} {payload : Str} {s : Source} {rest : Str}

lemma runs_withPort {n : Nat} (f : Str → Addr × Str) {b : Str} {port : UInt16}
    (hb : b.length = n) (h : s.bytes = b ++ putBE 2 port.toNat ++ rest) :
    Runs (withPort n f) s (.ok ⟨(f b).1, (f b).2, port⟩) { s with bytes := rest } := by
  have hread := runs_readFull h
  rw [length_append, length_putBE, hb] at hread
  rw [withPort]
  refine hread.bind ?_
  rw [List.take_left' hb, List.drop_left' hb, uint16_putBE]
  exact runs_pure

lemma runs_readOne {t : UInt8} (h : s.bytes = t :: rest) :
    Runs (Reader.readFull 1) s (.ok [t]) { s with bytes := rest } :=
  Reader.runs_readFull (a := [t]) h

/-- **What the reader makes of an address.** -/
lemma runs_readAddr {e : Str} (he : appendAddr [] a = .ok e) (h : s.bytes = e ++ rest) :
    Runs readAddr s (.ok (onWire a)) { s with bytes := rest } := by
  rw [appendAddr] at he
  rw [onWire, readAddr]
  split_ifs at he ⊢ with hdom hlong
  · have hlen : 0 < a.fqdn.length := by
      rw [Socksaddr.isFqdn, Bool.not_eq_true', isEmpty_eq_false_iff] at hdom
      exact length_pos_iff.mpr hdom
    have hbyte : (UInt8.ofNat a.fqdn.length).toNat = a.fqdn.length := by
      rw [UInt8.toNat_ofNat', Nat.mod_eq_of_lt (by omega)]
    have hzero : [UInt8.ofNat a.fqdn.length] ≠ [0] := by
      intro hz
      rw [(List.cons.inj hz).1, UInt8.toNat_zero] at hbyte
      omega
    have hb : s.bytes = 3 :: UInt8.ofNat a.fqdn.length ::
        (a.fqdn ++ putBE 2 a.port.toNat ++ rest) := by
      rw [h, ← Except.ok.inj he]
      simp
    refine (runs_readOne hb).bind ?_
    rw [if_neg (by decide), if_neg (by decide), if_pos rfl]
    refine (runs_readOne (t := UInt8.ofNat a.fqdn.length) rfl).bind
      ((runs_withPort (fun b => (.zero, b)) hbyte.symm rfl).bind ?_)
    rw [if_neg hzero]
    exact runs_pure
  · cases haddr : a.addr.unmap with
    | zero => rw [haddr] at he; cases he
    | v4 ip =>
      have hb : s.bytes = 1 :: (putBE 4 ip.toNat ++ putBE 2 a.port.toNat ++ rest) := by
        rw [haddr] at he
        rw [h, ← Except.ok.inj he]
        simp
      refine (runs_readOne hb).bind ?_
      rw [if_pos rfl, wireAddr, ← addrFrom4_putBE]
      exact runs_withPort (fun b => (addrFrom4 b, [])) (length_putBE _ _) rfl
    | v6 ip zone =>
      have hb : s.bytes = 4 :: (putBE 16 ip.toNat ++ putBE 2 a.port.toNat ++ rest) := by
        rw [haddr] at he
        rw [h, ← Except.ok.inj he]
        simp
      refine (runs_readOne hb).bind ?_
      rw [if_neg (by decide), if_pos rfl, wireAddr, ← addrFrom16_putBE]
      exact runs_withPort (fun b => (addrFrom16 b, [])) (length_putBE _ _) rfl

/-- **What the reader makes of a frame**: it stands behind it, whatever the buffer holds. -/
lemma runs_readUDPFrame {frame : Str} (hf : appendUDPFrame [] a payload = .ok frame)
    (h : s.bytes = frame ++ rest) (p : Nat) :
    Runs (readUDPFrame p) s (.ok (onWire a, payload.take p)) { s with bytes := rest } := by
  rw [appendUDPFrame] at hf
  split_ifs at hf with hlong
  obtain ⟨e, he, hok⟩ := bind_eq_ok.mp hf
  obtain rfl := Except.ok.inj hok
  rw [append_assoc, append_assoc] at h
  have hlen : (uint16 (putBE 2 payload.length)).toNat = payload.length := by
    rw [uint16, UInt16.toNat_ofNat', beNat_putBE]
    omega
  have hl := runs_readFull (a := putBE 2 payload.length)
    (s := { s with bytes := putBE 2 payload.length ++ (payload ++ rest) }) rfl
  rw [length_putBE] at hl
  rw [readUDPFrame]
  refine (runs_readAddr he h).bind (hl.bind ?_)
  dsimp only
  rw [hlen]
  split_ifs with hfits
  · rw [List.take_of_length_le hfits]
    exact (Reader.runs_readFull rfl).bind runs_pure
  · have hcut : payload ++ rest = payload.take p ++ (payload.drop p ++ rest) := by
      rw [← List.append_assoc, List.take_append_drop]
    have hhead := Reader.runs_readFull (s := { s with bytes := payload ++ rest }) hcut
    have htail := Reader.runs_readFull (a := payload.drop p)
      (s := { s with bytes := payload.drop p ++ rest }) rfl
    rw [List.length_take_of_le (by omega)] at hhead
    rw [length_drop] at htail
    exact hhead.bind (htail.mapErr_ok.bind runs_pure)

lemma onWire_eq_normal_iff {e : Str} (h : appendAddr [] a = .ok e) :
    onWire a = normal a ↔ Zoneless a := by
  rw [onWire, normal, Zoneless]
  rw [appendAddr] at h
  split_ifs at h ⊢ with hdom
  · exact iff_of_true rfl (.inl hdom)
  · rw [or_iff_right hdom]
    cases haddr : a.addr.unmap with
    | zero => rw [haddr] at h; cases h
    | v4 ip => simp [wireAddr]
    | v6 ip zone => simp [wireAddr, eq_comm]

/-! ### One frame behind the other -/

lemma appendAddr_eq (b : Str) : appendAddr b a = (appendAddr [] a).map (b ++ ·) := by
  rw [appendAddr, appendAddr]
  split_ifs
  · rfl
  · simp [Except.map]
  · cases a.addr.unmap <;> simp [Except.map]

lemma appendUDPFrame_eq (b : Str) :
    appendUDPFrame b a payload = (appendUDPFrame [] a payload).map (b ++ ·) := by
  rw [appendUDPFrame, appendUDPFrame]
  split_ifs
  · rfl
  · rw [appendAddr_eq]
    cases appendAddr [] a with
    | error err => rfl
    | ok e => exact congrArg Except.ok (by simp)

lemma appendFrames_eq (xs : List Packet) (b : Str) :
    appendFrames b xs = (appendFrames [] xs).map (b ++ ·) := by
  induction xs generalizing b with
  | nil => exact congrArg Except.ok (append_nil b).symm
  | cons x xs ih =>
    rw [appendFrames, appendFrames, appendUDPFrame_eq]
    cases appendUDPFrame [] x.addr x.payload with
    | error err => rfl
    | ok frame =>
      change appendFrames (b ++ frame) xs = (appendFrames frame xs).map _
      rw [ih, ih frame]
      cases appendFrames [] xs with
      | error err => rfl
      | ok e => exact congrArg Except.ok (append_assoc _ _ _)

/-- **The reader keeps to the frames**, for any buffers and whatever follows, exactly when no
address has a zone. -/
theorem tracks_iff (xs : List Packet) (ps : List Nat) (hlen : ps.length = xs.length)
    (bytes : Str) (h : appendFrames [] xs = .ok bytes) (rest : Str) (err : Error) :
    Tracks xs ps ⟨bytes ++ rest, err⟩ ↔ ∀ x ∈ xs, Zoneless x.addr := by
  induction xs generalizing ps bytes with
  | nil => exact iff_of_true trivial fun x hx => absurd hx not_mem_nil
  | cons x xs ih =>
    obtain ⟨p, ps, rfl⟩ := exists_cons_of_length_eq_add_one hlen
    rw [appendFrames] at h
    obtain ⟨frame, hframe, h⟩ := bind_eq_ok.mp h
    rw [appendFrames_eq] at h
    obtain ⟨tail, htail, hok⟩ := map_eq_ok.mp h
    obtain rfl := hok
    have hbytes : frame ++ tail ++ rest = frame ++ (tail ++ rest) := append_assoc _ _ _
    have hruns := runs_readUDPFrame (s := ⟨frame ++ tail ++ rest, err⟩) hframe hbytes p
    obtain ⟨e, he⟩ : ∃ e, appendAddr [] x.addr = .ok e := by
      rw [appendUDPFrame] at hframe
      split_ifs at hframe
      obtain ⟨e, he, -⟩ := bind_eq_ok.mp hframe
      exact ⟨e, he⟩
    rw [forall_mem_cons, ← onWire_eq_normal_iff he, ← ih ps (Nat.succ.inj hlen) tail htail, Tracks]
    constructor
    · rintro ⟨frame', rest', hframe', hsplit, hread, hrest⟩
      obtain rfl := Except.ok.inj (hframe.symm.trans hframe')
      obtain rfl : tail ++ rest = rest' := by
        rw [hbytes] at hsplit
        exact append_cancel_left hsplit
      have hnormal := Except.ok.inj (hruns.1.symm.trans hread.1)
      exact ⟨congrArg Prod.fst hnormal, hrest⟩
    · rintro ⟨hnormal, hrest⟩
      rw [hnormal] at hruns
      exact ⟨frame, tail ++ rest, hframe, hbytes, hruns, hrest⟩

/-- A datagram to `1.1.1.1:53`, read into a buffer of one byte. -/
theorem tracks_short_buffer : Tracks [⟨⟨.v4 0x01010101, [], 53⟩, [7, 8]⟩] [1]
    ⟨[1, 1, 1, 1, 1, 0, 53, 0, 2, 7, 8] ++ [], .eof⟩ :=
  (tracks_iff [⟨⟨.v4 0x01010101, [], 53⟩, [7, 8]⟩] [1] rfl _ (by decide +kernel) [] .eof).mpr (by
    intro x hx
    rw [mem_singleton.mp hx]
    exact .inr fun ip zone h => (by cases h))

/-- `fe80::1%eth0`, port 53. -/
def linkLocal : Socksaddr := ⟨.v6 0xFE800000000000000000000000000001 (lit "eth0"), [], 53⟩

/-- **A zone is lost**: the frame is built, and read with another address. -/
theorem zone_not_tracked : ∃ bytes, appendFrames [] [⟨linkLocal, [7]⟩] = .ok bytes ∧
    ¬ Tracks [⟨linkLocal, [7]⟩] [9] ⟨bytes, .eof⟩ := by
  refine ⟨_, rfl, ?_⟩
  rintro ⟨frame, rest, -, -, hread, -⟩
  have hout := hread.1
  revert hout
  decide +kernel

end Ntr.Proto.Juicity
