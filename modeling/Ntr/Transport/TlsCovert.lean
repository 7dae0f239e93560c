/-
The covert channel in a mirrored TLS stream (`transport/tlsmirror/conn.go`,
`crypto.go`, `padding.go`). `Write` seals its bytes into application data records, each
under the next nonce, and queues them among the genuine records; the other end tries
to open every application data record, and takes out those that open.

* `Sender.step`: genuine records, calls of `Write` and the insertion of their pieces,
  which the queue takes or which fail on the write deadline, in any order;
* `Writer.put`, `Receiver.take`: the records on their way, with explicit nonces and
  the sequence watermark;
* `covert_reliable_iff`: the channel is reliable exactly as long as no insertion fails
  before one that succeeds (and none comes behind the end of the mirror). A piece that
  fails has used up its nonce.
-/
import Ntr.Lib.Runs
import Ntr.Transport.TlsRecord

namespace Ntr.Transport.TlsMirror

open Go List

/-! ### Padding -/

def packPadding (data : Str) (paddingLength : Nat) : Str :=
  data ++ List.replicate paddingLength 0 ++ putBE 4 data.length

def unpackPadding (data : Str) : Option Str :=
  if data.length < 4 then none
  else if data.length - 4 < beNat (data.drop (data.length - 4)) then none
  else some (data.take (beNat (data.drop (data.length - 4))))

lemma unpackPadding_packPadding {data : Str} (h : data.length < 256 ^ 4) (n : Nat) :
    unpackPadding (packPadding data n) = some data := by
  have hlen : (packPadding data n).length = data.length + n + 4 := by
    simp only [packPadding, length_append, length_replicate, length_putBE]
  have hdrop : (packPadding data n).drop (data.length + n + 4 - 4) = putBE 4 data.length := by
    have hfront : (data ++ List.replicate n 0).length = data.length + n := by simp
    rw [packPadding, Nat.add_sub_cancel, ← hfront, drop_left]
  rw [unpackPadding, hlen, if_neg (by omega), hdrop, beNat_putBE, Nat.mod_eq_of_lt h,
    if_neg (by omega), packPadding, append_assoc, take_left]

/-! ### Seals and watermarks -/

/-- The seals of one direction: `Open` succeeds exactly on what was sealed under the
same nonce. -/
structure Aead where
  sealWith : BitVec 64 → Str → Str
  openWith : BitVec 64 → Str → Option Str
  length_sealWith : ∀ n p, (sealWith n p).length = p.length + 16
  open_sealWith : ∀ n p, openWith n (sealWith n p) = some p
  open_ne : ∀ {m n : BitVec 64} (p : Str), m ≠ n → openWith m (sealWith n p) = none

/-- What belongs to one direction: the keys, the keystream of the watermark in blocks
of `16` bytes, the explicit nonces that the inserted records get one after the other
(the generator of `s2c` is moved on by the records of `c2s` too, so they are any), and
the features, on which both ends agree. -/
structure Kit where
  aead : Aead
  keystream : Nat → Str
  length_keystream : ∀ i, (keystream i).length = 16
  explicitNonce : Nat → Str
  length_explicitNonce : ∀ i, (explicitNonce i).length = 8
  version : UInt8 × UInt8
  padding : Bool
  watermark : Bool
  tls12Explicit : Bool

namespace Kit

variable (k : Kit)

/-- `explicitNonceOverhead`. -/
def overhead : Nat := if k.tls12Explicit then 8 else 0

/-- The longest piece of a `Write`. -/
def maxPlaintext : Nat :=
  maxTLSRecordPayload - k.overhead - 16 - (if k.padding then 4 else 0)

lemma maxPlaintext_pos : 0 < k.maxPlaintext := by
  rw [maxPlaintext, overhead, maxTLSRecordPayload]
  split_ifs <;> omega

/-- A piece of a `Write` as it is sealed. -/
def pack (piece : Str) : Str := if k.padding then packPadding piece 0 else piece

/-- What `handleInboundRecord` takes out of an opened record. -/
def unpack (payload : Str) : List Str :=
  if k.padding then (unpackPadding payload).toList else [payload]

def sealPiece (nonce : BitVec 64) (piece : Str) : Record :=
  ⟨recordTypeApplicationData, k.version,
    List.replicate k.overhead 0 ++ k.aead.sealWith nonce (k.pack piece), true⟩

variable {k} {piece : Str}

lemma unpack_pack (h : piece.length ≤ k.maxPlaintext) : k.unpack (k.pack piece) = [piece] := by
  have hmax : k.maxPlaintext ≤ 16384 := by
    rw [maxPlaintext, maxTLSRecordPayload]
    omega
  rw [unpack, pack]
  split_ifs
  · rw [unpackPadding_packPadding (by omega), Option.toList_some]
  · rfl

lemma length_sealPiece (nonce : BitVec 64) (h : piece.length ≤ k.maxPlaintext) :
    (k.sealPiece nonce piece).fragment.length ≤ maxTLSRecordPayload := by
  have hpack : (k.pack piece).length = piece.length + if k.padding then 4 else 0 := by
    rw [pack]
    split_ifs
    · simp [packPadding, length_putBE]
    · rfl
  have hover : k.overhead ≤ 8 := by
    rw [overhead]
    split_ifs <;> omega
  simp only [sealPiece, length_append, length_replicate, k.aead.length_sealWith, hpack]
  rw [maxPlaintext, maxTLSRecordPayload] at h
  rw [maxTLSRecordPayload]
  split_ifs at h ⊢ <;> omega

end Kit

/-- `XORKeyStream` on the last sixteen bytes of a fragment. -/
def mark (ks fragment : Str) : Str :=
  fragment.take (fragment.length - 16) ++
    List.zipWith (· ^^^ ·) (fragment.drop (fragment.length - 16)) ks

section
variable {ks fragment : Str}

lemma length_mark (hks : ks.length = 16) (hf : 16 ≤ fragment.length) :
    (mark ks fragment).length = fragment.length := by
  simp only [mark, length_append, length_take, length_zipWith, length_drop, hks]
  omega

lemma zipWith_xor_xor : ∀ a b : Str, a.length = b.length →
    List.zipWith (· ^^^ ·) (List.zipWith (· ^^^ ·) a b) b = a
  | [], [], _ => rfl
  | x :: a, y :: b, h => by
    rw [zipWith_cons_cons, zipWith_cons_cons,
      zipWith_xor_xor a b (Nat.succ.inj h), UInt8.xor_assoc, UInt8.xor_self, UInt8.xor_zero]

lemma mark_mark (hks : ks.length = 16) (hf : 16 ≤ fragment.length) :
    mark ks (mark ks fragment) = fragment := by
  have hlen := length_mark hks hf
  have hhead : (fragment.take (fragment.length - 16)).length = fragment.length - 16 := by
    rw [length_take]
    omega
  have htail : (fragment.drop (fragment.length - 16)).length = ks.length := by
    rw [length_drop, hks]
    omega
  have hsplit : mark ks fragment = fragment.take (fragment.length - 16) ++
      List.zipWith (· ^^^ ·) (fragment.drop (fragment.length - 16)) ks := rfl
  rw [mark, hlen, hsplit, take_left' hhead, drop_left' hhead,
    zipWith_xor_xor _ _ htail, take_append_drop]

end

def Record.carriesMark (r : Record) : Bool :=
  (r.recordType == recordTypeApplicationData || r.recordType == recordTypeAlert) &&
    decide (16 ≤ r.fragment.length)

/-- The watermark at a place of its stream, if it has started, on a record. -/
def applyMark (k : Kit) : Option Nat → Record → Record × Option Nat
  | none, r => (r, none)
  | some i, r =>
    if r.carriesMark then ({ r with fragment := mark (k.keystream i) r.fragment }, some (i + 1))
    else (r, some i)

lemma applyMark_applyMark (k : Kit) (wm : Option Nat) (r : Record) :
    applyMark k wm (applyMark k wm r).1 = (r, (applyMark k wm r).2) := by
  cases wm with
  | none => rfl
  | some i =>
    by_cases hr : r.carriesMark = true
    · have hlen : 16 ≤ r.fragment.length := by
        simp only [Record.carriesMark, Bool.and_eq_true, decide_eq_true_eq] at hr
        exact hr.2
      have hsame : Record.carriesMark { r with fragment := mark (k.keystream i) r.fragment } =
          r.carriesMark := by
        simp only [Record.carriesMark, length_mark (k.length_keystream i) hlen]
      simp only [applyMark, hr, if_true, hsame, mark_mark (k.length_keystream i) hlen]
    · have hid : applyMark k (some i) r = (r, some i) := if_neg hr
      rw [hid, hid]

lemma length_applyMark (k : Kit) (wm : Option Nat) (r : Record) :
    (applyMark k wm r).1.fragment.length = r.fragment.length := by
  cases wm with
  | none => rfl
  | some i =>
    rw [applyMark]
    split_ifs with hr
    · simp only [Record.carriesMark, Bool.and_eq_true, decide_eq_true_eq] at hr
      exact length_mark (k.length_keystream i) hr.2
    · rfl

/-! ### The sending end -/

/-- What the queue of a direction takes: a record, or the rest of the stream to be
copied as it is. -/
inductive Queued where
  | record (r : Record)
  | fallback

/-- The sending `Conn` and its queue. -/
structure Sender where
  /-- the next nonce of the `encryptor` -/
  nonce : BitVec 64 := 0
  /-- the `Write` in progress: what it has queued, and the rest -/
  call : Option (Str × Str) := none
  /-- the bytes that calls of `Write` have returned as written -/
  reported : Str := []
  queue : List Queued := []
  /-- how many insertions have failed -/
  failed : Nat := 0
  /-- the writer is to stop at something that is queued -/
  closed : Bool := false

inductive Act where
  /-- a record of the carrier connection -/
  | genuine (r : Record)
  /-- the carrier connection goes over to plain copying -/
  | fallback
  /-- a call of `Write`, which waits for a call in progress -/
  | write (b : Str)
  /-- the insertion of the next piece: the queue takes it, or the deadline is over -/
  | insert (accepted : Bool)
  deriving DecidableEq

namespace Sender

/-- The insertion in `Write`: the piece is sealed first. -/
def insert (k : Kit) (s : Sender) (accepted : Bool) : Sender :=
  match s.call with
  | none => s
  | some (written, rest) =>
    let piece := rest.take k.maxPlaintext
    if accepted then
      let s := { s with
        nonce := s.nonce + 1
        queue := s.queue ++ [Queued.record (k.sealPiece s.nonce piece)] }
      if rest.drop k.maxPlaintext = [] then
        { s with call := none, reported := s.reported ++ (written ++ piece) }
      else { s with call := some (written ++ piece, rest.drop k.maxPlaintext) }
    else
      { s with
        nonce := s.nonce + 1, call := none, reported := s.reported ++ written,
        failed := s.failed + 1 }

def step (k : Kit) (s : Sender) : Act → Sender
  | .genuine r =>
    { s with
      queue := s.queue ++ [.record r]
      closed := s.closed || r.recordType == recordTypeAlert }
  | .fallback => { s with queue := s.queue ++ [.fallback], closed := true }
  | .write b => if s.call.isSome ∨ b = [] then s else { s with call := some ([], b) }
  | .insert accepted => s.insert k accepted

def run (k : Kit) (acts : List Act) : Sender := acts.foldl (step k) {}

/-- The bytes that are queued, with those of the call in progress. -/
def sent (s : Sender) : Str := s.reported ++ (s.call.map Prod.fst).getD []

end Sender

/-! ### On the way -/

/-- `fillExplicitNonce`, with the number of nonces that have been used. -/
def fillExplicitNonce (k : Kit) (n : Nat) (r : Record) : Record × Nat :=
  if r.inserted = false ∨ r.fragment.length < 8 then (r, n)
  else if k.tls12Explicit = false then (r, n)
  else if r.recordType ≠ recordTypeApplicationData ∧ r.recordType ≠ recordTypeAlert then (r, n)
  else ({ r with fragment := k.explicitNonce n ++ r.fragment.drop 8 }, n + 1)

def handleOutboundRecordTx (k : Kit) (tx : Option Nat) (r : Record) : Record × Option Nat :=
  if k.watermark = false then (r, tx)
  else
    ((applyMark k tx r).1,
      if r.inserted = true ∧ tx = none then some 0 else (applyMark k tx r).2)

/-- The `recordWriter` of the direction, and the records that it has written. -/
structure Writer where
  tx : Option Nat := none
  filled : Nat := 0
  stopped : Bool := false
  wire : List Record := []

/-- `recordWriter` takes a task from the queue. -/
def Writer.put (k : Kit) (w : Writer) (t : Queued) : Writer :=
  if w.stopped then w
  else
    match t with
    | .fallback => { w with stopped := true }
    | .record r =>
      let f := fillExplicitNonce k w.filled r
      let x := handleOutboundRecordTx k w.tx f.1
      match writeRecord x.1 with
      | .error _ => { w with tx := x.2, filled := f.2, stopped := true }
      | .ok _ => ⟨x.2, f.2, x.1.recordType == recordTypeAlert, w.wire ++ [x.1]⟩

def applySequenceWatermarkRx (k : Kit) (rx : Option Nat) (r : Record) : Record × Option Nat :=
  if k.watermark = false then (r, rx) else applyMark k rx r

/-- The receiving `Conn`: the payloads for `Read`, and the records that go on to the
backend. -/
structure Receiver where
  rx : Option Nat := none
  /-- the nonce that is tried next -/
  expected : BitVec 64 := 0
  chunks : List Str := []
  forwarded : List Record := []

/-- The payload of a record that `handleInboundRecord` can open. -/
def tryOpen (k : Kit) (expected : BitVec 64) (r : Record) : Option Str :=
  if r.recordType ≠ recordTypeApplicationData then none
  else if r.fragment.length < k.overhead + 8 then none
  else k.aead.openWith expected (r.fragment.drop k.overhead)

/-- `handleInboundRecord`, and where the record goes. -/
def Receiver.take (k : Kit) (c : Receiver) (r : Record) : Receiver :=
  let x := applySequenceWatermarkRx k c.rx r
  match tryOpen k c.expected x.1 with
  | none => { c with rx := x.2, forwarded := c.forwarded ++ [x.1] }
  | some payload =>
    { c with
      rx := if k.watermark = true ∧ x.2 = none then some 0 else x.2
      expected := c.expected + 1
      chunks := c.chunks ++ k.unpack payload }

def Sender.writer (k : Kit) (s : Sender) : Writer := s.queue.foldl (Writer.put k) {}

def Sender.peer (k : Kit) (s : Sender) : Receiver :=
  (s.writer k).wire.foldl (Receiver.take k) {}

/-! ### Reading -/

/-- The receiving `Conn` as `Read` sees it, on a mirror that is running: what is left
of a payload, and the payloads behind it. -/
structure Hidden where
  readBuffer : Str
  readCh : List Str

def errDeadlineExceeded : Error := .text (lit "i/o timeout")

/-- `Read`, which takes payloads until there is a byte. -/
def Hidden.readFrom (n : Nat) : Str → List Str → Except Error Str × Hidden
  | [], [] => (.error errDeadlineExceeded, ⟨[], []⟩)
  | [], data :: ch => Hidden.readFrom n data ch
  | x :: b, ch => (.ok ((x :: b).take n), ⟨(x :: b).drop n, ch⟩)

def Hidden.bytes (c : Hidden) : Str := c.readBuffer ++ c.readCh.flatten

instance instReaderHidden : Reader Hidden := ⟨fun c n => Hidden.readFrom n c.readBuffer c.readCh⟩

lemma Hidden.readFrom_cases {n : Nat} (hn : 0 < n) (b : Str) (ch : List Str) :
    (b ++ ch.flatten = [] ∧ Hidden.readFrom n b ch = (.error errDeadlineExceeded, ⟨[], []⟩)) ∨
      ∃ d c, Hidden.readFrom n b ch = (.ok d, c) ∧ d ≠ [] ∧ b ++ ch.flatten = d ++ c.bytes := by
  fun_induction Hidden.readFrom n b ch with
  | case1 => exact .inl ⟨rfl, rfl⟩
  | case2 data ch ih =>
    rw [nil_append, flatten_cons]
    exact ih
  | case3 x b ch =>
    refine .inr ⟨_, _, rfl, ?_, ?_⟩
    · rw [Ne, take_eq_nil_iff]
      exact fun hnil => hnil.elim (Nat.ne_of_gt hn) (cons_ne_nil x b)
    · rw [Hidden.bytes, ← append_assoc, take_append_drop]

lemma Hidden.gives_bytes (c : Hidden) : Reader.Gives (Reader.drain c) c.bytes := by
  have hread : ∀ {c : Hidden} {b : Str} {n : Nat}, c.bytes = b → 0 < n →
      (b = [] ∧ ∃ e c', Reader.read c n = (.error e, c')) ∨
        ∃ d c' b', Reader.read c n = (.ok d, c') ∧ d ≠ [] ∧ b = d ++ b' ∧ c'.bytes = b' := by
    rintro c b n rfl hn
    rcases Hidden.readFrom_cases hn c.readBuffer c.readCh with
      ⟨hnil, herr⟩ | ⟨d, c', hok, hd, hbytes⟩
    · exact .inl ⟨hnil, _, _, herr⟩
    · exact .inr ⟨d, c', _, hok, hd, hbytes, rfl⟩
  exact Reader.gives_of_reads hread rfl

/-! ### Reliable channels -/

/-- A record of the carrier: within the bounds of TLS, and no seal of the channel. -/
def Kit.Genuine (k : Kit) (r : Record) : Prop :=
  r.inserted = false ∧ r.fragment.length ≤ maxTLSRecordPayload ∧
    (r.recordType = recordTypeApplicationData →
      ∀ n, k.aead.openWith n (r.fragment.drop k.overhead) = none)

/-- The peer's reads give the bytes that were reported as written, and no inserted
record went on to the backend. -/
def Reliable (k : Kit) (acts : List Act) : Prop :=
  Reader.Gives (Reader.drain (Hidden.mk [] ((Sender.run k acts).peer k).chunks))
      (Sender.run k acts).reported ∧
    ∀ r ∈ ((Sender.run k acts).peer k).forwarded, r.inserted = false

/-- An insertion that succeeds has no failed one before it (but for a whole cycle of
nonces of them), and nothing queued before it that the writer stops at. -/
def InStep (s : Sender) (a : Act) : Prop :=
  a = .insert true → s.call ≠ none → s.failed % 2 ^ 64 = 0 ∧ s.closed = false

instance instDecidableInStep (s : Sender) (a : Act) : Decidable (InStep s a) := by
  unfold InStep
  infer_instance

/-! ### One record on its way -/

section
variable {k : Kit} {w : Writer} {c : Receiver} {r : Record}

lemma Writer.put_stopped (hw : w.stopped = true) (t : Queued) : w.put k t = w := by
  rw [Writer.put.eq_def, if_pos hw]

/-- Both ends of the watermark are at the same place. -/
structure Marked (k : Kit) (w : Writer) (c : Receiver) : Prop where
  same : w.tx = c.rx
  off : k.watermark = false → c.rx = none

lemma handleOutboundRecordTx_fst (h : Marked k w c) :
    (handleOutboundRecordTx k w.tx r).1 = (applyMark k c.rx r).1 := by
  rw [handleOutboundRecordTx, h.same]
  by_cases hoff : k.watermark = false
  · rw [if_pos hoff, h.off hoff, applyMark]
  · rw [if_neg hoff]

/-- The watermark comes off, and its stream moves on by the same step. -/
lemma applySequenceWatermarkRx_applyMark (h : Marked k w c) :
    applySequenceWatermarkRx k c.rx (applyMark k c.rx r).1 = (r, (applyMark k c.rx r).2) := by
  rw [applySequenceWatermarkRx]
  split_ifs with hoff
  · rw [h.off hoff, applyMark]
  · exact applyMark_applyMark k c.rx r

lemma applyMark_fst_recordType (wm : Option Nat) :
    (applyMark k wm r).1.recordType = r.recordType := by
  cases wm with
  | none => rfl
  | some i =>
    rw [applyMark]
    split_ifs <;> rfl

/-- **A record on its way**: what the writer does with it. -/
lemma Writer.put_record (h : Marked k w c) (hw : w.stopped = false)
    (hlen : (fillExplicitNonce k w.filled r).1.fragment.length ≤ maxTLSRecordPayload) :
    w.put k (.record r) = ⟨(handleOutboundRecordTx k w.tx (fillExplicitNonce k w.filled r).1).2,
        (fillExplicitNonce k w.filled r).2,
        (fillExplicitNonce k w.filled r).1.recordType == recordTypeAlert,
        w.wire ++ [(applyMark k c.rx (fillExplicitNonce k w.filled r).1).1]⟩ := by
  have hfits : ∀ x : Record, x.fragment.length ≤ maxTLSRecordPayload →
      writeRecord x = .ok x.bytes := fun x hx => if_neg (Nat.not_lt.mpr hx)
  rw [Writer.put.eq_def, if_neg (by rw [hw]; exact Bool.false_ne_true)]
  simp only [handleOutboundRecordTx_fst h]
  rw [hfits _ (by rwa [length_applyMark])]
  simp only [applyMark_fst_recordType]

/-- **A record at the peer**, behind the watermark. -/
lemma Receiver.take_applyMark (h : Marked k w c) : c.take k (applyMark k c.rx r).1 =
      match tryOpen k c.expected r with
      | none => { c with rx := (applyMark k c.rx r).2, forwarded := c.forwarded ++ [r] }
      | some payload =>
        { c with
          rx := if k.watermark = true ∧ (applyMark k c.rx r).2 = none then some 0
            else (applyMark k c.rx r).2
          expected := c.expected + 1
          chunks := c.chunks ++ k.unpack payload } := by
  rw [Receiver.take]
  simp only [applySequenceWatermarkRx_applyMark h]

/-! ### Genuine and inserted records -/

lemma tryOpen_genuine (hr : k.Genuine r) (n : BitVec 64) : tryOpen k n r = none := by
  rw [tryOpen]
  split_ifs with htype
  · rfl
  · rfl
  · exact hr.2.2 (not_not.mp htype) n

lemma fillExplicitNonce_genuine (hr : k.Genuine r) (n : Nat) :
    fillExplicitNonce k n r = (r, n) := by
  rw [fillExplicitNonce, if_pos (.inl hr.1)]

/-- A genuine record goes through, with both ends at the same place again. -/
lemma genuine_passes (h : Marked k w c) (hw : w.stopped = false) (hr : k.Genuine r) :
    ∃ x, (w.put k (.record r)).wire = w.wire ++ [x] ∧
      (w.put k (.record r)).stopped = (r.recordType == recordTypeAlert) ∧
      Marked k (w.put k (.record r)) (c.take k x) ∧ c.take k x =
        { c with rx := (applyMark k c.rx r).2, forwarded := c.forwarded ++ [r] } := by
  have hfill := fillExplicitNonce_genuine hr w.filled
  have hput := Writer.put_record h hw (by rw [hfill]; exact hr.2.1)
  rw [hfill] at hput
  have htake : c.take k (applyMark k c.rx r).1 =
      { c with rx := (applyMark k c.rx r).2, forwarded := c.forwarded ++ [r] } := by
    rw [Receiver.take_applyMark h, tryOpen_genuine hr]
  refine ⟨(applyMark k c.rx r).1, by rw [hput], by rw [hput], ?_, htake⟩
  rw [hput, htake]
  refine ⟨?_, fun hoff => ?_⟩
  · show (handleOutboundRecordTx k w.tx r).2 = (applyMark k c.rx r).2
    rw [handleOutboundRecordTx, h.same]
    by_cases hoff : k.watermark = false
    · rw [if_pos hoff, h.off hoff, applyMark]
    · rw [if_neg hoff, hr.1, if_neg (fun hins => Bool.false_ne_true hins.1)]
  · show (applyMark k c.rx r).2 = none
    rw [h.off hoff, applyMark]

variable {piece : Str}

lemma fillExplicitNonce_sealPiece (n : Nat) (nonce : BitVec 64) (piece : Str) :
    ∃ front : Str, front.length = k.overhead ∧ (fillExplicitNonce k n (k.sealPiece nonce piece)).1 =
        ⟨recordTypeApplicationData, k.version,
          front ++ k.aead.sealWith nonce (k.pack piece), true⟩ := by
  have hins : ¬ ((k.sealPiece nonce piece).inserted = false ∨
      (k.sealPiece nonce piece).fragment.length < 8) := by
    rw [not_or, Nat.not_lt]
    refine ⟨Bool.noConfusion, ?_⟩
    simp only [Kit.sealPiece, length_append, k.aead.length_sealWith]
    omega
  rw [fillExplicitNonce, if_neg hins]
  by_cases hexp : k.tls12Explicit = false
  · rw [if_pos hexp]
    exact ⟨_, length_replicate, rfl⟩
  · have hover : k.overhead = 8 := by rw [Kit.overhead, if_pos (Bool.not_eq_false _ ▸ hexp)]
    rw [if_neg hexp, if_neg (fun htype => htype.1 rfl)]
    refine ⟨k.explicitNonce n, by rw [k.length_explicitNonce, hover], ?_⟩
    simp [Kit.sealPiece, hover]

lemma tryOpen_front {front sealed : Str} (hfront : front.length = k.overhead)
    (hsealed : 8 ≤ sealed.length) (n : BitVec 64) :
    tryOpen k n ⟨recordTypeApplicationData, k.version, front ++ sealed, true⟩ =
      k.aead.openWith n sealed := by
  rw [tryOpen, if_neg (not_not.mpr rfl), if_neg]
  · rw [← hfront, drop_left]
  · rw [length_append, hfront]
    omega

lemma Marked.start (h : Marked k w c) (hr : r.inserted = true) :
    (handleOutboundRecordTx k w.tx r).2 =
      if k.watermark = true ∧ (applyMark k c.rx r).2 = none then some 0
      else (applyMark k c.rx r).2 := by
  rw [handleOutboundRecordTx, h.same]
  by_cases hoff : k.watermark = false
  · rw [if_pos hoff, h.off hoff, hoff, if_neg (fun hon => Bool.false_ne_true hon.1), applyMark]
  · rw [if_neg hoff]
    have hon : k.watermark = true := Bool.not_eq_false _ ▸ hoff
    cases hrx : c.rx with
    | none => simp [applyMark, hr, hon]
    | some i =>
      have hsome : (applyMark k (some i) r).2 ≠ none := by
        rw [applyMark]
        split_ifs <;> exact Option.some_ne_none _
      rw [if_neg (fun hnone => Option.some_ne_none i hnone.2), if_neg (fun hnone => hsome hnone.2)]

lemma Writer.put_sealPiece (h : Marked k w c) (hw : w.stopped = false)
    (hpiece : piece.length ≤ k.maxPlaintext) (nonce : BitVec 64) :
    ∃ front : Str, front.length = k.overhead ∧ ∃ r : Record,
      r = ⟨recordTypeApplicationData, k.version,
        front ++ k.aead.sealWith nonce (k.pack piece), true⟩ ∧
      (w.put k (.record (k.sealPiece nonce piece))).tx = (handleOutboundRecordTx k w.tx r).2 ∧
      (w.put k (.record (k.sealPiece nonce piece))).stopped = false ∧
      (w.put k (.record (k.sealPiece nonce piece))).wire = w.wire ++ [(applyMark k c.rx r).1] := by
  obtain ⟨front, hfront, hfill⟩ := fillExplicitNonce_sealPiece (k := k) w.filled nonce piece
  have hlen := Kit.length_sealPiece nonce hpiece
  have hput := Writer.put_record h hw (r := k.sealPiece nonce piece) (by
    rw [hfill]
    simp only [Kit.sealPiece, length_append, length_replicate] at hlen
    simpa only [length_append, hfront] using hlen)
  rw [hfill] at hput
  refine ⟨front, hfront, _, rfl, by rw [hput], ?_, by rw [hput]⟩
  rw [hput]
  rfl

/-- **An inserted record that the peer expects** is taken out, and both ends are at the
same place again. -/
lemma inserted_arrives (h : Marked k w c) (hw : w.stopped = false)
    (hpiece : piece.length ≤ k.maxPlaintext) {nonce : BitVec 64} (hnonce : c.expected = nonce) :
    ∃ x, (w.put k (.record (k.sealPiece nonce piece))).wire = w.wire ++ [x] ∧
      (w.put k (.record (k.sealPiece nonce piece))).stopped = false ∧
      Marked k (w.put k (.record (k.sealPiece nonce piece))) (c.take k x) ∧
      (c.take k x).expected = c.expected + 1 ∧ (c.take k x).chunks = c.chunks ++ [piece] ∧
      (c.take k x).forwarded = c.forwarded := by
  obtain ⟨front, hfront, r, rfl, htx, hstop, hwire⟩ := Writer.put_sealPiece h hw hpiece nonce
  have hseal : 8 ≤ (k.aead.sealWith nonce (k.pack piece)).length := by
    rw [k.aead.length_sealWith]
    omega
  have htake := Receiver.take_applyMark h (r := ⟨recordTypeApplicationData, k.version,
    front ++ k.aead.sealWith nonce (k.pack piece), true⟩)
  rw [tryOpen_front hfront hseal, hnonce, k.aead.open_sealWith] at htake
  refine ⟨_, hwire, hstop, ⟨?_, fun hoff => ?_⟩, ?_, ?_, ?_⟩
  · rw [htx, htake, h.start rfl]
  · rw [htake]
    dsimp only
    rw [hoff, if_neg (fun hon => Bool.false_ne_true hon.1), h.off hoff, applyMark]
  · rw [htake, hnonce]
  · rw [htake]
    dsimp only
    rw [Kit.unpack_pack hpiece]
  · rw [htake]

/-- **An inserted record that the peer does not expect** goes on to the backend. -/
lemma inserted_forwarded (h : Marked k w c) (hw : w.stopped = false)
    (hpiece : piece.length ≤ k.maxPlaintext) {nonce : BitVec 64} (hnonce : c.expected ≠ nonce) :
    ∃ x, (w.put k (.record (k.sealPiece nonce piece))).wire = w.wire ++ [x] ∧
      ∃ r ∈ (c.take k x).forwarded, r.inserted = true := by
  obtain ⟨front, hfront, r, rfl, htx, hstop, hwire⟩ := Writer.put_sealPiece h hw hpiece nonce
  have hseal : 8 ≤ (k.aead.sealWith nonce (k.pack piece)).length := by
    rw [k.aead.length_sealWith]
    omega
  refine ⟨_, hwire, ⟨recordTypeApplicationData, k.version,
    front ++ k.aead.sealWith nonce (k.pack piece), true⟩, ?_, rfl⟩
  rw [Receiver.take_applyMark h, tryOpen_front hfront hseal, k.aead.open_ne _ hnonce]
  exact mem_append_right _ mem_cons_self

end

/-! ### The ends in lockstep -/

section
variable {k : Kit} {s s' : Sender}

lemma Sender.writer_concat {t : Queued} (hq : s'.queue = s.queue ++ [t]) :
    s'.writer k = (s.writer k).put k t := by
  rw [Sender.writer, hq, foldl_concat, Sender.writer]

lemma Sender.writer_congr (hq : s'.queue = s.queue) : s'.writer k = s.writer k := by
  rw [Sender.writer, hq, Sender.writer]

lemma Sender.peer_concat {x : Record} (hwire : (s'.writer k).wire = (s.writer k).wire ++ [x]) :
    s'.peer k = (s.peer k).take k x := by
  rw [Sender.peer, hwire, foldl_concat, Sender.peer]

lemma Sender.peer_congr (hwire : (s'.writer k).wire = (s.writer k).wire) :
    s'.peer k = s.peer k := by
  rw [Sender.peer, hwire, Sender.peer]

/-- Both ends are at the same nonce, but for the insertions that have failed, and at
the same place of the watermark; the peer has what was sent. -/
structure Lockstep (k : Kit) (s : Sender) : Prop where
  marked : Marked k (s.writer k) (s.peer k)
  nonce : s.nonce = (s.peer k).expected + BitVec.ofNat 64 s.failed
  arrived : (s.peer k).chunks.flatten = s.sent
  clean : ∀ r ∈ (s.peer k).forwarded, r.inserted = false
  closed : (s.writer k).stopped = s.closed
  pending : ∀ written rest, s.call = some (written, rest) → rest ≠ []

/-- An inserted record has gone on to the backend, or the writer has stopped before
something that was sent. -/
def Broken (k : Kit) (s : Sender) : Prop :=
  (∃ r ∈ (s.peer k).forwarded, r.inserted = true) ∨
    (s.writer k).stopped = true ∧ (s.peer k).chunks.flatten.length < s.sent.length

lemma lockstep_start : Lockstep k {} where
  marked := ⟨rfl, fun _ => rfl⟩
  nonce := rfl
  arrived := rfl
  clean := fun _ hr => absurd hr not_mem_nil
  closed := rfl
  pending := fun _ _ h => absurd h (Option.some_ne_none _).symm

lemma Lockstep.of_writer_eq (h : Lockstep k s) (hwriter : s'.writer k = s.writer k)
    (hnonce : s'.nonce = s.nonce + BitVec.ofNat 64 (s'.failed - s.failed))
    (hfailed : s.failed ≤ s'.failed) (hsent : s'.sent = s.sent) (hclosed : s'.closed = s.closed)
    (hpending : ∀ written rest, s'.call = some (written, rest) → rest ≠ []) : Lockstep k s' := by
  have hpeer : s'.peer k = s.peer k := Sender.peer_congr (by rw [hwriter])
  have hsum : s.failed + (s'.failed - s.failed) = s'.failed := Nat.add_sub_cancel' hfailed
  constructor
  · rw [hwriter, hpeer]
    exact h.marked
  · rw [hnonce, h.nonce, hpeer, BitVec.add_assoc, ← BitVec.ofNat_add, hsum]
  · rw [hpeer, hsent]
    exact h.arrived
  · rw [hpeer]
    exact h.clean
  · rw [hwriter, hclosed]
    exact h.closed
  · exact hpending

lemma Lockstep.genuine (h : Lockstep k s) {r : Record} (hr : k.Genuine r) :
    Lockstep k (s.step k (.genuine r)) := by
  have hput : (s.step k (.genuine r)).writer k = (s.writer k).put k (.record r) :=
    Sender.writer_concat rfl
  by_cases hclosed : s.closed = true
  · refine h.of_writer_eq (hput.trans (Writer.put_stopped (h.closed.trans hclosed) _)) ?_ le_rfl rfl
      ?_ h.pending
    · exact (by simp [Sender.step])
    · rw [Sender.step, hclosed, Bool.true_or]
  · rw [Bool.not_eq_true] at hclosed
    obtain ⟨x, hwire, hstop, hmarked, htake⟩ :=
      genuine_passes h.marked (h.closed.trans hclosed) hr
    have hpeer : (s.step k (.genuine r)).peer k = (s.peer k).take k x :=
      Sender.peer_concat (by rw [hput, hwire])
    constructor
    · rw [hput, hpeer]
      exact hmarked
    · rw [hpeer, htake]
      exact h.nonce
    · rw [hpeer, htake]
      exact h.arrived
    · rw [hpeer, htake]
      intro r' hr'
      rcases mem_append.mp hr' with hold | hnew
      · exact h.clean r' hold
      · rw [mem_singleton.mp hnew]
        exact hr.1
    · rw [hput, hstop, Sender.step, hclosed, Bool.false_or]
    · exact h.pending

lemma Lockstep.fallback (h : Lockstep k s) : Lockstep k (s.step k .fallback) := by
  have hput : (s.step k .fallback).writer k = (s.writer k).put k .fallback :=
    Sender.writer_concat rfl
  have hstop : ((s.writer k).put k .fallback).stopped = true := by
    rw [Writer.put.eq_def]
    split_ifs with hw
    · exact hw
    · rfl
  have hrest : ((s.writer k).put k .fallback).wire = (s.writer k).wire ∧
      ((s.writer k).put k .fallback).tx = (s.writer k).tx := by
    rw [Writer.put.eq_def]
    split_ifs <;> exact ⟨rfl, rfl⟩
  have hpeer : (s.step k .fallback).peer k = s.peer k :=
    Sender.peer_congr (by rw [hput, hrest.1])
  constructor
  · rw [hput, hpeer]
    exact ⟨hrest.2.trans h.marked.same, h.marked.off⟩
  · rw [hpeer]
    exact h.nonce
  · rw [hpeer]
    exact h.arrived
  · rw [hpeer]
    exact h.clean
  · rw [hput, hstop, Sender.step]
  · exact h.pending

lemma Lockstep.write (h : Lockstep k s) (b : Str) : Lockstep k (s.step k (.write b)) := by
  rw [Sender.step]
  split_ifs with hskip
  · exact h
  · rw [not_or, Bool.not_eq_true, Option.isSome_eq_false_iff, Option.isNone_iff_eq_none] at hskip
    refine h.of_writer_eq (Sender.writer_congr rfl) (by simp) le_rfl ?_ rfl ?_
    · simp [Sender.sent, hskip.1]
    · rintro written rest hcall rfl
      exact hskip.2 (congrArg Prod.snd (Option.some.inj hcall))

lemma Sender.insert_accepted {written rest : Str} (hcall : s.call = some (written, rest)) :
    (s.insert k true).nonce = s.nonce + 1 ∧ (s.insert k true).queue =
        s.queue ++ [.record (k.sealPiece s.nonce (rest.take k.maxPlaintext))] ∧
      (s.insert k true).sent = s.sent ++ rest.take k.maxPlaintext ∧
      (s.insert k true).failed = s.failed ∧ (s.insert k true).closed = s.closed ∧
      ∀ w r, (s.insert k true).call = some (w, r) → r ≠ [] := by
  simp only [Sender.insert, hcall, if_true]
  split_ifs with hlast
  · refine ⟨rfl, rfl, ?_, rfl, rfl, fun _ _ h => h.elim⟩
    simp [Sender.sent, hcall]
  · refine ⟨rfl, rfl, ?_, rfl, rfl, ?_⟩
    · simp [Sender.sent, hcall]
    · rintro w r h rfl
      exact hlast (congrArg Prod.snd (Option.some.inj h))

lemma Lockstep.insert_failed (h : Lockstep k s) : Lockstep k (s.insert k false) := by
  cases hcall : s.call with
  | none =>
    rw [Sender.insert, hcall]
    exact h
  | some call =>
    obtain ⟨written, rest⟩ := call
    have hs : s.insert k false =
        { s with
          nonce := s.nonce + 1, call := none, reported := s.reported ++ written,
          failed := s.failed + 1 } := by
      rw [Sender.insert, hcall]
      rfl
    rw [hs]
    refine h.of_writer_eq (Sender.writer_congr rfl) ?_ (Nat.le_succ _) ?_ rfl ?_
    · simp
    · simp [Sender.sent, hcall]
    · exact fun _ _ h => absurd h (Option.some_ne_none _).symm

lemma ofNat_eq_zero_iff {n : Nat} : BitVec.ofNat 64 n = 0#64 ↔ n % 2 ^ 64 = 0 := by
  rw [← BitVec.toNat_inj, BitVec.toNat_ofNat, BitVec.toNat_zero]

/-- **In step**: the piece arrives. -/
lemma Lockstep.insert_accepted (h : Lockstep k s) (hin : InStep s (.insert true)) :
    Lockstep k (s.insert k true) := by
  cases hcall : s.call with
  | none =>
    rw [Sender.insert, hcall]
    exact h
  | some call =>
    obtain ⟨written, rest⟩ := call
    obtain ⟨hfailed, hclosed⟩ := hin rfl (by rw [hcall]; exact Option.some_ne_none _)
    obtain ⟨hnonce, hqueue, hsent, hfailed', hclosed', hpending⟩ :=
      Sender.insert_accepted (k := k) hcall
    have hzero : BitVec.ofNat 64 s.failed = 0#64 := ofNat_eq_zero_iff.mpr hfailed
    have hexpected : (s.peer k).expected = s.nonce := by rw [h.nonce, hzero, BitVec.add_zero]
    have hput := Sender.writer_concat (k := k) hqueue
    obtain ⟨x, hwire, hstop, hmarked, hexp, hchunks, hforwarded⟩ :=
      inserted_arrives h.marked (h.closed.trans hclosed) (length_take_le _ rest) hexpected
    have hpeer : (s.insert k true).peer k = (s.peer k).take k x :=
      Sender.peer_concat (by rw [hput, hwire])
    constructor
    · rw [hput, hpeer]
      exact hmarked
    · rw [hpeer, hexp, hnonce, hfailed', hzero, hexpected, BitVec.add_zero]
    · rw [hpeer, hchunks, hsent, flatten_append, h.arrived, flatten_singleton]
    · rw [hpeer, hforwarded]
      exact h.clean
    · rw [hput, hstop, hclosed', hclosed]
    · exact hpending

/-- **Out of step**: the piece goes on to the backend, or nowhere. -/
lemma Lockstep.insert_broken (h : Lockstep k s) (hin : ¬ InStep s (.insert true)) :
    Broken k (s.insert k true) := by
  rw [InStep, Classical.not_imp, Classical.not_imp] at hin
  obtain ⟨-, hcall, hout⟩ := hin
  obtain ⟨⟨written, rest⟩, hcall⟩ := Option.ne_none_iff_exists'.mp hcall
  obtain ⟨hnonce, hqueue, hsent, hfailed', hclosed', hpending⟩ :=
    Sender.insert_accepted (k := k) hcall
  have hput := Sender.writer_concat (k := k) hqueue
  by_cases hclosed : s.closed = true
  · have hwriter := hput.trans (Writer.put_stopped (h.closed.trans hclosed) _)
    have hpeer : (s.insert k true).peer k = s.peer k := Sender.peer_congr (by rw [hwriter])
    have hpos : 0 < (rest.take k.maxPlaintext).length := by
      rw [length_take, Nat.lt_min]
      exact ⟨k.maxPlaintext_pos, length_pos_iff.mpr (h.pending written rest hcall)⟩
    refine .inr ⟨?_, ?_⟩
    · rw [hwriter, h.closed, hclosed]
    · rw [hpeer, h.arrived, hsent, length_append]
      omega
  · rw [Bool.not_eq_true] at hclosed
    have hfailed : s.failed % 2 ^ 64 ≠ 0 := fun hzero => hout ⟨hzero, hclosed⟩
    have hexpected : (s.peer k).expected ≠ s.nonce := by
      rw [h.nonce]
      intro heq
      exact hfailed (ofNat_eq_zero_iff.mp (BitVec.self_eq_add_right.mp heq))
    obtain ⟨x, hwire, hforwarded⟩ :=
      inserted_forwarded h.marked (h.closed.trans hclosed) (length_take_le _ rest) hexpected
    have hpeer : (s.insert k true).peer k = (s.peer k).take k x :=
      Sender.peer_concat (by rw [hput, hwire])
    rw [← hpeer] at hforwarded
    exact .inl hforwarded

/-! ### Whole runs -/

lemma Sender.step_queue (a : Act) :
    (s.step k a).queue = s.queue ∨ ∃ t, (s.step k a).queue = s.queue ++ [t] := by
  cases a with
  | genuine r => exact .inr ⟨_, rfl⟩
  | fallback => exact .inr ⟨_, rfl⟩
  | write b =>
    rw [Sender.step]
    split_ifs <;> exact .inl rfl
  | insert accepted =>
    rw [Sender.step, Sender.insert]
    cases s.call with
    | none => exact .inl rfl
    | some call =>
      dsimp only
      split_ifs <;> [exact .inr ⟨_, rfl⟩; exact .inr ⟨_, rfl⟩; exact .inl rfl]

lemma Sender.sent_step (a : Act) : s.sent <+: (s.step k a).sent := by
  cases a with
  | genuine r => exact prefix_rfl
  | fallback => exact prefix_rfl
  | write b =>
    rw [Sender.step]
    split_ifs with hskip
    · exact prefix_rfl
    · rw [not_or, Bool.not_eq_true, Option.isSome_eq_false_iff, Option.isNone_iff_eq_none] at hskip
      simp [Sender.sent, hskip.1]
  | insert accepted =>
    rw [Sender.step]
    cases hcall : s.call with
    | none =>
      rw [Sender.insert, hcall]
    | some call =>
      obtain ⟨written, rest⟩ := call
      cases accepted with
      | true =>
        obtain ⟨-, -, hsent, -⟩ := Sender.insert_accepted (k := k) hcall
        rw [hsent]
        exact prefix_append _ _
      | false => simp [Sender.insert, Sender.sent, hcall]

lemma Writer.put_wire (w : Writer) (t : Queued) :
    (w.put k t).wire = w.wire ∨ ∃ x, (w.put k t).wire = w.wire ++ [x] := by
  rw [Writer.put.eq_def]
  split_ifs with hw
  · exact .inl rfl
  · cases t with
    | fallback => exact .inl rfl
    | record r =>
      dsimp only
      split
      · exact .inl rfl
      · exact .inr ⟨_, rfl⟩

lemma Receiver.forwarded_take (c : Receiver) (x : Record) :
    c.forwarded ⊆ (c.take k x).forwarded := by
  rw [Receiver.take]
  split
  · exact subset_append_left _ _
  · exact List.Subset.refl _

lemma Broken.step (h : Broken k s) (a : Act) : Broken k (s.step k a) := by
  rcases h with ⟨r, hr, hins⟩ | ⟨hstop, hlen⟩
  · -- what went on to the backend stays there
    refine .inl ⟨r, ?_, hins⟩
    have hwire : ((s.step k a).writer k).wire = (s.writer k).wire ∨
        ∃ x, ((s.step k a).writer k).wire = (s.writer k).wire ++ [x] := by
      rcases Sender.step_queue (k := k) (s := s) a with hq | ⟨t, hq⟩
      · rw [Sender.writer_congr hq]
        exact .inl rfl
      · rw [Sender.writer_concat hq]
        exact Writer.put_wire _ t
    rcases hwire with hwire | ⟨x, hwire⟩
    · rw [Sender.peer_congr hwire]
      exact hr
    · rw [Sender.peer_concat hwire]
      exact Receiver.forwarded_take _ x hr
  · -- nothing comes out of the queue any more
    have hwriter : (s.step k a).writer k = s.writer k := by
      rcases Sender.step_queue (k := k) (s := s) a with hq | ⟨t, hq⟩
      · exact Sender.writer_congr hq
      · rw [Sender.writer_concat hq, Writer.put_stopped hstop]
    have hpeer : (s.step k a).peer k = s.peer k := Sender.peer_congr (by rw [hwriter])
    refine .inr ⟨by rw [hwriter, hstop], ?_⟩
    rw [hpeer]
    exact Nat.lt_of_lt_of_le hlen (Sender.sent_step a).length_le

def Act.OK (k : Kit) (a : Act) : Prop := ∀ r, a = .genuine r → k.Genuine r

lemma Lockstep.step (h : Lockstep k s) {a : Act} (ha : a.OK k) (hin : InStep s a) :
    Lockstep k (s.step k a) := by
  cases a with
  | genuine r => exact h.genuine (ha r rfl)
  | fallback => exact h.fallback
  | write b => exact h.write b
  | insert accepted =>
    cases accepted with
    | true => exact h.insert_accepted hin
    | false => exact h.insert_failed

lemma Lockstep.broken (h : Lockstep k s) {a : Act} (hin : ¬ InStep s a) :
    Broken k (s.step k a) := by
  have ha : a = .insert true := by
    rw [InStep, Classical.not_imp] at hin
    exact hin.1
  rw [ha] at hin ⊢
  exact h.insert_broken hin

/-- Where no `Write` is in progress, what is reported is what was sent. -/
lemma Sender.sent_eq_reported (hcall : s.call = none) : s.sent = s.reported := by
  rw [Sender.sent, hcall]
  exact append_nil _

end

/-- **The covert channel**: in a run of genuine records, calls of `Write` and
insertions in any order, at whose end every call has returned, the peer's reads give
the bytes reported as written and no covert record goes to the backend exactly if each
insertion that succeeds is in step. -/
theorem covert_reliable_iff (k : Kit) (acts : List Act) (hacts : ∀ a ∈ acts, a.OK k)
    (hend : (Sender.run k acts).call = none) :
    Reliable k acts ↔ Lib.EachStep (Sender.step k) InStep {} acts := by
  have hsent := Sender.sent_eq_reported hend
  have hgives := Hidden.gives_bytes ⟨[], ((Sender.run k acts).peer k).chunks⟩
  constructor
  · rintro ⟨hreads, hclean⟩
    by_contra hout
    have hbroken : Broken k (Sender.run k acts) :=
      Lib.foldl_broken (fun _ _ h ha hin => h.step ha hin) (fun _ _ h _ hin => h.broken hin)
        (fun _ a h => h.step a) lockstep_start hacts hout
    rcases hbroken with ⟨r, hr, hins⟩ | ⟨-, hlen⟩
    · rw [hclean r hr] at hins
      exact Bool.false_ne_true hins
    · have hbytes := hreads.unique hgives
      rw [hsent, hbytes] at hlen
      exact absurd hlen (Nat.lt_irrefl _)
  · intro hin
    have hlock : Lockstep k (Sender.run k acts) :=
      Lib.foldl_invariant (fun _ _ h hC => h.step hC.1 hC.2) lockstep_start
        ((Lib.eachStep_of_forall hacts).and hin)
    refine ⟨?_, hlock.clean⟩
    rw [← hsent, ← hlock.arrived]
    exact hgives

/-! ### A run with a failed insertion -/

lemma putBE_toNat_inj {m n : BitVec 64} (h : putBE 16 m.toNat = putBE 16 n.toNat) : m = n := by
  have hval := congrArg beNat h
  rw [beNat_putBE, beNat_putBE, Nat.mod_eq_of_lt (by omega), Nat.mod_eq_of_lt (by omega)] at hval
  exact BitVec.eq_of_toNat_eq hval

def tagAead : Aead where
  sealWith n p := p ++ putBE 16 n.toNat
  openWith n c :=
    if c.drop (c.length - 16) = putBE 16 n.toNat then some (c.take (c.length - 16)) else none
  length_sealWith n p := by rw [length_append, length_putBE]
  open_sealWith n p := by
    rw [length_append, length_putBE, Nat.add_sub_cancel, drop_left, if_pos rfl, take_left]
  open_ne {m n} p hne := by
    rw [length_append, length_putBE, Nat.add_sub_cancel, drop_left, if_neg]
    exact fun h => hne (putBE_toNat_inj h).symm

def tagKit : Kit where
  aead := tagAead
  keystream _ := List.replicate 16 7
  length_keystream _ := length_replicate
  explicitNonce n := putBE 8 (n + 1)
  length_explicitNonce _ := length_putBE _ _
  version := (3, 3)
  padding := true
  watermark := true
  tls12Explicit := true

def carrierData : Record := ⟨recordTypeApplicationData, (3, 3), List.replicate 20 255, false⟩

lemma tagAead_openWith_short {c : Str} (hc : c.length < 16) (n : BitVec 64) :
    tagAead.openWith n c = none := by
  refine if_neg fun htag => ?_
  have hlen := congrArg List.length htag
  rw [length_drop, length_putBE] at hlen
  omega

lemma genuine_carrierData : tagKit.Genuine carrierData := by
  refine ⟨rfl, by decide, fun _ n => ?_⟩
  have hshort : (carrierData.fragment.drop tagKit.overhead).length < 16 := by decide
  exact tagAead_openWith_short hshort n

/-- The deadline is over at the first insertion, and not at the second. -/
def lateDeadline : List Act :=
  [.genuine carrierData, .write [1], .insert false, .write [2], .insert true]

def twoWrites : List Act :=
  [.genuine carrierData, .write [1], .insert true, .genuine carrierData, .write [2, 3],
    .insert true]

lemma lateDeadline_ok : ∀ a ∈ lateDeadline, a.OK tagKit := by
  intro a ha r hr
  have hr' : r = carrierData := by
    simp only [lateDeadline, mem_cons, not_mem_nil, or_false] at ha
    rcases ha with rfl | rfl | rfl | rfl | rfl
    · exact (Act.genuine.inj hr).symm
    all_goals cases hr
  rw [hr']
  exact genuine_carrierData

lemma twoWrites_ok : ∀ a ∈ twoWrites, a.OK tagKit := by
  intro a ha r hr
  have hr' : r = carrierData := by
    simp only [twoWrites, mem_cons, not_mem_nil, or_false] at ha
    rcases ha with rfl | rfl | rfl | rfl | rfl | rfl
    · exact (Act.genuine.inj hr).symm
    · cases hr
    · cases hr
    · exact (Act.genuine.inj hr).symm
    all_goals cases hr
  rw [hr']
  exact genuine_carrierData

theorem covert_reliable_twoWrites : Reliable tagKit twoWrites := by
  have hend : (Sender.run tagKit twoWrites).call = none := by decide +kernel
  refine (covert_reliable_iff tagKit twoWrites twoWrites_ok hend).mpr ?_
  decide +kernel

/-- The piece behind a failed insertion goes on to the backend. -/
theorem covert_lost_lateDeadline :
    (∀ a ∈ lateDeadline, a.OK tagKit) ∧ (Sender.run tagKit lateDeadline).call = none ∧
      (Sender.run tagKit lateDeadline).reported = [2] ∧
      ((Sender.run tagKit lateDeadline).peer tagKit).chunks = [] ∧
      ¬ Reliable tagKit lateDeadline := by
  refine ⟨lateDeadline_ok, by decide +kernel, by decide +kernel, by decide +kernel, fun h => ?_⟩
  have hforwarded : ((Sender.run tagKit lateDeadline).peer tagKit).forwarded.any
      (fun r => r.inserted) = true := by decide +kernel
  obtain ⟨r, hr, hins⟩ := any_eq_true.mp hforwarded
  rw [h.2 r hr] at hins
  exact Bool.false_ne_true hins

end Ntr.Transport.TlsMirror
