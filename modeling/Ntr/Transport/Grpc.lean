/-
The gRPC transport: a byte stream as messages with one length-delimited field.

* `Conn.read`: `Read`, over any number of messages;
* `frame`, `Field`: the wire format, said without the code;
* `readHunk_cases`: what one call does; `exists_panic`: where a stream overflows,
  one of the calls panics.
-/
import Ntr.Go.Panic
import Ntr.Go.Varint

namespace Ntr.Transport.Grpc

open Go Lib Lib.FailState List

/-! ### Messages -/

/-- The largest message that `readHunk` takes: 16 MiB. -/
def maxMsgLen : Nat := 16777216

def errTooLong : Error := .text (lit "grpc: 消息超长(疑似恶意 length)")
def errField : Error := .text (lit "grpc: 非预期 Hunk 字段")
def errBounds : Error := .text (lit "grpc: Hunk 长度越界")

section
variable {σ : Type} [Channel σ]

/-- `writeHunk`: a message of one field, in one `Write`. -/
def writeHunk (data : Str) : FailState Error σ Unit :=
  let lp := 0x0A :: putUvarint data.length
  let hunkLen := lp.length + data.length
  Channel.write ([0] ++ putBE 4 hunkLen ++ lp ++ data)

/-- The field of a message, as `readHunk` takes it out. -/
def unhunk (msg : Str) : Except Fault Str :=
  if msg.length = 0 then .ok []
  else do
    let tag ← index msg 0
    if tag ≠ 0x0A then .error (.error errField)
    else do
      let field ← slice msg 1 msg.length
      let (dlen, k) := uvarint field
      -- `1+k+int(dlen)` is compared after it has wrapped.
      let hi := int (1 + k + int dlen)
      if k ≤ 0 ∨ hi > msg.length then .error (.error errBounds) else slice msg (1 + k) hi

/-- `readHunk` behind the length of the message. -/
def readMsg (msgLen : Nat) : FailState Fault σ Str :=
  if msgLen > maxMsgLen then throw (.error errTooLong)
  else do
    let msg ← mapErr .error (readFull msgLen)
    lift (unhunk msg)

def readHunk : FailState Fault σ Str := do
  let head ← mapErr .error (readFull 5)
  let size ← lift (slice head 1 5)
  readMsg (beNat size)

def write (p : Str) : FailState Error σ Nat := do
  writeHunk p
  pure p.length

def writes : List Str → FailState Error σ Unit
  | [] => pure ()
  | p :: ps => do
    let _ ← write p
    writes ps

end

/-! ### Connections -/

/-- A `grpcConn`: the reader over the body; what `resolveReader` comes to while
a client has no reader yet, call by call; and `readBuf`. -/
structure Conn where
  r : Option Stream
  resolve : Nat → Except Error Stream
  readBuf : Str

namespace Conn

/-- `resolveReader`: a client takes the body of the response at its first
`Read`. -/
def resolveReader (c : Conn) : Except Fault Unit × Conn :=
  match c.r with
  | some _ => (.ok (), c)
  | none =>
    let c' := { c with resolve := fun i => c.resolve (i + 1) }
    match c.resolve 0 with
    | .error e => (.error (.error e), c')
    | .ok body => (.ok (), { c' with r := some (after (ε := Error) newReader body) })

/-- `readHunk(c.r)`. -/
def readHunk (c : Conn) : Except Fault Str × Conn :=
  match c.r with
  | none => (.error .panic, c)
  | some s => (outcome Grpc.readHunk s, { c with r := some (after Grpc.readHunk s) })

/-- The loop of `Read`: messages until one has data. -/
def fill : Nat → Conn → Except Fault Unit × Conn
  | 0, c => (.error .spin, c)
  | rounds + 1, c =>
    if c.readBuf.length = 0 then
      match c.readHunk with
      | (.error e, c) => (.error e, c)
      | (.ok data, c) => fill rounds { c with readBuf := data }
    else (.ok (), c)

/-- Rounds enough for the loop: a message takes some of the bytes to come. -/
def rounds (c : Conn) : Nat := (c.r.elim 0 fun s => s.bytes.length) + 2

/-- `Read` into a buffer of length `n`: the bytes that it copies. -/
def read (c : Conn) (n : Nat) : Except Fault Str × Conn :=
  match c.resolveReader with
  | (.error e, c) => (.error e, c)
  | (.ok (), c) =>
    match fill c.rounds c with
    | (.error e, c) => (.error e, c)
    | (.ok (), c) =>
      let m := min n c.readBuf.length
      match slice c.readBuf m c.readBuf.length with
      | .error e => (.error e, c)
      | .ok rest => (.ok (c.readBuf.take m), { c with readBuf := rest })

/-- What `Read`s one after the other give, into buffers of the given lengths. -/
def reads (c : Conn) : List Nat → List (Except Fault Str)
  | [] => []
  | n :: ns => (c.read n).1 :: (c.read n).2.reads ns

end Conn

/-! ### The wire format -/

/-- A message on the wire: a flag, four bytes of length, the message. -/
def frame (flag : UInt8) (msg : Str) : Str := flag :: (putBE 4 msg.length ++ msg)

/-- The message starts with field 1, length-delimited, and this is its data. -/
def Field (msg data : Str) : Prop :=
  ∃ v tail, msg = 0x0A :: (v ++ (data ++ tail)) ∧ Encodes v data.length

/-- The data of a message: its field; an empty message has none. -/
def Carries (msg data : Str) : Prop := msg = [] ∧ data = [] ∨ Field msg data

/-- The field of the message claims a length that takes its end, counted from
the start of the message, out of the range of an `int`. -/
def Overlong (msg : Str) : Prop :=
  ∃ v n tail, msg = 0x0A :: (v ++ tail) ∧ Encodes v n ∧ 2 ^ 63 ≤ 1 + v.length + n

/-- A message in the stream is overlong. A message above the limit is given up
after its length, so what follows the length is then the next message. -/
inductive Overflows : Str → Prop
  | here {flag : UInt8} {msg rest : Str} (hfit : msg.length ≤ maxMsgLen) (h : Overlong msg) :
      Overflows (frame flag msg ++ rest)
  | next {flag : UInt8} {msg rest : Str} (hfit : msg.length ≤ maxMsgLen) (h : Overflows rest) :
      Overflows (frame flag msg ++ rest)
  | skip {flag : UInt8} {n : Nat} {rest : Str} (hbig : maxMsgLen < n) (hn : n < 2 ^ 32)
      (h : Overflows rest) : Overflows (flag :: (putBE 4 n ++ rest))

def Fits (data : Str) : Prop := 1 + (putUvarint data.length).length + data.length ≤ maxMsgLen

/-! ### The field of a message -/

lemma unhunk_nil : unhunk [] = .ok [] := rfl

lemma unhunk_of_tag_ne {b : UInt8} (hb : b ≠ 0x0A) (body : Str) :
    unhunk (b :: body) = .error (.error errField) := by
  rw [unhunk, if_neg (by simp), index_zero]
  exact if_pos hb

lemma unhunk_tag (body : Str) : unhunk (0x0A :: body) =
    if (uvarint body).2 ≤ 0 ∨
        int (1 + (uvarint body).2 + int (uvarint body).1) > (0x0A :: body : Str).length then
      .error (.error errBounds)
    else slice (0x0A :: body) (1 + (uvarint body).2)
      (int (1 + (uvarint body).2 + int (uvarint body).1)) := by
  have hslice : slice (0x0A :: body) 1 (0x0A :: body : Str).length = .ok body :=
    slice_drop (n := 1) (by simp)
  rw [unhunk, if_neg (by simp), index_zero, hslice]
  rfl

lemma int_end_lt {k n : Nat} (hk : k ≤ 10) (hn : n < 2 ^ 64) (h : 2 ^ 63 ≤ 1 + k + n) :
    int (1 + k + int n) < 1 + k := by
  simp only [int, Int.bmod_def]
  omega

lemma int_end_eq {k n : Nat} (h : 1 + k + n < 2 ^ 63) : int (1 + k + int n) = 1 + k + n := by
  rw [int_eq (x := n) (by omega) (by omega), int_eq (by omega) (by omega)]

lemma unhunk_overlong {msg : Str} (h : Overlong msg) : unhunk msg = .error .panic := by
  obtain ⟨v, n, tail, rfl, hv, hlong⟩ := h
  have hlt := int_end_lt hv.2.1 hv.2.2 hlong
  have hpos := hv.1.length_pos
  rw [unhunk_tag, uvarint_of_encodes hv, if_neg, slice_panic hlt]
  rintro (hk | hhi)
  · omega
  · simp only [length_cons, length_append] at hhi
    omega

lemma unhunk_field {msg data : Str} (hlen : msg.length < 2 ^ 63) (h : Field msg data) :
    unhunk msg = .ok data := by
  obtain ⟨v, tail, rfl, hv⟩ := h
  simp only [length_cons, length_append] at hlen
  have hend := int_end_eq (k := v.length) (n := data.length) (by omega)
  have hpos := hv.1.length_pos
  rw [unhunk_tag, uvarint_of_encodes hv, hend, if_neg]
  · have hslice := slice_append (0x0A :: v) data tail
    rw [length_cons, Nat.cast_succ, Int.add_comm (v.length : Int) 1] at hslice
    exact hslice
  · simp only [length_cons, length_append]
    omega

lemma unhunk_cases (msg : Str) (hlen : msg.length < 2 ^ 63) :
    (∃ data, Carries msg data ∧ unhunk msg = .ok data) ∨
      (Overlong msg ∧ unhunk msg = .error .panic) ∨ ∃ e, unhunk msg = .error (.error e) := by
  cases msg with
  | nil => exact .inl ⟨[], .inl ⟨rfl, rfl⟩, unhunk_nil⟩
  | cons b body =>
    by_cases hb : b = 0x0A
    · subst hb
      by_cases hk : (uvarint body).2 ≤ 0
      · exact .inr (.inr ⟨errBounds, by rw [unhunk_tag, if_pos (.inl hk)]⟩)
      · obtain ⟨v, n, rest, rfl, hv⟩ := encodes_of_uvarint (not_le.mp hk)
        by_cases hlong : 2 ^ 63 ≤ 1 + v.length + n
        · have h : Overlong (0x0A :: (v ++ rest)) := ⟨v, n, rest, rfl, hv, hlong⟩
          exact .inr (.inl ⟨h, unhunk_overlong h⟩)
        · by_cases hrest : n ≤ rest.length
          · have h : Field (0x0A :: (v ++ rest)) (rest.take n) :=
              ⟨v, rest.drop n, by rw [take_append_drop], by rwa [length_take_of_le hrest]⟩
            exact .inl ⟨_, .inr h, unhunk_field hlen h⟩
          · refine .inr (.inr ⟨errBounds, ?_⟩)
            rw [unhunk_tag, uvarint_of_encodes hv, int_end_eq (by omega), if_pos]
            simp only [length_cons, length_append]
            omega
    · exact .inr (.inr ⟨errField, unhunk_of_tag_ne hb body⟩)

/-! ### One message -/

lemma simulates_readMsg (n : Nat) :
    Simulates Stream.tape (readMsg n : FailState Fault Stream Str) (readMsg n) :=
  .ite (.throw _) ((simulates_readFull n).mapErr.bind fun _ => .lift _)

lemma simulates_readHunk : Simulates Stream.tape (readHunk : FailState Fault Stream Str) readHunk :=
  (simulates_readFull 5).mapErr.bind fun _ => (Simulates.lift _).bind fun _ => simulates_readMsg _

section
variable {t t' : Tape} {flag : UInt8} {n : Nat} {msg rest : Str}

lemma runs_readHunk_head {x : Except Fault Str} (hb : t.bytes = flag :: (putBE 4 n ++ rest))
    (hn : n < 2 ^ 32) (h : Runs (readMsg n) { t with bytes := rest } x t') :
    Runs readHunk t x t' := by
  have hlen : (flag :: putBE 4 n).length = 5 := by simp
  have hhead := runs_readFull (a := flag :: putBE 4 n) hb
  have hsize : slice (flag :: putBE 4 n) 1 5 = .ok (putBE 4 n) := by
    have h1 := slice_drop (b := flag :: putBE 4 n) (n := 1) (by simp)
    rwa [hlen] at h1
  have hnat : beNat (putBE 4 n) = n := by
    rw [beNat_putBE, Nat.mod_eq_of_lt (by omega)]
  rw [hlen] at hhead
  refine hhead.mapErr_ok.bind ?_
  rw [hsize]
  refine runs_lift.bind ?_
  rwa [hnat]

lemma runs_readHunk_frame (hb : t.bytes = frame flag msg ++ rest) (hfit : msg.length ≤ maxMsgLen) :
    Runs readHunk t (unhunk msg) { t with bytes := rest } := by
  have hb' : t.bytes = flag :: (putBE 4 msg.length ++ (msg ++ rest)) := by
    rw [hb, frame, cons_append, append_assoc]
  refine runs_readHunk_head hb' (by rw [maxMsgLen] at hfit; omega) ?_
  rw [readMsg, if_neg (by omega)]
  exact (runs_readFull rfl).mapErr_ok.bind runs_lift

lemma runs_readHunk_tooLong (hb : t.bytes = flag :: (putBE 4 n ++ rest)) (hbig : maxMsgLen < n)
    (hn : n < 2 ^ 32) : Runs readHunk t (.error (.error errTooLong)) { t with bytes := rest } := by
  refine runs_readHunk_head hb hn ?_
  rw [readMsg, if_pos hbig]
  exact runs_throw

lemma runs_readHunk_short (hb : t.bytes.length < 5) :
    Runs readHunk t (.error (.error (shortRead t.bytes t.readErr))) { t with bytes := [] } :=
  (runs_readFull_short hb).mapErr_error.bind_error

lemma runs_readHunk_cut (hb : t.bytes = flag :: (putBE 4 n ++ rest)) (hfit : n ≤ maxMsgLen)
    (hcut : rest.length < n) :
    Runs readHunk t (.error (.error (shortRead rest t.readErr))) { t with bytes := [] } := by
  refine runs_readHunk_head hb (by rw [maxMsgLen] at hfit; omega) ?_
  rw [readMsg, if_neg (by omega)]
  have hread := runs_readFull_short (t := { t with bytes := rest }) hcut
  exact hread.mapErr_error.bind_error

end

lemma exists_head {bs : Str} (h : 5 ≤ bs.length) :
    ∃ flag n rest, bs = flag :: (putBE 4 n ++ rest) ∧ n < 2 ^ 32 := by
  obtain ⟨flag, bs, rfl⟩ := exists_cons_of_length_pos (show 0 < bs.length by omega)
  have hlen : (bs.take 4).length = 4 := by
    rw [length_cons] at h
    rw [length_take]
    omega
  have hput := putBE_beNat (bs.take 4)
  have hlt := beNat_lt (bs.take 4)
  rw [hlen] at hput hlt
  exact ⟨flag, beNat (bs.take 4), bs.drop 4, by rw [hput, take_append_drop], by omega⟩

/-- One call of `readHunk`: it takes a message, gives up a length above the
limit, or comes to the end of the stream. -/
lemma readHunk_cases (s : Stream) :
    (∃ flag msg rest, s.bytes = frame flag msg ++ rest ∧ msg.length ≤ maxMsgLen ∧
        outcome readHunk s = unhunk msg ∧ (after readHunk s).tape = { s.tape with bytes := rest }) ∨
      (∃ flag n rest, s.bytes = flag :: (putBE 4 n ++ rest) ∧ maxMsgLen < n ∧ n < 2 ^ 32 ∧
        outcome readHunk s = .error (.error errTooLong) ∧
        (after readHunk s).tape = { s.tape with bytes := rest }) ∨
      ∃ e, outcome readHunk s = .error (.error e) ∧
        (after readHunk s).tape = { s.tape with bytes := [] } := by
  by_cases hlen : s.bytes.length < 5
  · exact .inr (.inr ⟨_, simulates_readHunk.runs (runs_readHunk_short hlen)⟩)
  · obtain ⟨flag, n, rest, hb, hn⟩ := exists_head (not_lt.mp hlen)
    by_cases hbig : maxMsgLen < n
    · exact .inr (.inl ⟨flag, n, rest, hb, hbig, hn,
        simulates_readHunk.runs (runs_readHunk_tooLong hb hbig hn)⟩)
    · by_cases hcut : rest.length < n
      · exact .inr (.inr ⟨_, simulates_readHunk.runs (runs_readHunk_cut hb (not_lt.mp hbig) hcut)⟩)
      · have hmsg : (rest.take n).length = n := length_take_of_le (not_lt.mp hcut)
        have hb' : s.bytes = frame flag (rest.take n) ++ rest.drop n := by
          rw [hb, frame, hmsg, cons_append, append_assoc, take_append_drop]
        exact .inl ⟨flag, rest.take n, rest.drop n, hb', by omega,
          simulates_readHunk.runs (runs_readHunk_frame hb' (by omega))⟩

/-- The reader after `k` calls of `readHunk`. -/
def reader (k : Nat) (s : Stream) : Stream :=
  (after (readHunk : FailState Fault Stream Str))^[k] s

lemma reader_succ (k : Nat) (s : Stream) : reader (k + 1) s = after readHunk (reader k s) :=
  Function.iterate_succ_apply' _ k s

lemma lt_of_fits {msg : Str} (h : msg.length ≤ maxMsgLen) : msg.length < 2 ^ 63 :=
  lt_of_le_of_lt h (by decide)

lemma not_overflows_nil : ¬ Overflows [] := nofun

lemma carries_of_readHunk {s : Stream} {data : Str} (h : outcome readHunk s = .ok data) :
    ∃ flag msg, s.bytes = frame flag msg ++ (after readHunk s).bytes ∧
      (after readHunk s).readErr = s.readErr ∧ Carries msg data := by
  rcases readHunk_cases s with ⟨flag, msg, rest, hb, hfit, hout, haft⟩ | ⟨_, _, _, -, -, -, hout, -⟩ |
    ⟨_, hout, -⟩
  · refine ⟨flag, msg, ?_, congrArg Tape.readErr haft, ?_⟩
    · rw [show (after readHunk s).bytes = rest from congrArg Tape.bytes haft]
      exact hb
    · rcases unhunk_cases msg (lt_of_fits hfit) with ⟨d, hd, hok⟩ | ⟨-, hbad⟩ | ⟨e, herr⟩
      · rw [hout, hok] at h
        cases h
        exact hd
      · rw [hout, hbad] at h
        cases h
      · rw [hout, herr] at h
        cases h
  · rw [hout] at h
    cases h
  · rw [hout] at h
    cases h

/-- Without an overlong message the call returns, and none is to come. -/
lemma readHunk_returns {s : Stream} (h : ¬ Overflows s.bytes) :
    Returns (outcome readHunk s) ∧ ¬ Overflows (after readHunk s).bytes := by
  rcases readHunk_cases s with ⟨flag, msg, rest, hb, hfit, hout, haft⟩ |
    ⟨flag, n, rest, hb, hbig, hn, hout, haft⟩ | ⟨e, hout, haft⟩
  · have hrest : (after readHunk s).bytes = rest := congrArg Tape.bytes haft
    rw [hb] at h
    rw [hout, hrest]
    refine ⟨?_, fun hover => h (.next hfit hover)⟩
    rcases unhunk_cases msg (lt_of_fits hfit) with ⟨d, -, hok⟩ | ⟨hlong, -⟩ | ⟨e, herr⟩
    · rw [hok]
      exact returns_ok d
    · exact absurd (.here hfit hlong) h
    · rw [herr]
      exact returns_error e
  · have hrest : (after readHunk s).bytes = rest := congrArg Tape.bytes haft
    rw [hb] at h
    rw [hout, hrest]
    exact ⟨returns_error _, fun hover => h (.skip hbig hn hover)⟩
  · have hrest : (after readHunk s).bytes = [] := congrArg Tape.bytes haft
    rw [hout, hrest]
    exact ⟨returns_error e, not_overflows_nil⟩

lemma reader_returns {s : Stream} (h : ¬ Overflows s.bytes) (k : Nat) :
    Returns (outcome readHunk (reader k s)) := by
  induction k generalizing s with
  | zero => exact (readHunk_returns h).1
  | succ k ih => exact ih (readHunk_returns h).2

lemma exists_panic {bs : Str} (h : Overflows bs) :
    ∀ {s : Stream}, s.bytes = bs → ∃ k, outcome readHunk (reader k s) = .error .panic := by
  induction h with
  | here hfit hlong =>
    intro s hb
    have hrun := simulates_readHunk.runs (runs_readHunk_frame (t := s.tape) hb hfit)
    exact ⟨0, hrun.1.trans (unhunk_overlong hlong)⟩
  | next hfit _ ih =>
    intro s hb
    have hrun := simulates_readHunk.runs (runs_readHunk_frame (t := s.tape) hb hfit)
    obtain ⟨k, hk⟩ := ih (s := after readHunk s) (congrArg Tape.bytes hrun.2)
    exact ⟨k + 1, hk⟩
  | skip hbig hn _ ih =>
    intro s hb
    have hrun := simulates_readHunk.runs (runs_readHunk_tooLong (t := s.tape) hb hbig hn)
    obtain ⟨k, hk⟩ := ih (s := after readHunk s) (congrArg Tape.bytes hrun.2)
    exact ⟨k + 1, hk⟩

end Ntr.Transport.Grpc
