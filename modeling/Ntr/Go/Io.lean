/-
Byte streams: `io.ReadFull` and `bufio.Reader` over a connection.

* `Channel`: the operations that the protocols use of a connection. Both are
  channels, and `Stream.tape` takes each operation of the one to the operation
  of the other, so what a protocol does depends on the bytes alone and not on
  the segments they come in.
-/
import Ntr.Go.Strings
import Ntr.Lib.FailState

namespace Ntr.Go

open Lib Lib.FailState

/-- An `error` value: the two of package `io` that code compares with, the one
for readers that give nothing, and the others by their text. -/
inductive Error where
  | eof
  | unexpectedEOF
  | noProgress
  | text (msg : Str)
  deriving DecidableEq

/-- What a protocol uses of a connection. -/
class Channel (σ : Type) where
  /-- `io.ReadFull` into a buffer of the given length. -/
  readFull : Nat → FailState Error σ Str
  /-- `bufio.NewReader`: the reads from here on go through a buffer. -/
  newReader : FailState Error σ Unit
  /-- `bufio.NewReader` followed by `Peek(1)`. -/
  newReaderPeek : FailState Error σ UInt8
  /-- `Write`. -/
  write : Str → FailState Error σ Unit
  /-- A parser on the bytes to come and the error behind them: it gives its
  result and the number of bytes it takes. -/
  parse : {α : Type} → (Str → Error → Except Error (α × Nat)) → FailState Error σ α

export Channel (readFull newReader newReaderPeek write)

/-- `ReadByte` of a `bufio.Reader`: a full read of one byte. -/
def readByte {σ : Type} [Channel σ] : FailState Error σ UInt8 := do
  let b ← readFull 1
  pure (b.headD 0)

/-- `io.ReadFull` turns an end of the stream after some bytes into
`ErrUnexpectedEOF`. -/
def shortRead (got : Str) (e : Error) : Error :=
  if got = [] then e else if e = .eof then .unexpectedEOF else e

/-! ### The connection in segments -/

/-- A connection: the `bufio` readers over it, the outermost first, with the
bytes each holds; the segments its peer sends; the error that `Read` gives
after them; the error of the `n`-th `Write` to come, if it fails; and what has
been written. -/
structure Stream where
  buffers : List Str := []
  segments : List Str
  readErr : Error := .eof
  writeErr : Nat → Option Error := fun _ => none
  sent : List Str := []

/-- The buffer of a `bufio.Reader`. -/
def bufSize : Nat := 4096

/-- One `Read` of up to `n` bytes from the connection itself. -/
def readSegments (n : Nat) : List Str → Option (Str × List Str)
  | [] => none
  | [] :: segs => readSegments n segs
  | (b :: seg) :: segs =>
    let seg := b :: seg
    some (seg.take n, if seg.length ≤ n then segs else seg.drop n :: segs)

/-- One `Read` of up to `n` bytes through the buffers: what a buffer holds
first, else one `Read` below it, of its own size unless `n` is larger. -/
def readLayers (n : Nat) : List Str → List Str → Option (Str × List Str × List Str)
  | [], segs => (readSegments n segs).map fun (d, segs) => (d, [], segs)
  | b :: bufs, segs =>
    if b ≠ [] then some (b.take n, b.drop n :: bufs, segs)
    else if bufSize ≤ n then
      (readLayers n bufs segs).map fun (d, bufs, segs) => (d, [] :: bufs, segs)
    else
      (readLayers bufSize bufs segs).map fun (d, bufs, segs) =>
        (d.take n, d.drop n :: bufs, segs)

namespace Stream

def bytes (s : Stream) : Str := s.buffers.flatten ++ s.segments.flatten

/-- One `Read` of up to `n` bytes. -/
def read (s : Stream) (n : Nat) : Except Error Str × Stream :=
  match readLayers n s.buffers s.segments with
  | none => (.error s.readErr, s)
  | some (d, bufs, segs) => (.ok d, { s with buffers := bufs, segments := segs })

/-- The loop of `io.ReadFull`: `missing` bytes are to come behind `got`. A
`Read` gives at least one byte, so `missing` rounds are enough. -/
def readLoop : Nat → Nat → Str → Stream → Except Error Str × Stream
  | _, 0, got, s => (.ok got, s)
  | 0, _ + 1, _, s => (.error .noProgress, s)
  | rounds + 1, missing + 1, got, s =>
    match s.read (missing + 1) with
    | (.error e, s) => (.error (shortRead got e), s)
    | (.ok d, s) => readLoop rounds (missing + 1 - d.length) (got ++ d) s

/-- `br := bufio.NewReader(below)` and `br.Peek(1)`. -/
def peek (s : Stream) : Except Error UInt8 × Stream :=
  match readLayers bufSize s.buffers s.segments with
  | none => (.error s.readErr, { s with buffers := [] :: s.buffers })
  | some (d, bufs, segs) => (.ok (d.headD 0), { s with buffers := d :: bufs, segments := segs })

/-- `Write`: all or nothing. -/
def write (s : Stream) (b : Str) : Except Error Unit × Stream :=
  let later := fun n => s.writeErr (n + 1)
  match s.writeErr 0 with
  | some e => (.error e, { s with writeErr := later })
  | none => (.ok (), { s with writeErr := later, sent := s.sent ++ [b] })

end Stream

instance : Channel Stream where
  readFull n := ExceptT.mk (Stream.readLoop n n [])
  newReader := FailState.step fun s => ((), { s with buffers := [] :: s.buffers })
  newReaderPeek := ExceptT.mk Stream.peek
  write b := ExceptT.mk fun s => s.write b
  parse p := ExceptT.mk fun s =>
    match p s.bytes s.readErr with
    | .error e => (.error e, s)
    | .ok (a, n) => (.ok a, (Stream.readLoop n n [] s).2)

/-! ### The connection as its bytes -/

/-- A connection without its segments: the bytes to come and the error behind
them, and its writing side. -/
structure Tape where
  bytes : Str
  readErr : Error
  writeErr : Nat → Option Error
  sent : List Str

namespace Tape

/-- `io.ReadFull`: too few bytes are all read. -/
def readFull (t : Tape) (n : Nat) : Except Error Str × Tape :=
  (if n ≤ t.bytes.length then .ok (t.bytes.take n) else .error (shortRead t.bytes t.readErr),
    { t with bytes := t.bytes.drop n })

def peek (t : Tape) : Except Error UInt8 :=
  match t.bytes with
  | [] => .error t.readErr
  | b :: _ => .ok b

/-- `Write`: all or nothing. -/
def write (t : Tape) (b : Str) : Except Error Unit × Tape :=
  let later := fun n => t.writeErr (n + 1)
  match t.writeErr 0 with
  | some e => (.error e, { t with writeErr := later })
  | none => (.ok (), { t with writeErr := later, sent := t.sent ++ [b] })

end Tape

instance : Channel Tape where
  readFull n := ExceptT.mk fun t => t.readFull n
  newReader := pure ()
  newReaderPeek := ExceptT.mk fun t => (t.peek, t)
  write b := ExceptT.mk fun t => t.write b
  parse p := ExceptT.mk fun t =>
    match p t.bytes t.readErr with
    | .error e => (.error e, t)
    | .ok (a, n) => (.ok a, (t.readFull n).2)

def Stream.tape (s : Stream) : Tape := ⟨s.bytes, s.readErr, s.writeErr, s.sent⟩

/-! ### The segments do not matter -/

/-- What one `Read` of up to `n` bytes may give of `bs`: nothing at the end,
else a first part of it. -/
def Delivers (n : Nat) (bs : Str) : Option (Str × Str) → Prop
  | none => bs = []
  | some (d, rest) => d ≠ [] ∧ d.length ≤ n ∧ bs = d ++ rest

lemma delivers_take {n : Nat} (hn : 0 < n) {b : Str} (hb : b ≠ []) (rest : Str) :
    Delivers n (b ++ rest) (some (b.take n, b.drop n ++ rest)) := by
  refine ⟨?_, List.length_take_le n b, ?_⟩
  · rw [Ne, List.take_eq_nil_iff]
    exact fun h => h.elim (Nat.ne_of_gt hn) hb
  · rw [← List.append_assoc, List.take_append_drop]

lemma delivers_readSegments {n : Nat} (hn : 0 < n) : ∀ segs : List Str,
    Delivers n segs.flatten ((readSegments n segs).map fun x => (x.1, x.2.flatten))
  | [] => rfl
  | [] :: segs => by
    simpa [readSegments] using delivers_readSegments hn segs
  | (b :: seg) :: segs => by
    have h := delivers_take hn (List.cons_ne_nil b seg) segs.flatten
    by_cases hlen : (b :: seg).length ≤ n
    · rw [List.drop_eq_nil_of_le hlen, List.nil_append] at h
      simpa only [readSegments, if_pos hlen, Option.map_some, List.flatten_cons] using h
    · simpa only [readSegments, if_neg hlen, Option.map_some, List.flatten_cons] using h

/-- A part of what a buffer takes in goes to the reader, the rest stays. -/
lemma Delivers.refill {n m : Nat} (hn : 0 < n) {bs : Str} {x : Option (Str × Str)}
    (h : Delivers m bs x) : Delivers n bs (x.map fun y => (y.1.take n, y.1.drop n ++ y.2)) := by
  match x, h with
  | none, h => exact h
  | some (d, rest), ⟨hd, _, hbs⟩ =>
    rw [hbs]
    exact delivers_take hn hd rest

lemma delivers_readLayers {n : Nat} (hn : 0 < n) (segs : List Str) : ∀ bufs : List Str,
    Delivers n (bufs.flatten ++ segs.flatten)
      ((readLayers n bufs segs).map fun x => (x.1, x.2.1.flatten ++ x.2.2.flatten)) := by
  intro bufs
  induction bufs generalizing n with
  | nil =>
    have h := delivers_readSegments hn segs
    simpa [readLayers, Option.map_map, Function.comp_def] using h
  | cons b bufs ih =>
    by_cases hb : b = []
    · subst hb
      by_cases hbig : bufSize ≤ n
      · simpa [readLayers, hbig, Option.map_map, Function.comp_def] using ih hn
      · have h := (ih (n := bufSize) (by decide)).refill hn
        simpa [readLayers, hbig, Option.map_map, Function.comp_def] using h
    · have h := delivers_take hn hb (bufs.flatten ++ segs.flatten)
      simpa [readLayers, hb] using h

namespace Stream

lemma read_cases (s : Stream) {n : Nat} (hn : 0 < n) :
    (s.bytes = [] ∧ s.read n = (.error s.readErr, s)) ∨
      ∃ d s', s.read n = (.ok d, s') ∧ d ≠ [] ∧ d.length ≤ n ∧
        s.tape = { s'.tape with bytes := d ++ s'.bytes } := by
  have h := delivers_readLayers hn s.segments s.buffers
  unfold read
  cases hr : readLayers n s.buffers s.segments with
  | none =>
    rw [hr] at h
    exact .inl ⟨h, rfl⟩
  | some x =>
    obtain ⟨d, bufs, segs⟩ := x
    rw [hr] at h
    obtain ⟨hd, hlen, hbs⟩ := h
    refine .inr ⟨d, _, rfl, hd, hlen, ?_⟩
    simp only [tape, bytes, hbs]

lemma readLoop_eq : ∀ (rounds missing : Nat) (got : Str) (s : Stream), missing ≤ rounds →
    (readLoop rounds missing got s).1 =
        (if missing ≤ s.bytes.length then .ok (got ++ s.bytes.take missing)
          else .error (shortRead (got ++ s.bytes) s.readErr)) ∧
      (readLoop rounds missing got s).2.tape = { s.tape with bytes := s.bytes.drop missing }
  | _, 0, got, s, _ => by simp [readLoop, tape]
  | rounds + 1, missing + 1, got, s, h => by
    rw [readLoop]
    rcases s.read_cases (Nat.succ_pos missing) with ⟨hnil, hread⟩ | ⟨d, s', hread, hd, hlen, htape⟩
    · rw [hread]
      simp [hnil, tape]
    · rw [hread]
      have hpos : 0 < d.length := List.length_pos_iff.mpr hd
      have hbytes : s.bytes = d ++ s'.bytes := congrArg Tape.bytes htape
      have herr : s.readErr = s'.readErr := congrArg Tape.readErr htape
      have ih := readLoop_eq rounds (missing + 1 - d.length) (got ++ d) s' (by omega)
      have htake : s.bytes.take (missing + 1) = d ++ s'.bytes.take (missing + 1 - d.length) := by
        rw [hbytes, List.take_append, List.take_of_length_le hlen]
      have hdrop : s.bytes.drop (missing + 1) = s'.bytes.drop (missing + 1 - d.length) := by
        rw [hbytes, List.drop_append, List.drop_of_length_le hlen, List.nil_append]
      have hle : missing + 1 ≤ s.bytes.length ↔ missing + 1 - d.length ≤ s'.bytes.length := by
        rw [hbytes, List.length_append]
        omega
      dsimp only
      refine ⟨?_, ?_⟩
      · rw [ih.1, htake, herr, if_congr hle rfl rfl, hbytes, List.append_assoc, List.append_assoc]
      · rw [ih.2, htape, hdrop]

end Stream

section
variable {α : Type}

lemma simulates_readFull (n : Nat) :
    Simulates Stream.tape (readFull n : FailState Error Stream Str) (readFull n) := by
  intro s
  have h := Stream.readLoop_eq n n [] s le_rfl
  exact ⟨h.1, h.2⟩

lemma simulates_newReader :
    Simulates Stream.tape (newReader : FailState Error Stream Unit) newReader :=
  fun _ => ⟨rfl, rfl⟩

lemma simulates_newReaderPeek :
    Simulates Stream.tape (newReaderPeek : FailState Error Stream UInt8) newReaderPeek := by
  intro s
  have h := delivers_readLayers (n := bufSize) (by decide) s.segments s.buffers
  change (s.peek).1 = s.tape.peek ∧ (s.peek).2.tape = s.tape
  unfold Stream.peek
  cases hr : readLayers bufSize s.buffers s.segments with
  | none =>
    rw [hr] at h
    have hbs : s.tape.bytes = [] := h
    exact ⟨by rw [Tape.peek, hbs]; rfl, rfl⟩
  | some x =>
    obtain ⟨d, bufs, segs⟩ := x
    rw [hr] at h
    obtain ⟨hd, -, hbs⟩ := h
    obtain ⟨b, d, rfl⟩ := List.exists_cons_of_ne_nil hd
    have hbytes : s.tape.bytes = (b :: d) ++ (bufs.flatten ++ segs.flatten) := hbs
    refine ⟨by rw [Tape.peek, hbytes]; rfl, ?_⟩
    simp [Stream.tape, Stream.bytes, hbs]

lemma simulates_write (b : Str) :
    Simulates Stream.tape (write b : FailState Error Stream Unit) (write b) := by
  intro s
  change (s.write b).1 = (s.tape.write b).1 ∧ (s.write b).2.tape = (s.tape.write b).2
  cases h : s.writeErr 0 <;> simp [Stream.write, Tape.write, Stream.tape, Stream.bytes, h]

lemma simulates_parse (p : Str → Error → Except Error (α × Nat)) :
    Simulates Stream.tape (Channel.parse p : FailState Error Stream α) (Channel.parse p) := by
  intro s
  simp only [outcome, after, Channel.parse, ExceptT.run_mk, StateT.run, Stream.tape]
  cases p s.bytes s.readErr with
  | error e => exact ⟨rfl, rfl⟩
  | ok x => exact ⟨rfl, (Stream.readLoop_eq x.2 x.2 [] s le_rfl).2⟩

lemma simulates_readByte :
    Simulates Stream.tape (readByte : FailState Error Stream UInt8) readByte :=
  (simulates_readFull 1).bind fun _ => .pure _

end

/-! ### Single operations -/

lemma runs_readFull {t : Tape} {a rest : Str} (h : t.bytes = a ++ rest) :
    Runs (readFull a.length) t (.ok a) { t with bytes := rest } := by
  change (t.readFull a.length).1 = _ ∧ (t.readFull a.length).2 = _
  simp [Tape.readFull, h]

lemma runs_readFull_short {t : Tape} {n : Nat} (h : t.bytes.length < n) :
    Runs (readFull n) t (.error (shortRead t.bytes t.readErr)) { t with bytes := [] } := by
  change (t.readFull n).1 = _ ∧ (t.readFull n).2 = _
  rw [Tape.readFull, if_neg (by omega), List.drop_eq_nil_of_le h.le]
  exact ⟨rfl, rfl⟩

lemma Stream.runs_write {s : Stream} {b : Str} (h : s.writeErr 0 = none) :
    Runs (Channel.write b) s (.ok ())
      { s with writeErr := fun n => s.writeErr (n + 1), sent := s.sent ++ [b] } := by
  change (s.write b).1 = _ ∧ (s.write b).2 = _
  simp [Stream.write, h]

/-! ### Success on a tape -/

def Tape.wrote (t : Tape) (b : Str) : Tape :=
  { t with writeErr := fun n => t.writeErr (n + 1), sent := t.sent ++ [b] }

@[simp]
lemma Tape.wrote_bytes (t : Tape) (b : Str) : (t.wrote b).bytes = t.bytes := rfl

@[simp]
lemma Tape.wrote_writeErr (t : Tape) (b : Str) (n : Nat) :
    (t.wrote b).writeErr n = t.writeErr (n + 1) := rfl

section
variable {α : Type} {t : Tape}

lemma succeeds_readFull {n : Nat} {P : Str → Tape → Prop} : Succeeds (readFull n) t P ↔
    ∃ a rest, t.bytes = a ++ rest ∧ a.length = n ∧ P a { t with bytes := rest } := by
  change (∃ a, (t.readFull n).1 = .ok a ∧ P a (t.readFull n).2) ↔ _
  constructor
  · rintro ⟨a, ha, hP⟩
    by_cases hn : n ≤ t.bytes.length
    · simp only [Tape.readFull, if_pos hn, Except.ok.injEq] at ha hP
      subst ha
      exact ⟨_, _, (List.take_append_drop n t.bytes).symm, List.length_take_of_le hn, hP⟩
    · simp [Tape.readFull, hn] at ha
  · rintro ⟨a, rest, hbs, rfl, hP⟩
    have hle : a.length ≤ t.bytes.length := by simp [hbs]
    refine ⟨a, ?_, ?_⟩
    · simp [Tape.readFull, hbs]
    · simpa [Tape.readFull, hbs] using hP

lemma succeeds_readByte {P : UInt8 → Tape → Prop} :
    Succeeds readByte t P ↔ ∃ b rest, t.bytes = b :: rest ∧ P b { t with bytes := rest } := by
  rw [readByte, succeeds_bind, succeeds_readFull]
  constructor
  · rintro ⟨a, rest, hbs, ha, hP⟩
    obtain ⟨b, rfl⟩ := List.length_eq_one_iff.mp ha
    exact ⟨b, rest, hbs, succeeds_pure.mp hP⟩
  · rintro ⟨b, rest, hbs, hP⟩
    exact ⟨[b], rest, hbs, rfl, succeeds_pure.mpr hP⟩

lemma succeeds_newReader {P : Unit → Tape → Prop} : Succeeds newReader t P ↔ P () t :=
  succeeds_pure

lemma succeeds_newReaderPeek {P : UInt8 → Tape → Prop} :
    Succeeds newReaderPeek t P ↔ ∃ b rest, t.bytes = b :: rest ∧ P b t := by
  change (∃ a, t.peek = .ok a ∧ P a t) ↔ _
  unfold Tape.peek
  cases t.bytes <;> simp

lemma succeeds_write {b : Str} {P : Unit → Tape → Prop} :
    Succeeds (write b) t P ↔ t.writeErr 0 = none ∧ P () (t.wrote b) := by
  change (∃ a : Unit, (t.write b).1 = .ok a ∧ P a (t.write b).2) ↔ _
  rw [Unique.exists_iff]
  unfold Tape.write
  cases t.writeErr 0 <;> simp [Tape.wrote]

lemma succeeds_parse {p : Str → Error → Except Error (α × Nat)} {P : α → Tape → Prop} :
    Succeeds (Channel.parse p) t P ↔
      ∃ a n, p t.bytes t.readErr = .ok (a, n) ∧ P a { t with bytes := t.bytes.drop n } := by
  simp only [Succeeds, outcome, after, Channel.parse, ExceptT.run_mk, StateT.run]
  cases p t.bytes t.readErr with
  | error e => simp
  | ok x =>
    obtain ⟨a, n⟩ := x
    simp [Tape.readFull]

end

end Ntr.Go
